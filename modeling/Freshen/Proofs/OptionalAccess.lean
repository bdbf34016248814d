import Freshen.Proofs.AbsentFields
import Freshen.Proofs.ReachedNodes

/-!
The field `optional`, by which an ESTree tells `f?.()` from `f()` and `a?.b` from `a.b`. A call that
has it set is never written. On a member access it is not looked at: with or without it an access
is read alike, and so an optional one is written as a plain one.
-/

namespace Freshen

namespace Json

mutual

/-- The value with the field `optional` on every member access in it, at every depth. Of repeated
names the last one counts, so the field is put last. -/
def markMembers (mark : Bool) : Json → Json
  | array items => array (markItems mark items)
  | object members =>
    object (markFields mark members ++
      if (object members).kind? = some "MemberExpression" then [("optional", bool mark)] else [])
  | json => json

def markItems (mark : Bool) : List Json → List Json
  | [] => []
  | item :: rest => item.markMembers mark :: markItems mark rest

def markFields (mark : Bool) : List (String × Json) → List (String × Json)
  | [] => []
  | (name, value) :: rest => (name, value.markMembers mark) :: markFields mark rest

end

variable (mark : Bool)

theorem markItems_eq_map (items : List Json) :
    markItems mark items = items.map (markMembers mark) := by
  induction items with
  | nil => rfl
  | cons item rest ih => rw [markItems, ih, List.map_cons]

theorem markFields_eq_map (members : List (String × Json)) :
    markFields mark members = members.map fun member => (member.1, member.2.markMembers mark) := by
  induction members with
  | nil => rfl
  | cons member rest ih => rw [markFields, ih, List.map_cons]

theorem lookup_append (name : String) (front back : List (String × Json)) :
    lookup name (front ++ back) = (lookup name back).or (lookup name front) := by
  induction front with
  | nil => simp [lookup]
  | cons member rest ih => rw [List.cons_append, lookup, lookup, ih, Option.or_assoc]

/-- Only the field `optional` of a member access is new; what is in the other fields is marked in
turn. -/
theorem get?_markMembers (json : Json) (name : String) :
    (json.markMembers mark).get? name =
      if name = "optional" ∧ json.kind? = some "MemberExpression" then some (bool mark)
      else (json.get? name).map (markMembers mark) := by
  cases json with
  | object members =>
      rw [markMembers, get?, lookup_append, markFields_eq_map, lookup_map, get?]
      by_cases access : (object members).kind? = some "MemberExpression"
      · by_cases same : name = "optional"
        · simp [access, same, lookup]
        · simp [access, same, Ne.symm same, lookup]
      · simp [access, lookup]
  | _ => simp [markMembers, get?, kind?]

theorem isNull_markMembers (json : Json) : (json.markMembers mark).isNull = json.isNull := by
  cases json <;> simp [markMembers, isNull]

theorem get?_markMembers_of_ne (json : Json) {name : String} (other : name ≠ "optional") :
    (json.markMembers mark).get? name = (json.get? name).map (markMembers mark) := by
  rw [get?_markMembers, if_neg fun both => other both.1]

theorem child?_markMembers (json : Json) {name : String} (other : name ≠ "optional") :
    (json.markMembers mark).child? name = (json.child? name).map (markMembers mark) := by
  rw [child?, get?_markMembers_of_ne mark json other, child?]
  cases json.get? name with
  | none => rfl
  | some value => cases null : value.isNull <;> simp [Option.filter, null, isNull_markMembers]

theorem listed_markMembers (json : Json) {name : String} (other : name ≠ "optional") :
    (json.markMembers mark).listed name = (json.listed name).map (markMembers mark) := by
  rw [listed, child?_markMembers mark json other, listed]
  cases json.child? name with
  | none => rfl
  | some value =>
      cases value with
      | array items => rw [Option.map_some, markMembers, markItems_eq_map]
      | _ => rfl

theorem kind?_markMembers (json : Json) : (json.markMembers mark).kind? = json.kind? := by
  rw [kind?, get?_markMembers_of_ne mark json (by decide), kind?]
  cases json.get? "type" with
  | none => rfl
  | some value => cases value <;> rfl

end Json

namespace Estree

theorem alike_markMembers (mark : Bool) :
    Alike (fun marked json => marked = json.markMembers mark) fun _ => True := by
  refine .of_change ?_ ?_ ?_ (fun json _ counts => json.child?_markMembers mark counts) ?_
  · intro json atom
    cases json with
    | array | object => simp [Json.height] at atom
    | null | bool | whole | double | string => rfl
  · intro items
    rw [Json.markMembers, Json.markItems_eq_map]
  · exact fun members => ⟨_, rfl⟩
  · intro json call
    have plain : (json.markMembers mark).get? "optional" =
        (json.get? "optional").map (Json.markMembers mark) := by
      rw [Json.get?_markMembers, if_neg (by simp [call])]
    rw [Bool.eq_iff_iff, Json.flag_eq_true, Json.flag_eq_true, plain]
    cases json.get? "optional" with
    | none => simp
    | some value => cases value <;> simp [Json.markMembers]

def Field.name : Field → String
  | one name _ | each name _ | first name _ => name

theorem Site.name_ne_optional {site : Site} {field : Field} (among : field ∈ site.fields) :
    field.name ≠ "optional" := by
  have exprs (json : Json) : (exprFields json).all (·.name != "optional") = true := by
    rw [exprFields]
    split <;> rfl
  have stmts (json : Json) : (stmtFields json).all (·.name != "optional") = true := by
    rw [stmtFields]
    split <;> rfl
  suffices named : site.fields.all (·.name != "optional") = true by
    simpa using List.all_eq_true.mp named field among
  obtain ⟨role, json⟩ := site
  cases role with
  | statement => exact stmts json
  | expression => exact exprs json
  | loopHead | arrowBody =>
      rw [Site.fields]
      split
      · exact stmts json
      · exact exprs json
  | program | functionBody | declarator | property | binding | propertyName | memberName => rfl

theorem Site.marked_of_mem_children {mark : Bool} {site child : Site} {json : Json}
    (marked : site.json = json.markMembers mark) (below : child ∈ site.children) :
    ∃ inner, child.json = Json.markMembers mark inner := by
  obtain ⟨field, among, inside⟩ := List.mem_flatMap.mp below
  cases field with
  | one name role =>
      have counts : name ≠ "optional" := Site.name_ne_optional among
      obtain ⟨value, found, rfl⟩ := List.mem_map.mp inside
      rw [Option.mem_toList, marked, Json.child?_markMembers mark json counts] at found
      obtain ⟨inner, _, rfl⟩ := Option.map_eq_some_iff.mp found
      exact ⟨inner, rfl⟩
  | each name role =>
      have counts : name ≠ "optional" := Site.name_ne_optional among
      obtain ⟨value, found, rfl⟩ := List.mem_map.mp inside
      rw [marked, Json.listed_markMembers mark json counts] at found
      obtain ⟨inner, _, rfl⟩ := List.mem_map.mp (List.mem_filter.mp found).1
      exact ⟨inner, rfl⟩
  | first name role =>
      have counts : name ≠ "optional" := Site.name_ne_optional among
      obtain ⟨value, found, rfl⟩ := List.mem_map.mp inside
      rw [marked, Json.listed_markMembers mark json counts] at found
      obtain ⟨inner, _, rfl⟩ := List.mem_map.mp (List.mem_of_head? (Option.mem_toList.mp found))
      exact ⟨inner, rfl⟩

theorem Site.marked_of_reaches {mark : Bool} {json : Json} {role : Role} {site : Site}
    (reached : Site.Reaches ⟨role, json.markMembers mark⟩ site) :
    ∃ inner, site.json = Json.markMembers mark inner := by
  induction reached with
  | refl => exact ⟨json, rfl⟩
  | tail _ step ih =>
      obtain ⟨inner, marked⟩ := ih
      exact marked_of_mem_children marked step

def Role.isExpression : Role → Bool
  | expression | loopHead | arrowBody => true
  | _ => false

theorem Site.Supported.not_optional {site : Site} (supported : site.Supported)
    (read : site.role.isExpression = true) (call : site.json.kind? = some "CallExpression") :
    site.json.get? "optional" ≠ some (.bool true) := by
  obtain ⟨role, json⟩ := site
  cases role with
  | expression => exact SupportedExpr.call supported call
  | loopHead | arrowBody =>
      rcases supported with typed | inner
      · simp [call] at typed
      · exact inner.call call
  | program | statement | functionBody | declarator | property | binding | propertyName
  | memberName => cases read

end Estree

/-- Of the two kinds of nodes with the field `optional`, it counts on calls only. Member accesses
may all have it set or all have it cleared: the same program is read, or the same fault found, so
that an optional access is written as a plain one. Where a program is read and written, no call in
it has the field set. -/
theorem optional_members_read_as_plain (json : Json) (mark : Bool) :
    Estree.program (json.markMembers mark) = Estree.program json ∧
      (∀ site, Estree.Site.Reaches ⟨.program, json.markMembers mark⟩ site →
        site.json.kind? = some "MemberExpression" →
        site.json.get? "optional" = some (.bool mark)) ∧
      ∀ program style text, Estree.program json = .ok program →
        program.transform style = .ok text →
        ∀ site, Estree.Site.Reaches ⟨.program, json⟩ site → site.role.isExpression = true →
          site.json.kind? = some "CallExpression" →
          site.json.get? "optional" ≠ some (.bool true) := by
  refine ⟨((Estree.alike_markMembers mark).program rfl).eq, ?_, ?_⟩
  · intro site reached access
    obtain ⟨inner, marked⟩ := Estree.Site.marked_of_reaches reached
    rw [marked, Json.kind?_markMembers] at access
    rw [marked, Json.get?_markMembers, if_pos ⟨rfl, access⟩]
  · intro program style text read written site reached role call
    have clean : Estree.Site.Clean ⟨.program, json⟩ :=
      ⟨program, read, offenders_eq_nil_of_transform written⟩
    exact (clean.reached reached).supported.not_optional role call

theorem optional_members_read_as_plain_argument :
    let node (kind : String) (fields : List (String × Json)) : Json :=
      .object (("type", .string kind) :: fields)
    let ident (name : String) := node "Identifier" [("name", .string name)]
    let access := node "MemberExpression" [("object", ident "a"), ("property", ident "b")]
    let call := node "CallExpression"
      [("callee", ident "f"), ("arguments", .array [access]), ("optional", .bool false)]
    let json := node "Program"
      [("body", .array [node "ExpressionStatement" [("expression", call)]])]
    let program : Program :=
      ⟨[.expr (.call (.ident "f" {}) [.member (.ident "a" {}) "b" {}] {}) {}], {}⟩
    Estree.program json = .ok program ∧ program.transform {} = .ok "f(a.b);\n" ∧
      Estree.program (json.markMembers true) = .ok program ∧
      Estree.Site.Reaches ⟨.program, json.markMembers true⟩
        ⟨.expression, access.markMembers true⟩ ∧
      (access.markMembers true).get? "optional" = some (.bool true) ∧
      Estree.Site.Reaches ⟨.program, json⟩ ⟨.expression, call⟩ ∧
      call.get? "optional" ≠ some (.bool true) := by
  intro node ident access call json program
  have read : Estree.program json = .ok program := by with_unfolding_all rfl
  have written : program.transform {} = .ok "f(a.b);\n" := by decide +kernel
  have reached : Estree.Site.Reaches ⟨.program, json⟩ ⟨.expression, call⟩ :=
    .head List.mem_cons_self (.single List.mem_cons_self)
  have marked : Estree.Site.Reaches ⟨.program, json.markMembers true⟩
      ⟨.expression, access.markMembers true⟩ :=
    .head List.mem_cons_self (.head List.mem_cons_self
      (.single (List.mem_cons_of_mem _ List.mem_cons_self)))
  obtain ⟨same, set, unset⟩ := optional_members_read_as_plain json true
  exact ⟨read, written, same.trans read, marked, set _ marked rfl, reached,
    unset program {} _ read written _ reached rfl rfl⟩

/-- The access `a?.b`, as a statement of its own, is read and is written as `a.b`. -/
theorem optional_member_written_as_plain :
    let node (kind : String) (start stop : Int) (fields : List (String × Json)) : Json :=
      .object (("type", .string kind) :: ("start", .whole start) :: ("end", .whole stop) :: fields)
    let access := node "MemberExpression" 0 4
      [("object", node "Identifier" 0 1 [("name", .string "a")]),
        ("property", node "Identifier" 3 4 [("name", .string "b")]), ("computed", .bool false),
        ("optional", .bool true)]
    let json := node "Program" 0 5
      [("body", .array [node "ExpressionStatement" 0 5 [("expression", access)]])]
    let program : Program :=
      ⟨[.expr (.member (.ident "a" ⟨0, 1⟩) "b" ⟨0, 4⟩) ⟨0, 5⟩], ⟨0, 5⟩⟩
    Estree.program json = .ok program ∧ program.transform {} = .ok "a.b;\n" ∧
      Estree.Site.Reaches ⟨.program, json⟩ ⟨.expression, access⟩ ∧
      access.kind? = some "MemberExpression" ∧ access.get? "optional" = some (.bool true) := by
  intro node access json program
  have read : Estree.program json = .ok program := by with_unfolding_all rfl
  have reached : Estree.Site.Reaches ⟨.program, json⟩ ⟨.expression, access⟩ :=
    .head List.mem_cons_self (.single List.mem_cons_self)
  exact ⟨read, by decide +kernel, reached, rfl, rfl⟩

end Freshen
