import Freshen.Proofs.LoadedTrees

/-!
Where the node stands that a program is refused for. A node that cannot be written is reported by
its own type and byte range, with one exception: what an object literal cannot have is reported by
its own type and the byte range of the object.
-/

namespace Freshen

namespace Json

def offset (json : Json) (name : String) : Nat := ((json.get? name).bind nat?).getD 0

end Json

/-- The byte range is that of a node, as far as 32 bits can hold it. -/
def Span.Covers (span : Span) (json : Json) : Prop :=
  span.start.toNat = json.offset "start" % 0x100000000 ∧
    span.stop.toNat = json.offset "end" % 0x100000000

theorem Json.span_covers (json : Json) : json.span.Covers json :=
  ⟨UInt32.toNat_ofNat', UInt32.toNat_ofNat'⟩

example : (Json.object [("start", .whole 0x100000002), ("end", .double ⟨0⟩)]).span = ⟨2, 0⟩ := by
  decide

namespace Estree

/-- Names that stand for nodes of other types: functions, literals and properties. -/
def ownLabels : List String :=
  ["AsyncFunction", "GeneratorFunction", "BigIntLiteral", "MethodDefinition"]

/-- The node that keeps an item of an object literal from being a property: the item itself, or its
key. -/
inductive RefusedFor (item : Json) : Json → Prop
  | self {kind : String} : item.kind? = some kind → kind ≠ "Property" → RefusedFor item item
  | key {key : Json} {kind : String} :
    item.kind? = some "Property" → item.child? "kind" = some (.string "init") →
      item.flag "method" = false → item.flag "computed" = false →
      item.child? "key" = some key → key.kind? = some kind → kind ≠ "Identifier" →
      kind ≠ "Literal" → RefusedFor item key

/-- The node that an object literal is refused for. It belongs to the first item that is no
property. -/
def ObjectRefusedFor (object node : Json) : Prop :=
  object.kind? = some "ObjectExpression" ∧
    ∃ before item after, object.child? "properties" = some (.array (before ++ item :: after)) ∧
      (∀ other ∈ before, ∃ property, PropertyRule other property) ∧ RefusedFor item node

section

variable {json : Json} {α β : Type} {kind : String}

theorem run_bind_eq_refused {first : ExceptT String Load α} {next : α → ExceptT String Load β} :
    (first >>= next).run = .ok (.error kind) ↔
      first.run = .ok (.error kind) ∨
        ∃ value, first.run = .ok (.ok value) ∧ (next value).run = .ok (.error kind) := by
  rw [ExceptT.run_bind, bind_eq_ok]
  constructor
  · rintro ⟨outcome, read, rest⟩
    cases outcome with
    | ok value => exact .inr ⟨value, read, rest⟩
    | error other =>
        cases rest
        exact .inl read
  · rintro (refused | ⟨value, read, rest⟩)
    · exact ⟨.error kind, refused, rfl⟩
    · exact ⟨.ok value, read, rest⟩

theorem run_lift_ne_refused {first : Load α} :
    (liftM first : ExceptT String Load α).run = .ok (.error kind) ↔ False := by
  have lifted : (liftM first : ExceptT String Load α).run = Except.ok <$> first := rfl
  rw [lifted, map_eq_pure_bind, bind_eq_ok]
  simp [pure_eq_ok]

theorem run_pure_ne_refused {value : α} :
    (pure value : ExceptT String Load α).run = .ok (.error kind) ↔ False := by
  simp [pure_eq_ok]

theorem run_throw_eq_refused {other : String} :
    (throwThe String other : ExceptT String Load α).run = .ok (.error kind) ↔ other = kind := by
  have thrown : (throwThe String other : ExceptT String Load α).run = .ok (.error other) := rfl
  simp [thrown]

theorem run_fail_ne_refused {cause : LoadError} :
    (throwThe LoadError cause : ExceptT String Load α).run = .ok (.error kind) ↔ False := by
  have thrown : (throwThe LoadError cause : ExceptT String Load α).run = .error cause := rfl
  simp [thrown]

theorem run_mapM_eq_refused {read : α → ExceptT String Load β} {items : List α} :
    (items.mapM read).run = .ok (.error kind) ↔
      ∃ before item after, items = before ++ item :: after ∧
        (∀ other ∈ before, ∃ result, (read other).run = .ok (.ok result)) ∧
        (read item).run = .ok (.error kind) := by
  induction items with
  | nil => simp [pure_eq_ok]
  | cons first rest ih =>
      rw [List.mapM_cons]
      simp only [run_bind_eq_refused, run_pure_ne_refused, and_false, exists_false, or_false, ih]
      constructor
      · rintro (refused | ⟨value, done, before, item, after, rfl, earlier, refused⟩)
        · exact ⟨[], first, rest, rfl, by simp, refused⟩
        · refine ⟨first :: before, item, after, rfl, ?_, refused⟩
          exact List.forall_mem_cons.mpr ⟨⟨value, done⟩, earlier⟩
      · rintro ⟨before, item, after, split, earlier, refused⟩
        cases before with
        | nil =>
            obtain ⟨rfl, rfl⟩ := List.cons.inj split
            exact .inl refused
        | cons head before =>
            obtain ⟨rfl, rfl⟩ := List.cons.inj split
            obtain ⟨⟨value, done⟩, earlier⟩ := List.forall_mem_cons.mp earlier
            exact .inr ⟨value, done, before, item, after, rfl, earlier, refused⟩

theorem propertyName_refused (refused : (propertyName json).run = .ok (.error kind)) :
    json.kind? = some kind ∧ kind ≠ "Identifier" ∧ kind ≠ "Literal" := by
  rw [propertyName] at refused
  simp only [run_bind_eq_refused, run_lift_ne_refused, false_or, run_lift_eq_ok,
    Node.of_eq_ok] at refused
  obtain ⟨⟨other⟩, typed, rest⟩ := refused
  split at rest
  next same =>
    simp only [run_bind_eq_refused, run_lift_ne_refused, run_pure_ne_refused, and_false,
      exists_false, or_false] at rest
  next same =>
    simp only [run_bind_eq_refused, run_lift_ne_refused, false_or] at rest
    obtain ⟨expr, _, rest⟩ := rest
    split at rest
    · exact (run_pure_ne_refused.mp rest).elim
    · exact (run_pure_ne_refused.mp rest).elim
    · exact (run_fail_ne_refused.mp rest).elim
  next noIdentifier noLiteral =>
    obtain rfl := run_throw_eq_refused.mp rest
    exact ⟨typed, noIdentifier, noLiteral⟩

theorem property_refused (refused : (property json).run = .ok (.error kind)) :
    kind = "MethodDefinition" ∨ ∃ node, RefusedFor json node ∧ node.values ⊆ json.values ∧
      node.kind? = some kind := by
  rw [property] at refused
  simp only [run_bind_eq_refused, run_lift_ne_refused, false_or, run_lift_eq_ok, Node.of_eq_ok,
    Node.flag_eq] at refused
  obtain ⟨⟨other⟩, typed, rest⟩ := refused
  split at rest
  next different =>
    simp only [run_bind_eq_refused, run_throw_eq_refused, run_throw_ne_ok, false_and,
      exists_false, or_false] at rest
    obtain rfl := rest
    exact .inr ⟨json, .self typed different, List.Subset.refl _, typed⟩
  next same =>
    obtain rfl := Decidable.not_not.mp same
    simp only [run_bind_eq_refused, run_lift_ne_refused, false_or, run_lift_eq_ok,
      Node.string_eq_ok] at rest
    obtain ⟨word, init, rest⟩ := rest
    split at rest
    next special =>
      simp only [run_bind_eq_refused, run_throw_eq_refused, run_throw_ne_ok, false_and,
        exists_false, or_false] at rest
      exact .inl rest.symm
    next plain =>
      have ordinary : word = "init" ∧ json.flag "method" = false := by simpa using plain
      obtain ⟨rfl, noMethod⟩ := ordinary
      simp only [run_bind_eq_refused, run_lift_ne_refused, false_or, run_lift_eq_ok,
        Node.field_eq_ok] at rest
      obtain ⟨key, found, rest⟩ := rest
      -- Only a written key can be refused: the rest of a property is read as expressions.
      cases computed : json.flag "computed" with
      | true =>
          simp only [computed, if_true, run_bind_eq_refused, run_lift_ne_refused,
            run_pure_ne_refused, and_false, exists_false, or_false] at rest
      | false =>
          simp only [computed, Bool.false_eq_true, if_false, run_bind_eq_refused,
            run_lift_ne_refused, run_pure_ne_refused, and_false, exists_false, or_false] at rest
          obtain ⟨named, noIdentifier, noLiteral⟩ := propertyName_refused rest
          have refused : RefusedFor json key.val :=
            .key typed init noMethod computed found named noIdentifier noLiteral
          exact .inr ⟨key.val, refused, Json.values_subset_of_child? found, named⟩

theorem properties_refused {items : List Json} (typed : json.kind? = some "ObjectExpression")
    (found : json.child? "properties" = some (.array items))
    (refused : (items.mapM property).run = .ok (.error kind)) :
    kind = "MethodDefinition" ∨
      ∃ node ∈ json.values, node.kind? = some kind ∧ ObjectRefusedFor json node := by
  obtain ⟨before, item, after, rfl, earlier, refused⟩ := run_mapM_eq_refused.mp refused
  refine (property_refused refused).imp_right ?_
  rintro ⟨node, refusedFor, subset, named⟩
  have inside : item.values ⊆ json.values := Json.values_subset_of_item found (by simp)
  have properties : ∀ other ∈ before, ∃ property, PropertyRule other property := by
    intro other among
    obtain ⟨property, done⟩ := earlier other among
    exact ⟨property, property_eq_ok.mp done⟩
  exact ⟨node, inside (subset node.self_mem_values), named, typed, before, item, after, found,
    properties, refusedFor⟩

theorem functionFlavor_mem_ownLabels {node : Node json} {flavor : String}
    (marked : functionFlavor node = some flavor) : flavor ∈ ownLabels := by
  simp only [functionFlavor] at marked
  split_ifs at marked <;> cases marked <;> decide

/-- A node inside `json` that a cause names. The byte range that is given with it is that of the
node, but that of the object if the node is what an object literal is refused for. -/
def Reported (json : Json) (cause : Unsupported) (node : Json) : Prop :=
  node ∈ json.values ∧ node.kind? = some cause.kind ∧
    (cause.span.Covers node ∨
      ∃ object ∈ json.values, ObjectRefusedFor object node ∧ cause.span.Covers object)

theorem Reported.mono {inner node : Json} {cause : Unsupported}
    (reported : Reported inner cause node) (subset : inner.values ⊆ json.values) :
    Reported json cause node := by
  obtain ⟨inside, named, place⟩ := reported
  refine ⟨subset inside, named, place.imp_right ?_⟩
  rintro ⟨object, among, rest⟩
  exact ⟨object, subset among, rest⟩

theorem ExprRule.reported {span : Span} (rule : ExprRule json (.unsupported kind span))
    (typed : kind ∉ ownLabels) : ∃ node, Reported json ⟨kind, span⟩ node := by
  cases rule with
  | marked _ marked => exact absurd (functionFlavor_mem_ownLabels marked) typed
  | literal _ rule =>
      cases rule with
      | bigint => exact absurd (by decide) typed
  | refusedObject object found refused =>
      rcases properties_refused object found refused with rfl | ⟨node, inside, named, refusedFor⟩
      · exact absurd (by decide) typed
      · have place : ObjectRefusedFor json node ∧ json.span.Covers json :=
          ⟨refusedFor, json.span_covers⟩
        exact ⟨node, inside, named, .inr ⟨json, json.self_mem_values, place⟩⟩
  | @refusedMember property _ _ _ found named _ =>
      have inside := Json.values_subset_of_child? found property.self_mem_values
      exact ⟨property, inside, named, .inl property.span_covers⟩
  | optionalCall named | other named =>
      exact ⟨json, json.self_mem_values, named, .inl json.span_covers⟩

theorem StmtRule.reported {span : Span} (rule : StmtRule json (.unsupported kind span))
    (typed : kind ∉ ownLabels) : ∃ node, Reported json ⟨kind, span⟩ node := by
  cases rule with
  | marked _ marked => exact absurd (functionFlavor_mem_ownLabels marked) typed
  | labelled named | other named =>
      exact ⟨json, json.self_mem_values, named, .inl json.span_covers⟩

end

theorem ReadAs.reported {json : Json} {fragment : Fragment} {cause : Unsupported}
    (read : ReadAs json fragment) (unsupported : fragment.unsupported? = some cause)
    (typed : cause.kind ∉ ownLabels) : ∃ node, Reported json cause node := by
  cases fragment with
  | stmt stmt =>
      cases stmt with
      | unsupported kind span =>
          obtain rfl := Option.some.inj unsupported
          exact (stmt_eq_ok.mp read).reported typed
      | _ => simp [Fragment.unsupported?] at unsupported
  | expr expr =>
      cases expr with
      | unsupported kind span =>
          obtain rfl := Option.some.inj unsupported
          exact (expr_eq_ok.mp read).reported typed
      | _ => simp [Fragment.unsupported?] at unsupported
  | program | group | declarator | property => simp [Fragment.unsupported?] at unsupported

end Estree

/-- A refusal names a node that the program was read from, unless the name is one of the reader's
own. It gives the offsets of that node as far as 32 bits hold them, or those of the object literal
that cannot have the node as a property or key. -/
theorem refused_node_reported {json : Json} {program : Program} {style : Style}
    {cause : Unsupported} (read : Estree.program json = .ok program)
    (failed : program.transform style = .error cause) (typed : cause.kind ∉ Estree.ownLabels) :
    ∃ node, Estree.Reported json cause node := by
  have whole : Estree.ReadAs json (.program program) := read
  have offends : Fragment.Offends cause (.program program) := mem_offenders_of_transform failed
  obtain ⟨fragment, inside, refused⟩ := offends.found
  obtain ⟨inner, subset, read⟩ := whole.fragments inside
  rcases refused with unsupported | rfl
  · obtain ⟨node, reported⟩ := read.reported unsupported typed
    exact ⟨node, reported.mono subset⟩
  · exact absurd read.isWellFormed (by decide)

theorem refused_node_reported_private :
    let node (kind : String) (start stop : Int) (fields : List (String × Json)) : Json :=
      .object (("type", .string kind) :: ("start", .whole start) :: ("end", .whole stop) :: fields)
    let member := node "MemberExpression" 0 4
      [("object", node "Identifier" 0 1 [("name", .string "a")]),
        ("property", node "PrivateIdentifier" 2 4 [("name", .string "b")])]
    let json := node "Program" 0 5
      [("body", .array [node "ExpressionStatement" 0 5 [("expression", member)]])]
    let program : Program := ⟨[.expr (.unsupported "PrivateIdentifier" ⟨2, 4⟩) ⟨0, 5⟩], ⟨0, 5⟩⟩
    Estree.program json = .ok program ∧
      program.transform {} = .error ⟨"PrivateIdentifier", ⟨2, 4⟩⟩ ∧
      ∃ node, Estree.Reported json ⟨"PrivateIdentifier", ⟨2, 4⟩⟩ node := by
  intro node member json program
  have read : Estree.program json = .ok program := by with_unfolding_all rfl
  have failed : program.transform {} = .error ⟨"PrivateIdentifier", ⟨2, 4⟩⟩ := by decide +kernel
  exact ⟨read, failed, refused_node_reported read failed (by decide)⟩

/-- In `({...rest});` the spread is reported at the offsets of the object, where no spread is. -/
theorem refused_spread_elsewhere :
    let node (kind : String) (start stop : Int) (fields : List (String × Json)) : Json :=
      .object (("type", .string kind) :: ("start", .whole start) :: ("end", .whole stop) :: fields)
    let spread := node "SpreadElement" 2 9
      [("argument", node "Identifier" 5 9 [("name", .string "rest")])]
    let object := node "ObjectExpression" 1 10 [("properties", .array [spread])]
    let json := node "Program" 0 12
      [("body", .array [node "ExpressionStatement" 0 12 [("expression", object)]])]
    let program : Program := ⟨[.expr (.unsupported "SpreadElement" ⟨1, 10⟩) ⟨0, 12⟩], ⟨0, 12⟩⟩
    Estree.program json = .ok program ∧
      program.transform {} = .error ⟨"SpreadElement", ⟨1, 10⟩⟩ ∧
      "SpreadElement" ∉ Estree.ownLabels ∧
      ∀ node ∈ json.values, node.kind? = some "SpreadElement" →
        (node.offset "start", node.offset "end") = (2, 9) := by
  intro node spread object json program
  have read : Estree.program json = .ok program := by with_unfolding_all rfl
  have failed : program.transform {} = .error ⟨"SpreadElement", ⟨1, 10⟩⟩ := by decide +kernel
  exact ⟨read, failed, by decide, by decide +kernel⟩

end Freshen
