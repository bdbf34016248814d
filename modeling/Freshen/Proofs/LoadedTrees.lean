import Freshen.Proofs.AgreeingReadings
import Freshen.Proofs.Fragments
import Freshen.Proofs.Rounding

/-!
What a program has that was read from JSON. Every fragment of it was read from some value inside
that JSON, so it is enough to look at the rules one by one: groups have declarators, numbers are
finite, and assignments have targets that can stand there.
-/

namespace Freshen

namespace Json

mutual

/-- The values inside a value, itself included. Of repeated names only the last one counts. -/
def values : Json → List Json
  | array items => array items :: itemsValues items
  | object members => object members :: membersValues members
  | json => [json]

def itemsValues : List Json → List Json
  | [] => []
  | item :: rest => item.values ++ itemsValues rest

def membersValues : List (String × Json) → List Json
  | [] => []
  | (name, value) :: rest =>
    (if (lookup name rest).isSome then [] else value.values) ++ membersValues rest

end

theorem self_mem_values (json : Json) : json ∈ json.values := by
  cases json <;> simp [values]

theorem values_subset_itemsValues {item : Json} {items : List Json} (present : item ∈ items) :
    item.values ⊆ itemsValues items := by
  induction items with
  | nil => simp at present
  | cons first rest ih =>
      rw [itemsValues]
      rcases List.mem_cons.mp present with rfl | present
      · exact List.subset_append_left _ _
      · exact List.Subset.trans (ih present) (List.subset_append_right _ _)

theorem values_subset_membersValues {name : String} {value : Json}
    {members : List (String × Json)} (found : lookup name members = some value) :
    value.values ⊆ membersValues members := by
  induction members with
  | nil => simp [lookup] at found
  | cons member rest ih =>
      obtain ⟨key, first⟩ := member
      rw [membersValues]
      simp only [lookup, Option.or_eq_some_iff] at found
      rcases found with later | ⟨missing, here⟩
      · exact List.Subset.trans (ih later) (List.subset_append_right _ _)
      · split at here
        next same =>
          obtain rfl := same
          obtain rfl := Option.some.inj here
          rw [missing]
          exact List.subset_append_left _ _
        next => simp at here

theorem values_subset_of_get? {json value : Json} {name : String}
    (found : json.get? name = some value) : value.values ⊆ json.values := by
  cases json with
  | object members =>
      rw [values]
      exact List.Subset.trans (values_subset_membersValues found) (List.subset_cons_self _ _)
  | _ => simp [get?] at found

theorem values_subset_of_child? {json value : Json} {name : String}
    (found : json.child? name = some value) : value.values ⊆ json.values :=
  values_subset_of_get? (get?_of_child? found)

theorem values_subset_of_item {json item : Json} {items : List Json} {name : String}
    (found : json.child? name = some (.array items)) (present : item ∈ items) :
    item.values ⊆ json.values := by
  have among : item.values ⊆ (array items).values :=
    List.subset_cons_of_subset _ (values_subset_itemsValues present)
  exact List.Subset.trans among (values_subset_of_child? found)

def numberFits : Json → Bool
  | whole value => -0x8000000000000000 ≤ value && value < 0x10000000000000000
  | double value => value.isFinite
  | _ => true

/-- Numbers as they are kept of a text: none is larger than what holds it. -/
def NumbersFit (json : Json) : Prop := ∀ inner ∈ json.values, inner.numberFits

instance (json : Json) : Decidable json.NumbersFit :=
  inferInstanceAs (Decidable (∀ inner ∈ json.values, inner.numberFits))

theorem isFinite_of_number? {json : Json} {number : Double} (fits : json.numberFits)
    (numeric : json.number? = some number) : number.isFinite := by
  cases json with
  | whole value =>
      simp only [numberFits, Bool.and_eq_true, decide_eq_true_eq] at fits
      obtain rfl := Option.some.inj numeric
      exact Double.isFinite_ofInt fits.1 fits.2
  | double value =>
      obtain rfl := Option.some.inj numeric
      exact fits
  | _ => simp [number?] at numeric

end Json

namespace Estree

def ReadAs (json : Json) : Fragment → Prop
  | .program program => Estree.program json = .ok program
  | .stmt stmt => Estree.stmt json = .ok stmt
  | .expr expr => Estree.expr json = .ok expr
  | .group decls => ∃ kind, GroupRule json kind decls
  | .declarator declarator => Estree.declarator json = .ok declarator
  | .property property => PropertyRule json property

def ReadInside (json : Json) (fragment : Fragment) : Prop :=
  ∃ inner, inner.values ⊆ json.values ∧ ReadAs inner fragment

section

variable {json : Json} {name : String} {α : Type} {read : Json → Load α}

theorem Reads.inside {result : α} (found : Reads json name read result) :
    ∃ inner, inner.values ⊆ json.values ∧ read inner = .ok result := by
  obtain ⟨value, present, done⟩ := found
  exact ⟨value, Json.values_subset_of_child? present, done⟩

theorem ReadsAny.inside {result : Option α} (found : ReadsAny json name read result) :
    ∀ value ∈ result, ∃ inner, inner.values ⊆ json.values ∧ read inner = .ok value := by
  rw [ReadsAny] at found
  cases present : json.child? name with
  | none =>
      rw [present] at found
      cases found
      simp
  | some inner =>
      rw [present] at found
      cases found with
      | some done =>
          rintro _ ⟨⟩
          exact ⟨inner, Json.values_subset_of_child? present, done⟩

theorem exists_of_mem_right {β : Type} {R : α → β → Prop} {items : List α} {results : List β}
    (related : List.Forall₂ R items results) {result : β} (inside : result ∈ results) :
    ∃ item ∈ items, R item result := by
  obtain ⟨item, present, holds⟩ := exists_of_mem_left related.flip inside
  exact ⟨item, present, holds⟩

theorem ReadsEach.inside {results : List α} (found : ReadsEach json name read results) :
    ∀ value ∈ results, ∃ inner, inner.values ⊆ json.values ∧ read inner = .ok value := by
  obtain ⟨items, present, related⟩ := found
  intro value among
  obtain ⟨item, inside, done⟩ := exists_of_mem_right related among
  exact ⟨item, Json.values_subset_of_item present inside, done⟩

theorem ReadInside.mono {inner : Json} {fragment : Fragment} (inside : ReadInside inner fragment)
    (subset : inner.values ⊆ json.values) : ReadInside json fragment := by
  obtain ⟨value, within, read⟩ := inside
  exact ⟨value, List.Subset.trans within subset, read⟩

theorem FunctionRule.inside {own : Option String} {params : List Param} {body : List Stmt}
    (rule : FunctionRule json own params body) : ∀ stmt ∈ body, ReadInside json (.stmt stmt) := by
  obtain ⟨wrapper, _, present, _, statements⟩ := rule.statements
  intro stmt among
  exact ReadInside.mono (statements.inside stmt among) (Json.values_subset_of_child? present)

theorem element_inside {elements : List (Option Expr)}
    (found : ReadsEach json name element elements) {expr : Expr} (among : some expr ∈ elements) :
    ReadInside json (.expr expr) := by
  obtain ⟨inner, subset, done⟩ := found.inside _ among
  rw [element] at done
  split at done
  next => cases pure_eq_ok.mp done
  next =>
    rw [map_eq_pure_bind, bind_eq_ok] at done
    obtain ⟨_, read, same⟩ := done
    obtain rfl := Option.some.inj (pure_eq_ok.mp same)
    exact ⟨inner, subset, read⟩

theorem ExprRule.inside {expr : Expr} (rule : ExprRule json expr) {child : Fragment}
    (below : child ∈ expr.fragments) : ReadInside json child := by
  cases rule with
  | marked | ident | refusedObject | refusedMember | optionalCall | other =>
      simp [Expr.fragments] at below
  | literal _ rule => cases rule <;> simp [Expr.fragments] at below
  | array _ elements =>
      obtain ⟨expr, among, rfl⟩ := List.mem_map.mp below
      exact element_inside elements (List.reduceOption_mem_iff.mp among)
  | object _ found properties =>
      obtain ⟨property, among, rfl⟩ := List.mem_map.mp below
      obtain ⟨item, present, rule⟩ := exists_of_mem_right properties among
      exact ⟨item, Json.values_subset_of_item found present, rule⟩
  | function _ _ _ parts =>
      obtain ⟨stmt, among, rfl⟩ := List.mem_map.mp below
      exact parts.inside stmt among
  | arrow _ _ _ present _ _ done =>
      obtain rfl := List.mem_singleton.mp below
      exact ⟨_, Json.values_subset_of_child? present, done⟩
  | arrowBlock _ _ _ present _ body =>
      obtain ⟨stmt, among, rfl⟩ := List.mem_map.mp below
      exact ReadInside.mono (body.inside stmt among) (Json.values_subset_of_child? present)
  | unary _ _ arg | update _ _ arg | member _ _ _ _ _ arg =>
      obtain rfl := List.mem_singleton.mp below
      exact arg.inside
  | binary _ _ _ left right | index _ _ right left =>
      simp only [Expr.fragments, List.mem_cons, List.not_mem_nil, or_false] at below
      rcases below with rfl | rfl
      · exact left.inside
      · exact right.inside
  | assign _ _ present _ _ done value =>
      simp only [Expr.fragments, List.mem_cons, List.not_mem_nil, or_false] at below
      rcases below with rfl | rfl
      · exact ⟨_, Json.values_subset_of_child? present, done⟩
      · exact value.inside
  | conditional _ test consequent alternate =>
      simp only [Expr.fragments, List.mem_cons, List.not_mem_nil, or_false] at below
      rcases below with rfl | rfl | rfl
      · exact test.inside
      · exact consequent.inside
      · exact alternate.inside
  | sequence _ exprs =>
      obtain ⟨expr, among, rfl⟩ := List.mem_map.mp below
      exact exprs.inside expr among
  | call _ _ callee args | new _ callee args =>
      rcases List.mem_cons.mp below with rfl | below
      · exact callee.inside
      · obtain ⟨arg, among, rfl⟩ := List.mem_map.mp below
        exact args.inside arg among

theorem LoopInitRule.inside {init : LoopInit} (rule : LoopInitRule json init) {child : Fragment}
    (below : child ∈ init.fragments) : ReadInside json child := by
  cases rule with
  | decl _ group =>
      obtain rfl := List.mem_singleton.mp below
      exact ⟨json, List.Subset.refl _, _, group⟩
  | expr _ _ read =>
      obtain rfl := List.mem_singleton.mp below
      exact ⟨json, List.Subset.refl _, read⟩

theorem StmtRule.inside {stmt : Stmt} (rule : StmtRule json stmt) {child : Fragment}
    (below : child ∈ stmt.fragments) : ReadInside json child := by
  cases rule with
  | marked | exitLoop | nextLoop | labelled | empty | other => simp [Stmt.fragments] at below
  | var _ group =>
      obtain rfl := List.mem_singleton.mp below
      exact ⟨json, List.Subset.refl _, _, group⟩
  | function _ _ _ parts =>
      obtain ⟨stmt, among, rfl⟩ := List.mem_map.mp below
      exact parts.inside stmt among
  | block _ body =>
      obtain ⟨stmt, among, rfl⟩ := List.mem_map.mp below
      exact body.inside stmt among
  | cond _ test consequent alternate =>
      simp only [Stmt.fragments, List.mem_cons, List.mem_map, Option.mem_toList] at below
      rcases below with rfl | rfl | ⟨stmt, among, rfl⟩
      · exact test.inside
      · exact consequent.inside
      · exact alternate.inside stmt among
  | @loop head _ _ _ _ init test update body =>
      simp only [Stmt.fragments, List.mem_append, List.mem_cons, List.mem_map, Option.mem_toList,
        List.not_mem_nil, or_false] at below
      rcases below with ((below | ⟨expr, among, rfl⟩) | ⟨expr, among, rfl⟩) | rfl
      · cases head with
        | none => simp [LoopInit.fragments] at below
        | some init' =>
            obtain ⟨inner, subset, done⟩ := init.inside init' rfl
            exact ((loopInit_eq_ok.mp done).inside below).mono subset
      · exact test.inside expr among
      · exact update.inside expr among
      · exact body.inside
  | whileLoop _ test body | doWhile _ body test =>
      simp only [Stmt.fragments, List.mem_cons, List.not_mem_nil, or_false] at below
      rcases below with rfl | rfl
      · exact test.inside
      · exact body.inside
  | ret _ arg =>
      obtain ⟨expr, among, rfl⟩ := List.mem_map.mp below
      exact arg.inside expr (Option.mem_toList.mp among)
  | throw _ arg | expr _ arg =>
      obtain rfl := List.mem_singleton.mp below
      exact arg.inside

end

/-- What a fragment is made of was read inside the value that it was read from. -/
theorem ReadAs.children {json : Json} {fragment child : Fragment} (read : ReadAs json fragment)
    (below : child ∈ fragment.children) : ReadInside json child := by
  cases fragment with
  | program program =>
      obtain ⟨stmt, among, rfl⟩ := List.mem_map.mp below
      exact (program_eq_ok.mp read).2.1.inside stmt among
  | stmt stmt => exact (stmt_eq_ok.mp read).inside below
  | expr expr => exact (expr_eq_ok.mp read).inside below
  | group decls =>
      obtain ⟨kind, rule⟩ := read
      obtain ⟨declarator, among, rfl⟩ := List.mem_map.mp below
      exact rule.each.inside declarator among
  | declarator declarator =>
      cases declarator with
      | mk name init span =>
          obtain ⟨expr, among, rfl⟩ := List.mem_map.mp below
          exact (declarator_eq_ok.mp read).1.value.inside expr (Option.mem_toList.mp among)
  | property property =>
      cases read with
      | named _ _ _ _ _ _ value =>
          obtain rfl := List.mem_singleton.mp below
          exact value.inside
      | computed _ _ _ _ key value =>
          simp only [Fragment.children, List.mem_cons, List.not_mem_nil, or_false] at below
          rcases below with rfl | rfl
          · exact key.inside
          · exact value.inside

theorem ReadAs.fragments {json : Json} {fragment below : Fragment} (read : ReadAs json fragment)
    (contains : fragment.Contains below) : ReadInside json below := by
  induction contains with
  | refl => exact ⟨json, List.Subset.refl _, read⟩
  | tail _ step ih =>
      obtain ⟨inner, subset, read⟩ := ih
      exact (read.children step).mono subset

end Estree

def Expr.isAssignable : Expr → Bool
  | ident .. | member .. | index .. | unsupported .. => true
  | _ => false

/-- What a fragment has to have by itself: a group has a declarator, a number is finite, and an
assignment has a target that can stand there. -/
def Fragment.isWellFormed : Fragment → Bool
  | group decls => !decls.isEmpty
  | expr (.number value _) | property (.named (.number value) _ _) => value.isFinite
  | expr (.assign _ target _ _) => target.isAssignable
  | _ => true

namespace Estree

theorem isAssignable_of_read {json : Json} {kind : String} {expr : Expr}
    (typed : json.kind? = some kind) (target : kind ∈ ["Identifier", "MemberExpression"])
    (read : Estree.expr json = .ok expr) : expr.isAssignable := by
  cases expr_eq_ok.mp read with
  | marked | ident | member | index | refusedMember | refusedObject | optionalCall | other => rfl
  | literal other | array other | object other | function other | arrow other | arrowBlock other
  | unary other | assign other | update other | conditional other | sequence other | call other
  | new other =>
      obtain rfl := Option.some.inj (typed.symm.trans other)
      exact absurd target (by decide)
  | binary other among =>
      obtain rfl := Option.some.inj (typed.symm.trans other)
      simp only [List.mem_cons, List.not_mem_nil, or_false] at among
      rcases among with rfl | rfl <;> exact absurd target (by decide)

theorem ReadAs.isWellFormed {json : Json} {fragment : Fragment} (read : ReadAs json fragment) :
    fragment.isWellFormed := by
  cases fragment with
  | program | stmt | declarator => rfl
  | group decls =>
      obtain ⟨kind, rule⟩ := read
      simpa [Fragment.isWellFormed] using rule.inhabited
  | expr expr =>
      cases expr_eq_ok.mp read with
      | literal _ rule =>
          cases rule with
          | number _ _ _ _ finite => exact finite
          | regex | bigint | null | bool | string => rfl
      | assign _ _ _ typed target done => exact isAssignable_of_read typed target done
      | _ => rfl
  | property property =>
      cases read with
      | computed => rfl
      | named _ _ _ _ _ name =>
          cases name with
          | ident | string => rfl
          | number _ rule =>
              cases rule with
              | number _ _ _ _ finite => exact finite

theorem alike_self : Alike (fun json other => json = other ∧ json.NumbersFit)
    fun cause => ∀ kind field, cause ≠ .invalidField kind field "a finite number" where
  null := fun ⟨same, _⟩ => same ▸ rfl
  string := fun ⟨same, _⟩ => same ▸ rfl
  bool := fun ⟨same, _⟩ => same ▸ rfl
  nat := fun ⟨same, _⟩ => same ▸ rfl
  number := fun ⟨same, _⟩ => same ▸ rfl
  items := by
    rintro json _ ⟨rfl, fit⟩
    cases json with
    | array items =>
        refine .some (List.forall₂_same.mpr fun item present => ⟨rfl, fun inner inside => ?_⟩)
        exact fit inner (List.mem_cons_of_mem _ (Json.values_subset_itemsValues present inside))
    | _ => exact .none
  child := by
    rintro json _ ⟨rfl, fit⟩ name _
    cases found : json.child? name with
    | none => exact .none
    | some value =>
        exact .some ⟨rfl, fun inner inside => fit inner (Json.values_subset_of_child? found inside)⟩
  optional := fun ⟨same, _⟩ _ => same ▸ rfl
  infinite := by
    rintro json _ number ⟨rfl, fit⟩ numeric infinite
    have finite := Json.isFinite_of_number? (fit json json.self_mem_values) numeric
    rw [infinite] at finite
    contradiction
  missing := by simp
  pattern := by simp
  invalid := by
    intro _ _ _ plain _ _ same
    exact plain (LoadError.invalidField.inj same).2.2

end Estree

/-- What is read is well formed everywhere: groups have declarators, in `for` heads as well, numbers
are finite, and what is assigned to can stand there. So a program that was read is never refused for
an empty group, but for a node that the reading kept by its type name. -/
theorem loaded_program_well_formed {json : Json} (fit : json.NumbersFit) :
    (∀ kind field, Estree.program json ≠ .error (.invalidField kind field "a finite number")) ∧
      ∀ program, Estree.program json = .ok program →
        (∀ fragment, (Fragment.program program).Contains fragment → fragment.isWellFormed) ∧
        ∀ style cause, program.transform style = .error cause →
          ∃ fragment, (Fragment.program program).Contains fragment ∧
            fragment.unsupported? = some cause ∧ Estree.ReadInside json fragment := by
  constructor
  · intro kind field failed
    exact (Estree.alike_self.program ⟨rfl, fit⟩).allowed_of_fault failed kind field rfl
  · intro program read
    have whole : Estree.ReadAs json (.program program) := read
    have formed : ∀ fragment, (Fragment.program program).Contains fragment →
        fragment.isWellFormed := by
      intro fragment inside
      obtain ⟨_, _, read⟩ := whole.fragments inside
      exact read.isWellFormed
    refine ⟨formed, fun style cause failed => ?_⟩
    have offends : Fragment.Offends cause (.program program) := mem_offenders_of_transform failed
    obtain ⟨fragment, inside, unsupported | rfl⟩ := offends.found
    · exact ⟨fragment, inside, unsupported, whole.fragments inside⟩
    · exact absurd (formed _ inside) (by decide)

/-- The loop `for (let i = 9007199254740993; ; i.#p = {2: 0.5});`, whose number is between two
doubles and whose private name is what it is refused for. -/
theorem loaded_program_well_formed_loop :
    let node (kind : String) (fields : List (String × Json)) : Json :=
      .object (("type", .string kind) :: fields)
    let ident := node "Identifier" [("name", .string "i")]
    let number (value : Json) := node "Literal" [("value", value)]
    let declarator := node "VariableDeclarator"
      [("id", ident), ("init", number (.whole 9007199254740993))]
    let group := node "VariableDeclaration"
      [("kind", .string "let"), ("declarations", .array [declarator])]
    let member := node "MemberExpression"
      [("object", ident), ("property", node "PrivateIdentifier" [("start", .whole 39)])]
    let property := node "Property"
      [("kind", .string "init"), ("key", number (.whole 2)),
        ("value", number (.double ⟨0x3fe0000000000000⟩))]
    let assignment := node "AssignmentExpression"
      [("operator", .string "="), ("left", member),
        ("right", node "ObjectExpression" [("properties", .array [property])])]
    let loop := node "ForStatement"
      [("init", group), ("update", assignment), ("body", node "EmptyStatement" [])]
    let json := node "Program" [("body", .array [loop])]
    let cause : Unsupported := ⟨"PrivateIdentifier", ⟨39, 0⟩⟩
    json.NumbersFit ∧ ∃ program fragment, Estree.program json = .ok program ∧
      program.transform {} = .error cause ∧ (Fragment.program program).Contains fragment ∧
      fragment.unsupported? = some cause ∧ Estree.ReadInside json fragment := by
  intro node ident number declarator group member property assignment loop json cause
  have fit : json.NumbersFit := by decide +kernel
  have outcome : (Estree.program json).toOption.map (·.transform {}) = some (.error cause) := by
    decide +kernel
  obtain ⟨program, loaded, failed⟩ := Option.map_eq_some_iff.mp outcome
  cases read : Estree.program json with
  | error fault => simp [read, Except.toOption] at loaded
  | ok result =>
      obtain rfl : result = program := by simpa [read, Except.toOption] using loaded
      have formed := (loaded_program_well_formed fit).2 result read
      obtain ⟨fragment, found⟩ := formed.2 {} cause failed
      exact ⟨fit, result, fragment, rfl, failed, found⟩

end Freshen
