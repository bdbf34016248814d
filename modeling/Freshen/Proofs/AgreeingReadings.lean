import Freshen.Proofs.ReadingRules

/-!
Values that the reading of ESTree cannot tell apart. Reading looks at a node only through its
fields, so nodes with like fields are read alike: both give the same tree, or both the same fault.
With one value on both sides this says which faults can arise at all.
-/

namespace Freshen.Estree

section

variable {ε α β γ δ : Type} {allowed : ε → Prop} {same : α → β → Prop}

/-- Two outcomes that agree: values that are related, or one fault, which is an allowed one. -/
inductive Agree (allowed : ε → Prop) (same : α → β → Prop) : Except ε α → Except ε β → Prop
  | ok {value : α} {other : β} : same value other → Agree allowed same (.ok value) (.ok other)
  | fault {cause : ε} : allowed cause → Agree allowed same (.error cause) (.error cause)

namespace Agree

theorem eq {first second : Except ε α} (agree : Agree allowed Eq first second) :
    first = second := by
  cases agree with
  | ok same => rw [same]
  | fault => rfl

theorem allowed_of_fault {first : Except ε α} {second : Except ε β} {cause : ε}
    (agree : Agree allowed same first second) (failed : first = .error cause) : allowed cause := by
  cases agree with
  | ok => cases failed
  | fault possible =>
      cases failed
      exact possible

theorem imp {wider : α → β → Prop} {first : Except ε α} {second : Except ε β}
    (agree : Agree allowed same first second)
    (weaken : ∀ left right, same left right → wider left right) :
    Agree allowed wider first second := by
  cases agree with
  | ok related => exact .ok (weaken _ _ related)
  | fault possible => exact .fault possible

theorem bind {kept : γ → δ → Prop} {first : Except ε α} {second : Except ε β}
    {next : α → Except ε γ} {other : β → Except ε δ} (start : Agree allowed same first second)
    (rest : ∀ left right, same left right → Agree allowed kept (next left) (other right)) :
    Agree allowed kept (first >>= next) (second >>= other) := by
  cases start with
  | ok related => exact rest _ _ related
  | fault possible => exact .fault possible

theorem bind_eq {kept : γ → δ → Prop} {first second : Except ε α} {next : α → Except ε γ}
    {other : α → Except ε δ} (start : Agree allowed Eq first second)
    (rest : ∀ value, Agree allowed kept (next value) (other value)) :
    Agree allowed kept (first >>= next) (second >>= other) := by
  refine start.bind fun left right related => ?_
  obtain rfl := related
  exact rest left

theorem mapM {kept : γ → δ → Prop} {next : α → Except ε γ} {other : β → Except ε δ}
    {items : List α} {others : List β} (related : List.Forall₂ same items others)
    (each : ∀ left right, same left right → Agree allowed kept (next left) (other right)) :
    Agree allowed (List.Forall₂ kept) (items.mapM next) (others.mapM other) := by
  induction related with
  | nil => exact .ok .nil
  | cons head _ ih =>
      rw [List.mapM_cons, List.mapM_cons]
      exact (each _ _ head).bind fun _ _ first => ih.bind fun _ _ rest => .ok (.cons first rest)

theorem mapM_eq {next : α → Except ε γ} {other : β → Except ε γ} {items : List α}
    {others : List β} (related : List.Forall₂ same items others)
    (each : ∀ left right, same left right → Agree allowed Eq (next left) (other right)) :
    Agree allowed Eq (items.mapM next) (others.mapM other) := by
  have listed := mapM related each
  rwa [List.forall₂_eq_eq_eq] at listed

theorem optional {next : α → Except ε γ} {other : β → Except ε γ} {item : Option α}
    {second : Option β} (related : Option.Rel same item second)
    (each : ∀ left right, same left right → Agree allowed Eq (next left) (other right)) :
    Agree allowed Eq (item.mapM next) (second.mapM other) := by
  cases related with
  | none => exact .ok rfl
  | some inner =>
      rw [Option.mapM_some, Option.mapM_some, map_eq_pure_bind, map_eq_pure_bind]
      exact (each _ _ inner).bind_eq fun _ => .ok rfl

end Agree

end

section

variable {α β γ δ : Type} {allowed : LoadError → Prop} {same : α → β → Prop}

def AgreeOrRefuse (allowed : LoadError → Prop) (same : α → β → Prop)
    (first : ExceptT String Load α) (second : ExceptT String Load β) : Prop :=
  Agree allowed (Agree (fun _ => True) same) first.run second.run

namespace AgreeOrRefuse

theorem lift {first : Load α} {second : Load β} (agree : Agree allowed same first second) :
    AgreeOrRefuse allowed same (liftM first) (liftM second) := by
  cases agree with
  | ok related => exact .ok (.ok related)
  | fault possible => exact .fault possible

theorem refuse (kind : String) :
    AgreeOrRefuse allowed same (throwThe String kind) (throwThe String kind) :=
  .ok (.fault trivial)

theorem bind {kept : γ → δ → Prop} {first : ExceptT String Load α}
    {second : ExceptT String Load β} {next : α → ExceptT String Load γ}
    {other : β → ExceptT String Load δ} (start : AgreeOrRefuse allowed same first second)
    (rest : ∀ left right, same left right → AgreeOrRefuse allowed kept (next left) (other right)) :
    AgreeOrRefuse allowed kept (first >>= next) (second >>= other) := by
  rw [AgreeOrRefuse, ExceptT.run_bind, ExceptT.run_bind]
  refine Agree.bind start fun left right related => ?_
  cases related with
  | ok related => exact rest _ _ related
  | fault => exact .ok (.fault trivial)

theorem mapM {kept : γ → δ → Prop} {next : α → ExceptT String Load γ}
    {other : β → ExceptT String Load δ} {items : List α} {others : List β}
    (related : List.Forall₂ same items others)
    (each : ∀ left right, same left right → AgreeOrRefuse allowed kept (next left) (other right)) :
    AgreeOrRefuse allowed (List.Forall₂ kept) (items.mapM next) (others.mapM other) := by
  induction related with
  | nil => exact .ok (.ok .nil)
  | cons head _ ih =>
      rw [List.mapM_cons, List.mapM_cons]
      exact (each _ _ head).bind fun _ _ first =>
        ih.bind fun _ _ rest => .ok (.ok (.cons first rest))

end AgreeOrRefuse

end

/-- Values that reading cannot tell apart: they are alike as far as they are looked at, and so are
the values in their fields. The field `optional` counts for calls only, and of the faults, that of
an infinite number alone hangs on the values. -/
structure Alike (related : Json → Json → Prop) (allowed : LoadError → Prop) : Prop where
  null {json other : Json} : related json other → json.isNull = other.isNull
  string {json other : Json} : related json other → json.string? = other.string?
  bool {json other : Json} : related json other → json.bool? = other.bool?
  nat {json other : Json} : related json other → json.nat? = other.nat?
  items {json other : Json} : related json other →
    Option.Rel (List.Forall₂ related) json.array? other.array?
  child {json other : Json} : related json other → ∀ name : String, name ≠ "optional" →
    Option.Rel related (json.child? name) (other.child? name)
  optional {json other : Json} : related json other → json.kind? = some "CallExpression" →
    json.flag "optional" = other.flag "optional"
  number {json other : Json} : related json other → json.number? = other.number?
  infinite {json other : Json} {number : Double} : related json other →
    json.number? = some number → number.isFinite = false →
    ∀ kind field : String, allowed (.invalidField kind field "a finite number")
  missing (kind field : String) : allowed (.missingField kind field)
  pattern (kind : String) (span : Span) : allowed (.unsupportedPattern kind span)
  invalid (kind field : String) {expected : String} : expected ≠ "a finite number" →
    allowed (.invalidField kind field expected)

theorem bind_child? {α : Type} (json : Json) (name : String) {look : Json → Option α}
    (blind : look .null = none) : (json.child? name).bind look = (json.get? name).bind look := by
  rw [Json.child?]
  cases json.get? name with
  | none => rfl
  | some value => cases value <;> simp [Option.filter, Json.isNull, blind]

def plainLiteral {json : Json} (node : Node json) (value : Json) : Load Expr :=
  match value.bool?, value.number?, value.string? with
  | some flag, _, _ => .ok (.bool flag json.span)
  | none, some number, _ => do return .number (← finiteNumber node number) json.span
  | none, none, some text => .ok (.string text json.span)
  | none, none, none => .error (node.invalid "value" "a literal value")

theorem literal_eq_plainLiteral {json : Json} (node : Node json) :
    literal node =
      match json.child? "regex", json.child? "bigint", json.child? "value" with
      | some regex, _, _ => do
        return .regex (← regexPart node regex "pattern") (← regexPart node regex "flags") json.span
      | none, some _, _ => .ok (.unsupported "BigIntLiteral" json.span)
      | none, none, none => .ok (.null json.span)
      | none, none, some value => plainLiteral node value := by
  rw [literal_eq]
  cases json.child? "regex" with
  | some regex => rfl
  | none =>
      cases json.child? "bigint" with
      | some value => rfl
      | none =>
          cases json.child? "value" with
          | none => rfl
          | some value => cases value <;> rfl

namespace Alike

variable {related : Json → Json → Prop} {allowed : LoadError → Prop} {json other : Json}

section

variable (alike : Alike related allowed) (same : related json other)
include alike same

theorem get? {α : Type} (name : String) (counts : name ≠ "optional") (look : Json → Option α)
    (blind : look .null = none)
    (equal : ∀ {json other : Json}, related json other → look json = look other) :
    (json.get? name).bind look = (other.get? name).bind look := by
  rw [← bind_child? json name blind, ← bind_child? other name blind]
  have inner := alike.child same name counts
  generalize json.child? name = value, other.child? name = second at inner ⊢
  cases inner with
  | none => rfl
  | some inner => exact equal inner

theorem kind? : json.kind? = other.kind? := alike.get? same "type" (by simp) _ rfl alike.string

theorem span : json.span = other.span := by
  simp only [Json.span, alike.get? same "start" (by simp) _ rfl alike.nat,
    alike.get? same "end" (by simp) _ rfl alike.nat]

theorem flag (name : String) (counts : name ≠ "optional") :
    json.flag name = other.flag name := by
  have inner := alike.child same name counts
  rw [Json.flag, Json.flag]
  generalize json.child? name = value, other.child? name = second at inner ⊢
  cases inner with
  | none => rfl
  | some inner => exact congrArg (Option.getD · false) (alike.bool inner)

theorem isSome_child? (name : String) (counts : name ≠ "optional") :
    (json.child? name).isSome = (other.child? name).isSome := by
  have inner := alike.child same name counts
  generalize json.child? name = value, other.child? name = second at inner ⊢
  cases inner <;> rfl

theorem functionFlavor (kind : String) :
    functionFlavor (⟨kind⟩ : Node json) = functionFlavor (⟨kind⟩ : Node other) := by
  simp only [Estree.functionFlavor, Node.flag_eq, alike.flag same "async" (by simp),
    alike.flag same "generator" (by simp)]

theorem typed :
    Agree allowed (fun node other => node.kind = other.kind ∧ json.kind? = some node.kind)
      (Node.of json) (Node.of other) := by
  have kinds := alike.kind? same
  rw [Json.kind?, Json.kind?] at kinds
  rw [Json.kind?, Node.of, Node.of, kinds]
  cases (other.get? "type").bind Json.string? with
  | none => exact .fault (alike.missing _ _)
  | some kind => exact .ok ⟨rfl, rfl⟩

theorem of : Agree allowed (fun node other => node.kind = other.kind) (Node.of json)
    (Node.of other) :=
  (alike.typed same).imp fun _ _ related => related.1

theorem field? (kind name : String) (counts : name ≠ "optional") :
    Option.Rel (fun part second => related part.val second.val)
      ((⟨kind⟩ : Node json).field? name) ((⟨kind⟩ : Node other).field? name) := by
  have inner := alike.child same name counts
  rw [← Node.map_field? (⟨kind⟩ : Node json), ← Node.map_field? (⟨kind⟩ : Node other)] at inner
  generalize (⟨kind⟩ : Node json).field? name = part,
    (⟨kind⟩ : Node other).field? name = second at inner ⊢
  cases part <;> cases second <;> cases inner
  · exact .none
  · exact .some ‹_›

theorem field (kind name : String) (counts : name ≠ "optional") :
    Agree allowed (fun part second => related part.val second.val)
      ((⟨kind⟩ : Node json).field name) ((⟨kind⟩ : Node other).field name) := by
  have inner := alike.field? same kind name counts
  rw [Node.field, Node.field]
  generalize (⟨kind⟩ : Node json).field? name = part,
    (⟨kind⟩ : Node other).field? name = second at inner ⊢
  cases inner with
  | none => exact .fault (alike.missing kind name)
  | some inner => exact .ok inner

theorem nodeString (kind name : String) (counts : name ≠ "optional") :
    Agree allowed Eq ((⟨kind⟩ : Node json).string name) ((⟨kind⟩ : Node other).string name) := by
  rw [Node.string, Node.string]
  refine (alike.field same kind name counts).bind fun part second inner => ?_
  rw [alike.string inner]
  cases second.val.string? with
  | none => exact .fault (alike.invalid kind name (by simp))
  | some value => exact .ok rfl

theorem nodeItems (kind name : String) (counts : name ≠ "optional") :
    Agree allowed (List.Forall₂ fun part second => related part.val second.val)
      ((⟨kind⟩ : Node json).items name) ((⟨kind⟩ : Node other).items name) := by
  rw [Node.items, Node.items]
  refine (alike.field same kind name counts).bind ?_
  rintro ⟨value, inside⟩ ⟨second, insideOther⟩ inner
  have listed := alike.items inner
  cases value <;> cases second <;> cases listed
  case array.array.some items others each =>
    refine .ok (List.forall₂_map_left_iff.mp (List.forall₂_map_right_iff.mp ?_))
    simpa using each
  all_goals exact .fault (alike.invalid kind name (by simp))

end

def Below {α : Type} (related : Json → Json → Prop) (allowed : LoadError → Prop) (bound : Nat)
    (read : Json → Load α) : Prop :=
  ∀ {json other : Json}, related json other → json.height < bound →
    Agree allowed Eq (read json) (read other)

theorem Below.mono {α : Type} {bound smaller : Nat} {read : Json → Load α}
    (below : Below related allowed bound read) (less : smaller ≤ bound) :
    Below related allowed smaller read :=
  fun same inside => below same (Nat.lt_of_lt_of_le inside less)

theorem regexPart {kind : String} {regex second : Json} (alike : Alike related allowed)
    (inner : related regex second) (field : String) (counts : field ≠ "optional") :
    Agree allowed Eq (regexPart (⟨kind⟩ : Node json) regex field)
      (regexPart (⟨kind⟩ : Node other) second field) := by
  rw [Estree.regexPart, Estree.regexPart, alike.get? inner field counts _ rfl alike.string]
  cases (second.get? field).bind Json.string? with
  | none => exact .fault (alike.invalid _ _ (by simp))
  | some value => exact .ok rfl

theorem plainLiteral {kind : String} {value second : Json} (alike : Alike related allowed)
    (same : related json other) (inner : related value second) :
    Agree allowed Eq (plainLiteral (⟨kind⟩ : Node json) value)
      (plainLiteral (⟨kind⟩ : Node other) second) := by
  have numeric (number : Double) (found : second.number? = some number) :
      Agree allowed Eq (finiteNumber (⟨kind⟩ : Node json) number)
        (finiteNumber (⟨kind⟩ : Node other) number) := by
    rw [finiteNumber, finiteNumber]
    split
    next => exact .ok rfl
    next infinite =>
      rw [← alike.number inner] at found
      exact .fault (alike.infinite inner found (by simpa using infinite) _ _)
  rw [Estree.plainLiteral, Estree.plainLiteral, alike.bool inner, alike.string inner,
    alike.number inner, alike.span same]
  cases second.bool? with
  | some flag => exact .ok rfl
  | none =>
      cases found : second.number? with
      | some number => exact (numeric number found).bind_eq fun number => .ok rfl
      | none =>
          cases second.string? with
          | some text => exact .ok rfl
          | none => exact .fault (alike.invalid _ _ (by simp))

theorem element {bound : Nat} (alike : Alike related allowed)
    (below : Below related allowed bound Estree.expr) : Below related allowed bound element := by
  intro value second inner inside
  rw [Estree.element, Estree.element, alike.null inner]
  split
  · exact .ok rfl
  · simp only [map_eq_pure_bind]
    exact (below inner inside).bind_eq fun _ => .ok rfl

section

variable {α γ : Type} {kind name : String} {kept : γ → γ → Prop} {read : Json → Load α}
  (alike : Alike related allowed) (same : related json other)
include alike same

theorem readField {next second : α → Load γ} (counts : name ≠ "optional")
    (below : Below related allowed json.height read)
    (rest : ∀ value, Agree allowed kept (next value) (second value)) :
    Agree allowed kept
      ((⟨kind⟩ : Node json).field name >>= fun part => read part.val >>= next)
      ((⟨kind⟩ : Node other).field name >>= fun part => read part.val >>= second) :=
  (alike.field same kind name counts).bind fun part _ inner =>
    (below inner part.property).bind_eq rest

theorem readAny (counts : name ≠ "optional") (below : Below related allowed json.height read) :
    Agree allowed Eq (((⟨kind⟩ : Node json).field? name).mapM fun part => read part.val)
      (((⟨kind⟩ : Node other).field? name).mapM fun part => read part.val) :=
  .optional (alike.field? same kind name counts) fun part _ inner => below inner part.property

theorem readEach {next second : List α → Load γ} (counts : name ≠ "optional")
    (below : Below related allowed json.height read)
    (rest : ∀ values, Agree allowed kept (next values) (second values)) :
    Agree allowed kept
      ((⟨kind⟩ : Node json).items name >>= fun parts =>
        (parts.mapM fun part => read part.val) >>= next)
      ((⟨kind⟩ : Node other).items name >>= fun parts =>
        (parts.mapM fun part => read part.val) >>= second) :=
  (alike.nodeItems same kind name counts).bind fun _ _ listed =>
    (Agree.mapM_eq listed fun part _ inner => below inner part.property).bind_eq rest

theorem operator (ofToken? : String → Option α) {expected : String}
    (plain : expected ≠ "a finite number") :
    Agree allowed Eq (operator (⟨kind⟩ : Node json) ofToken? expected)
      (operator (⟨kind⟩ : Node other) ofToken? expected) := by
  rw [Estree.operator, Estree.operator]
  refine (alike.nodeString same kind "operator" (by simp)).bind_eq fun token => ?_
  cases ofToken? token with
  | none => exact .fault (alike.invalid _ _ plain)
  | some op => exact .ok rfl

theorem bindingName :
    Agree allowed Eq (bindingName (⟨kind⟩ : Node json)) (bindingName (⟨kind⟩ : Node other)) := by
  simp only [Estree.bindingName, Node.span_eq, alike.span same]
  split
  · exact alike.nodeString same kind "name" (by simp)
  · exact .fault (alike.pattern _ _)

theorem binding : Agree allowed Eq (Estree.binding json) (Estree.binding other) := by
  refine (alike.of same).bind ?_
  rintro ⟨kind⟩ ⟨_⟩ rfl
  exact alike.bindingName same

theorem param : Agree allowed Eq (Estree.param json) (Estree.param other) := by
  refine (alike.of same).bind ?_
  rintro ⟨kind⟩ ⟨_⟩ rfl
  simp only [Node.span_eq, alike.span same]
  exact (alike.bindingName same).bind_eq fun name => .ok rfl

theorem params :
    Agree allowed Eq (params (⟨kind⟩ : Node json)) (params (⟨kind⟩ : Node other)) :=
  (alike.nodeItems same kind "params" (by simp)).bind fun _ _ listed =>
    .mapM_eq listed fun _ _ inner => alike.param inner

theorem function (below : Below related allowed json.height stmt) :
    Agree allowed Eq (function (⟨kind⟩ : Node json)) (function (⟨kind⟩ : Node other)) := by
  rw [Estree.function, Estree.function]
  refine (alike.readAny same (by simp) fun inner _ => alike.binding inner).bind_eq fun name => ?_
  refine (alike.params same).bind_eq fun params => ?_
  refine (alike.field same kind "body" (by simp)).bind fun part second wrapper => ?_
  refine (alike.of wrapper).bind ?_
  rintro ⟨inner⟩ ⟨_⟩ rfl
  exact alike.readEach wrapper (by simp) (below.mono (Nat.le_of_lt part.property)) fun body =>
    .ok rfl

theorem declarator (below : Below related allowed json.height expr) :
    Agree allowed Eq (declarator json) (declarator other) := by
  rw [Estree.declarator, Estree.declarator]
  refine (alike.of same).bind ?_
  rintro ⟨kind⟩ ⟨_⟩ rfl
  refine (alike.field same kind "id" (by simp)).bind fun part second inner => ?_
  refine (alike.of inner).bind ?_
  rintro ⟨pattern⟩ ⟨_⟩ rfl
  refine (alike.bindingName inner).bind_eq fun name => ?_
  refine (alike.readAny same (by simp) below).bind_eq fun init => ?_
  rw [Node.span_eq, Node.span_eq, alike.span same]
  exact .ok rfl

theorem declarations (below : Below related allowed json.height expr) :
    Agree allowed Eq (declarations (⟨kind⟩ : Node json)) (declarations (⟨kind⟩ : Node other)) := by
  rw [Estree.declarations, Estree.declarations]
  refine (alike.nodeString same kind "kind" (by simp)).bind_eq fun word => ?_
  cases DeclKind.ofWord? word with
  | none => exact .fault (alike.invalid _ _ (by simp))
  | some declared =>
      refine alike.readEach same (by simp) ?_ fun decls => ?_
      · intro value second inner inside
        exact alike.declarator inner (below.mono (Nat.le_of_lt inside))
      · split
        · exact .fault (alike.invalid _ _ (by simp))
        · exact .ok rfl

theorem loopInit (below : Below related allowed (json.height + 1) expr) :
    Agree allowed Eq (loopInit json) (loopInit other) := by
  rw [Estree.loopInit, Estree.loopInit]
  refine (alike.of same).bind ?_
  rintro ⟨kind⟩ ⟨_⟩ rfl
  split
  · exact (alike.declarations same (below.mono (Nat.le_succ _))).bind_eq fun group => .ok rfl
  · exact (below same (Nat.lt_succ_self _)).bind_eq fun inner => .ok rfl

theorem literal (kind : String) :
    Agree allowed Eq (literal (⟨kind⟩ : Node json)) (literal (⟨kind⟩ : Node other)) := by
  have regex := alike.child same "regex" (by simp)
  have bigint := alike.child same "bigint" (by simp)
  have content := alike.child same "value" (by simp)
  rw [literal_eq_plainLiteral, literal_eq_plainLiteral, alike.span same]
  generalize json.child? "regex" = value, other.child? "regex" = second at regex ⊢
  cases regex with
  | some inner =>
      exact (alike.regexPart inner "pattern" (by simp)).bind_eq fun pattern =>
        (alike.regexPart inner "flags" (by simp)).bind_eq fun flags => .ok rfl
  | none =>
  generalize json.child? "bigint" = value, other.child? "bigint" = second at bigint ⊢
  cases bigint with
  | some inner => exact .ok rfl
  | none =>
  generalize json.child? "value" = value, other.child? "value" = second at content ⊢
  cases content with
  | some inner => exact alike.plainLiteral same inner
  | none => exact .ok rfl

theorem propertyName :
    AgreeOrRefuse allowed Eq (propertyName json) (propertyName other) := by
  rw [Estree.propertyName, Estree.propertyName]
  refine (AgreeOrRefuse.lift (alike.of same)).bind ?_
  rintro ⟨kind⟩ ⟨_⟩ rfl
  simp only
  split
  next =>
    refine (AgreeOrRefuse.lift (alike.nodeString same _ _ (by simp))).bind fun _ _ equal => ?_
    exact .ok (.ok (congrArg _ equal))
  next =>
    refine (AgreeOrRefuse.lift (alike.literal same _)).bind fun literal _ equal => ?_
    obtain rfl := equal
    split
    · exact .ok (.ok rfl)
    · exact .ok (.ok rfl)
    · exact .fault (alike.invalid _ _ (by simp))
  next => exact .refuse _

theorem property (below : Below related allowed json.height Estree.expr) :
    AgreeOrRefuse allowed Eq (property json) (property other) := by
  rw [Estree.property, Estree.property]
  refine (AgreeOrRefuse.lift (alike.of same)).bind ?_
  rintro ⟨kind⟩ ⟨_⟩ rfl
  simp only [Node.flag_eq, alike.flag same "method" (by simp), alike.flag same "computed" (by simp),
    alike.flag same "shorthand" (by simp)]
  split
  · exact .refuse _
  · refine (AgreeOrRefuse.lift (alike.nodeString same _ _ (by simp))).bind fun word _ equal => ?_
    obtain rfl := equal
    split
    · exact .refuse _
    · refine (AgreeOrRefuse.lift (alike.field same _ _ (by simp))).bind fun key _ inner => ?_
      split
      · refine (AgreeOrRefuse.lift (below inner key.property)).bind fun keyExpr _ equal => ?_
        obtain rfl := equal
        refine (AgreeOrRefuse.lift (alike.field same _ _ (by simp))).bind fun value _ inner => ?_
        refine (AgreeOrRefuse.lift (below inner value.property)).bind fun valueExpr _ equal => ?_
        obtain rfl := equal
        exact .ok (.ok rfl)
      · refine (alike.propertyName inner).bind fun name _ equal => ?_
        obtain rfl := equal
        refine (AgreeOrRefuse.lift (alike.field same _ _ (by simp))).bind fun value _ inner => ?_
        refine (AgreeOrRefuse.lift (below inner value.property)).bind fun valueExpr _ equal => ?_
        obtain rfl := equal
        exact .ok (.ok rfl)

theorem expr (exprs : Below related allowed json.height Estree.expr)
    (stmts : Below related allowed json.height stmt) :
    Agree allowed Eq (Estree.expr json) (Estree.expr other) := by
  rw [Estree.expr, Estree.expr]
  refine (alike.typed same).bind ?_
  rintro ⟨kind⟩ ⟨_⟩ ⟨rfl, typed⟩
  simp only [Node.span_eq, Node.flag_eq, alike.span same, alike.flag same "prefix" (by simp),
    alike.flag same "computed" (by simp), alike.functionFlavor same]
  cases Estree.functionFlavor (⟨kind⟩ : Node other) with
  | some flavor => exact .ok rfl
  | none =>
  simp only
  split
  next => exact (alike.nodeString same _ _ (by simp)).bind_eq fun name => .ok rfl
  next => exact alike.literal same _
  next => exact alike.readEach same (by simp) (alike.element exprs) fun elements => .ok rfl
  next =>
    refine (alike.nodeItems same _ _ (by simp)).bind fun parts _ listed => ?_
    have properties := AgreeOrRefuse.mapM listed fun part second inner =>
      alike.property inner (exprs.mono (Nat.le_of_lt part.property))
    rw [List.forall₂_eq_eq_eq] at properties
    refine Agree.bind properties fun outcome _ equal => ?_
    cases equal with
    | ok equal => exact .ok (congrArg (Expr.object · _) equal)
    | fault => exact .ok rfl
  next => exact (alike.function same stmts).bind_eq fun parts => .ok rfl
  next =>
    refine (alike.field same _ _ (by simp)).bind fun part _ inner => ?_
    refine (alike.of inner).bind ?_
    rintro ⟨bodyKind⟩ ⟨_⟩ rfl
    split
    · refine alike.readEach inner (by simp) (stmts.mono (Nat.le_of_lt part.property)) fun body => ?_
      exact (alike.params same).bind_eq fun params => .ok rfl
    · refine (exprs inner part.property).bind_eq fun result => ?_
      exact (alike.params same).bind_eq fun params => .ok rfl
  next =>
    refine (alike.operator same _ (by simp)).bind_eq fun op => ?_
    exact alike.readField same (by simp) exprs fun arg => .ok rfl
  next =>
    refine (alike.operator same _ (by simp)).bind_eq fun op => ?_
    exact alike.readField same (by simp) exprs fun left =>
      alike.readField same (by simp) exprs fun right => .ok rfl
  next =>
    refine (alike.operator same _ (by simp)).bind_eq fun op => ?_
    exact alike.readField same (by simp) exprs fun left =>
      alike.readField same (by simp) exprs fun right => .ok rfl
  next =>
    refine (alike.operator same _ (by simp)).bind_eq fun op => ?_
    refine (alike.field same _ _ (by simp)).bind fun left second inner => ?_
    refine (alike.of inner).bind ?_
    rintro ⟨targetKind⟩ ⟨_⟩ rfl
    simp only [alike.span inner]
    split
    · exact .fault (alike.pattern _ _)
    · refine (exprs inner left.property).bind_eq fun target => ?_
      exact alike.readField same (by simp) exprs fun value => .ok rfl
  next =>
    refine (alike.operator same _ (by simp)).bind_eq fun op => ?_
    exact alike.readField same (by simp) exprs fun arg => .ok rfl
  next =>
    exact alike.readField same (by simp) exprs fun test =>
      alike.readField same (by simp) exprs fun consequent =>
        alike.readField same (by simp) exprs fun alternate => .ok rfl
  next => exact alike.readEach same (by simp) exprs fun items => .ok rfl
  next =>
    refine (alike.field same _ _ (by simp)).bind fun part second inner => ?_
    split
    · refine (exprs inner part.property).bind_eq fun property => ?_
      exact alike.readField same (by simp) exprs fun object => .ok rfl
    · refine (alike.of inner).bind ?_
      rintro ⟨propertyKind⟩ ⟨_⟩ rfl
      simp only [alike.span inner]
      split
      · refine (alike.nodeString inner _ _ (by simp)).bind_eq fun name => ?_
        exact alike.readField same (by simp) exprs fun object => .ok rfl
      · exact .ok rfl
  next =>
    rw [alike.optional same typed]
    split
    · exact .ok rfl
    · exact alike.readField same (by simp) exprs fun callee =>
        alike.readEach same (by simp) exprs fun args => .ok rfl
  next =>
    exact alike.readField same (by simp) exprs fun callee =>
      alike.readEach same (by simp) exprs fun args => .ok rfl
  next => exact .ok rfl

theorem stmt (exprs : Below related allowed json.height Estree.expr)
    (stmts : Below related allowed json.height Estree.stmt) :
    Agree allowed Eq (Estree.stmt json) (Estree.stmt other) := by
  rw [Estree.stmt, Estree.stmt]
  refine (alike.of same).bind ?_
  rintro ⟨kind⟩ ⟨_⟩ rfl
  simp only [Node.span_eq, Node.isSome_field?, alike.span same,
    alike.isSome_child? same "label" (by simp), alike.functionFlavor same]
  split
  next => exact (alike.declarations same exprs).bind_eq fun group => .ok rfl
  next =>
    cases Estree.functionFlavor (⟨"FunctionDeclaration"⟩ : Node other) with
    | some flavor => exact .ok rfl
    | none => exact (alike.function same stmts).bind_eq fun parts => .ok rfl
  next => exact alike.readEach same (by simp) stmts fun body => .ok rfl
  next =>
    refine alike.readField same (by simp) exprs fun test => ?_
    refine alike.readField same (by simp) stmts fun consequent => ?_
    exact (alike.readAny same (by simp) stmts).bind_eq fun alternate => .ok rfl
  next =>
    have heads : Below related allowed json.height Estree.loopInit :=
      fun inner inside => alike.loopInit inner (exprs.mono inside)
    refine (alike.readAny same (by simp) heads).bind_eq fun init => ?_
    refine (alike.readAny same (by simp) exprs).bind_eq fun test => ?_
    refine (alike.readAny same (by simp) exprs).bind_eq fun update => ?_
    exact alike.readField same (by simp) stmts fun body => .ok rfl
  next =>
    exact alike.readField same (by simp) exprs fun test =>
      alike.readField same (by simp) stmts fun body => .ok rfl
  next =>
    exact alike.readField same (by simp) stmts fun body =>
      alike.readField same (by simp) exprs fun test => .ok rfl
  next =>
    split
    · exact .ok rfl
    · exact .ok rfl
  next =>
    split
    · exact .ok rfl
    · exact .ok rfl
  next => exact (alike.readAny same (by simp) exprs).bind_eq fun arg => .ok rfl
  next => exact alike.readField same (by simp) exprs fun arg => .ok rfl
  next => exact alike.readField same (by simp) exprs fun inner => .ok rfl
  next => exact .ok rfl
  next => exact .ok rfl

end

/-- Like values are read alike at every height. -/
theorem reading (alike : Alike related allowed) (bound : Nat) :
    Below related allowed bound Estree.expr ∧ Below related allowed bound Estree.stmt := by
  induction bound with
  | zero => exact ⟨fun _ inside => absurd inside (Nat.not_lt_zero _),
      fun _ inside => absurd inside (Nat.not_lt_zero _)⟩
  | succ bound ih =>
      obtain ⟨exprs, stmts⟩ := ih
      constructor
      · intro json other same inside
        have lower := Nat.le_of_lt_succ inside
        exact alike.expr same (exprs.mono lower) (stmts.mono lower)
      · intro json other same inside
        have lower := Nat.le_of_lt_succ inside
        exact alike.stmt same (exprs.mono lower) (stmts.mono lower)

theorem program (alike : Alike related allowed) (same : related json other) :
    Agree allowed Eq (program json) (program other) := by
  rw [Estree.program, Estree.program]
  refine (alike.of same).bind ?_
  rintro ⟨kind⟩ ⟨_⟩ rfl
  simp only [Node.span_eq, alike.span same]
  split
  · exact .fault (alike.invalid _ _ (by simp))
  · exact alike.readEach same (by simp) (alike.reading json.height).2 fun body => .ok rfl

/-- A change that leaves values without parts as they are and goes on inside the others is not seen,
if the fields that count are there before and after it. -/
theorem of_change {change : Json → Json} (atom : ∀ json, json.height = 0 → change json = json)
    (array : ∀ items, change (.array items) = .array (items.map change))
    (object : ∀ members, ∃ others, change (.object members) = .object others)
    (child : ∀ json name, name ≠ "optional" →
      (change json).child? name = (json.child? name).map change)
    (optional : ∀ json, json.kind? = some "CallExpression" →
      (change json).flag "optional" = json.flag "optional") :
    Alike (fun changed json => changed = change json) fun _ => True := by
  -- looks that do not go into arrays and objects see no change
  have keeps {α : Type} (look : Json → α)
      (arrays : ∀ items others, look (.array items) = look (.array others))
      (objects : ∀ members others, look (.object members) = look (.object others)) (json : Json) :
      look (change json) = look json := by
    cases json with
    | array items =>
        rw [array]
        exact arrays _ _
    | object members =>
        obtain ⟨others, changed⟩ := object members
        rw [changed]
        exact objects _ _
    | null | bool | whole | double | string => rw [atom _ rfl]
  have kinds (json : Json) : (change json).kind? = json.kind? := by
    rw [Json.kind?, Json.kind?, ← bind_child? _ _ rfl, ← bind_child? _ _ rfl,
      child _ _ (by simp)]
    cases json.child? "type" with
    | none => rfl
    | some value => exact keeps Json.string? (fun _ _ => rfl) (fun _ _ => rfl) value
  exact {
    null := by
      rintro _ json rfl
      exact keeps Json.isNull (fun _ _ => rfl) (fun _ _ => rfl) json
    string := by
      rintro _ json rfl
      exact keeps Json.string? (fun _ _ => rfl) (fun _ _ => rfl) json
    bool := by
      rintro _ json rfl
      exact keeps Json.bool? (fun _ _ => rfl) (fun _ _ => rfl) json
    nat := by
      rintro _ json rfl
      exact keeps Json.nat? (fun _ _ => rfl) (fun _ _ => rfl) json
    number := by
      rintro _ json rfl
      exact keeps Json.number? (fun _ _ => rfl) (fun _ _ => rfl) json
    items := by
      rintro _ json rfl
      cases json with
      | array items =>
          rw [array]
          exact .some (List.forall₂_map_left_iff.mpr (List.forall₂_same.mpr fun _ _ => rfl))
      | object members =>
          obtain ⟨others, changed⟩ := object members
          rw [changed]
          exact .none
      | null | bool | whole | double | string =>
          rw [atom _ rfl]
          exact .none
    child := by
      rintro _ json rfl name counts
      rw [child json name counts]
      cases json.child? name with
      | none => exact .none
      | some value => exact .some rfl
    optional := by
      rintro _ json rfl typed
      rw [kinds] at typed
      exact optional json typed
    infinite := fun _ _ _ _ _ => trivial
    missing := fun _ _ => trivial
    pattern := fun _ _ => trivial
    invalid := fun _ _ _ _ => trivial }

end Alike

end Freshen.Estree
