import Freshen.Estree.Load
import Mathlib.Data.List.Forall2
import Mathlib.Data.Option.Defs

/-!
The fields of ESTree nodes, seen as plain JSON. What a reader takes from a node is one field, a
field that may be absent, or each item of a field; when such a reading succeeds is said here once,
apart from the bounds that make the reading end.
-/

namespace Freshen

namespace Json

def kind? (json : Json) : Option String := (json.get? "type").bind Json.string?

/-- A member that is there and not null. -/
def child? (json : Json) (name : String) : Option Json := (json.get? name).filter (!·.isNull)

def flag (json : Json) (name : String) : Bool := ((json.child? name).bind Json.bool?).getD false

def span (json : Json) : Span :=
  let offset name := UInt32.ofNat (((json.get? name).bind Json.nat?).getD 0)
  ⟨offset "start", offset "end"⟩

def number? : Json → Option Double
  | whole value => some (.ofInt value)
  | double value => some value
  | _ => none

theorem get?_of_child? {json value : Json} {name : String}
    (found : json.child? name = some value) : json.get? name = some value :=
  (Option.filter_eq_some_iff.mp found).1

theorem height_lt_of_child? {json value : Json} {name : String}
    (found : json.child? name = some value) : value.height < json.height :=
  height_lt_of_get? (get?_of_child? found)

theorem flag_eq_true {json : Json} {name : String} :
    json.flag name = true ↔ json.get? name = some (.bool true) := by
  constructor
  · intro raised
    rw [flag] at raised
    cases found : json.child? name with
    | none => simp [found] at raised
    | some value =>
        rw [get?_of_child? found]
        cases value <;> simp_all [bool?]
  · intro found
    simp [flag, child?, found, isNull, bool?, Option.filter]

end Json

namespace Estree

section

variable {json : Json} {α β : Type}

theorem bind_eq_ok {first : Load α} {next : α → Load β} {result : β} :
    (first >>= next) = .ok result ↔ ∃ value, first = .ok value ∧ next value = .ok result := by
  cases first with
  | ok value => simp [bind, Except.bind]
  | error cause => simp [bind, Except.bind]

theorem ok_bind {value : α} {next : α → Load β} : (Except.ok value >>= next) = next value := rfl

theorem pure_eq_ok {value result : α} : (pure value : Load α) = .ok result ↔ value = result := by
  simp [pure, Except.pure]

theorem throw_ne_ok {cause : LoadError} {result : α} :
    (throw cause : Load α) = .ok result ↔ False := by
  simp [throw, throwThe, MonadExceptOf.throw]

theorem mapM_eq_ok {read : α → Load β} {items : List α} {results : List β} :
    items.mapM read = .ok results ↔
      List.Forall₂ (fun item result => read item = .ok result) items results := by
  induction items generalizing results with
  | nil => cases results <;> simp [pure_eq_ok]
  | cons item rest ih =>
      rw [List.mapM_cons]
      simp only [bind_eq_ok, ih, pure_eq_ok]
      cases results with
      | nil => simp
      | cons result more => simp

def Reads (json : Json) (name : String) (read : Json → Load α) (result : α) : Prop :=
  ∃ value, json.child? name = some value ∧ read value = .ok result

def ReadsAny (json : Json) (name : String) (read : Json → Load α) (result : Option α) : Prop :=
  Option.Rel (fun value result => read value = .ok result) (json.child? name) result

def ReadsEach (json : Json) (name : String) (read : Json → Load α) (results : List α) : Prop :=
  ∃ items, json.child? name = some (.array items) ∧
    List.Forall₂ (fun item result => read item = .ok result) items results

namespace Node

variable {node : Node json} {name : String}

theorem of_eq_ok : Node.of json = .ok node ↔ json.kind? = some node.kind := by
  rw [Node.of, Json.kind?]
  cases (json.get? "type").bind Json.string? with
  | none => simp
  | some kind =>
      constructor
      · rintro ⟨⟩
        rfl
      · rintro ⟨⟩
        rfl

theorem of_kind? {kind : String} (typed : json.kind? = some kind) : Node.of json = .ok ⟨kind⟩ :=
  of_eq_ok.mpr typed

theorem span_eq (node : Node json) : node.span = json.span := rfl

theorem map_field? (node : Node json) (name : String) :
    (node.field? name).map (·.val) = json.child? name := by
  unfold Node.field? Json.child?
  split
  next value found => cases null : value.isNull <;> simp [found, null, Option.filter]
  next missing => simp [missing]

theorem flag_eq (node : Node json) (name : String) : node.flag name = json.flag name := by
  rw [Node.flag, Json.flag, ← map_field? node, Option.bind_map]
  rfl

theorem isSome_field? (node : Node json) (name : String) :
    (node.field? name).isSome = (json.child? name).isSome := by
  rw [← map_field? node, Option.isSome_map]

theorem field_eq_ok {part : Part json} :
    node.field name = .ok part ↔ json.child? name = some part.val := by
  rw [Node.field, ← map_field? node]
  cases node.field? name with
  | none => simp
  | some found => simp [Subtype.ext_iff]

theorem field_of_child? (node : Node json) {value : Json}
    (found : json.child? name = some value) :
    node.field name = .ok ⟨value, Json.height_lt_of_child? found⟩ :=
  field_eq_ok.mpr found

theorem string_eq_ok {value : String} :
    node.string name = .ok value ↔ json.child? name = some (.string value) := by
  rw [Node.string]
  constructor
  · rw [bind_eq_ok]
    rintro ⟨⟨found, _⟩, present, rest⟩
    rw [field_eq_ok.mp present]
    cases found <;> simp [Json.string?, throw_ne_ok, pure_eq_ok] at rest ⊢
    exact rest
  · intro present
    rw [field_of_child? node present]
    rfl

theorem child?_of_items {parts : List (Part json)} (read : node.items name = .ok parts) :
    json.child? name = some (.array (parts.map (·.val))) := by
  rw [Node.items, bind_eq_ok] at read
  obtain ⟨⟨value, inside⟩, present, rest⟩ := read
  rw [field_eq_ok.mp present]
  cases value with
  | array items =>
      obtain rfl := pure_eq_ok.mp rest
      simp
  | _ => simp [partsOf, throw_ne_ok] at rest

theorem items_of_child? (node : Node json) {items : List Json}
    (found : json.child? name = some (.array items)) :
    ∃ parts, node.items name = .ok parts ∧ parts.map (·.val) = items := by
  rw [Node.items, field_of_child? node found]
  exact ⟨_, rfl, by simp⟩

theorem mapM_field? (read : Json → Load α) {result : Option α} :
    ((node.field? name).mapM fun part => read part.val) = .ok result ↔
      ReadsAny json name read result := by
  rw [ReadsAny, ← map_field? node]
  cases node.field? name with
  | none => cases result <;> simp [pure_eq_ok]
  | some part =>
      rw [Option.mapM_some, Option.map_some, map_eq_pure_bind, bind_eq_ok]
      cases result <;> simp [pure_eq_ok]

theorem bind_field (read : Json → Load α) {next : α → Load β} {result : β} :
    (node.field name >>= fun part => read part.val >>= next) = .ok result ↔
      ∃ value, Reads json name read value ∧ next value = .ok result := by
  simp only [bind_eq_ok, field_eq_ok, Reads]
  constructor
  · rintro ⟨part, found, value, done, rest⟩
    exact ⟨value, ⟨part.val, found, done⟩, rest⟩
  · rintro ⟨value, ⟨inner, found, done⟩, rest⟩
    exact ⟨⟨inner, Json.height_lt_of_child? found⟩, found, value, done, rest⟩

theorem bind_items (read : Json → Load α) {next : List α → Load β} {result : β} :
    (node.items name >>= fun parts => (parts.mapM fun part => read part.val) >>= next) =
        .ok result ↔
      ∃ values, ReadsEach json name read values ∧ next values = .ok result := by
  simp only [bind_eq_ok, mapM_eq_ok, ReadsEach]
  constructor
  · rintro ⟨parts, found, values, done, rest⟩
    exact ⟨values, ⟨_, child?_of_items found, List.forall₂_map_left_iff.mpr done⟩, rest⟩
  · rintro ⟨values, ⟨items, found, done⟩, rest⟩
    obtain ⟨parts, listed, rfl⟩ := items_of_child? node found
    exact ⟨parts, listed, values, List.forall₂_map_left_iff.mp done, rest⟩

end Node

end

end Estree

end Freshen
