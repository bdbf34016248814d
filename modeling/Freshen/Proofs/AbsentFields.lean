import Freshen.Proofs.AgreeingReadings

/-!
A field that is null is the same as one that is missing, everywhere in an ESTree: without its null
members a value is read as before, as the same program or with the same fault.
-/

namespace Freshen

namespace Json

mutual

/-- The value without the names that stand for null, at every depth. Items of arrays stay, so that
a hole stays a hole. Of repeated names the last one counts, so all of them go if it is null. -/
def prune : Json → Json
  | array items => array (pruneItems items)
  | object members =>
    object ((pruneMembers members).filter fun member =>
      (lookup member.1 members).all (!·.isNull))
  | json => json

def pruneItems : List Json → List Json
  | [] => []
  | item :: rest => item.prune :: pruneItems rest

def pruneMembers : List (String × Json) → List (String × Json)
  | [] => []
  | (name, value) :: rest => (name, value.prune) :: pruneMembers rest

end

theorem pruneItems_eq_map (items : List Json) : pruneItems items = items.map prune := by
  induction items with
  | nil => rfl
  | cons item rest ih => rw [pruneItems, ih, List.map_cons]

theorem pruneMembers_eq_map (members : List (String × Json)) :
    pruneMembers members = members.map fun member => (member.1, member.2.prune) := by
  induction members with
  | nil => rfl
  | cons member rest ih => rw [pruneMembers, ih, List.map_cons]

theorem lookup_map (change : Json → Json) (name : String) (members : List (String × Json)) :
    lookup name (members.map fun member => (member.1, change member.2)) =
      (lookup name members).map change := by
  induction members with
  | nil => rfl
  | cons member rest ih =>
      rw [List.map_cons, lookup, lookup, ih]
      cases lookup name rest with
      | some value => rfl
      | none => by_cases same : member.1 = name <;> simp [same]

theorem lookup_filter (name : String) (keep : String → Bool) (members : List (String × Json)) :
    lookup name (members.filter fun member => keep member.1) =
      if keep name then lookup name members else none := by
  induction members with
  | nil => simp [lookup]
  | cons member rest ih =>
      by_cases same : member.1 = name
      · cases kept : keep name <;> simp [lookup, same, kept, ih]
      · cases kept : keep member.1 <;> simp [lookup, same, kept, ih]

theorem get?_prune (json : Json) (name : String) :
    json.prune.get? name = (json.child? name).map prune := by
  cases json with
  | object members =>
      rw [prune, child?, get?, get?,
        lookup_filter name fun name => (lookup name members).all (!·.isNull), pruneMembers_eq_map,
        lookup_map]
      cases lookup name members with
      | none => rfl
      | some value => cases null : value.isNull <;> simp [Option.filter, null]
  | _ => rfl

example : prune (object [("a", null), ("b", array [null, object [("c", null)]])]) =
    object [("b", array [null, object []])] := rfl

theorem isNull_prune (json : Json) : json.prune.isNull = json.isNull := by
  cases json <;> simp [prune, isNull]

theorem child?_prune (json : Json) (name : String) :
    json.prune.child? name = (json.child? name).map prune := by
  rw [child?, get?_prune, child?]
  cases json.get? name with
  | none => rfl
  | some value => cases null : value.isNull <;> simp [Option.filter, null, isNull_prune]

end Json

namespace Estree

theorem alike_prune : Alike (fun pruned json => pruned = json.prune) fun _ => True := by
  refine .of_change ?_ ?_ ?_ (fun json name _ => json.child?_prune name) ?_
  · intro json atom
    cases json with
    | array | object => simp [Json.height] at atom
    | null | bool | whole | double | string => rfl
  · intro items
    rw [Json.prune, Json.pruneItems_eq_map]
  · exact fun members => ⟨_, rfl⟩
  · intro json _
    rw [Json.flag, Json.flag, Json.child?_prune]
    cases json.child? "optional" with
    | none => rfl
    | some value => cases value <;> rfl

end Estree

/-- Null fields are read as absent ones. -/
theorem program_prune (json : Json) : Estree.program json.prune = Estree.program json :=
  (Estree.alike_prune.program rfl).eq

end Freshen
