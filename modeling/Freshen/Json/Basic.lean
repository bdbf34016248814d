import Freshen.Number.Double

/-! JSON values. -/

namespace Freshen

/-- A JSON value. Whole numbers that fit 64 bits stay whole; all other numbers are doubles. Members
stand in the order in which they are written, repeated names included. -/
inductive Json where
  | null
  | bool (value : Bool)
  | whole (value : Int)
  | double (value : Double)
  | string (value : String)
  | array (items : List Json)
  | object (members : List (String × Json))
deriving Inhabited

namespace Json

/-- The value of a member; of repeated names the last one counts. -/
def lookup (name : String) : List (String × Json) → Option Json
  | [] => none
  | (key, value) :: rest => (lookup name rest).or (if key = name then some value else none)

def get? (json : Json) (name : String) : Option Json :=
  match json with
  | object members => lookup name members
  | _ => none

def isNull : Json → Bool
  | null => true
  | _ => false

def string? : Json → Option String
  | string value => some value
  | _ => none

def bool? : Json → Option Bool
  | bool value => some value
  | _ => none

def array? : Json → Option (List Json)
  | array items => some items
  | _ => none

def nat? : Json → Option Nat
  | whole value => value.toNat?
  | _ => none

mutual

def height : Json → Nat
  | array items => itemsHeight items + 1
  | object members => membersHeight members + 1
  | _ => 0

def itemsHeight : List Json → Nat
  | [] => 0
  | item :: rest => max item.height (itemsHeight rest)

def membersHeight : List (String × Json) → Nat
  | [] => 0
  | (_, value) :: rest => max value.height (membersHeight rest)

end

theorem height_le_of_mem {item : Json} {items : List Json} (present : item ∈ items) :
    item.height ≤ itemsHeight items := by
  induction items with
  | nil => simp at present
  | cons first rest ih =>
    simp only [itemsHeight]
    rcases List.mem_cons.mp present with rfl | present
    · exact Nat.le_max_left _ _
    · exact Nat.le_trans (ih present) (Nat.le_max_right _ _)

theorem height_le_of_lookup {name : String} {value : Json} {members : List (String × Json)}
    (found : lookup name members = some value) : value.height ≤ membersHeight members := by
  induction members with
  | nil => simp [lookup] at found
  | cons member rest ih =>
    simp only [lookup, Option.or_eq_some_iff] at found
    simp only [membersHeight]
    rcases found with found | ⟨_, found⟩
    · exact Nat.le_trans (ih found) (Nat.le_max_right _ _)
    · split at found
      · exact Option.some.inj found ▸ Nat.le_max_left _ _
      · simp at found

theorem height_lt_of_get? {json value : Json} {name : String}
    (found : json.get? name = some value) : value.height < json.height := by
  cases json with
  | object members => exact Nat.lt_succ_of_le (height_le_of_lookup found)
  | _ => simp [get?] at found

end Json

end Freshen
