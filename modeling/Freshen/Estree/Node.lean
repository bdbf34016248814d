import Freshen.Json.Basic
import Freshen.Tree.Basic

/-!
ESTree nodes: JSON objects with a type name. A field that is `null` counts as absent. Values found
in a node are smaller than it, which bounds the reading of a tree.
-/

namespace Freshen.Estree

inductive LoadError where
  | missingField (kind field : String)
  | invalidField (kind field expected : String)
  | unsupportedPattern (kind : String) (span : Span)
deriving DecidableEq, Repr

def LoadError.message : LoadError → String
  | missingField kind field => s!"{kind} node is missing required field `{field}`"
  | invalidField kind field expected =>
    s!"{kind} node has an invalid `{field}`: expected {expected}"
  | unsupportedPattern kind span => s!"Unsupported binding pattern: {kind} at {span.text}"

abbrev Load := Except LoadError

abbrev Part (json : Json) := { part : Json // part.height < json.height }

structure Node (json : Json) where
  kind : String

namespace Node

variable {json : Json}

def of (json : Json) : Load (Node json) :=
  match (json.get? "type").bind Json.string? with
  | some kind => .ok ⟨kind⟩
  | none => .error (.missingField "node" "type")

/-- The node's byte range. Offsets that are no whole numbers count as 0, and larger ones are cut to
32 bits. -/
def span (_ : Node json) : Span :=
  let offset name := UInt32.ofNat (((json.get? name).bind Json.nat?).getD 0)
  ⟨offset "start", offset "end"⟩

def missing (node : Node json) (name : String) : LoadError := .missingField node.kind name

def invalid (node : Node json) (name expected : String) : LoadError :=
  .invalidField node.kind name expected

def field? (_ : Node json) (name : String) : Option (Part json) :=
  match found : json.get? name with
  | some value => if value.isNull then none else some ⟨value, Json.height_lt_of_get? found⟩
  | none => none

def field (node : Node json) (name : String) : Load (Part json) :=
  match node.field? name with
  | some part => .ok part
  | none => .error (node.missing name)

def string (node : Node json) (name : String) : Load String := do
  match (← node.field name).val.string? with
  | some value => return value
  | none => throw (node.invalid name "a string")

/-- Whether a field is `true`; anything else is false. -/
def flag (node : Node json) (name : String) : Bool :=
  ((node.field? name).bind (·.val.bool?)).getD false

def partsOf : Part json → Option (List (Part json))
  | ⟨.array items, inside⟩ => some (items.attach.map fun ⟨item, present⟩ =>
      ⟨item, Nat.lt_of_le_of_lt (Nat.le_succ_of_le (Json.height_le_of_mem present)) inside⟩)
  | _ => none

def items (node : Node json) (name : String) : Load (List (Part json)) := do
  match partsOf (← node.field name) with
  | some parts => return parts
  | none => throw (node.invalid name "an array")

end Node

end Freshen.Estree
