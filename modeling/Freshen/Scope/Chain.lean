/-!
Scopes. A frame binds declared names to the names made for them; a chain is the stack of frames
that are open, and a reference means the innermost of them that binds it.
-/

namespace Freshen

/-- A name made for a binding: the declared name, and the number that tells it from all others. -/
structure Minted where
  base : String
  index : Nat
deriving DecidableEq, Repr

def Minted.text (separator : String) (name : Minted) : String :=
  name.base ++ separator ++ toString name.index

structure Frame where
  parent : Option Nat := none
  bindings : List (String × Minted) := []
deriving DecidableEq, Repr

namespace Frame

def get? (frame : Frame) (name : String) : Option Minted := frame.bindings.lookup name

def bind (frame : Frame) (name : String) (minted : Minted) : Frame :=
  { frame with bindings := frame.bindings ++ [(name, minted)] }

end Frame

/-- The open frames. There always is one; `enclosing` has the others, innermost first. -/
structure Chain where
  current : Frame := {}
  enclosing : List Frame := []
deriving DecidableEq, Repr

namespace Chain

def frames (chain : Chain) : List Frame := chain.current :: chain.enclosing

def depth (chain : Chain) : Nat := chain.frames.length

def currentIndex (chain : Chain) : Nat := chain.enclosing.length

def frame? (chain : Chain) (index : Nat) : Option Frame := chain.frames.reverse[index]?

def push (chain : Chain) : Chain :=
  { current := { parent := some chain.currentIndex }, enclosing := chain.frames }

/-- The current frame and the chain without it; the outermost frame stays. -/
def pop? (chain : Chain) : Option (Frame × Chain) :=
  match chain.enclosing with
  | [] => none
  | outer :: rest => some (chain.current, ⟨outer, rest⟩)

def bind (chain : Chain) (name : String) (minted : Minted) : Chain :=
  { chain with current := chain.current.bind name minted }

def resolve? (chain : Chain) (name : String) : Option Minted :=
  chain.frames.findSome? (·.get? name)

end Chain

end Freshen
