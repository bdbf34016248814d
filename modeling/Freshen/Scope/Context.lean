import Freshen.Scope.Chain
import Freshen.Tree.Basic

/-! The state of a renaming: the open scopes, and how many names were made. -/

namespace Freshen

structure Context where
  chain : Chain := {}
  count : Nat := 0
deriving DecidableEq, Repr

namespace Context

/-- A name that was never made before. The count has no bound: what is said of numbers holds of a
count of 32 bits as long as fewer than 2^32 names are made. -/
def fresh (context : Context) (name : String) : Minted × Context :=
  (⟨name, context.count⟩, { context with count := context.count + 1 })

def declare (context : Context) (name : String) : Minted × Context :=
  match context.chain.current.get? name with
  | some minted => (minted, context)
  | none =>
    let (minted, context) := context.fresh name
    (minted, { context with chain := context.chain.bind name minted })

def resolve? (context : Context) (name : String) : Option Minted :=
  context.chain.resolve? name

def enter (context : Context) : Context := { context with chain := context.chain.push }

/-- The context outside the current frame; the outermost frame cannot be left. -/
def exit? (context : Context) : Option Context :=
  context.chain.pop?.map fun (_, chain) => { context with chain }

/-- Declares the names that the statements of a list declare in it, so that references which stand
before a declaration find it. -/
def hoist (context : Context) (body : List Stmt) : Context :=
  (body.filterMap Stmt.hoistedName).foldl (fun context name => (context.declare name).2) context

end Context

end Freshen
