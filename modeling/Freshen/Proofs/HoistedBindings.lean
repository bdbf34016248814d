import Freshen.Proofs.Filling
import Freshen.Proofs.OwnNames
import Freshen.Proofs.Registry

/-!
What hoisting does to the scopes. The current frame gets a binding for every name of the list that
it does not have, numbered in the order in which the names come first, and nothing else changes.
After that the list has no name left to bind.
-/

namespace Freshen

namespace Frame

/-- The names of a list that the frame does not bind, each once, in the order of their first
occurrences. -/
def unbound (frame : Frame) (names : List String) : List String :=
  (names.filter fun name => (frame.get? name).isNone).eraseDups

theorem unbound_cons_of_bound {frame : Frame} {name : String} {minted : Minted}
    (bound : frame.get? name = some minted) (rest : List String) :
    frame.unbound (name :: rest) = frame.unbound rest := by
  rw [unbound, List.filter_cons_of_neg (by simp [bound]), unbound]

theorem unbound_cons_of_absent {frame : Frame} {name : String} (absent : frame.get? name = none)
    (minted : Minted) (rest : List String) :
    frame.unbound (name :: rest) = name :: (frame.bind name minted).unbound rest := by
  rw [unbound, List.filter_cons_of_pos (by simp [absent]), List.eraseDups_cons, List.filter_filter,
    unbound]
  congr 3
  funext other
  rw [get?_bind]
  by_cases same : other = name
  · simp [same]
  · simp [same]

end Frame

namespace Context

def bindAll (context : Context) (names : List String) : Context where
  chain := { context.chain with
    current := { context.chain.current with
      bindings := context.chain.current.bindings ++
        (names.zipIdx context.count).map fun (name, number) => (name, ⟨name, number⟩) } }
  count := context.count + names.length

theorem bindAll_nil (context : Context) : context.bindAll [] = context := by
  simp [bindAll]

theorem bindAll_cons (context : Context) (name : String) (rest : List String) :
    context.bindAll (name :: rest) =
      bindAll ⟨context.chain.bind name ⟨name, context.count⟩, context.count + 1⟩ rest := by
  simp [bindAll, Chain.bind, Frame.bind]
  omega

theorem hoist_eq_bindAll (context : Context) (body : List Stmt) :
    context.hoist body = context.bindAll (context.chain.current.unbound (hoistedNames body)) := by
  rw [hoist, ← hoistedNames]
  induction hoistedNames body generalizing context with
  | nil => exact context.bindAll_nil.symm
  | cons name rest ih =>
      rw [List.foldl_cons, ih, declare]
      cases bound : context.chain.current.get? name with
      | some minted => rw [Frame.unbound_cons_of_bound bound]
      | none =>
          rw [Frame.unbound_cons_of_absent bound ⟨name, context.count⟩, bindAll_cons]
          rfl

theorem get?_hoist_ne_none (context : Context) {body : List Stmt} {name : String}
    (hoisted : name ∈ hoistedNames body) : (context.hoist body).chain.current.get? name ≠ none :=
  (Writer.binds_hoist { context } body).mpr (.inr hoisted)

theorem hoist_of_bound {context : Context} {body : List Stmt}
    (bound : ∀ name ∈ hoistedNames body, context.chain.current.get? name ≠ none) :
    context.hoist body = context := by
  have nothing : context.chain.current.unbound (hoistedNames body) = [] := by
    rw [Frame.unbound, List.filter_eq_nil_iff.mpr, List.eraseDups_nil]
    intro name hoisted
    simpa using bound name hoisted
  rw [hoist_eq_bindAll, nothing, bindAll_nil]

theorem declare_of_bound {context : Context} {name : String} {minted : Minted}
    (bound : context.chain.current.get? name = some minted) :
    context.declare name = (minted, context) := by
  rw [declare, bound]

theorem resolve?_of_bound {context : Context} {name : String} {minted : Minted}
    (bound : context.chain.current.get? name = some minted) :
    context.resolve? name = some minted := by
  rw [resolve?, Chain.resolve?, Chain.frames, List.findSome?_cons, bound]

end Context

/-- Hoisting adds to the current frame one binding for each name that it did not have, numbered from
the count on in the order of their first occurrences. All other frames stay as they are. Every
hoisted name then means its binding in the current frame, whatever the frames around it bind, and
hoisting the list again or declaring one of its names changes nothing. -/
theorem hoist_binds_exactly (context : Context) (body : List Stmt) :
    let hoisted := context.hoist body
    let new := context.chain.current.unbound (hoistedNames body)
    (∀ separator, hoisted.chain.current.texts separator =
        context.chain.current.texts separator ++
          (new.zipIdx context.count).map fun (name, number) =>
            (name, name ++ separator ++ toString number)) ∧
      hoisted.count = context.count + new.length ∧
      hoisted.chain.enclosing = context.chain.enclosing ∧
      hoisted.chain.current.parent = context.chain.current.parent ∧
      (∀ name ∈ hoistedNames body, ∃ minted, hoisted.chain.current.get? name = some minted ∧
        hoisted.resolve? name = some minted ∧ hoisted.declare name = (minted, hoisted)) ∧
      hoisted.hoist body = hoisted ∧
      ∀ writer : Writer, Step.runAll (hoistSteps body) { writer with context } =
        .ok () { writer with context := hoisted } := by
  intro hoisted new
  have whole : hoisted = context.bindAll new := context.hoist_eq_bindAll body
  have bound : ∀ name ∈ hoistedNames body, hoisted.chain.current.get? name ≠ none :=
    fun _ member => context.get?_hoist_ne_none member
  refine ⟨?_, ?_, ?_, ?_, ?_, Context.hoist_of_bound bound, ?_⟩
  · intro separator
    rw [whole, Frame.texts, Context.bindAll, List.map_append, List.map_map]
    rfl
  · rw [whole, Context.bindAll]
  · rw [whole, Context.bindAll]
  · rw [whole, Context.bindAll]
  · intro name member
    obtain ⟨minted, found⟩ := Option.ne_none_iff_exists'.mp (bound name member)
    exact ⟨minted, found, Context.resolve?_of_bound found, Context.declare_of_bound found⟩
  · exact fun writer => Step.runAll_hoistSteps body { writer with context }

theorem hoist_binds_exactly_nested :
    let group (name : String) : Stmt := .var .var [.mk name none {}] {}
    let body : List Stmt := [.function (some "g") [] [] {} {}, group "a", .empty {}, group "b",
      group "a", group "g"]
    let context := ((({} : Context).declare "a").2.enter.declare "b").2
    let hoisted := context.hoist body
    context.chain.current.unbound (hoistedNames body) = ["g", "a"] ∧
      hoisted.chain.current.texts "$" = [("b", "b$1"), ("g", "g$2"), ("a", "a$3")] ∧
      hoisted.count = 4 ∧ "a" ∈ hoistedNames body ∧
      ∃ minted, hoisted.chain.current.get? "a" = some minted ∧
        hoisted.resolve? "a" = some minted ∧ hoisted.declare "a" = (minted, hoisted) := by
  intro group body context hoisted
  obtain ⟨texts, count, _, _, bound, _, _⟩ := hoist_binds_exactly context body
  have member : "a" ∈ hoistedNames body := by decide
  exact ⟨by decide, (texts "$").trans (by decide), count.trans (by decide), member,
    bound "a" member⟩

end Freshen
