import Freshen.Proofs.Registry
import Mathlib.Data.Finmap
import Mathlib.Logic.Function.Iterate

/-!
Scopes are a stack of finite maps. Every frame has the position of the frame around it as parent, so
that following the parents from the current frame outward meets the open frames from the top of the
stack down, and ends at the outermost one.
-/

namespace Freshen

inductive Search where
  /-- The frame at a position is looked at next. -/
  | looking (index : Nat)
  | ended (result : Option Minted)
  /-- A parent led to a position at which there is no frame. -/
  | lost
deriving DecidableEq, Repr

namespace Chain

/-- One round of a walk. It ends at a frame that binds the name, or at one that has no parent. -/
def round (chain : Chain) (name : String) : Search → Search
  | .looking index =>
    match chain.frame? index with
    | none => .lost
    | some frame =>
      match frame.get? name with
      | some minted => .ended (some minted)
      | none => frame.parent.elim (.ended none) .looking
  | search => search

def parentsFrom : Nat → List (Option Nat)
  | 0 => [none]
  | index + 1 => some index :: parentsFrom index

theorem reverse_parentsFrom (index : Nat) :
    (parentsFrom index).reverse = none :: (List.range index).map some := by
  induction index with
  | zero => rfl
  | succ index ih =>
      rw [parentsFrom, List.reverse_cons, ih, List.range_succ, List.map_append, List.cons_append]
      rfl

/-- The parent of every frame is the position of the next one out. -/
def Linked (chain : Chain) : Prop :=
  chain.frames.map Frame.parent = parentsFrom chain.currentIndex

namespace Linked

variable {chain : Chain}

theorem initial : ({} : Chain).Linked := rfl

theorem push (linked : chain.Linked) : chain.push.Linked :=
  congrArg (some chain.currentIndex :: ·) linked

theorem pop {frame : Frame} {outer : Chain} (linked : chain.Linked)
    (popped : chain.pop? = some (frame, outer)) : outer.Linked := by
  obtain ⟨current, enclosing⟩ := chain
  cases enclosing with
  | nil => cases popped
  | cons next rest =>
      cases popped
      exact (List.cons.inj linked).2

theorem bind (linked : chain.Linked) (name : String) (minted : Minted) :
    (chain.bind name minted).Linked := linked

theorem parent (linked : chain.Linked) (index : Nat) :
    (chain.frame? index).map Frame.parent =
      (none :: (List.range chain.currentIndex).map some)[index]? := by
  rw [frame?, ← List.getElem?_map, List.map_reverse, linked, reverse_parentsFrom]

theorem parent_zero (linked : chain.Linked) :
    (chain.frame? 0).map Frame.parent = some none := linked.parent 0

theorem parent_succ (linked : chain.Linked) {index : Nat} (inside : index + 1 < chain.depth) :
    (chain.frame? (index + 1)).map Frame.parent = some (some index) := by
  have below : index < chain.currentIndex := Nat.lt_of_succ_lt_succ inside
  rw [linked.parent, List.getElem?_cons_succ, List.getElem?_map, List.getElem?_range below]
  rfl

end Linked

def outermost (chain : Chain) (bound : Nat) : List Frame :=
  (chain.frames.reverse.take bound).reverse

theorem outermost_succ {chain : Chain} {index : Nat} {frame : Frame}
    (found : chain.frame? index = some frame) :
    chain.outermost (index + 1) = frame :: chain.outermost index := by
  rw [frame?] at found
  rw [outermost, List.take_add_one, found, Option.toList_some, List.reverse_append]
  rfl

theorem outermost_depth (chain : Chain) : chain.outermost chain.depth = chain.frames := by
  rw [outermost, depth, ← List.length_reverse, List.take_length, List.reverse_reverse]

theorem round_of_frame {chain : Chain} {index : Nat} {frame : Frame} (name : String)
    (found : chain.frame? index = some frame) :
    chain.round name (.looking index) =
      (frame.get? name).elim (frame.parent.elim (.ended none) .looking) (.ended ∘ some) := by
  cases bound : frame.get? name with
  | some minted => simp [round, found, bound]
  | none => simp [round, found, bound]

/-- A walk looks at the frames from its start outward, and takes one round for each of them. -/
theorem Linked.walk_from {chain : Chain} (linked : chain.Linked) (name : String) {index : Nat}
    (inside : index < chain.depth) :
    (chain.round name)^[index + 1] (.looking index) =
      .ended ((chain.outermost (index + 1)).findSome? (·.get? name)) := by
  -- A frame that binds the name ends the walk early; the rounds that are left change nothing.
  induction index with
  | zero =>
      obtain ⟨frame, found, parent⟩ := Option.map_eq_some_iff.mp linked.parent_zero
      rw [Function.iterate_one, round_of_frame name found, outermost_succ found,
        List.findSome?_cons, parent]
      cases frame.get? name with
      | some minted => rfl
      | none => rfl
  | succ index ih =>
      obtain ⟨frame, found, parent⟩ := Option.map_eq_some_iff.mp (linked.parent_succ inside)
      rw [Function.iterate_succ_apply, round_of_frame name found, outermost_succ found,
        List.findSome?_cons, parent]
      cases frame.get? name with
      | some minted => exact Function.iterate_fixed rfl _
      | none => exact ih (Nat.lt_of_succ_lt inside)

theorem Linked.walk {chain : Chain} (linked : chain.Linked) (name : String) :
    (chain.round name)^[chain.depth] (.looking chain.currentIndex) =
      .ended (chain.resolve? name) := by
  have walked := linked.walk_from name (Nat.lt_succ_self chain.currentIndex)
  rw [resolve?, ← outermost_depth]
  exact walked

end Chain

abbrev NameMap := Finmap fun _ : String => String

inductive ScopeCall where
  | push
  | pop
  | declare (name : String)
  | resolve (name : String)
  /-- Makes a name without binding it. -/
  | fresh (name : String)
deriving DecidableEq, Repr

inductive ScopeReply where
  /-- The position of the frame that was entered. -/
  | entered (index : Nat)
  /-- The bindings of the frame that was left, if one was. -/
  | left (bindings : Option NameMap)
  | name (text : String)

def answerAll {State : Type} (answer : State → ScopeCall → ScopeReply × State) :
    State → List ScopeCall → List ScopeReply × State
  | state, [] => ([], state)
  | state, call :: rest =>
    let (reply, state) := answer state call
    let (replies, state) := answerAll answer state rest
    (reply :: replies, state)

def Frame.asMap (separator : String) (frame : Frame) : NameMap :=
  (frame.bindings.map fun (name, minted) => ⟨name, minted.text separator⟩).toFinmap

namespace Context

def resolvedText (separator : String) (context : Context) (name : String) : String :=
  ((context.resolve? name).map (Minted.text separator)).getD name

def answer (separator : String) (context : Context) : ScopeCall → ScopeReply × Context
  | .push => (.entered context.enter.chain.currentIndex, context.enter)
  | .pop =>
    match context.chain.pop? with
    | some (frame, chain) => (.left (some (frame.asMap separator)), { context with chain })
    | none => (.left none, context)
  | .declare name =>
    let (minted, context) := context.declare name
    (.name (minted.text separator), context)
  | .resolve name => (.name (context.resolvedText separator name), context)
  | .fresh name =>
    let (minted, context) := context.fresh name
    (.name (minted.text separator), context)

end Context

structure MapStack where
  top : NameMap := ∅
  below : List NameMap := []
  count : Nat := 0

namespace MapStack

def maps (stack : MapStack) : List NameMap := stack.top :: stack.below

def resolve (stack : MapStack) (name : String) : String :=
  (stack.maps.findSome? (·.lookup name)).getD name

def nextText (separator : String) (stack : MapStack) (name : String) : String :=
  name ++ separator ++ toString stack.count

def answer (separator : String) (stack : MapStack) : ScopeCall → ScopeReply × MapStack
  | .push => (.entered stack.maps.length, { stack with top := ∅, below := stack.maps })
  | .pop =>
    match stack.below with
    | [] => (.left none, stack)
    | next :: rest => (.left (some stack.top), { stack with top := next, below := rest })
  | .declare name =>
    match stack.top.lookup name with
    | some text => (.name text, stack)
    | none =>
      let text := stack.nextText separator name
      (.name text, { stack with top := stack.top.insert name text, count := stack.count + 1 })
  | .resolve name => (.name (stack.resolve name), stack)
  | .fresh name => (.name (stack.nextText separator name), { stack with count := stack.count + 1 })

end MapStack

section

variable (separator : String)

theorem Frame.lookup_asMap (frame : Frame) (name : String) :
    (frame.asMap separator).lookup name = (frame.get? name).map (Minted.text separator) := by
  rw [Frame.asMap, Frame.get?, Finmap.dlookup_list_toFinmap]
  induction frame.bindings with
  | nil => rfl
  | cons binding rest ih =>
      by_cases same : name = binding.1
      · subst same
        have here : (binding.1 == binding.1) = true := beq_self_eq_true _
        rw [List.map_cons, List.dlookup_cons_eq, List.lookup_cons, here]
        rfl
      · have differ : (name == binding.1) = false := by simpa using same
        rw [List.map_cons, List.dlookup_cons_ne _ _ same, ih, List.lookup_cons, differ]

theorem Frame.asMap_bind {frame : Frame} {name : String} (absent : frame.get? name = none)
    (minted : Minted) :
    (frame.bind name minted).asMap separator =
      (frame.asMap separator).insert name (minted.text separator) := by
  apply Finmap.ext_lookup
  intro other
  rw [Frame.lookup_asMap, Frame.get?_bind]
  by_cases same : other = name
  · subst same
    simp [absent]
  · rw [Finmap.lookup_insert_of_ne _ same, Frame.lookup_asMap]
    simp [same]

namespace Context

def asStack (context : Context) : MapStack where
  top := context.chain.current.asMap separator
  below := context.chain.enclosing.map (Frame.asMap separator)
  count := context.count

theorem resolve_asStack (context : Context) (name : String) :
    (context.asStack separator).resolve name = context.resolvedText separator name := by
  have maps : (context.asStack separator).maps =
      context.chain.frames.map (Frame.asMap separator) := rfl
  have found : (fun map : NameMap => map.lookup name) ∘ Frame.asMap separator =
      Option.map (Minted.text separator) ∘ fun frame => frame.get? name :=
    funext fun frame => Frame.lookup_asMap separator frame name
  rw [MapStack.resolve, maps, List.findSome?_map, found, ← List.map_findSome?]
  rfl

/-- Every call has the same reply from the scopes and from the stack they stand for, and leads to
scopes that stand for the new stack. -/
theorem answer_asStack (context : Context) (call : ScopeCall) :
    (context.asStack separator).answer separator call =
      ((context.answer separator call).1, (context.answer separator call).2.asStack separator) := by
  cases call with
  | push =>
      have depth : (context.asStack separator).maps.length = context.enter.chain.currentIndex := by
        simp [MapStack.maps, asStack, enter, Chain.push, Chain.currentIndex, Chain.frames]
      rw [MapStack.answer, depth]
      rfl
  | pop =>
      obtain ⟨⟨current, enclosing⟩, count⟩ := context
      cases enclosing with
      | nil => rfl
      | cons outer rest => rfl
  | declare name =>
      have known : (context.asStack separator).top.lookup name =
          (context.chain.current.get? name).map (Minted.text separator) :=
        Frame.lookup_asMap separator _ name
      rw [MapStack.answer, known, answer, Context.declare]
      cases bound : context.chain.current.get? name with
      | some minted => rfl
      | none =>
          have grown := Frame.asMap_bind separator bound ⟨name, context.count⟩
          simp only [Option.map_none, fresh, asStack, Chain.bind, grown]
          rfl
  | resolve name => rw [MapStack.answer, resolve_asStack, answer]
  | fresh name => rfl

theorem answerAll_asStack (context : Context) (calls : List ScopeCall) :
    answerAll (MapStack.answer separator) (context.asStack separator) calls =
      ((answerAll (answer separator) context calls).1,
        (answerAll (answer separator) context calls).2.asStack separator) := by
  induction calls generalizing context with
  | nil => rfl
  | cons call rest ih => simp only [answerAll, answer_asStack, ih]

theorem answer_linked {context : Context} (linked : context.chain.Linked) (call : ScopeCall) :
    (context.answer separator call).2.chain.Linked := by
  cases call with
  | push => exact linked.push
  | pop =>
      rw [answer]
      cases popped : context.chain.pop? with
      | none => exact linked
      | some result => exact linked.pop popped
  | declare name =>
      rw [answer, Context.declare]
      cases context.chain.current.get? name with
      | some minted => exact linked
      | none => exact linked.bind name _
  | resolve name => exact linked
  | fresh name => exact linked

theorem answerAll_linked (context : Context) (linked : context.chain.Linked)
    (calls : List ScopeCall) :
    (answerAll (answer separator) context calls).2.chain.Linked := by
  induction calls generalizing context with
  | nil => exact linked
  | cons call rest ih => exact ih _ (answer_linked separator linked call)

end Context

end

/-- Scopes answer every series of calls as a stack of finite maps does. There always is a frame, the
current one is the last, and every frame has the position of the next one out as its parent. A walk
along the parents meets frames only, ends after at most one round for each of them, and finds what
the stack, searched from the top, has for the name. -/
theorem scopes_refine_map_stack (separator : String) (calls : List ScopeCall) :
    let scopes := answerAll (Context.answer separator) {} calls
    let stack := answerAll (MapStack.answer separator) {} calls
    let chain := scopes.2.chain
    scopes.1 = stack.1 ∧ 0 < chain.depth ∧ chain.currentIndex = chain.depth - 1 ∧
      (chain.frame? 0).map Frame.parent = some none ∧
      (∀ index, index + 1 < chain.depth →
        (chain.frame? (index + 1)).map Frame.parent = some (some index)) ∧
      ∀ name, (chain.round name)^[chain.depth] (.looking chain.currentIndex) =
          .ended (chain.resolve? name) ∧
        scopes.2.resolvedText separator name =
          (stack.2.maps.findSome? (·.lookup name)).getD name := by
  intro scopes stack chain
  have linked : chain.Linked :=
    Context.answerAll_linked separator {} Chain.Linked.initial calls
  have refines : stack = (scopes.1, scopes.2.asStack separator) :=
    Context.answerAll_asStack separator {} calls
  rw [refines]
  refine ⟨rfl, Nat.succ_pos _, rfl, linked.parent_zero, fun _ => linked.parent_succ, ?_⟩
  intro name
  exact ⟨linked.walk name, (Context.resolve_asStack separator scopes.2 name).symm⟩

theorem scopes_refine_map_stack_reused :
    let calls : List ScopeCall := [.pop, .declare "x", .push, .declare "x", .fresh "y", .pop, .push,
      .push, .declare "y"]
    let scopes := answerAll (Context.answer "$") {} calls
    let chain := scopes.2.chain
    1 + 1 < chain.depth ∧ (chain.frame? (1 + 1)).map Frame.parent = some (some 1) ∧
      (chain.round "x")^[3] (.looking 2) = .ended (some ⟨"x", 0⟩) ∧
      scopes.2.resolvedText "$" "x" = "x$0" := by
  intro calls scopes chain
  obtain ⟨_, _, _, _, parents, found⟩ := scopes_refine_map_stack "$" calls
  exact ⟨by decide, parents 1 (by decide), (found "x").1, by decide⟩

end Freshen
