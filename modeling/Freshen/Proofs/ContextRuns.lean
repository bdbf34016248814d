import Freshen.Proofs.Balance
import Freshen.Proofs.MintedNames
import Freshen.Proofs.Trace
import Mathlib.Data.Finset.Card
import Mathlib.Data.List.Infix

/-!
Contexts used call by call. Frames are told apart by the order in which they are entered, so that
one that is entered later is another one even if it has the position of a frame that was left.
A declaration is known by its frame and its name, however calls follow one another, and frames that
are entered and left again leave the scopes as they were.
-/

namespace Freshen

inductive ContextCall where
  | declare (name : String)
  | resolve (name : String)
  | enter
  | exit
  | hoist (body : List Stmt)

def ContextCall.names : ContextCall → List String
  | declare name => [name]
  | hoist body => body.filterMap Stmt.hoistedName
  | resolve _ | enter | exit => []

namespace Context

/-- The context after a call. The outermost frame cannot be left; trying to changes nothing. -/
def call (context : Context) : ContextCall → Context
  | .declare name => (context.declare name).2
  | .resolve _ => context
  | .enter => context.enter
  | .exit => context.exit?.getD context
  | .hoist body => context.hoist body

def after (context : Context) (calls : List ContextCall) : Context := calls.foldl call context

end Context

/-- The frames that are open, each by the number it got when it was entered. -/
structure Visits where
  current : Nat := 0
  enclosing : List Nat := []
  /-- The number of the next frame to be entered. -/
  next : Nat := 1
deriving DecidableEq, Repr

namespace Visits

def frames (visits : Visits) : List Nat := visits.current :: visits.enclosing

def call (visits : Visits) : ContextCall → Visits
  | .enter => ⟨visits.next, visits.frames, visits.next + 1⟩
  | .exit =>
    match visits.enclosing with
    | [] => visits
    | outer :: rest => ⟨outer, rest, visits.next⟩
  | .declare _ | .resolve _ | .hoist _ => visits

def after (visits : Visits) (calls : List ContextCall) : Visits := calls.foldl call visits

end Visits

structure Declared where
  site : Binding
  minted : Minted
deriving DecidableEq, Repr

namespace Context

def declared (context : Context) (frame : Nat) : List String → List Declared
  | [] => []
  | name :: rest =>
    ⟨(frame, name), (context.declare name).1⟩ :: (context.declare name).2.declared frame rest

def log (context : Context) (visits : Visits) : List ContextCall → List Declared
  | [] => []
  | call :: rest =>
    context.declared visits.current call.names ++ (context.call call).log (visits.call call) rest

def sites (calls : List ContextCall) : Finset Binding :=
  ((({} : Context).log {} calls).map Declared.site).toFinset

theorem log_append (context : Context) (visits : Visits) (first second : List ContextCall) :
    context.log visits (first ++ second) =
      context.log visits first ++ (context.after first).log (visits.after first) second := by
  induction first generalizing context visits with
  | nil => rfl
  | cons call rest ih =>
      rw [List.cons_append, log, log, ih, List.append_assoc]
      rfl

end Context

theorem mem_foldl_register {bindings sites : List Binding} {binding : Binding} :
    binding ∈ sites.foldl register bindings ↔ binding ∈ bindings ∨ binding ∈ sites := by
  induction sites generalizing bindings with
  | nil => simp
  | cons site rest ih => rw [List.foldl_cons, ih, mem_register, List.mem_cons, or_assoc]

theorem prefix_foldl_register (bindings sites : List Binding) :
    bindings <+: sites.foldl register bindings := by
  induction sites generalizing bindings with
  | nil => exact List.prefix_rfl
  | cons site rest ih => exact (prefix_register bindings site).trans (ih _)

/-- The context has declared exactly the given bindings, in frames that were entered; those that are
open are the open ones of the context. -/
def Context.TrackedBy (context : Context) (visits : Visits) (bindings : List Binding) : Prop :=
  ({ context } : Writer).Tracked visits.frames visits.next bindings

def NamedBy (bindings : List Binding) (log : List Declared) : Prop :=
  ∀ entry ∈ log, entry.site ∈ bindings ∧ entry.minted = mintedFor bindings entry.site

theorem NamedBy.grow {bindings more : List Binding} {log : List Declared}
    (named : NamedBy bindings log) (grows : bindings <+: more) : NamedBy more log := by
  intro entry member
  obtain ⟨present, minted⟩ := named entry member
  exact ⟨grows.subset present, minted.trans (mintedFor_stable grows present).symm⟩

theorem NamedBy.append {bindings : List Binding} {first second : List Declared}
    (left : NamedBy bindings first) (right : NamedBy bindings second) :
    NamedBy bindings (first ++ second) := by
  intro entry member
  rcases List.mem_append.mp member with member | member
  · exact left entry member
  · exact right entry member

namespace Context.TrackedBy

variable {context : Context} {visits : Visits} {bindings : List Binding}

theorem initial : ({} : Context).TrackedBy {} [] := Writer.Tracked.initial

theorem declare (tracked : context.TrackedBy visits bindings) (name : String) :
    (context.declare name).2.TrackedBy visits (register bindings (visits.current, name)) :=
  Writer.Tracked.declare tracked name

theorem declare_named (tracked : context.TrackedBy visits bindings) (name : String) :
    NamedBy (register bindings (visits.current, name))
      [⟨(visits.current, name), (context.declare name).1⟩] := by
  intro entry member
  rw [List.mem_singleton.mp member]
  exact ⟨mem_register.mpr (Or.inr rfl), (tracked.records.declare name).1⟩

theorem declared (tracked : context.TrackedBy visits bindings) (names : List String) :
    let sites := (context.declared visits.current names).map Declared.site
    (names.foldl (fun context name => (context.declare name).2) context).TrackedBy visits
        (sites.foldl register bindings) ∧
      NamedBy (sites.foldl register bindings) (context.declared visits.current names) := by
  induction names generalizing context bindings with
  | nil => exact ⟨tracked, fun _ member => nomatch member⟩
  | cons name rest ih =>
      obtain ⟨finished, named⟩ := ih (tracked.declare name)
      exact ⟨finished, ((tracked.declare_named name).grow (prefix_foldl_register _ _)).append named⟩

theorem enter (tracked : context.TrackedBy visits bindings) :
    context.enter.TrackedBy (visits.call .enter) bindings :=
  Writer.Tracked.enter tracked

theorem exit (tracked : context.TrackedBy visits bindings) :
    (context.exit?.getD context).TrackedBy (visits.call .exit) bindings := by
  obtain ⟨current, enclosing, next⟩ := visits
  cases enclosing with
  | cons outer rest => exact Writer.Tracked.exit tracked
  | nil =>
      -- No frame is open around the current one in the context either, so that it cannot be left.
      obtain ⟨⟨frame, around⟩, count⟩ := context
      have only : around = [] := by
        have holds := tracked.records.holds
        rw [Chain.frames, Visits.frames, List.forall₂_cons, List.forall₂_nil_right_iff] at holds
        exact holds.2
      subst only
      exact tracked

theorem call (tracked : context.TrackedBy visits bindings) (call : ContextCall) :
    let sites := (context.declared visits.current call.names).map Declared.site
    (context.call call).TrackedBy (visits.call call) (sites.foldl register bindings) ∧
      NamedBy (sites.foldl register bindings) (context.declared visits.current call.names) := by
  cases call with
  | declare name => exact tracked.declared [name]
  | resolve name => exact tracked.declared []
  | hoist body => exact tracked.declared (body.filterMap Stmt.hoistedName)
  | enter => exact ⟨tracked.enter, fun _ member => nomatch member⟩
  | exit => exact ⟨tracked.exit, fun _ member => nomatch member⟩

theorem after (tracked : context.TrackedBy visits bindings) (calls : List ContextCall) :
    let sites := (context.log visits calls).map Declared.site
    (context.after calls).TrackedBy (visits.after calls) (sites.foldl register bindings) ∧
      NamedBy (sites.foldl register bindings) (context.log visits calls) := by
  induction calls generalizing context visits bindings with
  | nil => exact ⟨tracked, fun _ member => nomatch member⟩
  | cons call rest ih =>
      obtain ⟨middle, first⟩ := tracked.call call
      obtain ⟨finished, second⟩ := ih middle
      simp only [Context.log, List.map_append, List.foldl_append]
      exact ⟨finished, (first.grow (prefix_foldl_register _ _)).append second⟩

end Context.TrackedBy

/-- Every declaration from the start on adds one to the count, unless its name was declared in its
frame before. -/
theorem Context.count_after (calls : List ContextCall) :
    (({} : Context).after calls).count = (Context.sites calls).card := by
  obtain ⟨tracked, _⟩ := Context.TrackedBy.initial.after calls
  have distinct := tracked.records.distinct
  rw [tracked.records.count, ← List.toFinset_card_of_nodup distinct]
  congr 1
  ext binding
  simp [Context.sites, mem_foldl_register]

/-- Two declarations of a run are given the same text exactly if they declare the same name in the
same frame, and as many names were made as there are frames and names declared in them. -/
theorem declared_texts_eq_iff_same_site {separator : String}
    (valid : separatorFault? separator = none) (calls : List ContextCall) :
    (∀ first ∈ ({} : Context).log {} calls, ∀ second ∈ ({} : Context).log {} calls,
      first.minted.text separator = second.minted.text separator ↔ first.site = second.site) ∧
      (({} : Context).after calls).count = (Context.sites calls).card := by
  obtain ⟨_, named⟩ := Context.TrackedBy.initial.after calls
  refine ⟨?_, Context.count_after calls⟩
  intro first inFirst second inSecond
  obtain ⟨present, firstName⟩ := named first inFirst
  obtain ⟨_, secondName⟩ := named second inSecond
  calc
    first.minted.text separator = second.minted.text separator ↔ first.minted = second.minted :=
      (Minted.text_injective (exists_nonDigit_of_valid valid)).eq_iff
    _ ↔ first.site = second.site := by
      rw [firstName, secondName]
      exact mintedFor_inj present

theorem declared_texts_eq_iff_reentered :
    let calls : List ContextCall := [.declare "a", .enter, .declare "a", .exit, .exit, .enter,
      .hoist [.var .var [.mk "a" none {}] {}], .declare "a", .resolve "a", .exit, .declare "a"]
    let log := ({} : Context).log {} calls
    separatorFault? "$" = none ∧
      log.map (fun entry => (entry.site, entry.minted.text "$")) =
        [((0, "a"), "a$0"), ((1, "a"), "a$1"), ((2, "a"), "a$2"), ((2, "a"), "a$2"),
          ((0, "a"), "a$0")] ∧
      (∀ first ∈ log, ∀ second ∈ log,
        first.minted.text "$" = second.minted.text "$" ↔ first.site = second.site) ∧
      (({} : Context).after calls).count = (Context.sites calls).card := by
  intro calls log
  have valid : separatorFault? "$" = none := by decide
  exact ⟨valid, by decide, declared_texts_eq_iff_same_site valid calls⟩

namespace ContextCall

def isEnter : ContextCall → Bool
  | enter => true
  | _ => false

def isExit : ContextCall → Bool
  | exit => true
  | _ => false

/-- Every frame that calls enter is left again, and they leave no other. -/
structure Balanced (calls : List ContextCall) : Prop where
  covered : ∀ front, front <+: calls → front.countP isExit ≤ front.countP isEnter
  settled : calls.countP isExit = calls.countP isEnter

instance (calls : List ContextCall) : Decidable (Balanced calls) :=
  decidable_of_iff
    ((∀ front ∈ calls.inits, front.countP isExit ≤ front.countP isEnter) ∧
      calls.countP isExit = calls.countP isEnter)
    ⟨fun ⟨covered, settled⟩ =>
        ⟨fun front part => covered front ((List.mem_inits _ _).mpr part), settled⟩,
      fun balanced =>
        ⟨fun front member => balanced.covered front ((List.mem_inits _ _).mp member),
          balanced.settled⟩⟩

end ContextCall

namespace Context

/-- The level says how many of the frames around the current one were entered last. A call keeps the
frames outside these, unless it leaves the outermost of them. -/
theorem enclosing_call {outer : List Frame} (nonempty : outer ≠ []) {context : Context}
    (call : ContextCall) {level next : Nat} (around : context.chain.enclosing.drop level = outer)
    (change : next + (if call.isExit then 1 else 0) = level + if call.isEnter then 1 else 0) :
    (context.call call).chain.enclosing.drop next = outer := by
  cases call with
  | declare name =>
      obtain rfl : next = level := change
      rw [call, (Context.Grew.declare context name).enclosing, around]
  | resolve name =>
      obtain rfl : next = level := change
      exact around
  | hoist body =>
      obtain rfl : next = level := change
      rw [call, (Context.Grew.hoist context body).enclosing, around]
  | enter =>
      obtain rfl : next = level + 1 := change
      exact around
  | exit =>
      obtain rfl : next + 1 = level := change
      obtain ⟨⟨current, enclosing⟩, count⟩ := context
      cases enclosing with
      | nil => exact absurd around.symm nonempty
      | cons first rest => exact around

theorem enclosing_after {outer : List Frame} (nonempty : outer ≠ []) {context : Context}
    {calls : List ContextCall} {level final : Nat}
    (around : context.chain.enclosing.drop level = outer)
    (covered : ∀ front, front <+: calls →
      front.countP ContextCall.isExit ≤ level + front.countP ContextCall.isEnter)
    (settled : final + calls.countP ContextCall.isExit =
      level + calls.countP ContextCall.isEnter) :
    (context.after calls).chain.enclosing.drop final = outer := by
  -- On the way the level may differ from the final one; that no beginning of the calls leaves more
  -- frames than it finds entered is what keeps it from falling below 0.
  induction calls generalizing context level with
  | nil =>
      obtain rfl : final = level := settled
      exact around
  | cons call rest ih =>
      have first := covered [call] ⟨rest, rfl⟩
      rw [List.countP_singleton, List.countP_singleton] at first
      obtain ⟨next, change⟩ : ∃ next, next + (if call.isExit then 1 else 0) =
          level + if call.isEnter then 1 else 0 := ⟨_, Nat.sub_add_cancel first⟩
      refine ih (enclosing_call nonempty call around change) ?_ ?_
      · intro front part
        have whole := covered (call :: front) (List.cons_prefix_cons.mpr ⟨rfl, part⟩)
        rw [List.countP_cons, List.countP_cons] at whole
        omega
      · rw [List.countP_cons, List.countP_cons] at settled
        omega

theorem chain_after_framed (context : Context) {inner : List ContextCall}
    (balanced : ContextCall.Balanced inner) :
    (context.after (.enter :: inner ++ [.exit])).chain = context.chain := by
  have opened : context.enter.chain.enclosing.drop 0 = context.chain.frames := rfl
  have inside : (context.enter.after inner).chain.enclosing.drop 0 = context.chain.frames := by
    apply enclosing_after (List.cons_ne_nil _ _) opened
    · simpa using balanced.covered
    · simpa using balanced.settled
  have left : context.after (.enter :: inner ++ [.exit]) =
      (context.enter.after inner).call .exit := by
    simp [after, call, List.foldl_append]
  rw [List.drop_zero] at inside
  rw [left, call, exit?, Chain.pop?, inside]
  rfl

theorem sites_subset (calls more : List ContextCall) : sites calls ⊆ sites (calls ++ more) := by
  intro site member
  rw [sites, List.mem_toFinset] at member ⊢
  rw [log_append, List.map_append]
  exact List.mem_append_left _ member

end Context

/-- Entering a frame, calls that leave exactly the frames they enter, and leaving it bring back the
scopes that were open before, so that every name means what it meant. Only the count may have grown,
by the number of frames and names first declared in between; up to 2^32 names can be counted so. -/
theorem leaving_undoes_entering (calls inner : List ContextCall)
    (balanced : ContextCall.Balanced inner) :
    let before := ({} : Context).after calls
    let between := .enter :: inner ++ [.exit]
    (before.after between).chain = before.chain ∧
      (∀ name, (before.after between).resolve? name = before.resolve? name) ∧
      (before.after between).count =
        before.count + (Context.sites (calls ++ between) \ Context.sites calls).card := by
  intro before between
  have chain : (before.after between).chain = before.chain :=
    Context.chain_after_framed before balanced
  refine ⟨chain, ?_, ?_⟩
  · intro name
    rw [Context.resolve?, chain, Context.resolve?]
  · have whole : before.after between = ({} : Context).after (calls ++ between) :=
      (List.foldl_append ..).symm
    have grown := Finset.card_sdiff_add_card_eq_card (Context.sites_subset calls between)
    rw [whole, Context.count_after, Context.count_after, ← grown, Nat.add_comm]

theorem leaving_undoes_entering_nested :
    let calls : List ContextCall := [.declare "a", .enter, .declare "b"]
    let inner : List ContextCall := [.declare "a", .enter, .declare "a", .exit, .enter,
      .hoist [.var .var [.mk "a" none {}] {}, .function (some "b") [] [] {} {}], .exit,
      .declare "a"]
    let before := ({} : Context).after calls
    let between := .enter :: inner ++ [.exit]
    before.count = 2 ∧ (before.after between).count = 6 ∧
      (before.after between).chain = before.chain ∧
      (∀ name, (before.after between).resolve? name = before.resolve? name) ∧
      (before.after between).count =
        before.count + (Context.sites (calls ++ between) \ Context.sites calls).card :=
  ⟨by decide, by decide, leaving_undoes_entering _ _ (by decide)⟩

end Freshen
