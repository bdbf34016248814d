import Freshen.Proofs.Registry
import Freshen.Proofs.Scoping
import Freshen.Proofs.Writing

/-!
What steps do with names, as a list of events read off the steps alone. The names that a run writes,
and the bindings it declares, are those of its events, taken in order.
-/

namespace Freshen

/-- A name that is declared, with or without being written, or that is referred to. -/
structure Event where
  occurrence : Occurrence
  /-- Whether the name is written; a hoisted name is only declared. -/
  written : Bool
deriving DecidableEq, Repr

namespace Step

mutual

def width : Step → Nat
  | framed body => widthAll body + 1
  | braced body => widthAll body
  | _ => 0

def widthAll : List Step → Nat
  | [] => 0
  | step :: rest => width step + widthAll rest

end

mutual

/-- The events of a step inside the given frames; `next` is the number of the next frame. -/
def events (frames : List Nat) (next : Nat) : Step → List Event
  | bind name => [⟨⟨name, frames, true⟩, false⟩]
  | declare name => [⟨⟨name, frames, true⟩, true⟩]
  | refer name => [⟨⟨name, frames, false⟩, true⟩]
  | framed body => eventsAll (next :: frames) (next + 1) body
  | braced body => eventsAll frames next body
  | _ => []

def eventsAll (frames : List Nat) (next : Nat) : List Step → List Event
  | [] => []
  | step :: rest => events frames next step ++ eventsAll frames (next + width step) rest

end

theorem widthAll_append (first second : List Step) :
    widthAll (first ++ second) = widthAll first + widthAll second := by
  induction first with
  | nil => simp [widthAll]
  | cons step rest ih => simp [widthAll, ih, Nat.add_assoc]

theorem eventsAll_append (frames : List Nat) (next : Nat) (first second : List Step) :
    eventsAll frames next (first ++ second) =
      eventsAll frames next first ++ eventsAll frames (next + widthAll first) second := by
  induction first generalizing next with
  | nil => simp [eventsAll, widthAll]
  | cons step rest ih => simp [eventsAll, widthAll, ih, Nat.add_assoc]

end Step

def Occurrence.site? (occurrence : Occurrence) : Option Binding :=
  if occurrence.declares then occurrence.frames.head?.map (·, occurrence.name) else none

def Event.registered (bindings : List Binding) (event : Event) : List Binding :=
  match event.occurrence.site? with
  | some site => register bindings site
  | none => bindings

def Occurrence.piece (bindings : List Binding) (occurrence : Occurrence) : Piece :=
  match occurrence.site? with
  | some site => .declaration (mintedFor bindings site)
  | none =>
    (binder? bindings occurrence.frames occurrence.name).elim (.free occurrence.name)
      fun frame => .reference (mintedFor bindings (frame, occurrence.name))

def writtenNames : List Binding → List Event → List Piece
  | _, [] => []
  | bindings, event :: rest =>
    let declared := event.registered bindings
    (if event.written then [event.occurrence.piece declared] else []) ++ writtenNames declared rest

theorem writtenNames_append (bindings : List Binding) (first second : List Event) :
    writtenNames bindings (first ++ second) =
      writtenNames bindings first ++
        writtenNames (first.foldl Event.registered bindings) second := by
  induction first generalizing bindings with
  | nil => rfl
  | cons event rest ih => simp [writtenNames, ih]

theorem Event.prefix_registered (bindings : List Binding) (event : Event) :
    bindings <+: event.registered bindings := by
  rw [Event.registered]
  split
  · exact prefix_register _ _
  · exact List.prefix_rfl

theorem Event.mem_registered {bindings : List Binding} {event : Event} {binding : Binding} :
    binding ∈ event.registered bindings ↔
      binding ∈ bindings ∨ event.occurrence.site? = some binding := by
  rw [Event.registered]
  cases declared : event.occurrence.site? with
  | none => simp
  | some site => simp [mem_register, eq_comm]

theorem prefix_foldl_registered (bindings : List Binding) (events : List Event) :
    bindings <+: events.foldl Event.registered bindings := by
  induction events generalizing bindings with
  | nil => exact List.prefix_rfl
  | cons event rest ih => exact (event.prefix_registered bindings).trans (ih _)

theorem mem_foldl_registered {bindings : List Binding} {events : List Event} {binding : Binding} :
    binding ∈ events.foldl Event.registered bindings ↔
      binding ∈ bindings ∨ ∃ event ∈ events, event.occurrence.site? = some binding := by
  induction events generalizing bindings with
  | nil => simp
  | cons event rest ih =>
      rw [List.foldl_cons, ih, Event.mem_registered, or_assoc]
      simp

def Piece.declared? : Piece → Option Minted
  | declaration minted => some minted
  | _ => none

theorem Occurrence.declared?_piece (bindings : List Binding) (occurrence : Occurrence) :
    (occurrence.piece bindings).declared? = occurrence.site?.map (mintedFor bindings) := by
  rw [Occurrence.piece]
  cases occurrence.site? with
  | some site => rfl
  | none => cases binder? bindings occurrence.frames occurrence.name <;> rfl

/-- Every declaration writes the name that its binding has in the end. -/
theorem declared_writtenNames (bindings : List Binding) (events : List Event) :
    (writtenNames bindings events).filterMap Piece.declared? =
      (((events.filter Event.written).map Event.occurrence).filterMap Occurrence.site?).map
        (mintedFor (events.foldl Event.registered bindings)) := by
  induction events generalizing bindings with
  | nil => rfl
  | cons event rest ih =>
      rw [writtenNames, List.filterMap_append, ih, List.foldl_cons]
      cases written : event.written with
      | false => simp [written]
      | true =>
          cases declared : event.occurrence.site? with
          | none => simp [written, declared, Occurrence.declared?_piece]
          | some site =>
              have present : site ∈ event.registered bindings :=
                Event.mem_registered.mpr (Or.inr declared)
              have kept := mintedFor_stable (prefix_foldl_registered _ rest) present
              simp [written, declared, kept, Occurrence.declared?_piece]

def Piece.isName : Piece → Bool
  | declaration _ | reference _ | free _ => true
  | _ => false

def Writer.names (writer : Writer) : List Piece := writer.output.toList.filter Piece.isName

theorem Writer.names_write (writer : Writer) (piece : Piece) :
    (writer.write piece).names = writer.names ++ [piece].filter Piece.isName := by
  simp [Writer.names, Writer.write]

def Writer.declarations (writer : Writer) : List Minted :=
  writer.output.toList.filterMap Piece.declared?

theorem Writer.declarations_eq (writer : Writer) :
    writer.declarations = writer.names.filterMap Piece.declared? := by
  rw [Writer.declarations, Writer.names, List.filterMap_filter]
  congr 1
  funext piece
  cases piece <;> rfl

theorem Occurrence.isName_piece (bindings : List Binding) (occurrence : Occurrence) :
    (occurrence.piece bindings).isName = true := by
  rw [Occurrence.piece]
  cases occurrence.site? with
  | some site => rfl
  | none => cases binder? bindings occurrence.frames occurrence.name <;> rfl

theorem Writer.refer_eq_write {writer : Writer} {frames : List Nat} {bindings : List Binding}
    (records : writer.context.Records frames bindings) (name : String) :
    writer.refer name = writer.write (Occurrence.piece bindings ⟨name, frames, false⟩) := by
  rw [Writer.refer, records.resolve? name, Occurrence.piece]
  cases binder? bindings frames name <;> rfl

/-- The frames that are open and the bindings that are declared, all of them numbered before the
next frame. -/
structure Writer.Tracked (writer : Writer) (frames : List Nat) (next : Nat)
    (bindings : List Binding) : Prop where
  records : writer.context.Records frames bindings
  opened : ∀ frame ∈ frames, frame < next
  numbered : ∀ binding ∈ bindings, binding.1 < next

namespace Writer.Tracked

variable {writer : Writer} {frames outer : List Nat} {frame next : Nat} {bindings : List Binding}

theorem initial : ({} : Writer).Tracked [0] 1 [] where
  records := Context.Records.initial
  opened := by simp
  numbered := by simp

theorem of_context {result : Writer} (tracked : writer.Tracked frames next bindings)
    (same : result.context = writer.context) : result.Tracked frames next bindings where
  records := by
    rw [same]
    exact tracked.records
  opened := tracked.opened
  numbered := tracked.numbered

theorem declare (tracked : writer.Tracked (frame :: outer) next bindings) (name : String) :
    (writer.declare name).2.Tracked (frame :: outer) next (register bindings (frame, name)) where
  records := (tracked.records.declare name).2
  opened := tracked.opened
  numbered := by
    intro binding member
    rcases mem_register.mp member with member | rfl
    · exact tracked.numbered binding member
    · exact tracked.opened frame List.mem_cons_self

theorem enter (tracked : writer.Tracked frames next bindings) :
    writer.enter.Tracked (next :: frames) (next + 1) bindings where
  records := by
    apply tracked.records.enter
    · intro member
      exact Nat.lt_irrefl _ (tracked.opened next member)
    · intro name member
      exact Nat.lt_irrefl _ (tracked.numbered (next, name) member)
  opened := by
    intro number member
    rcases List.mem_cons.mp member with rfl | member
    · exact Nat.lt_succ_self _
    · exact Nat.lt_succ_of_lt (tracked.opened number member)
  numbered := by
    intro binding member
    exact Nat.lt_succ_of_lt (tracked.numbered binding member)

theorem exit {last : Nat} (tracked : writer.Tracked (next :: frame :: outer) last bindings) :
    writer.exit.Tracked (frame :: outer) last bindings where
  records := tracked.records.exit
  opened := fun number member => tracked.opened number (List.mem_cons_of_mem _ member)
  numbered := tracked.numbered

end Writer.Tracked

/-- The writer has gone through the events. -/
structure Writer.Traces (writer : Writer) (frames : List Nat) (next : Nat) (bindings : List Binding)
    (events : List Event) (result : Writer) : Prop where
  tracked : result.Tracked frames next (events.foldl Event.registered bindings)
  names : result.names = writer.names ++ writtenNames bindings events

theorem Writer.Traces.append {writer middle result : Writer} {frames : List Nat}
    {next last : Nat} {bindings : List Binding} {first second : List Event}
    (left : writer.Traces frames next bindings first middle)
    (right : middle.Traces frames last (first.foldl Event.registered bindings) second result) :
    writer.Traces frames last bindings (first ++ second) result where
  tracked := by
    rw [List.foldl_append]
    exact right.tracked
  names := by
    rw [right.names, left.names, writtenNames_append, List.append_assoc]

namespace Step

mutual

theorem run_traces (step : Step) {next : Nat} {writer result : Writer} {outer : List Nat}
    {frame : Nat} {bindings : List Binding}
    (tracked : writer.Tracked (frame :: outer) next bindings)
    (ran : run step writer = .ok () result) :
    writer.Traces (frame :: outer) (next + width step) bindings (events (frame :: outer) next step)
      result := by
  match step with
  | text content =>
      cases ran
      refine ⟨tracked.of_context rfl, ?_⟩
      simp [Writer.names_write, Piece.isName, events, writtenNames]
  | newline =>
      cases ran
      refine ⟨tracked.of_context rfl, ?_⟩
      simp [Writer.newline, Writer.names_write, Piece.isName, events, writtenNames]
  | bind name =>
      cases ran
      refine ⟨tracked.declare name, ?_⟩
      simp [events, writtenNames, Writer.names, Writer.declare]
  | declare name =>
      have same : (writer.declare name).2.write
          (.declaration (writer.context.declare name).1) = result := (EStateM.Result.ok.inj ran).2
      subst same
      refine ⟨(tracked.declare name).of_context rfl, ?_⟩
      rw [Writer.names_write, (tracked.records.declare name).1]
      rfl
  | refer name =>
      have same : writer.refer name = result := (EStateM.Result.ok.inj ran).2
      subst same
      rw [Writer.refer_eq_write tracked.records name]
      refine ⟨tracked.of_context rfl, ?_⟩
      rw [Writer.names_write, List.filter_singleton, Occurrence.isName_piece]
      rfl
  | framed body =>
      rw [run] at ran
      cases inside : runAll body writer.enter with
      | error cause middle =>
          rw [inside] at ran
          cases ran
      | ok _ middle =>
          rw [inside] at ran
          cases ran
          have traced := runAll_traces body tracked.enter inside
          -- the number of the frame stays taken when the frame is left
          rw [events, width, Nat.add_comm (widthAll body), ← Nat.add_assoc]
          exact ⟨traced.tracked.exit, traced.names⟩
  | braced body =>
      rw [run] at ran
      cases inside : runAll body writer.openBrace with
      | error cause middle =>
          rw [inside] at ran
          cases ran
      | ok _ middle =>
          rw [inside] at ran
          cases ran
          have start : writer.openBrace.Tracked (frame :: outer) next bindings :=
            tracked.of_context rfl
          have traced := runAll_traces body start inside
          rw [events, width]
          refine ⟨traced.tracked.of_context rfl, ?_⟩
          have opened : writer.openBrace.names = writer.names := by
            simp [Writer.openBrace, Writer.names, Writer.write, Piece.isName]
          have closed : middle.closeBrace.names = middle.names := by
            simp [Writer.closeBrace, Writer.newline, Writer.names, Writer.write, Piece.isName]
          rw [closed, traced.names, opened]
  | reject cause => cases ran

theorem runAll_traces (steps : List Step) {next : Nat} {writer result : Writer} {outer : List Nat}
    {frame : Nat} {bindings : List Binding}
    (tracked : writer.Tracked (frame :: outer) next bindings)
    (ran : runAll steps writer = .ok () result) :
    writer.Traces (frame :: outer) (next + widthAll steps) bindings
      (eventsAll (frame :: outer) next steps) result := by
  match steps with
  | [] =>
      cases ran
      exact ⟨tracked, by simp [eventsAll, writtenNames]⟩
  | step :: rest =>
      rw [runAll] at ran
      cases first : run step writer with
      | error cause middle =>
          rw [first] at ran
          cases ran
      | ok _ middle =>
          rw [first] at ran
          have start := run_traces step tracked first
          have finish := runAll_traces rest start.tracked ran
          rw [eventsAll, widthAll, ← Nat.add_assoc]
          exact start.append finish

end

end Step

end Freshen
