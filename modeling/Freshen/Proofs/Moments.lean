import Freshen.Proofs.Announcement

/-!
The moments at which a program writes its names. What is declared by then decides what a name is
written as: what its frames open with is always declared, and the rest of a frame's declarations are
found only behind the place where they stand.
-/

namespace Freshen

/-! A name is written with the number that its binding has in the end. -/

section Piece

variable {occurrence : Occurrence} {bindings final : List Binding}

theorem Occurrence.piece_of_site (grows : bindings <+: final) {site : Binding}
    (declares : occurrence.site? = some site) (present : site ∈ bindings) :
    occurrence.piece bindings = .declaration (mintedFor final site) := by
  rw [Occurrence.piece, declares, mintedFor_stable grows present]

theorem Occurrence.piece_of_reference (grows : bindings <+: final)
    (refers : occurrence.declares = false) :
    occurrence.piece bindings =
      (binder? bindings occurrence.frames occurrence.name).elim (.free occurrence.name)
        fun frame => .reference (mintedFor final (frame, occurrence.name)) := by
  have unsited : occurrence.site? = none := by simp [Occurrence.site?, refers]
  rw [Occurrence.piece, unsited]
  cases found : binder? bindings occurrence.frames occurrence.name with
  | none => rfl
  | some frame =>
      rw [binder?] at found
      have present : (frame, occurrence.name) ∈ bindings := by simpa using List.find?_some found
      simp only [Option.elim, mintedFor_stable grows present]

end Piece

def writtenAt (moment : Moment) : Occurrence × Piece :=
  (moment.occurrence, moment.occurrence.piece moment.declared)

namespace Program

def events (program : Program) : List Event := Step.eventsAll [] 0 [.framed program.steps]

def bindings (program : Program) : List Binding := program.events.foldl Event.registered []

def moments (program : Program) : List Moment :=
  (history [] program.events).filter (·.written)

variable {program : Program}

theorem events_eq (program : Program) : program.events = Step.eventsAll [0] 1 program.steps := by
  simp [events, Step.eventsAll, Step.events]

theorem names_eq {writer : Writer} (ran : Step.runAll program.steps {} = .ok () writer) :
    writer.names = writtenNames [] program.events := by
  have traces := Step.runAll_traces program.steps Writer.Tracked.initial ran
  rw [traces.names, events_eq]
  rfl

/-- Every name of the program is written at one moment, as what is declared then makes it. -/
theorem zip_names {writer : Writer} (ran : Step.runAll program.steps {} = .ok () writer) :
    program.occurrences.zip writer.names = program.moments.map writtenAt := by
  rw [names_eq ran, ← program.traced.written, ← events_eq, written_eq_history [],
    writtenNames_eq_history, List.zip_map', moments]
  rfl

theorem length_names {writer : Writer} (ran : Step.runAll program.steps {} = .ok () writer) :
    writer.names.length = program.occurrences.length := by
  rw [names_eq ran, ← program.traced.written, ← events_eq, written_eq_history [],
    writtenNames_eq_history, List.length_map, List.length_map]

theorem mem_bindings (program : Program) {binding : Binding} :
    binding ∈ program.bindings ↔ binding ∈ program.sites := by
  rw [bindings, mem_foldl_registered, mem_sites, events_eq]
  simp

section Moment

variable {moment here there : Moment}

theorem prefix_of_moment (member : moment ∈ program.moments) :
    moment.declared <+: program.bindings :=
  history_grows (List.mem_of_mem_filter member)

theorem event_of_moment (member : moment ∈ program.moments) : moment.toEvent ∈ program.events :=
  mem_of_history (List.mem_of_mem_filter member)

theorem nested_of_moment (member : moment ∈ program.moments) :
    moment.occurrence.frames.Pairwise (· > ·) :=
  (Step.eventsAll_inside _ Nested.nil (event_of_moment member)).descending

theorem moments_coherent (hereMember : here ∈ program.moments)
    (thereMember : there ∈ program.moments) {frame : Nat}
    (innermost : here.occurrence.frames.head? = some frame)
    (around : frame ∈ there.occurrence.frames) :
    here.occurrence.frames <:+ there.occurrence.frames :=
  Step.eventsAll_coherent _ Nested.nil (event_of_moment hereMember) (event_of_moment thereMember)
    (Nat.zero_le _) innermost around

/-- While a frame is open, the frames around it have the bindings they have. -/
theorem moments_frozen (hereMember : here ∈ program.moments) (thereMember : there ∈ program.moments)
    {frame outer : Nat} (hereFirst : here.occurrence.frames.head? = some frame)
    (thereFirst : there.occurrence.frames.head? = some frame)
    (around : outer ∈ here.occurrence.frames) (other : outer ≠ frame) (name : String) :
    (outer, name) ∈ here.declared ↔ (outer, name) ∈ there.declared :=
  Step.historyAll_frozen _ Nested.nil (by simp) (List.mem_of_mem_filter hereMember)
    (List.mem_of_mem_filter thereMember) (Nat.zero_le _) hereFirst thereFirst around other name

theorem announces (program : Program) (frame : Nat) :
    Announces (frameNames program.frames frame)
      (Step.frameBody (Step.bodiesAll [.framed program.steps]) frame) := by
  obtain ⟨same, each⟩ := List.forall₂_iff_get.mp program.opens.frames
  rw [frameNames, Step.frameBody]
  by_cases inside : frame < program.frames.length
  · rw [List.getElem?_eq_getElem inside, List.getElem?_eq_getElem (same ▸ inside)]
    exact each frame inside (same ▸ inside)
  · have outside := Nat.le_of_not_lt inside
    rw [List.getElem?_eq_none outside, List.getElem?_eq_none (same ▸ outside)]
    exact ⟨List.nil_subset _, List.nil_subset _⟩

/-- The names that a frame has by the tree are declared at every reference inside it. -/
theorem announced (member : moment ∈ program.moments)
    (refers : moment.occurrence.declares = false) {frame : Nat}
    (around : frame ∈ moment.occurrence.frames) {name : String}
    (named : name ∈ frameNames program.frames frame) : (frame, name) ∈ moment.declared :=
  Step.openingAll_declared _ Nested.nil (List.mem_of_mem_filter member) refers around
    (Nat.zero_le _) ((program.announces frame).opening named)

theorem render_eq_iff_binder (member : moment ∈ program.moments)
    (refers : moment.occurrence.declares = false) {style : Style}
    (valid : separatorFault? style.separator = none) {frame : Nat}
    (declared : (frame, moment.occurrence.name) ∈ program.bindings) :
    (moment.occurrence.piece moment.declared).render style =
        (mintedFor program.bindings (frame, moment.occurrence.name)).text style.separator ↔
      binder? moment.declared moment.occurrence.frames moment.occurrence.name = some frame := by
  have nonDigit := exists_nonDigit_of_valid valid
  rw [Occurrence.piece_of_reference (prefix_of_moment member) refers]
  cases binder? moment.declared moment.occurrence.frames moment.occurrence.name with
  | none =>
      constructor
      · intro same
        exact absurd same.symm (Minted.text_ne_base nonDigit _)
      · intro found
        cases found
  | some found =>
      simp only [Option.elim, Piece.render, (Minted.text_injective nonDigit).eq_iff,
        eq_comm, mintedFor_inj declared, Prod.mk.injEq, and_true, Option.some.injEq]

theorem moments_ascending {before between behind : List Moment}
    (split : program.moments = before ++ here :: (between ++ there :: behind)) :
    here.declared ⊆ there.declared := by
  have ascending := (history_ascending [] program.events).filter (·.written)
  rw [← moments, split, List.pairwise_append, List.pairwise_cons] at ascending
  exact ascending.2.1.1 there (by simp)

/-- At a reference, a frame around it has the names that it has by the tree, and those whose
declaration stands before the reference. -/
theorem declared_at_reference {before rest : List Moment}
    (split : program.moments = before ++ moment :: rest)
    (refers : moment.occurrence.declares = false) {frame : Nat}
    (around : frame ∈ moment.occurrence.frames) (name : String) :
    (frame, name) ∈ moment.declared ↔ name ∈ frameNames program.frames frame ∨
      ∃ earlier ∈ before, earlier.occurrence.site? = some (frame, name) := by
  have listed : moment ∈ program.moments := by simp [split]
  constructor
  · intro present
    rcases declared_before split present with declared | ⟨earlier, member, site⟩ | silent
    · cases declared
    · rcases List.mem_append.mp member with member | member
      · exact Or.inr ⟨earlier, member, site⟩
      · obtain rfl := List.mem_singleton.mp member
        have declares := (Occurrence.head_of_site site).1
        rw [refers] at declares
        cases declares
    · obtain ⟨event, happens, unwritten, site⟩ := silent
      rcases Step.boundAll_of_unwritten _ Nested.nil happens unwritten site with direct | inner
      · cases direct.1
      · exact Or.inl ((program.announces frame).bound inner.2)
  · rintro (named | ⟨earlier, member, site⟩)
    · exact announced listed refers around named
    · have earlierListed : earlier ∈ program.moments := by simp [split, member]
      obtain ⟨first, between, rfl⟩ := List.append_of_mem member
      have kept : earlier.declared ⊆ moment.declared := moments_ascending (by simpa using split)
      exact kept (site_of_history (List.mem_of_mem_filter earlierListed) site)

end Moment

end Program

end Freshen
