import Freshen.Proofs.DeclarationSites

/-!
What is declared at the moment a name is written. The frames around a name are told by the innermost
of them, and while a frame is open nothing is declared in the frames around it.
-/

namespace Freshen

/-- Open frames, innermost first: the numbers go down outwards, and the next frame has a higher
one. -/
structure Nested (frames : List Nat) (next : Nat) : Prop where
  descending : frames.Pairwise (· > ·)
  below : ∀ frame ∈ frames, frame < next

namespace Nested

variable {frames : List Nat} {next : Nat}

theorem nil : Nested [] next where
  descending := List.Pairwise.nil
  below := by simp

theorem enter (nested : Nested frames next) : Nested (next :: frames) (next + 1) where
  descending := List.pairwise_cons.mpr ⟨nested.below, nested.descending⟩
  below := by
    intro frame member
    rcases List.mem_cons.mp member with rfl | member
    · exact Nat.lt_succ_self _
    · exact Nat.lt_succ_of_lt (nested.below frame member)

theorem later (nested : Nested frames next) (more : Nat) : Nested frames (next + more) where
  descending := nested.descending
  below := fun frame member => Nat.lt_add_right more (nested.below frame member)

end Nested

theorem le_of_mem_descending {frames : List Nat} {frame other : Nat}
    (descending : frames.Pairwise (· > ·)) (innermost : frames.head? = some frame)
    (member : other ∈ frames) : other ≤ frame := by
  obtain ⟨rest, rfl⟩ := List.head?_eq_some_iff.mp innermost
  rcases List.mem_cons.mp member with rfl | member
  · exact Nat.le_refl _
  · exact Nat.le_of_lt ((List.pairwise_cons.mp descending).1 other member)

/-- The frames around a name that is met inside `frames` where those from `next` on, below `last`,
are opened. -/
structure Inside (frames : List Nat) (next last : Nat) (around : List Nat) : Prop where
  outer : frames <:+ around
  range : ∀ frame ∈ around, frame ∈ frames ∨ next ≤ frame ∧ frame < last
  descending : around.Pairwise (· > ·)

namespace Inside

variable {frames around : List Nat} {frame next last : Nat}

theorem direct (nested : Nested frames next) : Inside frames next next frames where
  outer := List.suffix_rfl
  range := fun _ member => Or.inl member
  descending := nested.descending

theorem widen {first final : Nat} (inside : Inside frames next last around) (low : first ≤ next)
    (high : last ≤ final) : Inside frames first final around where
  outer := inside.outer
  range := by
    intro frame member
    rcases inside.range frame member with outer | range
    · exact Or.inl outer
    · exact Or.inr ⟨Nat.le_trans low range.1, Nat.lt_of_lt_of_le range.2 high⟩
  descending := inside.descending

theorem leave (inside : Inside (next :: frames) (next + 1) last around) (opened : next < last) :
    Inside frames next last around where
  outer := (List.suffix_cons next frames).trans inside.outer
  range := by
    intro frame member
    rcases inside.range frame member with member | range
    · rcases List.mem_cons.mp member with rfl | member
      · exact Or.inr ⟨Nat.le_refl _, opened⟩
      · exact Or.inl member
    · exact Or.inr (by omega)
  descending := inside.descending

theorem opened (inside : Inside frames next last around) (nested : Nested frames next)
    (member : frame ∈ around) (later : next ≤ frame) : frame < last := by
  rcases inside.range frame member with outer | range
  · have earlier := nested.below frame outer
    omega
  · exact range.2

/-- A name directly in a frame has exactly that frame and the outer ones around it. -/
theorem eq_of_head (inside : Inside (frame :: frames) next last around)
    (innermost : around.head? = some frame) : around = frame :: frames := by
  obtain ⟨inner, rfl⟩ := inside.outer
  cases inner with
  | nil => rfl
  | cons first rest =>
      obtain rfl : first = frame := by simpa using innermost
      have larger := (List.pairwise_cons.mp inside.descending).1 first (by simp)
      exact absurd larger (Nat.lt_irrefl _)

theorem le_head {innermost : Nat} (inside : Inside (frame :: frames) next last around)
    (first : around.head? = some innermost) : frame ≤ innermost :=
  le_of_mem_descending inside.descending first (inside.outer.subset List.mem_cons_self)

end Inside

namespace Step

mutual

theorem events_inside (step : Step) {frames : List Nat} {next : Nat} (nested : Nested frames next)
    {event : Event} (member : event ∈ events frames next step) :
    Inside frames next (next + width step) event.occurrence.frames := by
  match step with
  | text _ | newline | reject _ => simp [events] at member
  | bind _ | declare _ | refer _ =>
      rw [events, List.mem_singleton] at member
      subst member
      exact Inside.direct nested
  | framed body =>
      rw [events] at member
      have inside := eventsAll_inside body nested.enter member
      rw [width]
      exact (inside.widen (Nat.le_refl _) (by omega)).leave (by omega)
  | braced body =>
      rw [events] at member
      rw [width]
      exact eventsAll_inside body nested member

theorem eventsAll_inside (steps : List Step) {frames : List Nat} {next : Nat}
    (nested : Nested frames next) {event : Event} (member : event ∈ eventsAll frames next steps) :
    Inside frames next (next + widthAll steps) event.occurrence.frames := by
  match steps with
  | [] => simp [eventsAll] at member
  | step :: rest =>
      rw [eventsAll] at member
      rw [widthAll]
      rcases List.mem_append.mp member with member | member
      · exact (events_inside step nested member).widen (Nat.le_refl _) (by omega)
      · exact (eventsAll_inside rest (nested.later _) member).widen (by omega) (by omega)

end

/-! The frames of a step are numbered before those of the steps behind it. -/

section Order

variable {frames : List Nat} {frame next : Nat} {event : Event}

theorem events_below (step : Step) (nested : Nested frames next)
    (member : event ∈ events frames next step) (around : frame ∈ event.occurrence.frames)
    (opened : next ≤ frame) : frame < next + width step :=
  (events_inside step nested member).opened nested around opened

theorem eventsAll_above (steps : List Step) {more : Nat} (nested : Nested frames next)
    (member : event ∈ eventsAll frames (next + more) steps)
    (around : frame ∈ event.occurrence.frames) (opened : next ≤ frame) : next + more ≤ frame := by
  rcases (eventsAll_inside steps (nested.later more) member).range frame around with outer | range
  · exact absurd opened (Nat.not_le_of_lt (nested.below frame outer))
  · exact range.1

end Order

mutual

/-- A frame has the same frames around it wherever it stands. -/
theorem events_coherent (step : Step) {frames : List Nat} {next : Nat}
    (nested : Nested frames next) {here there : Event} (hereMember : here ∈ events frames next step)
    (thereMember : there ∈ events frames next step) {frame : Nat} (opened : next ≤ frame)
    (innermost : here.occurrence.frames.head? = some frame)
    (around : frame ∈ there.occurrence.frames) :
    here.occurrence.frames <:+ there.occurrence.frames := by
  match step with
  | text _ | newline | reject _ => simp [events] at hereMember
  | bind _ | declare _ | refer _ =>
      have bound : frame < next := (events_inside _ nested thereMember).opened nested around opened
      exact absurd opened (Nat.not_le_of_lt bound)
  | framed body =>
      rw [events] at hereMember thereMember
      have hereInside := eventsAll_inside body nested.enter hereMember
      have thereInside := eventsAll_inside body nested.enter thereMember
      rcases Nat.eq_or_lt_of_le opened with rfl | deeper
      · rw [hereInside.eq_of_head innermost]
        exact thereInside.outer
      · exact eventsAll_coherent body nested.enter hereMember thereMember deeper innermost around
  | braced body =>
      rw [events] at hereMember thereMember
      exact eventsAll_coherent body nested hereMember thereMember opened innermost around

theorem eventsAll_coherent (steps : List Step) {frames : List Nat} {next : Nat}
    (nested : Nested frames next) {here there : Event}
    (hereMember : here ∈ eventsAll frames next steps)
    (thereMember : there ∈ eventsAll frames next steps) {frame : Nat} (opened : next ≤ frame)
    (innermost : here.occurrence.frames.head? = some frame)
    (around : frame ∈ there.occurrence.frames) :
    here.occurrence.frames <:+ there.occurrence.frames := by
  match steps with
  | [] => simp [eventsAll] at hereMember
  | step :: rest =>
      rw [eventsAll] at hereMember thereMember
      have inner : frame ∈ here.occurrence.frames := List.mem_of_head? innermost
      rcases List.mem_append.mp hereMember with hereFirst | hereLater <;>
        rcases List.mem_append.mp thereMember with thereFirst | thereLater
      · exact events_coherent step nested hereFirst thereFirst opened innermost around
      · have low := events_below step nested hereFirst inner opened
        have high := eventsAll_above rest nested thereLater around opened
        exact absurd low (Nat.not_lt_of_le high)
      · have low := events_below step nested thereFirst around opened
        have high := eventsAll_above rest nested hereLater inner opened
        exact absurd low (Nat.not_lt_of_le high)
      · exact eventsAll_coherent rest (nested.later _) hereLater thereLater
          (eventsAll_above rest nested hereLater inner opened) innermost around

end

end Step

structure Moment extends Event where
  declared : List Binding

def history : List Binding → List Event → List Moment
  | _, [] => []
  | bindings, event :: rest =>
    let declared := event.registered bindings
    ⟨event, declared⟩ :: history declared rest

section History

variable {bindings : List Binding} {events : List Event} {moment : Moment}

theorem history_append (bindings : List Binding) (first second : List Event) :
    history bindings (first ++ second) =
      history bindings first ++ history (first.foldl Event.registered bindings) second := by
  induction first generalizing bindings with
  | nil => rfl
  | cons event rest ih => simp [history, ih]

theorem mem_of_history (member : moment ∈ history bindings events) : moment.toEvent ∈ events := by
  induction events generalizing bindings with
  | nil => simp [history] at member
  | cons event rest ih =>
      rcases List.mem_cons.mp member with rfl | member
      · exact List.mem_cons_self
      · exact List.mem_cons_of_mem _ (ih member)

theorem subset_history (member : moment ∈ history bindings events) :
    bindings ⊆ moment.declared := by
  induction events generalizing bindings with
  | nil => simp [history] at member
  | cons event rest ih =>
      have grows := (event.prefix_registered bindings).subset
      rcases List.mem_cons.mp member with rfl | member
      · exact grows
      · exact fun _ present => ih member (grows present)

theorem history_grows (member : moment ∈ history bindings events) :
    moment.declared <+: events.foldl Event.registered bindings := by
  induction events generalizing bindings with
  | nil => simp [history] at member
  | cons event rest ih =>
      rcases List.mem_cons.mp member with rfl | member
      · exact prefix_foldl_registered _ rest
      · exact ih member

theorem site_of_history (member : moment ∈ history bindings events) {binding : Binding}
    (site : moment.occurrence.site? = some binding) : binding ∈ moment.declared := by
  induction events generalizing bindings with
  | nil => simp [history] at member
  | cons event rest ih =>
      rcases List.mem_cons.mp member with rfl | member
      · exact Event.mem_registered.mpr (Or.inr site)
      · exact ih member

theorem history_ascending (bindings : List Binding) (events : List Event) :
    (history bindings events).Pairwise fun earlier later => earlier.declared ⊆ later.declared := by
  induction events generalizing bindings with
  | nil => exact List.Pairwise.nil
  | cons event rest ih => exact List.pairwise_cons.mpr ⟨fun _ member => subset_history member, ih _⟩

theorem declared_of_history (member : moment ∈ history bindings events) {binding : Binding}
    (present : binding ∈ moment.declared) :
    binding ∈ bindings ∨ ∃ event ∈ events, event.occurrence.site? = some binding :=
  mem_foldl_registered.mp ((history_grows member).subset present)

/-- What is declared at a written moment and not by one written before is declared silently. -/
theorem declared_before {before rest : List Moment}
    (split : (history bindings events).filter (·.written) = before ++ moment :: rest)
    {binding : Binding} (present : binding ∈ moment.declared) :
    binding ∈ bindings ∨
      (∃ earlier ∈ before ++ [moment], earlier.occurrence.site? = some binding) ∨
      ∃ event ∈ events, event.written = false ∧ event.occurrence.site? = some binding := by
  induction events generalizing bindings before with
  | nil => simp [history] at split
  | cons event later ih =>
      rw [history] at split
      cases written : event.written with
      | false =>
          rw [List.filter_cons_of_neg (by simp [written])] at split
          rcases ih split with declared | earlier | ⟨other, member, silent⟩
          · rcases Event.mem_registered.mp declared with declared | site
            · exact Or.inl declared
            · exact Or.inr (Or.inr ⟨event, List.mem_cons_self, written, site⟩)
          · exact Or.inr (Or.inl earlier)
          · exact Or.inr (Or.inr ⟨other, List.mem_cons_of_mem _ member, silent⟩)
      | true =>
          rw [List.filter_cons_of_pos (by simp [written])] at split
          have here (declared : binding ∈ event.registered bindings)
              (member : ⟨event, event.registered bindings⟩ ∈ before ++ [moment]) :
              binding ∈ bindings ∨
                ∃ earlier ∈ before ++ [moment], earlier.occurrence.site? = some binding :=
            (Event.mem_registered.mp declared).imp_right fun site => ⟨_, member, site⟩
          rcases List.cons_eq_append_iff.mp split with ⟨rfl, same⟩ | ⟨front, rfl, tail⟩
          · obtain ⟨rfl, _⟩ := List.cons_eq_cons.mp same
            exact (here present (by simp)).imp_right Or.inl
          · rcases ih tail with declared | ⟨earlier, member, site⟩ | ⟨other, member, silent⟩
            · exact (here declared (by simp)).imp_right Or.inl
            · exact Or.inr (Or.inl ⟨earlier, List.mem_cons_of_mem _ member, site⟩)
            · exact Or.inr (Or.inr ⟨other, List.mem_cons_of_mem _ member, silent⟩)

theorem writtenNames_eq_history (bindings : List Binding) (events : List Event) :
    writtenNames bindings events =
      ((history bindings events).filter (·.written)).map fun moment =>
        moment.occurrence.piece moment.declared := by
  induction events generalizing bindings with
  | nil => rfl
  | cons event rest ih =>
      rw [writtenNames, ih, history]
      cases written : event.written <;> simp [written]

theorem written_eq_history (bindings : List Binding) (events : List Event) :
    (events.filter Event.written).map Event.occurrence =
      ((history bindings events).filter (·.written)).map fun moment =>
        moment.occurrence := by
  induction events generalizing bindings with
  | nil => rfl
  | cons event rest ih =>
      rw [history]
      cases written : event.written with
      | false => simpa [written] using ih (event.registered bindings)
      | true => simpa [written] using ih (event.registered bindings)

end History

theorem Occurrence.head_of_site {occurrence : Occurrence} {binding : Binding}
    (site : occurrence.site? = some binding) :
    occurrence.declares = true ∧ occurrence.frames.head? = some binding.1 ∧
      occurrence.name = binding.2 := by
  rw [Occurrence.site?] at site
  split at site
  · rename_i declares
    obtain ⟨frame, innermost, rfl⟩ := Option.map_eq_some_iff.mp site
    exact ⟨declares, innermost, rfl⟩
  · cases site

namespace Step

/-- Steps declare nothing in a frame that is open around them but not the innermost one. -/
theorem eventsAll_spare (steps : List Step) {frames : List Nat} {frame next : Nat}
    (nested : Nested (frame :: frames) next) {outer : Nat} (member : outer ∈ frames) {event : Event}
    (happens : event ∈ eventsAll (frame :: frames) next steps) (name : String) :
    event.occurrence.site? ≠ some (outer, name) := by
  intro site
  have low := (eventsAll_inside steps nested happens).le_head (Occurrence.head_of_site site).2.1
  have high := (List.pairwise_cons.mp nested.descending).1 outer member
  exact absurd high (Nat.not_lt_of_le low)

theorem numbered_after (step : Step) {frames : List Nat} {next : Nat} (nested : Nested frames next)
    {bindings : List Binding} (numbered : ∀ binding ∈ bindings, binding.1 < next) :
    ∀ binding ∈ (events frames next step).foldl Event.registered bindings,
      binding.1 < next + width step := by
  intro binding member
  rcases mem_foldl_registered.mp member with member | ⟨event, happens, site⟩
  · exact Nat.lt_add_right _ (numbered binding member)
  · have inside := events_inside step nested happens
    have around := List.mem_of_head? (Occurrence.head_of_site site).2.1
    rcases inside.range _ around with outer | range
    · exact Nat.lt_add_right _ (nested.below _ outer)
    · exact range.2

mutual

/-- While a frame is open, the frames around it have the bindings they have. -/
theorem history_frozen (step : Step) {frames : List Nat} {next : Nat} (nested : Nested frames next)
    {bindings : List Binding} (numbered : ∀ binding ∈ bindings, binding.1 < next)
    {here there : Moment}
    (hereMember : here ∈ history bindings (events frames next step))
    (thereMember : there ∈ history bindings (events frames next step)) {frame outer : Nat}
    (opened : next ≤ frame) (hereFirst : here.occurrence.frames.head? = some frame)
    (thereFirst : there.occurrence.frames.head? = some frame)
    (around : outer ∈ here.occurrence.frames) (other : outer ≠ frame) (name : String) :
    (outer, name) ∈ here.declared ↔ (outer, name) ∈ there.declared := by
  match step with
  | text _ | newline | reject _ => simp [events, history] at hereMember
  | bind _ | declare _ | refer _ =>
      have bound : frame < next := (events_inside _ nested (mem_of_history hereMember)).opened
        nested (List.mem_of_head? hereFirst) opened
      exact absurd opened (Nat.not_le_of_lt bound)
  | framed body =>
      rw [events] at hereMember thereMember
      -- the frame is the one that opens here, or one that opens inside it
      rcases Nat.eq_or_lt_of_le opened with rfl | deeper
      · have inside := eventsAll_inside body nested.enter (mem_of_history hereMember)
        rw [inside.eq_of_head hereFirst] at around
        have outside : outer ∈ frames := (List.mem_cons.mp around).resolve_left other
        have frozen {moment : Moment}
            (member : moment ∈ history bindings (eventsAll (next :: frames) (next + 1) body)) :
            (outer, name) ∈ moment.declared ↔ (outer, name) ∈ bindings := by
          constructor
          · intro present
            rcases declared_of_history member present with before | ⟨event, happens, site⟩
            · exact before
            · exact absurd site (eventsAll_spare body nested.enter outside happens name)
          · intro present
            exact subset_history member present
        exact (frozen hereMember).trans (frozen thereMember).symm
      · exact historyAll_frozen body nested.enter
          (fun binding member => Nat.lt_succ_of_lt (numbered binding member)) hereMember thereMember
          deeper hereFirst thereFirst around other name
  | braced body =>
      rw [events] at hereMember thereMember
      exact historyAll_frozen body nested numbered hereMember thereMember opened hereFirst
        thereFirst around other name

theorem historyAll_frozen (steps : List Step) {frames : List Nat} {next : Nat}
    (nested : Nested frames next) {bindings : List Binding}
    (numbered : ∀ binding ∈ bindings, binding.1 < next) {here there : Moment}
    (hereMember : here ∈ history bindings (eventsAll frames next steps))
    (thereMember : there ∈ history bindings (eventsAll frames next steps)) {frame outer : Nat}
    (opened : next ≤ frame) (hereFirst : here.occurrence.frames.head? = some frame)
    (thereFirst : there.occurrence.frames.head? = some frame)
    (around : outer ∈ here.occurrence.frames) (other : outer ≠ frame) (name : String) :
    (outer, name) ∈ here.declared ↔ (outer, name) ∈ there.declared := by
  match steps with
  | [] => simp [eventsAll, history] at hereMember
  | step :: rest =>
      rw [eventsAll, history_append] at hereMember thereMember
      rcases List.mem_append.mp hereMember with hereEarly | hereLate <;>
        rcases List.mem_append.mp thereMember with thereEarly | thereLate
      · exact history_frozen step nested numbered hereEarly thereEarly opened hereFirst thereFirst
          around other name
      · have low := events_below step nested (mem_of_history hereEarly)
          (List.mem_of_head? hereFirst) opened
        have high := eventsAll_above rest nested (mem_of_history thereLate)
          (List.mem_of_head? thereFirst) opened
        exact absurd low (Nat.not_lt_of_le high)
      · have low := events_below step nested (mem_of_history thereEarly)
          (List.mem_of_head? thereFirst) opened
        have high := eventsAll_above rest nested (mem_of_history hereLate)
          (List.mem_of_head? hereFirst) opened
        exact absurd low (Nat.not_lt_of_le high)
      · have high := eventsAll_above rest nested (mem_of_history hereLate)
          (List.mem_of_head? hereFirst) opened
        exact historyAll_frozen rest (nested.later _) (numbered_after step nested numbered)
          hereLate thereLate high hereFirst thereFirst around other name

end

end Step

end Freshen
