import Freshen.Scope.Context
import Mathlib.Data.List.Forall2
import Mathlib.Data.List.Nodup

/-!
What a renaming has declared so far, as one list: the bindings of all frames, closed ones included,
in the order of their first declaration. The place of a binding in the list is the number in its
name, and every open frame holds exactly its own bindings of the list.
-/

namespace Freshen

abbrev Binding := Nat × String

/-- A binding is listed once, where it is declared first. -/
def register (bindings : List Binding) (binding : Binding) : List Binding :=
  if binding ∈ bindings then bindings else bindings ++ [binding]

def mintedFor (bindings : List Binding) (binding : Binding) : Minted :=
  ⟨binding.2, bindings.idxOf binding⟩

/-- The first of the frames that has declared the name. -/
def binder? (bindings : List Binding) (frames : List Nat) (name : String) : Option Nat :=
  frames.find? fun frame => (frame, name) ∈ bindings

theorem register_of_mem {bindings : List Binding} {binding : Binding}
    (present : binding ∈ bindings) : register bindings binding = bindings := by
  simp [register, present]

theorem register_of_not_mem {bindings : List Binding} {binding : Binding}
    (absent : binding ∉ bindings) : register bindings binding = bindings ++ [binding] := by
  simp [register, absent]

theorem mem_register {bindings : List Binding} {binding other : Binding} :
    other ∈ register bindings binding ↔ other ∈ bindings ∨ other = binding := by
  by_cases present : binding ∈ bindings
  · rw [register_of_mem present]
    constructor
    · exact Or.inl
    · rintro (member | rfl)
      · exact member
      · exact present
  · simp [register_of_not_mem present]

theorem register_nodup {bindings : List Binding} (binding : Binding)
    (distinct : bindings.Nodup) : (register bindings binding).Nodup := by
  by_cases present : binding ∈ bindings
  · rwa [register_of_mem present]
  · rw [register_of_not_mem present]
    simpa [List.nodup_append] using
      ⟨distinct, fun frame name member same => present (same ▸ member)⟩

theorem prefix_register (bindings : List Binding) (binding : Binding) :
    bindings <+: register bindings binding := by
  by_cases present : binding ∈ bindings
  · rewrite [register_of_mem present]
    exact List.prefix_rfl
  · rw [register_of_not_mem present]
    exact List.prefix_append _ _

/-- A name keeps its number while more bindings are declared. -/
theorem mintedFor_stable {bindings more : List Binding} {binding : Binding}
    (grows : bindings <+: more) (present : binding ∈ bindings) :
    mintedFor more binding = mintedFor bindings binding := by
  obtain ⟨rest, rfl⟩ := grows
  simp only [mintedFor, List.idxOf_append_of_mem present]

theorem mintedFor_inj {bindings : List Binding} {binding other : Binding}
    (present : binding ∈ bindings) : mintedFor bindings binding = mintedFor bindings other ↔
      binding = other := by
  constructor
  · intro same
    exact (List.idxOf_inj present).mp (congrArg Minted.index same)
  · rintro rfl
    rfl

/-- The frame holds the bindings of that number, and no others. -/
def Frame.Holds (bindings : List Binding) (frame : Frame) (number : Nat) : Prop :=
  ∀ name, frame.get? name =
    if (number, name) ∈ bindings then some (mintedFor bindings (number, name)) else none

theorem Frame.holds_of_agree {bindings more : List Binding} {frame : Frame} {number : Nat}
    (holds : frame.Holds bindings number) (grows : bindings <+: more)
    (agree : ∀ name, (number, name) ∈ more → (number, name) ∈ bindings) :
    frame.Holds more number := by
  intro name
  rw [holds name]
  by_cases present : (number, name) ∈ bindings
  · rw [if_pos present, if_pos (grows.subset present), mintedFor_stable grows present]
  · rw [if_neg present, if_neg fun member => present (agree name member)]

theorem Frame.get?_bind (frame : Frame) (name other : String) (minted : Minted) :
    (frame.bind name minted).get? other =
      (frame.get? other).or (if other = name then some minted else none) := by
  by_cases same : other = name
  · simp [Frame.get?, Frame.bind, List.lookup_append, same]
  · have differ : (other == name) = false := by simpa using same
    simp [Frame.get?, Frame.bind, List.lookup_append, List.lookup_cons, same, differ]

theorem Frame.holds_others {bindings : List Binding} {frame : Nat} (name : String)
    {opened : List Frame} {frames : List Nat} (other : frame ∉ frames)
    (holds : List.Forall₂ (Frame.Holds bindings) opened frames) :
    List.Forall₂ (Frame.Holds (bindings ++ [(frame, name)])) opened frames := by
  induction holds with
  | nil => exact List.Forall₂.nil
  | cons first _ ih =>
      rw [List.mem_cons, not_or] at other
      refine List.Forall₂.cons ?_ (ih other.2)
      apply Frame.holds_of_agree first (List.prefix_append _ _)
      intro label member
      rcases List.mem_append.mp member with member | member
      · exact member
      · simp only [List.mem_singleton, Prod.mk.injEq] at member
        exact absurd member.1.symm other.1

/-- The context has declared exactly the given bindings, and the open frames are the given ones,
innermost first. -/
structure Context.Records (context : Context) (frames : List Nat) (bindings : List Binding) :
    Prop where
  count : context.count = bindings.length
  distinct : bindings.Nodup
  separate : frames.Nodup
  holds : List.Forall₂ (Frame.Holds bindings) context.chain.frames frames

namespace Context.Records

variable {context : Context} {frames : List Nat} {frame : Nat} {bindings : List Binding}

theorem initial : ({} : Context).Records [0] [] where
  count := rfl
  distinct := List.nodup_nil
  separate := List.nodup_singleton 0
  holds := by
    refine List.Forall₂.cons ?_ List.Forall₂.nil
    intro name
    simp [Frame.get?]

theorem current_get? (records : context.Records (frame :: frames) bindings) (name : String) :
    context.chain.current.get? name =
      if (frame, name) ∈ bindings then some (mintedFor bindings (frame, name)) else none := by
  have holds := records.holds
  rw [Chain.frames, List.forall₂_cons] at holds
  exact holds.1 name

theorem bind (records : context.Records (frame :: frames) bindings) {name : String}
    (absent : (frame, name) ∉ bindings) :
    Context.Records
      { chain := context.chain.bind name ⟨name, context.count⟩, count := context.count + 1 }
      (frame :: frames) (bindings ++ [(frame, name)]) where
  count := by simp [records.count]
  distinct := by
    rw [← register_of_not_mem absent]
    exact register_nodup _ records.distinct
  separate := records.separate
  holds := by
    have holds := records.holds
    rw [Chain.frames, List.forall₂_cons] at holds
    have outer : frame ∉ frames := (List.nodup_cons.mp records.separate).1
    have grows : bindings <+: bindings ++ [(frame, name)] := List.prefix_append _ _
    refine List.Forall₂.cons ?_ ?_
    · intro other
      rw [Chain.bind, Frame.get?_bind, holds.1 other]
      by_cases same : other = name
      · subst same
        simp [absent, mintedFor, List.idxOf_append_of_notMem, records.count]
      · by_cases present : (frame, other) ∈ bindings
        · simp [present, mintedFor_stable grows present]
        · simp [present, same]
    · exact Frame.holds_others name outer holds.2

theorem declare (records : context.Records (frame :: frames) bindings) (name : String) :
    (context.declare name).1 = mintedFor (register bindings (frame, name)) (frame, name) ∧
      (context.declare name).2.Records (frame :: frames) (register bindings (frame, name)) := by
  have get := records.current_get? name
  by_cases present : (frame, name) ∈ bindings
  · rw [if_pos present] at get
    rw [register_of_mem present, Context.declare, get]
    exact ⟨rfl, records⟩
  · rw [if_neg present] at get
    rw [register_of_not_mem present, Context.declare, get]
    refine ⟨?_, records.bind present⟩
    simp [Context.fresh, mintedFor, List.idxOf_append_of_notMem present, records.count]

/-- A reference means the innermost open frame that has declared the name. -/
theorem resolve? (records : context.Records frames bindings) (name : String) :
    context.resolve? name =
      (binder? bindings frames name).map fun frame => mintedFor bindings (frame, name) := by
  have holds := records.holds
  rw [Context.resolve?, Chain.resolve?, binder?]
  -- the open frames and their numbers are walked side by side
  clear records
  generalize context.chain.frames = opened at holds
  induction holds with
  | nil => rfl
  | @cons first frame rest frames hold _ ih =>
      rw [List.findSome?_cons, List.find?_cons, hold name]
      by_cases present : (frame, name) ∈ bindings
      · simp [present]
      · simp [present, ih]

theorem enter (records : context.Records frames bindings) (outside : frame ∉ frames)
    (unused : ∀ name, (frame, name) ∉ bindings) :
    context.enter.Records (frame :: frames) bindings where
  count := records.count
  distinct := records.distinct
  separate := List.nodup_cons.mpr ⟨outside, records.separate⟩
  holds := by
    refine List.Forall₂.cons ?_ records.holds
    intro name
    rw [if_neg (unused name)]
    rfl

theorem exit {outer : Nat} (records : context.Records (frame :: outer :: frames) bindings) :
    (context.exit?.getD context).Records (outer :: frames) bindings := by
  obtain ⟨⟨current, enclosing⟩, count⟩ := context
  have holds := records.holds
  rw [Chain.frames, List.forall₂_cons] at holds
  cases enclosing with
  | nil => nomatch holds.2
  | cons next rest =>
      exact ⟨records.count, records.distinct, (List.nodup_cons.mp records.separate).2, holds.2⟩

end Context.Records

end Freshen
