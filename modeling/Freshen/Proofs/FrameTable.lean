import Freshen.Proofs.Registry
import Freshen.Proofs.Scoping

/-!
The names that the frames of a tree declare, in a table with a row for each frame, and the bindings
that they are together. A binding has its place in the table as its number, so that every written
name can be given the number of the frame that binds it before anything is written.
-/

namespace Freshen

def frameNames (table : List (List String)) (frame : Nat) : List String := table[frame]?.getD []

/-- The frame that binds a written name: a declaration binds in the innermost frame, a reference
means the innermost frame that declares the name. -/
def Occurrence.binder (table : List (List String)) (occurrence : Occurrence) : Option Nat :=
  if occurrence.declares then occurrence.frames.head?
  else occurrence.frames.find? fun frame => occurrence.name ∈ frameNames table frame

/-- The number of a binding: all names of earlier frames come first, then those that its own frame
declares before it. -/
def counter (table : List (List String)) (frame : Nat) (name : String) : Nat :=
  (table.take frame).flatten.length + (frameNames table frame).idxOf name

def Occurrence.freshName (table : List (List String)) (separator : String)
    (occurrence : Occurrence) : String :=
  match occurrence.binder table with
  | some frame =>
    (Minted.mk occurrence.name (counter table frame occurrence.name)).text separator
  | none => occurrence.name

/-- The program with every binding renamed, by its tree alone. -/
def Program.staticallyRenamed (program : Program) (separator : String) : Program :=
  program.renamed (Occurrence.freshName program.frames separator)

/-! The bindings of numbered frames, in one list. -/

def bindingsFrom (first : Nat) : List (List String) → List Binding
  | [] => []
  | names :: rest => names.map (first, ·) ++ bindingsFrom (first + 1) rest

theorem bindingsFrom_append (first : Nat) (left right : List (List String)) :
    bindingsFrom first (left ++ right) =
      bindingsFrom first left ++ bindingsFrom (first + left.length) right := by
  induction left generalizing first with
  | nil => simp [bindingsFrom]
  | cons names rest ih =>
      rw [List.cons_append, bindingsFrom, ih, bindingsFrom, List.append_assoc, List.length_cons]
      congr 3
      omega

theorem mem_bindingsFrom {first : Nat} {table : List (List String)} {frame : Nat} {name : String} :
    (frame, name) ∈ bindingsFrom first table ↔
      first ≤ frame ∧ name ∈ frameNames table (frame - first) := by
  induction table generalizing first with
  | nil => simp [bindingsFrom, frameNames]
  | cons names rest ih =>
      rw [bindingsFrom, List.mem_append, ih]
      rcases Nat.lt_trichotomy frame first with before | rfl | after
      · have apart : first ≠ frame := by omega
        have early : ¬ first ≤ frame := by omega
        have earlier : ¬ first + 1 ≤ frame := by omega
        simp [apart, early, earlier]
      · have later : ¬ frame + 1 ≤ frame := by omega
        simp [frameNames, later]
      · have apart : first ≠ frame := by omega
        have place : frame - first = frame - (first + 1) + 1 := by omega
        have bound : first + 1 ≤ frame ↔ first ≤ frame := by omega
        rw [place, bound]
        simp [frameNames, apart]

theorem idxOf_map_frame (frame : Nat) (names : List String) (name : String) :
    (names.map (frame, ·)).idxOf (frame, name) = names.idxOf name := by
  induction names with
  | nil => rfl
  | cons first rest ih =>
      by_cases same : first = name
      · simp [same]
      · have apart : (frame, first) ≠ (frame, name) := by simp [same]
        rw [List.map_cons, List.idxOf_cons_ne _ apart, List.idxOf_cons_ne _ same, ih]

/-- The place of a binding among all of them is its number. -/
theorem idxOf_bindingsFrom (first : Nat) {table : List (List String)} {frame : Nat} {name : String}
    (declared : name ∈ frameNames table frame) :
    (bindingsFrom first table).idxOf (first + frame, name) = counter table frame name := by
  induction table generalizing first frame with
  | nil => simp [frameNames] at declared
  | cons names rest ih =>
      rw [bindingsFrom]
      cases frame with
      | zero =>
          have inside : name ∈ names := by simpa [frameNames] using declared
          have mapped : (first, name) ∈ names.map (first, ·) := List.mem_map_of_mem inside
          rw [Nat.add_zero, List.idxOf_append_of_mem mapped, idxOf_map_frame]
          simp [counter, frameNames]
      | succ frame =>
          have inside : name ∈ frameNames rest frame := by simpa [frameNames] using declared
          have outside : (first + (frame + 1), name) ∉ names.map (first, ·) := by simp
          have shifted : first + (frame + 1) = first + 1 + frame := by omega
          rw [List.idxOf_append_of_notMem outside, shifted, ih (first + 1) inside]
          simp [counter, frameNames, Nat.add_assoc]

theorem register_bindings (table : List (List String)) (names : List String) (name : String) :
    register (bindingsFrom 0 (table ++ [names.eraseDups])) (table.length, name) =
      bindingsFrom 0 (table ++ [(names ++ [name]).eraseDups]) := by
  have unfolded (names : List String) : bindingsFrom 0 (table ++ [names]) =
      bindingsFrom 0 table ++ names.map (table.length, ·) := by
    simp [bindingsFrom_append, bindingsFrom]
  have fresh : (table.length, name) ∉ bindingsFrom 0 table := by
    simp [mem_bindingsFrom, frameNames]
  by_cases present : name ∈ names
  · have again : (names ++ [name]).eraseDups = names.eraseDups := by
      simp [List.eraseDups_append, List.removeAll, present]
    rw [again, register_of_mem]
    simpa [unfolded] using Or.inr present
  · have once : (names ++ [name]).eraseDups = names.eraseDups ++ [name] := by
      simp [List.eraseDups_append, List.removeAll, present, List.eraseDups_cons]
    rw [once, register_of_not_mem]
    · simp [unfolded]
    · simpa [unfolded, fresh] using present

theorem bindingsFrom_opened (done : List (List String)) :
    bindingsFrom 0 (done ++ [[]]) = bindingsFrom 0 done := by
  simp [bindingsFrom_append, bindingsFrom]

theorem frameNames_placed {done table : List (List String)} (placed : done <+: table)
    {frame : Nat} (earlier : frame < done.length) :
    frameNames done frame = frameNames table frame := by
  obtain ⟨rest, rfl⟩ := placed
  simp [frameNames, List.getElem?_append_left earlier]

theorem mem_bindings_iff {done table : List (List String)} (placed : done <+: table)
    {frame : Nat} (earlier : frame < done.length) (name : String) :
    (frame, name) ∈ bindingsFrom 0 done ↔ name ∈ frameNames table frame := by
  rw [mem_bindingsFrom, Nat.sub_zero, frameNames_placed placed earlier]
  simp

/-- The name that a binding gets when it is declared is the one it has in the end. -/
theorem mintedFor_declared {table : List (List String)} {bindings : List Binding}
    (grows : bindings <+: bindingsFrom 0 table) {frame : Nat} {name : String}
    (present : (frame, name) ∈ bindings) :
    mintedFor bindings (frame, name) = ⟨name, counter table frame name⟩ := by
  have declared : name ∈ frameNames table frame := by
    have member := grows.subset present
    rw [mem_bindingsFrom] at member
    simpa using member.2
  rw [← mintedFor_stable grows present, mintedFor, ← idxOf_bindingsFrom 0 declared,
    Nat.zero_add]

theorem bindingsFrom_placed {done table : List (List String)} (placed : done <+: table) :
    bindingsFrom 0 done <+: bindingsFrom 0 table := by
  obtain ⟨rest, rfl⟩ := placed
  rw [bindingsFrom_append]
  exact List.prefix_append _ _

theorem eraseDups_part {names all : List String} (part : names <+: all) :
    names.eraseDups <+: all.eraseDups := by
  obtain ⟨rest, rfl⟩ := part
  rw [List.eraseDups_append]
  exact List.prefix_append _ _

theorem bindingsFrom_opening {done table : List (List String)} {names all : List String}
    (placed : done ++ [all.eraseDups] <+: table) (part : names <+: all) :
    bindingsFrom 0 (done ++ [names.eraseDups]) <+: bindingsFrom 0 table := by
  refine List.IsPrefix.trans ?_ (bindingsFrom_placed placed)
  obtain ⟨rest, same⟩ := eraseDups_part part
  rw [bindingsFrom_append, bindingsFrom_append, List.prefix_append_right_inj, ← same]
  simp [bindingsFrom]

end Freshen
