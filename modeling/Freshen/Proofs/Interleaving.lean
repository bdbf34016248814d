import Freshen.Proofs.FileOutcomes
import Mathlib.Logic.Relation

/-!
Renaming many files at once. The work on an input is a step that reads it and, if there is code, a
step that writes the code; the steps of different inputs come in any order. If no two inputs have
the same stem they do not disturb each other: in every order, results and files are those of each
input alone.
-/

namespace Freshen

inductive Task where
  | waiting (input : String)
  | ready (input code : String)
  | done (file : FileResult)

namespace Task

def input : Task → String
  | waiting input | ready input _ => input
  | done file => file.input

def afterRead (input : String) (tree : FileTree) : Except RenameFault String → Task × FileTree
  | .ok code => (ready input code, tree)
  | .error fault => (done ⟨input, .error fault⟩, tree)

def afterWrite (input : String) (tree : FileTree) :
    Except RenameFault (String × FileTree) → Task × FileTree
  | .ok (path, changed) => (done ⟨input, .ok (.written path)⟩, changed)
  | .error fault => (done ⟨input, .error fault⟩, tree)

def next (style : Style) (folder : String) (tree : FileTree) : Task → Option (Task × FileTree)
  | waiting input => some (afterRead input tree (tree.rename style input))
  | ready input code => some (afterWrite input tree (tree.writeCode folder input code))
  | done _ => none

end Task

structure Work where
  tree : FileTree
  tasks : List Task

/-- One of the tasks takes its next step. -/
inductive Work.Step (style : Style) (folder : String) : Work → Work → Prop
  | mk {before after : List Task} {task next : Task} {tree changed : FileTree} :
    task.next style folder tree = some (next, changed) →
      Work.Step style folder ⟨tree, before ++ task :: after⟩ ⟨changed, before ++ next :: after⟩

section

variable {style : Style} {folder : String}

def Task.Faithful (style : Style) (folder : String) (made : FileTree) : Task → Prop
  | waiting _ => True
  | ready input code => made.rename style input = .ok code
  | done file => file = (made.process style (some folder) file.input).1

/-- What holds after any number of steps: the finished inputs have left what they leave alone, and
nothing else has changed. -/
structure Consistent (style : Style) (folder : String) (made : FileTree) (inputs : List String)
    (work : Work) : Prop where
  filled : made.Filled work.tree
  inputs_eq : work.tasks.map Task.input = inputs
  faithful : ∀ task ∈ work.tasks, task.Faithful style folder made
  written : ∀ file names code, .done file ∈ work.tasks →
    Leaves style folder made file.input names code →
      work.tree.entry? names = some (.file code.toUTF8)
  untouched : ∀ names, (∀ file code, .done file ∈ work.tasks →
    ¬ Leaves style folder made file.input names code) →
      work.tree.entry? names = made.entry? names

variable {made tree changed : FileTree} {inputs : List String} {before after : List Task}
  {task next : Task}

theorem mem_middle {other : Task} :
    other ∈ before ++ task :: after ↔ other = task ∨ other ∈ before ++ after := by
  simp only [List.mem_append, List.mem_cons]
  tauto

theorem stem_ne_of_mem
    (consistent : Consistent style folder made inputs ⟨tree, before ++ task :: after⟩)
    (distinct : (inputs.map Path.stem).Nodup) {other : Task} (among : other ∈ before ++ after) :
    Path.stem other.input ≠ Path.stem task.input := by
  rw [← consistent.inputs_eq, List.map_append, List.map_cons, List.map_append, List.map_cons,
    List.nodup_middle, List.nodup_cons] at distinct
  intro same
  apply distinct.1
  rw [← List.map_append, ← List.map_append, ← same]
  exact List.mem_map_of_mem (List.mem_map_of_mem among)

/-- No other input has left anything where an unfinished one stands. -/
theorem rename_eq (formed : made.WellFormed)
    (consistent : Consistent style folder made inputs ⟨tree, before ++ task :: after⟩)
    (distinct : (inputs.map Path.stem).Nodup) (undone : ∀ file, task ≠ .done file) :
    tree.rename style task.input = made.rename style task.input := by
  have same : tree.entryAt? task.input = made.entryAt? task.input := by
    refine consistent.filled.entryAt? formed fun names here => ?_
    refine consistent.untouched names fun file code among leaves => ?_
    -- what was written where this input stands comes from an input with the same stem
    have meets := stem_of_input_meets here leaves.placed (leaves.stem_ne_empty formed)
    rcases mem_middle.mp among with itself | other
    · exact undone file itself.symm
    · exact stem_ne_of_mem consistent distinct other meets.symm
  rw [FileTree.rename, FileTree.rename, FileTree.read, FileTree.read, same]

theorem Consistent.replace
    (consistent : Consistent style folder made inputs ⟨tree, before ++ task :: after⟩)
    (undone : ∀ file, task ≠ .done file) (same : next.input = task.input)
    (faithful : next.Faithful style folder made)
    (nothing : ∀ file, next = .done file → ∀ names code,
      ¬ Leaves style folder made file.input names code) :
    Consistent style folder made inputs ⟨tree, before ++ next :: after⟩ where
  filled := consistent.filled
  inputs_eq := by
    rw [← consistent.inputs_eq]
    simp [same]
  faithful other among := by
    rcases mem_middle.mp among with rfl | elsewhere
    · exact faithful
    · exact consistent.faithful other (mem_middle.mpr (.inr elsewhere))
  written file names code among leaves := by
    rcases mem_middle.mp among with itself | elsewhere
    · exact absurd leaves (nothing file itself.symm names code)
    · exact consistent.written file names code (mem_middle.mpr (.inr elsewhere)) leaves
  untouched names free := by
    refine consistent.untouched names fun file code among => ?_
    rcases mem_middle.mp among with itself | elsewhere
    · exact absurd itself.symm (undone file)
    · exact free file code (mem_middle.mpr (.inr elsewhere))

theorem Consistent.write {input code : String} {names : List String}
    (consistent : Consistent style folder made inputs ⟨tree, before ++ .ready input code :: after⟩)
    (distinct : (inputs.map Path.stem).Nodup)
    (leaves : Leaves style folder made input names code) :
    Consistent style folder made inputs
      ⟨tree.insert names (.file code.toUTF8),
        before ++ .done ⟨input, .ok (.written (outputPath folder input))⟩ :: after⟩ := by
  have inner : names ≠ [] := by
    obtain ⟨base, _, _, _, rfl⟩ := FileTree.place?_eq_some.mp leaves.placed
    simp
  refine ⟨?_, ?_, ?_, ?_, ?_⟩
  · refine consistent.filled.insert inner ?_ _
    rw [consistent.filled.folders, leaves.free]
  · rw [← consistent.inputs_eq]
    simp [Task.input]
  · intro other among
    rcases mem_middle.mp among with rfl | elsewhere
    · have renamed := rename_eq_ok.mpr leaves.code
      rw [Task.Faithful,
        process_of_written renamed (writeCode_of_free code leaves.placed leaves.free)]
    · exact consistent.faithful other (mem_middle.mpr (.inr elsewhere))
  · intro file others text among left
    rw [FileTree.entry?_insert inner]
    rcases mem_middle.mp among with itself | elsewhere
    · have own : file.input = input := by rw [Task.done.inj itself]
      rw [own] at left
      obtain ⟨rfl, rfl⟩ := left.unique leaves
      rw [if_pos rfl]
    · -- another input has another stem, so its code stands elsewhere
      have apart : others ≠ names := by
        rintro rfl
        have stems := stem_ne_of_mem consistent distinct elsewhere
        rw [Task.input, Task.input] at stems
        exact stems (stem_of_outputs_meet left.placed leaves.placed)
      rw [if_neg apart]
      exact consistent.written file others text (mem_middle.mpr (.inr elsewhere)) left
  · intro others free
    have apart : others ≠ names := by
      rintro rfl
      exact free _ code (mem_middle.mpr (.inl rfl)) leaves
    rw [FileTree.entry?_insert inner, if_neg apart]
    refine consistent.untouched others fun file text among => ?_
    rcases mem_middle.mp among with itself | elsewhere
    · simp at itself
    · exact free file text (mem_middle.mpr (.inr elsewhere))

theorem Consistent.step {work later : Work} (formed : made.WellFormed)
    (distinct : (inputs.map Path.stem).Nodup)
    (consistent : Consistent style folder made inputs work)
    (step : Work.Step style folder work later) :
    Consistent style folder made inputs later := by
  obtain @⟨before, after, task, next, tree, changed, moved⟩ := step
  cases task with
  | waiting input =>
      have same := rename_eq formed consistent distinct (by simp)
      rw [Task.input] at same
      rw [Task.next, same, Option.some_inj] at moved
      cases renamed : made.rename style input with
      | error fault =>
          obtain ⟨rfl, rfl⟩ := Prod.mk.inj (renamed ▸ moved)
          refine consistent.replace (by simp) rfl ?_ ?_
          · rw [Task.Faithful, process_of_error renamed]
          · rintro _ ⟨⟩ names code leaves
            cases renamed.symm.trans (rename_eq_ok.mpr leaves.code)
      | ok code =>
          obtain ⟨rfl, rfl⟩ := Prod.mk.inj (renamed ▸ moved)
          exact consistent.replace (by simp) rfl renamed (by simp)
  | ready input code =>
      have renamed : made.rename style input = .ok code :=
        consistent.faithful _ (mem_middle.mpr (.inl rfl))
      -- no folder has come or gone, so there is room now exactly if there was before
      have place := consistent.filled.place? (outputPath folder input)
      rw [Task.next, Option.some_inj] at moved
      by_cases room : ∃ names, made.place? (outputPath folder input) = some names ∧
          made.hasFolder names = false
      · obtain ⟨names, placed, free⟩ := room
        rw [writeCode_of_free code (place.trans placed)
          ((consistent.filled.folders names).trans free)] at moved
        obtain ⟨rfl, rfl⟩ := Prod.mk.inj moved
        exact consistent.write distinct ⟨rename_eq_ok.mp renamed, placed, free⟩
      · have taken (names : List String)
            (placed : made.place? (outputPath folder input) = some names) :
            made.hasFolder names = true := by
          by_contra free
          exact room ⟨names, placed, Bool.eq_false_iff.mpr free⟩
        rw [writeCode_of_taken code fun names placed =>
          (consistent.filled.folders names).trans (taken names (place.symm.trans placed)),
          place] at moved
        obtain ⟨rfl, rfl⟩ := Prod.mk.inj moved
        refine consistent.replace (by simp) rfl ?_ ?_
        · rw [Task.Faithful, process_of_unwritten renamed (writeCode_of_taken code taken)]
        · rintro _ ⟨⟩ names text leaves
          exact room ⟨names, leaves.placed, leaves.free⟩
  | done file => simp [Task.next] at moved

theorem Consistent.start (made : FileTree) (inputs : List String) :
    Consistent style folder made inputs ⟨made, inputs.map .waiting⟩ where
  filled := .refl made
  inputs_eq := by simp [Function.comp_def, Task.input]
  faithful task among := by
    obtain ⟨input, _, rfl⟩ := List.mem_map.mp among
    trivial
  written file _ _ among := by simp at among
  untouched _ _ := rfl

theorem Consistent.run {work later : Work} (formed : made.WellFormed)
    (distinct : (inputs.map Path.stem).Nodup)
    (consistent : Consistent style folder made inputs work)
    (steps : Relation.ReflTransGen (Work.Step style folder) work later) :
    Consistent style folder made inputs later := by
  induction steps with
  | refl => exact consistent
  | tail _ step ih => exact ih.step formed distinct step

end

section

variable {style : Style} {folder : String} {made after : FileTree} {inputs : List String}
  {files : List FileResult}

theorem Consistent.results
    (consistent : Consistent style folder made inputs ⟨after, files.map .done⟩) :
    files = inputs.map fun input => (made.process style (some folder) input).1 := by
  rw [← consistent.inputs_eq, List.map_map, List.map_map]
  conv_lhs => rw [← List.map_id files]
  refine List.map_congr_left fun file among => ?_
  exact consistent.faithful (.done file) (List.mem_map_of_mem among)

end

end Freshen
