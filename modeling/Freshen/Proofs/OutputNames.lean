import Freshen.Command.Rename
import Freshen.Proofs.FileChanges
import Mathlib.Data.List.Nodup

/-!
The files that code is written to. Each is named by the stem of its input, so inputs that differ in
their stems have places of their own; and an input that stands at the place of an output has the
stem that the output is named by.
-/

namespace Freshen

namespace Path

theorem busy_of_last {name : String} {c : Char} (last : name.toList.getLast? = some c)
    (letter : c ≠ '.') : ¬ isIdle name ∧ name ≠ ".." := by
  constructor
  · intro idle
    rcases Bool.or_eq_true_iff.mp idle with same | same
    · rw [eq_of_beq same] at last
      cases last
    · rw [eq_of_beq same] at last
      exact letter (Option.some.inj last).symm
  · rintro rfl
    exact letter (Option.some.inj last).symm

theorem splitExtension_append {name ending extension : String} (inhabited : name ≠ "")
    (dotted : ending.toList = '.' :: extension.toList) (plain : '.' ∉ extension.toList) :
    splitExtension (name ++ ending) = (name, some extension) := by
  have letters : (name ++ ending).toList.reverse =
      extension.toList.reverse ++ '.' :: name.toList.reverse := by
    simp [String.toList_append, dotted]
  have behind : ∀ c ∈ extension.toList.reverse, decide (c ≠ '.') = true := by
    intro c among
    simpa using fun dot : c = '.' => plain (by simpa [dot] using among)
  rw [splitExtension, letters, List.dropWhile_append_of_pos behind,
    List.takeWhile_append_of_pos behind]
  cases back : name.toList.reverse with
  | nil =>
      rw [List.reverse_eq_nil_iff, String.toList_eq_nil_iff] at back
      exact absurd back inhabited
  | cons c rest =>
      have whole : String.ofList (rest.reverse ++ [c]) = name := by
        rw [← List.reverse_cons, ← back, List.reverse_reverse, String.ofList_toList]
      simp [whole]

theorem splitExtension_spec (name : String) :
    (∃ rest, name.toList = (splitExtension name).1.toList ++ rest) ∧
      ((splitExtension name).1 = "" → name = "") := by
  rw [splitExtension]
  split
  · exact ⟨⟨[], by simp⟩, id⟩
  · exact ⟨⟨[], by simp⟩, id⟩
  next dot before nonempty cut =>
    have whole := List.takeWhile_append_dropWhile
      (p := fun c : Char => decide (c ≠ '.')) (l := name.toList.reverse)
    rw [cut] at whole
    constructor
    · generalize List.takeWhile _ _ = behind at whole
      refine ⟨dot :: behind.reverse, ?_⟩
      rw [← List.reverse_reverse name.toList, ← whole]
      simp
    · intro empty
      have none : before = [] := by simpa [String.ofList_eq_empty_iff] using empty
      exact absurd none nonempty

theorem stem_eq {path name : String} (named : fileName? path = some name) :
    stem path = (splitExtension name).1 := by
  rw [stem, named, Option.elim_some]

theorem plain_stem (path : String) : '/' ∉ (stem path).toList := by
  cases named : fileName? path with
  | none => simp [stem, named]
  | some name =>
      obtain ⟨⟨rest, whole⟩, _⟩ := splitExtension_spec name
      rw [stem_eq named]
      intro slash
      refine plain_of_mem_segments (mem_segments_of_fileName? named) ?_
      rw [whole]
      exact List.mem_append_left _ slash

example : stem "a/x.json/" = "x" ∧ stem "x.json/." = "x" ∧ stem "a/.." = "" ∧
    stem ".js" = ".js" := by decide

end Path

def outputPath (folder input : String) : String := Path.join folder (outputName input)

theorem outputName_inj {first second : String} (same : outputName first = outputName second) :
    Path.stem first = Path.stem second := by
  rw [outputName, outputName, ← String.toList_inj, String.toList_append,
    String.toList_append] at same
  exact String.toList_inj.mp (List.append_cancel_right same)

/-- An output has a name that can stand in any folder. -/
theorem outputName_spec (input : String) :
    '/' ∉ (outputName input).toList ∧ ¬ Path.isIdle (outputName input) ∧
      outputName input ≠ ".." := by
  have ends : (outputName input).toList.getLast? = some 's' := by
    simp [outputName, String.toList_append]
  refine ⟨?_, Path.busy_of_last ends (by decide)⟩
  simpa [outputName, String.toList_append] using Path.plain_stem input

section

variable {tree : FileTree} {folder : String}

theorem lastSegment_outputPath (folder input : String) :
    Path.lastSegment (outputPath folder input) = outputName input := by
  obtain ⟨front, _, joined⟩ := Path.exists_front folder
  rw [outputPath, Path.lastSegment, (joined _ (outputName_spec input).1).1]
  simp

theorem lastSegment_of_place? {path : String} {names : List String}
    (placed : tree.place? path = some names) : names.getLast? = some (Path.lastSegment path) := by
  obtain ⟨base, _, _, _, rfl⟩ := FileTree.place?_eq_some.mp placed
  exact List.getLast?_concat

theorem stem_of_outputs_meet {first second : String} {names : List String}
    (one : tree.place? (outputPath folder first) = some names)
    (other : tree.place? (outputPath folder second) = some names) :
    Path.stem first = Path.stem second := by
  have last := (lastSegment_of_place? one).symm.trans (lastSegment_of_place? other)
  rw [lastSegment_outputPath, lastSegment_outputPath] at last
  exact outputName_inj (Option.some_inj.mp last)

/-- An input at the place of an output has the stem that the output is named by. -/
theorem stem_of_input_meets {input other : String} {names : List String}
    (here : tree.place? input = some names)
    (there : tree.place? (outputPath folder other) = some names)
    (inhabited : Path.stem other ≠ "") : Path.stem input = Path.stem other := by
  have last := (lastSegment_of_place? here).symm.trans (lastSegment_of_place? there)
  rw [lastSegment_outputPath, Option.some_inj] at last
  obtain ⟨_, _, busy, inner, _⟩ := FileTree.place?_eq_some.mp here
  -- without a stem the output is `.js`, whose dot is no dot of an extension
  have dotted : ".js".toList = '.' :: "js".toList := by decide
  rw [Path.stem_eq (Path.fileName?_of_busy busy inner), last, outputName,
    Path.splitExtension_append inhabited dotted (by decide)]

theorem fileName?_of_file (formed : tree.WellFormed) {path : String} {content : ByteArray}
    (file : tree.entryAt? path = some (.file content)) :
    Path.fileName? path = some (Path.lastSegment path) ∧ Path.lastSegment path ≠ "" := by
  have inhabited : path ≠ "" := by
    rintro rfl
    simp [FileTree.entryAt?, FileTree.locate?] at file
  rw [FileTree.entryAt?_eq inhabited, Option.bind_eq_some_iff] at file
  obtain ⟨base, found, entry⟩ := file
  have folder := FileTree.hasFolder_iff.mp (FileTree.hasFolder_of_folderAt? found)
  have above := FileTree.hasFolder_iff.mp (formed base (by simp [folder]))
  have busy : ¬ Path.isIdle (Path.lastSegment path) := by
    intro idle
    simp [idle, folder] at entry
  have inner : Path.lastSegment path ≠ ".." := by
    intro up
    simp [up, above, Path.isIdle] at entry
  refine ⟨Path.fileName?_of_busy busy inner, ?_⟩
  intro empty
  exact busy (by simp [empty, Path.isIdle])

theorem stem_ne_empty_of_read (formed : tree.WellFormed) {input text : String}
    (read : tree.read input = .ok text) : Path.stem input ≠ "" := by
  intro empty
  rw [FileTree.read] at read
  cases found : tree.entryAt? input with
  | none => simp [found] at read
  | some entry =>
      cases entry with
      | folder => simp [found] at read
      | file content =>
          obtain ⟨named, inhabited⟩ := fileName?_of_file formed found
          rw [Path.stem_eq named] at empty
          exact inhabited ((Path.splitExtension_spec _).2 empty)

end

end Freshen
