import Freshen.Command.Run
import Freshen.Proofs.FolderMaking
import Freshen.Proofs.OutputNames

/-!
What becomes of one input, and of the tree before any input is taken up. An input is read, loaded
and transformed, and its code is written where no folder stands; the first of these that fails
says why there is no output. Before that, two inputs with one stem are found while nothing has been
made yet.
-/

namespace Freshen

def FileTree.HasCode (tree : FileTree) (style : Style) (input code : String) : Prop :=
  ∃ text program, tree.read input = .ok text ∧ Estree.programOfText text = .ok program ∧
    program.transform style = .ok code

/-- There is no code, and the first of reading, loading and transforming that fails says why. -/
inductive FileTree.Stuck (tree : FileTree) (style : Style) (input : String) : RenameFault → Prop
  | unread {cause : FileFault} : tree.read input = .error cause →
    Stuck tree style input (.read cause)
  | unloaded {text : String} {cause : Estree.TextError} : tree.read input = .ok text →
    Estree.programOfText text = .error cause → Stuck tree style input (.estree cause)
  | untransformed {text : String} {program : Program} {cause : Unsupported} :
    tree.read input = .ok text → Estree.programOfText text = .ok program →
    program.transform style = .error cause → Stuck tree style input (.unsupported cause)

/-- What an input leaves behind if it is the only one. -/
structure Leaves (style : Style) (folder : String) (made : FileTree) (input : String)
    (names : List String) (code : String) : Prop where
  code : made.HasCode style input code
  placed : made.place? (outputPath folder input) = some names
  free : made.hasFolder names = false

section

variable {style : Style} {folder : String} {tree made : FileTree} {input : String}

theorem rename_cases (tree : FileTree) (style : Style) (input : String) :
    (∃ code, tree.rename style input = .ok code ∧ tree.HasCode style input code) ∨
      ∃ fault, tree.rename style input = .error fault ∧ tree.Stuck style input fault := by
  rw [FileTree.rename]
  cases read : tree.read input with
  | error cause => exact .inr ⟨_, rfl, .unread read⟩
  | ok text =>
      cases loaded : Estree.programOfText text with
      | error cause =>
          refine .inr ⟨_, ?_, .unloaded read loaded⟩
          simp [loaded, Except.mapError, bind, Except.bind]
      | ok program =>
          cases transformed : program.transform style with
          | error cause =>
              refine .inr ⟨_, ?_, .untransformed read loaded transformed⟩
              simp [loaded, transformed, Except.mapError, bind, Except.bind]
          | ok code =>
              refine .inl ⟨code, ?_, text, program, read, loaded, transformed⟩
              simp [loaded, transformed, Except.mapError, bind, Except.bind]

theorem rename_eq_ok {code : String} :
    tree.rename style input = .ok code ↔ tree.HasCode style input code := by
  constructor
  · intro renamed
    rcases rename_cases tree style input with ⟨other, same, has⟩ | ⟨fault, failed, _⟩
    · cases renamed.symm.trans same
      exact has
    · cases renamed.symm.trans failed
  · rintro ⟨text, program, read, loaded, transformed⟩
    simp [FileTree.rename, read, loaded, transformed, Except.mapError, bind, Except.bind]

theorem process_of_error {fault : RenameFault} (renamed : tree.rename style input = .error fault) :
    tree.process style (some folder) input = (⟨input, .error fault⟩, tree) := by
  unfold FileTree.process
  rw [renamed]

theorem process_of_unwritten {code : String} {fault : RenameFault}
    (renamed : tree.rename style input = .ok code)
    (refused : tree.writeCode folder input code = .error fault) :
    tree.process style (some folder) input = (⟨input, .error fault⟩, tree) := by
  unfold FileTree.process
  rw [renamed]
  dsimp only
  rw [refused]

theorem process_of_written {changed : FileTree} {code path : String}
    (renamed : tree.rename style input = .ok code)
    (wrote : tree.writeCode folder input code = .ok (path, changed)) :
    tree.process style (some folder) input = (⟨input, .ok (.written path)⟩, changed) := by
  unfold FileTree.process
  rw [renamed]
  dsimp only
  rw [wrote]

theorem Leaves.unique {one other : String} {here there : List String}
    (first : Leaves style folder made input here one)
    (second : Leaves style folder made input there other) : here = there ∧ one = other :=
  ⟨Option.some_inj.mp (first.placed.symm.trans second.placed),
    Except.ok.inj ((rename_eq_ok.mpr first.code).symm.trans (rename_eq_ok.mpr second.code))⟩

theorem Leaves.stem_ne_empty (formed : made.WellFormed) {names : List String} {code : String}
    (leaves : Leaves style folder made input names code) : Path.stem input ≠ "" := by
  obtain ⟨text, program, read, _⟩ := leaves.code
  exact stem_ne_empty_of_read formed read

theorem writeCode_of_free {names : List String} (code : String)
    (placed : tree.place? (outputPath folder input) = some names)
    (free : tree.hasFolder names = false) :
    tree.writeCode folder input code =
      .ok (outputPath folder input, tree.insert names (.file code.toUTF8)) := by
  rw [outputPath] at placed ⊢
  simp [FileTree.writeCode, FileTree.write, placed, free, Except.mapError, bind, Except.bind, pure,
    Except.pure]

theorem writeCode_of_taken (code : String)
    (taken : ∀ names, tree.place? (outputPath folder input) = some names →
      tree.hasFolder names = true) :
    tree.writeCode folder input code =
      .error (.write (if (tree.place? (outputPath folder input)).isSome then .isFolder
        else .missing)) := by
  rw [outputPath] at taken ⊢
  cases placed : tree.place? (Path.join folder (outputName input)) with
  | none => simp [FileTree.writeCode, FileTree.write, placed, Except.mapError, bind, Except.bind]
  | some names =>
      simp [FileTree.writeCode, FileTree.write, placed, taken names placed, Except.mapError, bind,
        Except.bind]

end

section

variable {tree made kept : FileTree} {folder : String} {inputs : List String} {failure : Failure}

end

end Freshen
