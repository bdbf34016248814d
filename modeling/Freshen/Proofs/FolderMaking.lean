import Freshen.Proofs.FileChanges

/-!
Making folders. A folder that was made is there afterwards, and so is all that was there before.
-/

namespace Freshen

namespace Path

end Path

namespace FileTree

/-- `after` is `before` with folders made where nothing stood. -/
structure Grown (before after : FileTree) : Prop where
  start : after.workingFolder = before.workingFolder
  entries : ∀ names, after.entry? names = before.entry? names ∨
    before.entry? names = none ∧ after.entry? names = some .folder

namespace Grown

variable {before after : FileTree}

theorem refl (tree : FileTree) : Grown tree tree := ⟨rfl, fun _ => .inl rfl⟩

theorem insert (tree : FileTree) {names : List String} (inner : names ≠ [])
    (free : tree.entry? names = none) : Grown tree (tree.insert names .folder) where
  start := rfl
  entries other := by
    rw [entry?_insert inner]
    split
    next same => exact .inr ⟨same ▸ free, rfl⟩
    next => exact .inl rfl

theorem trans {between : FileTree} (first : Grown before between) (second : Grown between after) :
    Grown before after where
  start := second.start.trans first.start
  entries names := by
    rcases first.entries names with same | ⟨free, made⟩
    · rw [← same]
      exact second.entries names
    · rcases second.entries names with kept | ⟨gone, _⟩
      · exact .inr ⟨free, kept.trans made⟩
      · simp [made] at gone

theorem entry?_of_some (grown : Grown before after) {names : List String} {entry : Entry}
    (stood : before.entry? names = some entry) : after.entry? names = some entry := by
  rcases grown.entries names with same | ⟨free, _⟩
  · exact same.trans stood
  · simp [stood] at free

theorem descend? (grown : Grown before after) {base next : List String} {segment : String}
    (went : before.descend? base segment = some next) :
    after.descend? base segment = some next := by
  have folder : before.hasFolder base = true := by
    by_contra closed
    simp [descend?_eq_none segment (Bool.eq_false_iff.mpr closed)] at went
  have again : after.hasFolder base = true :=
    hasFolder_iff.mpr (grown.entry?_of_some (hasFolder_iff.mp folder))
  rw [FileTree.descend?, if_pos folder] at went
  rw [FileTree.descend?, if_pos again]
  split at went
  next idle => rw [if_pos idle, went]
  next busy =>
    rw [if_neg busy]
    split at went
    next up => rw [if_pos up, went]
    next named =>
      rw [if_neg named]
      split at went
      next stood =>
        obtain ⟨entry, found⟩ := Option.isSome_iff_exists.mp stood
        rw [grown.entry?_of_some found, Option.isSome_some, if_pos rfl, went]
      next => simp at went

theorem walk (grown : Grown before after) {base last segments : List String}
    (went : segments.foldlM before.descend? base = some last) :
    segments.foldlM after.descend? base = some last := by
  induction segments generalizing base with
  | nil => exact went
  | cons segment rest ih =>
      rw [List.foldlM_cons, Option.bind_eq_bind, Option.bind_eq_some_iff] at went
      obtain ⟨next, first, later⟩ := went
      rw [List.foldlM_cons, grown.descend? first]
      exact ih later

end Grown

theorem WellFormed.insert {tree : FileTree} (formed : tree.WellFormed) {base : List String}
    (folder : tree.hasFolder base = true) {name : String} (entry : Entry)
    (free : tree.hasFolder (base ++ [name]) = false) :
    (tree.insert (base ++ [name]) entry).WellFormed := by
  have kept {names : List String} (stands : tree.hasFolder names = true) :
      (tree.insert (base ++ [name]) entry).hasFolder names = true := by
    rw [hasFolder, entry?_insert (by simp), if_neg]
    · exact stands
    · rintro rfl
      simp [free] at stands
  intro other present
  rw [entry?_insert (by simp)] at present
  split at present
  next same =>
    rw [same, List.dropLast_concat]
    exact kept folder
  next => exact kept (formed other present)

section

variable {tree made : FileTree} {folder : String}

end

end FileTree

end Freshen
