import Freshen.Files.FileTree
import Mathlib.Data.Option.Basic

/-!
What a change of a file tree does to paths. Files that are written where no folder stands, and
folders that are made where nothing stands, leave every other path as it was.
-/

namespace Freshen

namespace Path

theorem splitSlash_ne_nil (text : List Char) : splitSlash text ≠ [] := by
  cases text with
  | nil => simp [splitSlash]
  | cons c rest =>
      rw [splitSlash]
      split
      · simp
      · split <;> simp

theorem splitSlash_append (first second : List Char) :
    splitSlash (first ++ '/' :: second) = splitSlash first ++ splitSlash second := by
  induction first with
  | nil => simp [splitSlash]
  | cons c rest ih =>
      rw [List.cons_append, splitSlash, splitSlash, ih]
      split
      · simp
      · cases parts : splitSlash rest with
        | nil => exact absurd parts (splitSlash_ne_nil rest)
        | cons part more => simp

theorem splitSlash_plain {text : List Char} (plain : '/' ∉ text) : splitSlash text = [text] := by
  induction text with
  | nil => rfl
  | cons c rest ih =>
      obtain ⟨other, inside⟩ : c ≠ '/' ∧ '/' ∉ rest := by simpa [eq_comm] using plain
      rw [splitSlash, if_neg other, ih inside]

theorem plain_of_mem_splitSlash {text part : List Char} (among : part ∈ splitSlash text) :
    '/' ∉ part := by
  induction text generalizing part with
  | nil => simp_all [splitSlash]
  | cons c rest ih =>
      rw [splitSlash] at among
      split at among
      next slash =>
        rcases List.mem_cons.mp among with rfl | later
        · simp
        · exact ih later
      next other =>
        cases parts : splitSlash rest with
        | nil => exact absurd parts (splitSlash_ne_nil rest)
        | cons first more =>
            rw [parts] at among ih
            rcases List.mem_cons.mp among with rfl | later
            · simpa [eq_comm, other] using ih List.mem_cons_self
            · exact ih (List.mem_cons_of_mem _ later)

def lastSegment (path : String) : String := (segments path).getLast?.getD ""

theorem segments_eq (path : String) :
    segments path = (segments path).dropLast ++ [lastSegment path] := by
  have inhabited : segments path ≠ [] := by simp [segments, splitSlash_ne_nil]
  rw [lastSegment, List.getLast?_eq_some_getLast inhabited, Option.getD_some,
    List.dropLast_concat_getLast]

theorem getLast?_segments (path : String) :
    (segments path).getLast? = some (lastSegment path) := by
  rw [segments_eq path, List.getLast?_concat]

theorem plain_of_mem_segments {path segment : String} (among : segment ∈ segments path) :
    '/' ∉ segment.toList := by
  obtain ⟨part, inside, named⟩ := List.mem_map.mp among
  rw [← named, String.toList_ofList]
  exact plain_of_mem_splitSlash inside

theorem fileName?_of_busy {path : String} (busy : ¬ isIdle (lastSegment path))
    (inner : lastSegment path ≠ "..") : fileName? path = some (lastSegment path) := by
  rw [fileName?, segments_eq path, List.filter_append, List.filter_cons_of_pos (by simp [busy]),
    List.filter_nil, List.getLast?_concat]
  simp [inner, Option.filter]

theorem mem_segments_of_fileName? {path name : String} (named : fileName? path = some name) :
    name ∈ segments path :=
  (List.mem_filter.mp (List.mem_of_getLast? (Option.filter_eq_some_iff.mp named).1)).1

theorem segments_append (first second : String) :
    segments (first ++ "/" ++ second) = segments first ++ segments second := by
  simp [segments, String.toList_append, splitSlash_append]

theorem segments_plain {name : String} (plain : '/' ∉ name.toList) : segments name = [name] := by
  simp [segments, splitSlash_plain plain]

theorem isAbsolute_append {first : String} (inhabited : first ≠ "") (second : String) :
    isAbsolute (first ++ second) = isAbsolute first := by
  rw [isAbsolute, isAbsolute, String.toList_append]
  cases letters : first.toList with
  | nil => exact absurd (String.toList_eq_nil_iff.mp letters) inhabited
  | cons c rest => rfl

theorem isAbsolute_plain {name : String} (plain : '/' ∉ name.toList) : isAbsolute name = false := by
  rw [isAbsolute, beq_eq_false_iff_ne]
  intro slash
  exact plain (List.mem_of_head? slash)

/-- A name that is joined to a path comes behind its segments, an empty last one aside. -/
theorem segments_join (base : String) :
    ∃ front, (segments base = front ∨ segments base = front ++ [""]) ∧
      ∀ name : String, '/' ∉ name.toList →
        segments (join base name) = front ++ [name] ∧
          isAbsolute (join base name) = isAbsolute base := by
  rcases List.eq_nil_or_concat base.toList with empty | ⟨init, last, whole⟩
  · refine ⟨[], ?_⟩
    obtain rfl := String.toList_eq_nil_iff.mp empty
    refine ⟨.inr rfl, fun name plain => ?_⟩
    have joined : join "" name = name := by simp [join, isAbsolute_plain plain]
    rw [joined]
    exact ⟨segments_plain plain, isAbsolute_plain plain⟩
  · have inhabited : base ≠ "" := by
      rintro rfl
      simp at whole
    by_cases slash : last = '/'
    · have split : base = String.ofList init ++ "/" := by
        rw [← String.toList_inj, whole, slash]
        simp
      have ends : segments base = segments (String.ofList init) ++ [""] := by
        rw [split, ← String.append_empty (s := _ ++ "/"), segments_append]
        rfl
      refine ⟨segments (String.ofList init), .inr ends, fun name plain => ?_⟩
      have joined : join base name = base ++ name := by
        simp [join, isAbsolute_plain plain, whole, slash]
      rw [joined]
      refine ⟨?_, isAbsolute_append inhabited name⟩
      rw [split, segments_append, segments_plain plain]
    · refine ⟨segments base, .inl rfl, fun name plain => ?_⟩
      have joined : join base name = base ++ "/" ++ name := by
        simp [join, isAbsolute_plain plain, whole, slash]
      rw [joined, segments_append, segments_plain plain, String.append_assoc]
      exact ⟨rfl, isAbsolute_append inhabited _⟩

/-- All names that are joined to a folder have the same segments in front. -/
theorem exists_front (base : String) :
    ∃ front absolute, ∀ name : String, '/' ∉ name.toList →
      segments (join base name) = front ++ [name] ∧ isAbsolute (join base name) = absolute := by
  obtain ⟨front, _, joined⟩ := segments_join base
  exact ⟨front, isAbsolute base, joined⟩

end Path

namespace FileTree

theorem lookup_filter_ne (entries : List (List String × Entry)) {names other : List String}
    (apart : other ≠ names) :
    (entries.filter (·.1 ≠ names)).lookup other = entries.lookup other := by
  induction entries with
  | nil => rfl
  | cons head rest ih =>
      obtain ⟨key, entry⟩ := head
      by_cases same : key = names
      · have skipped : (other == key) = false := beq_false_of_ne (same ▸ apart)
        rw [List.filter_cons_of_neg (by simp [same]), ih, List.lookup_cons, skipped]
      · rw [List.filter_cons_of_pos (by simp [same]), List.lookup_cons, List.lookup_cons, ih]

theorem lookup_filter_self (entries : List (List String × Entry)) (names : List String) :
    (entries.filter (·.1 ≠ names)).lookup names = none := by
  rw [List.lookup_eq_none_iff]
  intro head among
  have differs : head.1 ≠ names := by simpa using (List.mem_filter.mp among).2
  simpa using differs.symm

theorem entry?_insert {tree : FileTree} {names : List String} (inner : names ≠ []) (entry : Entry)
    (other : List String) :
    entry? (tree.insert names entry) other =
      if other = names then some entry else tree.entry? other := by
  unfold entry?
  rw [insert, List.lookup_append]
  by_cases same : other = names
  · subst same
    rw [if_neg inner, lookup_filter_self]
    simp
  · have skipped : (other == names) = false := beq_false_of_ne same
    rw [lookup_filter_ne _ same, if_neg same]
    simp [List.lookup_cons, skipped]

theorem hasFolder_iff {tree : FileTree} {names : List String} :
    tree.hasFolder names = true ↔ tree.entry? names = some .folder := by
  rw [hasFolder]
  cases tree.entry? names with
  | none => simp
  | some entry => cases entry <;> simp [Entry.isFolder]

def folderAt? (tree : FileTree) (base : List String) (segments : List String) :
    Option (List String) :=
  (segments.foldlM tree.descend? base).filter tree.hasFolder

section

variable {tree : FileTree}

theorem folderAt?_nil (base : List String) :
    tree.folderAt? base [] = if tree.hasFolder base then some base else none := by
  simp [folderAt?, Option.filter]

theorem folderAt?_cons (base : List String) (segment : String) (rest : List String) :
    tree.folderAt? base (segment :: rest) =
      (tree.descend? base segment).bind (tree.folderAt? · rest) := by
  rw [folderAt?, List.foldlM_cons]
  cases tree.descend? base segment with
  | none => rfl
  | some next => rfl

theorem hasFolder_of_folderAt? {base names segments : List String}
    (found : tree.folderAt? base segments = some names) : tree.hasFolder names = true :=
  (Option.filter_eq_some_iff.mp found).2

theorem descend?_eq_none {base : List String} (segment : String)
    (closed : tree.hasFolder base = false) : tree.descend? base segment = none := by
  simp [descend?, closed]

theorem folderAt?_eq_none {base : List String} (segments : List String)
    (closed : tree.hasFolder base = false) : tree.folderAt? base segments = none := by
  cases segments with
  | nil => simp [folderAt?_nil, closed]
  | cons segment rest => rw [folderAt?_cons, descend?_eq_none segment closed, Option.bind_none]

theorem place?_eq (path : String) :
    tree.place? path =
      (tree.folderAt? (tree.start path) (Path.segments path).dropLast).bind fun base =>
        if ¬ Path.isIdle (Path.lastSegment path) ∧ Path.lastSegment path ≠ ".." then
          some (base ++ [Path.lastSegment path])
        else none := by
  rw [place?, Path.getLast?_segments, folderAt?]
  cases (Path.segments path).dropLast.foldlM tree.descend? (tree.start path) with
  | none => rfl
  | some base => cases folder : tree.hasFolder base <;> simp [Option.filter, folder]

theorem entryAt?_eq {path : String} (inhabited : path ≠ "") :
    tree.entryAt? path =
      (tree.folderAt? (tree.start path) (Path.segments path).dropLast).bind fun base =>
        if Path.isIdle (Path.lastSegment path) then tree.entry? base
        else if Path.lastSegment path = ".." then tree.entry? base.dropLast
        else tree.entry? (base ++ [Path.lastSegment path]) := by
  have walk := congrArg (List.foldlM tree.descend? (tree.start path)) (Path.segments_eq path)
  rw [entryAt?, locate?, if_neg inhabited, walk, List.foldlM_append, folderAt?]
  cases (Path.segments path).dropLast.foldlM tree.descend? (tree.start path) with
  | none => rfl
  | some base =>
      cases folder : tree.hasFolder base with
      | false => simp [descend?_eq_none _ folder, Option.filter, folder]
      | true =>
          simp only [List.foldlM_cons, List.foldlM_nil, bind_pure, Option.bind_eq_bind,
            Option.bind_some, descend?, folder, Option.filter, if_true]
          split
          · rfl
          · split
            · rfl
            · cases found : tree.entry? (base ++ [Path.lastSegment path]) <;> simp [found]

theorem place?_eq_some {path : String} {names : List String} :
    tree.place? path = some names ↔
      ∃ base, tree.folderAt? (tree.start path) (Path.segments path).dropLast = some base ∧
        ¬ Path.isIdle (Path.lastSegment path) ∧ Path.lastSegment path ≠ ".." ∧
        base ++ [Path.lastSegment path] = names := by
  rw [place?_eq, Option.bind_eq_some_iff]
  apply exists_congr
  intro base
  apply and_congr_right
  intro _
  split
  next named => simp [named]
  next other =>
    constructor
    · simp
    · rintro ⟨busy, inner, _⟩
      exact absurd ⟨busy, inner⟩ other

end

/-- The folders on the way to an entry are entries too. -/
def WellFormed (tree : FileTree) : Prop :=
  ∀ names, (tree.entry? names).isSome → tree.hasFolder names.dropLast = true

theorem wellFormed_of_entries {tree : FileTree}
    (all : ∀ entry ∈ tree.entries, tree.hasFolder entry.1.dropLast = true) : tree.WellFormed := by
  intro names present
  unfold entry? at present
  split at present
  next root =>
    rw [root]
    rfl
  next =>
    obtain ⟨entry, found⟩ := Option.isSome_iff_exists.mp present
    obtain ⟨front, back, whole, _⟩ := List.lookup_eq_some_iff.mp found
    exact all (names, entry) (by simp [whole])

/-- `after` is `before` with files written where no folders stand. -/
structure Filled (before after : FileTree) : Prop where
  start : after.workingFolder = before.workingFolder
  folders : ∀ names, after.hasFolder names = before.hasFolder names
  kept : ∀ names, (before.entry? names).isSome → (after.entry? names).isSome

namespace Filled

variable {before after : FileTree}

theorem refl (tree : FileTree) : Filled tree tree := ⟨rfl, fun _ => rfl, fun _ present => present⟩

theorem insert (filled : Filled before after) {names : List String} (inner : names ≠ [])
    (free : after.hasFolder names = false) (content : ByteArray) :
    Filled before (after.insert names (.file content)) where
  start := filled.start
  folders other := by
    rw [← filled.folders, hasFolder, entry?_insert inner]
    split
    next same => rw [same, free]; rfl
    next => rfl
  kept other present := by
    rw [entry?_insert inner]
    split
    · rfl
    · exact filled.kept other present

theorem folderAt? (filled : Filled before after) (base segments : List String) :
    after.folderAt? base segments = before.folderAt? base segments := by
  induction segments generalizing base with
  | nil => rw [folderAt?_nil, folderAt?_nil, filled.folders]
  | cons segment rest ih =>
      rw [folderAt?_cons, folderAt?_cons, descend?, descend?, filled.folders]
      cases before.hasFolder base with
      | false => rfl
      | true =>
          simp only [if_true]
          split
          · exact ih _
          · split
            · exact ih _
            · cases old : (before.entry? (base ++ [segment])).isSome with
              | true =>
                  rw [filled.kept _ old]
                  exact ih _
              | false =>
                  have closed : after.hasFolder (base ++ [segment]) = false := by
                    rw [filled.folders, hasFolder]
                    simp_all
                  split
                  · exact folderAt?_eq_none rest closed
                  · rfl

theorem start_eq (filled : Filled before after) (path : String) :
    after.start path = before.start path := by
  rw [FileTree.start, FileTree.start, filled.start]

theorem place? (filled : Filled before after) (path : String) :
    after.place? path = before.place? path := by
  rw [place?_eq, place?_eq, filled.start_eq, filled.folderAt?]

/-- A path leads to the same entry if the place it names was left alone. -/
theorem entryAt? (filled : Filled before after) (formed : before.WellFormed) {path : String}
    (same : ∀ names, before.place? path = some names → after.entry? names = before.entry? names) :
    after.entryAt? path = before.entryAt? path := by
  by_cases inhabited : path = ""
  · simp [FileTree.entryAt?, locate?, inhabited]
  rw [place?_eq] at same
  rw [entryAt?_eq inhabited, entryAt?_eq inhabited, filled.start_eq, filled.folderAt?]
  cases found : before.folderAt? (before.start path) (Path.segments path).dropLast with
  | none => rfl
  | some base =>
      have folder : before.hasFolder base = true := hasFolder_of_folderAt? found
      have kept {names : List String} (stands : before.hasFolder names = true) :
          after.entry? names = before.entry? names := by
        rw [hasFolder_iff.mp stands, hasFolder_iff.mp (filled.folders names ▸ stands)]
      rw [Option.bind_some, Option.bind_some]
      split
      · exact kept folder
      · split
        · exact kept (formed base (by rw [hasFolder_iff.mp folder]; rfl))
        · exact same _ (by simp_all)

end Filled

end FileTree

end Freshen
