import Freshen.Proofs.OutputNames
import Mathlib.Data.List.Induction
import Mathlib.Data.List.Lex
import Mathlib.Order.RelIso.Basic

/-!
Which files a list of paths means. A file means itself, and a folder the program files at any depth
below it, each once and in the order of path components. The order in which folders are walked makes
no difference, and the first path that leads nowhere is reported.
-/

namespace Freshen

namespace Path

/-! The order of paths. -/

def NameBefore (first second : String) : Prop :=
  List.Lex (fun a b : Char => a.toNat < b.toNat) first.toList second.toList

def NamesBefore : List String → List String → Prop := List.Lex NameBefore

def components (path : String) : List String := (segments path).filter (!isIdle ·)

def Before (first second : String) : Prop := NamesBefore (components first) (components second)

theorem lex_isStrictTotalOrder {α : Type} (before : α → α → Prop) [IsStrictTotalOrder α before] :
    IsStrictTotalOrder (List α) (List.Lex before) where
  toIsStrictOrder := isStrictWeakOrder_of_isOrderConnected.toIsStrictOrder

instance codePoint_isStrictTotalOrder : IsStrictTotalOrder Char fun a b => a.toNat < b.toNat :=
  (RelEmbedding.preimage ⟨Char.toNat, fun _ _ => Char.toNat_inj.mp⟩ (· < ·)).isStrictTotalOrder

instance nameBefore_isStrictTotalOrder : IsStrictTotalOrder String NameBefore :=
  have := lex_isStrictTotalOrder fun a b : Char => a.toNat < b.toNat
  (RelEmbedding.preimage ⟨String.toList, fun _ _ => String.toList_injective⟩ _).isStrictTotalOrder

instance namesBefore_isStrictTotalOrder : IsStrictTotalOrder (List String) NamesBefore :=
  lex_isStrictTotalOrder NameBefore

theorem nameLE_iff {first second : List Char} :
    nameLE first second = true ↔
      first = second ∨ List.Lex (fun a b => a.toNat < b.toNat) first second := by
  induction first generalizing second with
  | nil => cases second <;> simp [nameLE]
  | cons a first ih =>
      cases second with
      | nil => simp [nameLE]
      | cons b second =>
          rw [nameLE, List.cons_lex_cons_iff]
          by_cases less : a.toNat < b.toNat
          · simp [less]
          · by_cases same : a = b
            · subst same
              simp [ih]
            · have apart : a.toNat ≠ b.toNat := fun codes => same (Char.toNat_inj.mp codes)
              simp [less, same, apart]

theorem namesLE_iff {first second : List String} :
    namesLE first second = true ↔ first = second ∨ NamesBefore first second := by
  induction first generalizing second with
  | nil => cases second <;> simp [namesLE, NamesBefore]
  | cons a first ih =>
      cases second with
      | nil => simp [namesLE, NamesBefore]
      | cons b second =>
          rw [namesLE, NamesBefore, List.cons_lex_cons_iff]
          by_cases same : a = b
          · subst same
            have irrefl : ¬ NameBefore a a := irrefl a
            simp [ih, irrefl, NamesBefore]
          · have letters : a.toList ≠ b.toList := fun equal => same (String.toList_injective equal)
            simp [same, letters, nameLE_iff, NameBefore]

theorem namesLE_trans (first second third : List String) (one : namesLE first second = true)
    (other : namesLE second third = true) : namesLE first third = true := by
  rw [namesLE_iff] at one other ⊢
  rcases one with rfl | one
  · exact other
  · rcases other with rfl | other
    · exact .inr one
    · exact .inr (trans_of NamesBefore one other)

theorem namesLE_total (first second : List String) :
    (namesLE first second || namesLE second first) = true := by
  rw [Bool.or_eq_true, namesLE_iff, namesLE_iff]
  rcases trichotomous_of NamesBefore first second with before | same | after
  · exact .inl (.inr before)
  · exact .inl (.inl same)
  · exact .inr (.inr after)

theorem namesLE_antisymm {first second : List String} (one : namesLE first second = true)
    (other : namesLE second first = true) : first = second := by
  rw [namesLE_iff] at one other
  rcases one with same | one
  · exact same
  · rcases other with same | other
    · exact same.symm
    · exact absurd other (asymm_of NamesBefore one)

/-! Paths below a path. -/

structure IsEntryName (name : String) : Prop where
  plain : '/' ∉ name.toList
  busy : isIdle name = false
  inner : name ≠ ".."

theorem components_join {base name : String} (named : IsEntryName name) :
    components (join base name) = components base ++ [name] := by
  obtain ⟨front, whole, joined⟩ := segments_join base
  rw [components, components, (joined name named.plain).1]
  have kept : [name].filter (!isIdle ·) = [name] := by simp [named.busy]
  have idle : [""].filter (!isIdle ·) = [] := rfl
  rcases whole with whole | whole
  · rw [whole, List.filter_append, kept]
  · rw [whole, List.filter_append, List.filter_append, kept, idle, List.append_nil]

theorem components_below {path : String} {below : List String}
    (named : ∀ name ∈ below, IsEntryName name) :
    components (below.foldl join path) = components path ++ below := by
  induction below generalizing path with
  | nil => simp
  | cons name rest ih =>
      rw [List.foldl_cons, ih fun other among => named other (List.mem_cons_of_mem _ among),
        components_join (named name List.mem_cons_self), List.append_assoc]
      rfl

/-- An extension is what stands behind the last dot, unless nothing stands before it. -/
theorem splitExtension_snd {name extension : String}
    (found : (splitExtension name).2 = some extension) :
    ∃ stem : String, stem ≠ "" ∧ name.toList = stem.toList ++ '.' :: extension.toList := by
  rw [splitExtension] at found
  split at found
  · cases found
  · cases found
  next dot before inhabited cut =>
    have whole := List.takeWhile_append_dropWhile
      (p := fun c : Char => decide (c ≠ '.')) (l := name.toList.reverse)
    have isDot := List.head?_dropWhile_not (fun c : Char => decide (c ≠ '.')) name.toList.reverse
    rw [cut] at whole isDot
    obtain rfl : dot = '.' := by simpa using isDot
    refine ⟨String.ofList before.reverse, ?_, ?_⟩
    · simpa [String.ofList_eq_empty_iff] using inhabited
    · generalize List.takeWhile _ _ = behind at whole found
      rw [← Option.some_inj.mp found, ← List.reverse_reverse name.toList, ← whole]
      simp

theorem extension?_eq_json {name : String} (plain : '/' ∉ name.toList) :
    extension? name = some "json" ↔ ∃ stem, stem ≠ "" ∧ name = stem ++ ".json" := by
  have whole : lastSegment name = name := by simp [lastSegment, segments_plain plain]
  have dotted : ".json".toList = '.' :: "json".toList := by decide
  rw [extension?]
  constructor
  · intro found
    obtain ⟨last, named, split⟩ := Option.bind_eq_some_iff.mp found
    obtain rfl : last = name := by
      simpa [segments_plain plain] using mem_segments_of_fileName? named
    obtain ⟨stem, inhabited, letters⟩ := splitExtension_snd split
    refine ⟨stem, inhabited, String.toList_injective ?_⟩
    rw [letters, String.toList_append, dotted]
  · rintro ⟨stem, inhabited, rfl⟩
    have ends : (stem ++ ".json").toList.getLast? = some 'n' := by simp [String.toList_append]
    obtain ⟨busy, inner⟩ := busy_of_last ends (by decide)
    rw [fileName?_of_busy (whole.symm ▸ busy) (whole.symm ▸ inner), whole, Option.bind_some,
      splitExtension_append inhabited dotted (by decide)]

end Path

namespace FileTree

/-- Every entry stands in a folder, once, and under names that lead to it. -/
structure Proper (tree : FileTree) : Prop where
  formed : tree.WellFormed
  distinct : (tree.entries.map Prod.fst).Nodup
  inner : ∀ entry ∈ tree.entries, entry.1 ≠ []
  named : ∀ entry ∈ tree.entries, ∀ name ∈ entry.1, Path.IsEntryName name

def Stands (tree : FileTree) (path : String) : Prop := tree.isFile path ∨ tree.isFolder path

instance (tree : FileTree) (path : String) : Decidable (tree.Stands path) :=
  inferInstanceAs (Decidable (_ ∨ _))

structure Offers (tree : FileTree) (folder below : List String) : Prop where
  file : ∃ content, tree.entry? (folder ++ below) = some (.file content)
  json : ∃ stem, stem ≠ "" ∧ below.getLast? = some (stem ++ ".json")
  program : below.getLast? ≠ some "rebind.json"

/-- What a path means: a file itself, or the program files below a folder in the order of their
components, each by a path that leads to it. -/
inductive Means (tree : FileTree) (path : String) : List String → Prop
  | file (stands : tree.isFile path) : Means tree path [path]
  | folder {names listing : List String} (found : tree.locate? path = some names)
      (stands : tree.isFolder path) (sorted : listing.Pairwise Path.Before)
      (complete : ∀ text, text ∈ listing ↔
        ∃ below, tree.Offers names below ∧ below.foldl Path.join path = text)
      (leads : ∀ below, tree.Offers names below →
        tree.locate? (below.foldl Path.join path) = some (names ++ below)) :
      Means tree path listing

/-! Entries and the paths that lead to them. -/

theorem lookup_eq_some {entries : List (List String × Entry)}
    (distinct : (entries.map Prod.fst).Nodup) {names : List String} {entry : Entry} :
    entries.lookup names = some entry ↔ (names, entry) ∈ entries := by
  have forward {other : Entry} (found : entries.lookup names = some other) :
      (names, other) ∈ entries := by
    obtain ⟨front, back, whole, _⟩ := List.lookup_eq_some_iff.mp found
    simp [whole]
  refine ⟨forward, fun among => ?_⟩
  obtain ⟨other, found⟩ := Option.isSome_iff_exists.mp
    (List.lookup_isSome_iff.mpr ⟨_, among, beq_self_eq_true names⟩)
  have same := List.inj_on_of_nodup_map distinct among (forward found) rfl
  rw [found, (Prod.mk.inj same).2]

section

variable {tree : FileTree}

theorem Proper.entry?_eq_file (proper : tree.Proper) {names : List String} {content : ByteArray} :
    tree.entry? names = some (.file content) ↔ (names, .file content) ∈ tree.entries := by
  by_cases root : names = []
  · constructor
    · simp [root, entry?]
    · exact fun among => absurd root (proper.inner _ among)
  · unfold entry?
    rw [if_neg root, lookup_eq_some proper.distinct]

theorem descend?_present (formed : tree.WellFormed) {base names : List String} {segment : String}
    (next : tree.descend? base segment = some names) : (tree.entry? names).isSome := by
  have present {names : List String} (folder : tree.hasFolder names = true) :
      (tree.entry? names).isSome := by simp [hasFolder_iff.mp folder]
  rw [descend?] at next
  split at next
  next folder =>
    split at next
    · rw [← Option.some_inj.mp next]
      exact present folder
    · split at next
      · rw [← Option.some_inj.mp next]
        exact present (formed base (present folder))
      · split at next
        next there => rwa [← Option.some_inj.mp next]
        next => cases next
  next => cases next

theorem locate?_present (formed : tree.WellFormed) {path : String} {names : List String}
    (found : tree.locate? path = some names) : (tree.entry? names).isSome := by
  rw [locate?] at found
  split at found
  · cases found
  · rw [Path.segments_eq, List.foldlM_append, Option.bind_eq_bind, Option.bind_eq_some_iff] at found
    obtain ⟨base, _, last⟩ := found
    simp only [List.foldlM_cons, List.foldlM_nil, bind_pure] at last
    exact descend?_present formed last

theorem isFolder_eq {path : String} {names : List String}
    (found : tree.locate? path = some names) : tree.isFolder path = tree.hasFolder names := by
  rw [isFolder, entryAt?, found, Option.bind_some, hasFolder]

theorem stands_iff (formed : tree.WellFormed) {path : String} :
    tree.Stands path ↔ (tree.locate? path).isSome := by
  rw [Stands, isFile, isFolder, entryAt?]
  cases found : tree.locate? path with
  | none => simp
  | some names =>
      obtain ⟨entry, there⟩ := Option.isSome_iff_exists.mp (locate?_present formed found)
      cases entry <;> simp [there, Entry.isFolder]

theorem locate?_join {path name : String} {names : List String}
    (found : tree.locate? path = some names) (folder : tree.hasFolder names = true)
    (named : Path.IsEntryName name) (present : (tree.entry? (names ++ [name])).isSome) :
    tree.locate? (Path.join path name) = some (names ++ [name]) := by
  obtain ⟨front, whole, joined⟩ := Path.segments_join path
  obtain ⟨segments, absolute⟩ := joined name named.plain
  have inhabited : Path.join path name ≠ "" := by
    intro empty
    rw [empty] at segments
    have last := congrArg List.getLast? segments
    rw [List.getLast?_concat] at last
    have idle := named.busy
    rw [← Option.some_inj.mp last] at idle
    cases idle
  -- An empty last segment leads nowhere else, so the way without it has the same end.
  have walked : front.foldlM tree.descend? (tree.start path) = some names := by
    rw [locate?] at found
    split at found
    · cases found
    · rcases whole with whole | whole
      · rwa [whole] at found
      · rw [whole, List.foldlM_append, Option.bind_eq_bind, Option.bind_eq_some_iff] at found
        obtain ⟨base, reached, last⟩ := found
        simp only [List.foldlM_cons, List.foldlM_nil, bind_pure, descend?] at last
        split at last
        · rwa [← Option.some_inj.mp last]
        · cases last
  have start : tree.start (Path.join path name) = tree.start path := by
    rw [FileTree.start, FileTree.start, absolute]
  rw [locate?, if_neg inhabited, start, segments, List.foldlM_append, walked]
  simp [descend?, folder, named.busy, named.inner, present]

theorem locate?_below (formed : tree.WellFormed) {path : String} {names below : List String}
    (found : tree.locate? path = some names) (named : ∀ name ∈ below, Path.IsEntryName name)
    (present : (tree.entry? (names ++ below)).isSome) :
    tree.locate? (below.foldl Path.join path) = some (names ++ below) := by
  induction below using List.reverseRecOn with
  | nil => simpa using found
  | append_singleton front name ih =>
      have folder : tree.hasFolder (names ++ front) = true := by
        have above := formed _ present
        rwa [← List.append_assoc, List.dropLast_concat] at above
      have reached := ih (fun other among => named other (List.mem_append_left _ among))
        (by simp [hasFolder_iff.mp folder])
      rw [List.foldl_append, List.foldl_cons, List.foldl_nil, ← List.append_assoc]
      exact locate?_join reached folder (named name (by simp)) (by simpa using present)

/-! Program files below a folder. -/

theorem below_eq_some {names key below : List String} {entry : Entry} :
    (if names.isPrefixOf key ∧ ¬ entry.isFolder then some (key.drop names.length) else none) =
        some below ↔
      names ++ below = key ∧ ∃ content, entry = .file content := by
  constructor
  · intro taken
    split at taken
    next kept =>
      obtain ⟨rest, rfl⟩ := List.isPrefixOf_iff_prefix.mp kept.1
      rw [List.drop_left, Option.some_inj] at taken
      cases entry with
      | folder => exact absurd rfl kept.2
      | file content => exact ⟨by rw [taken], content, rfl⟩
    next => cases taken
  · rintro ⟨rfl, content, rfl⟩
    simp [Entry.isFolder]

theorem mem_filesBelow {names below : List String} :
    below ∈ tree.filesBelow names ↔
      ∃ content, (names ++ below, Entry.file content) ∈ tree.entries := by
  rw [filesBelow, List.mem_filterMap]
  constructor
  · rintro ⟨⟨key, entry⟩, among, taken⟩
    obtain ⟨rfl, content, rfl⟩ := below_eq_some.mp taken
    exact ⟨content, among⟩
  · rintro ⟨content, among⟩
    exact ⟨_, among, below_eq_some.mpr ⟨rfl, content, rfl⟩⟩

theorem nodup_filesBelow (proper : tree.Proper) (names : List String) :
    (tree.filesBelow names).Nodup := by
  rw [filesBelow, List.Nodup, List.pairwise_filterMap]
  refine (List.pairwise_map.mp proper.distinct).imp ?_
  rintro ⟨key, entry⟩ ⟨other, entry'⟩ apart below taken _ taken' rfl
  exact apart ((below_eq_some.mp taken).1.symm.trans (below_eq_some.mp taken').1)

theorem isProgramFile_iff {below : List String} (named : ∀ name ∈ below, Path.IsEntryName name) :
    isProgramFile below = true ↔
      (∃ stem, stem ≠ "" ∧ below.getLast? = some (stem ++ ".json")) ∧
        below.getLast? ≠ some "rebind.json" := by
  rw [isProgramFile]
  cases last : below.getLast? with
  | none => simp; decide
  | some name =>
      have plain := (named name (List.mem_of_getLast? last)).plain
      simp [Path.extension?_eq_json plain, Config.fileName]

theorem Offers.named (proper : tree.Proper) {names below : List String}
    (offered : tree.Offers names below) : ∀ name ∈ below, Path.IsEntryName name := by
  obtain ⟨content, there⟩ := offered.file
  intro name among
  exact proper.named _ (proper.entry?_eq_file.mp there) name (List.mem_append_right _ among)

theorem mem_programFiles (proper : tree.Proper) {names below : List String} :
    below ∈ tree.programFiles names ↔ tree.Offers names below := by
  rw [programFiles, (List.mergeSort_perm _ _).mem_iff, List.mem_filter, mem_filesBelow]
  constructor
  · rintro ⟨⟨content, among⟩, program⟩
    have named : ∀ name ∈ below, Path.IsEntryName name := fun name inside =>
      proper.named _ among name (List.mem_append_right _ inside)
    obtain ⟨json, other⟩ := (isProgramFile_iff named).mp program
    exact ⟨⟨content, proper.entry?_eq_file.mpr among⟩, json, other⟩
  · intro offered
    obtain ⟨content, there⟩ := offered.file
    exact ⟨⟨content, proper.entry?_eq_file.mp there⟩,
      (isProgramFile_iff (offered.named proper)).mpr ⟨offered.json, offered.program⟩⟩

theorem sorted_programFiles (proper : tree.Proper) (names : List String) :
    (tree.programFiles names).Pairwise Path.NamesBefore := by
  have sorted := List.pairwise_mergeSort Path.namesLE_trans Path.namesLE_total
    ((tree.filesBelow names).filter isProgramFile)
  have distinct : (tree.programFiles names).Nodup :=
    (List.mergeSort_perm _ _).nodup_iff.mpr ((nodup_filesBelow proper names).filter _)
  refine (sorted.and distinct).imp ?_
  rintro first second ⟨ordered, apart⟩
  exact (Path.namesLE_iff.mp ordered).resolve_left apart

theorem inputs_of_stands (proper : tree.Proper) {path : String} (stands : tree.Stands path) :
    ∃ listing, tree.inputs path = .ok listing ∧ tree.Means path listing := by
  obtain ⟨names, found⟩ := Option.isSome_iff_exists.mp ((stands_iff proper.formed).mp stands)
  rw [inputs, found]
  cases folder : tree.hasFolder names with
  | false =>
      have file : tree.isFile path := stands.resolve_right (by simp [isFolder_eq found, folder])
      exact ⟨_, if_neg (by simp [folder]), .file file⟩
  | true =>
      refine ⟨_, if_pos folder, .folder found (by rw [isFolder_eq found, folder]) ?_ ?_ ?_⟩
      · refine List.pairwise_map.mpr ((sorted_programFiles proper names).imp_of_mem ?_)
        intro first second one other ordered
        have named := ((mem_programFiles proper).mp one).named proper
        have named' := ((mem_programFiles proper).mp other).named proper
        rw [Path.Before, Path.components_below named, Path.components_below named']
        exact List.Lex.append_left _ ordered _
      · intro text
        simp only [List.mem_map, mem_programFiles proper]
      · intro below offered
        obtain ⟨content, there⟩ := offered.file
        exact locate?_below proper.formed found (offered.named proper) (by simp [there])

theorem inputs_of_not_stands (formed : tree.WellFormed) {path : String}
    (absent : ¬ tree.Stands path) : tree.inputs path = .error (.inputNotFound path) := by
  rw [stands_iff formed, Option.not_isSome_iff_eq_none] at absent
  rw [inputs, absent]

/-! All paths, one after another. -/

theorem mapM_inputs_of_stands (proper : tree.Proper) {folder : String} {paths : List String}
    (stand : ∀ path ∈ paths, tree.Stands (Path.join folder path)) :
    ∃ listings, paths.mapM (fun path => tree.inputs (Path.join folder path)) = .ok listings ∧
      List.Forall₂ (fun path listing => tree.Means (Path.join folder path) listing)
        paths listings := by
  induction paths with
  | nil => exact ⟨[], rfl, .nil⟩
  | cons path rest ih =>
      obtain ⟨listing, here, means⟩ := inputs_of_stands proper (stand path List.mem_cons_self)
      obtain ⟨listings, there, all⟩ :=
        ih fun other among => stand other (List.mem_cons_of_mem _ among)
      refine ⟨listing :: listings, ?_, .cons means all⟩
      rw [List.mapM_cons, here, there]
      rfl

theorem mapM_inputs_of_not_stands (proper : tree.Proper) {folder path : String}
    {before : List String} (after : List String)
    (stand : ∀ earlier ∈ before, tree.Stands (Path.join folder earlier))
    (absent : ¬ tree.Stands (Path.join folder path)) :
    (before ++ path :: after).mapM (fun path => tree.inputs (Path.join folder path)) =
      .error (.inputNotFound (Path.join folder path)) := by
  induction before with
  | nil =>
      rw [List.nil_append, List.mapM_cons, inputs_of_not_stands proper.formed absent]
      rfl
  | cons earlier rest ih =>
      obtain ⟨listing, here, _⟩ := inputs_of_stands proper (stand earlier List.mem_cons_self)
      rw [List.cons_append, List.mapM_cons, here,
        ih fun other among => stand other (List.mem_cons_of_mem _ among)]
      rfl

/-! The order in which entries are met. -/

def walked (tree : FileTree) (walk : List (List String × Entry)) : FileTree :=
  { tree with entries := walk }

/-- The files that paths mean if the entries are met in an order of its own for each path. -/
def walkedInputs (tree : FileTree) (folder : String)
    (walks : List (String × List (List String × Entry))) : Except Failure (List String) := do
  return (← walks.mapM fun walk =>
    (tree.walked walk.2).inputs (Path.join folder walk.1)).flatten

section

variable {walk : List (List String × Entry)}

theorem entry?_walked (proper : tree.Proper) (same : walk.Perm tree.entries) :
    entry? (tree.walked walk) = tree.entry? := by
  have distinct : (walk.map Prod.fst).Nodup := (same.map Prod.fst).nodup_iff.mpr proper.distinct
  funext names
  unfold entry?
  split
  · rfl
  · apply Option.ext
    intro entry
    rw [walked, lookup_eq_some distinct, lookup_eq_some proper.distinct, same.mem_iff]

theorem hasFolder_walked (proper : tree.Proper) (same : walk.Perm tree.entries) :
    (tree.walked walk).hasFolder = tree.hasFolder := by
  funext names
  rw [hasFolder, hasFolder, entry?_walked proper same]

theorem locate?_walked (proper : tree.Proper) (same : walk.Perm tree.entries) :
    (tree.walked walk).locate? = tree.locate? := by
  have step : (tree.walked walk).descend? = tree.descend? := by
    funext names segment
    rw [descend?, descend?, hasFolder_walked proper same, entry?_walked proper same]
  funext path
  rw [locate?, locate?, step]
  rfl

theorem programFiles_walked (same : walk.Perm tree.entries) :
    (tree.walked walk).programFiles = tree.programFiles := by
  funext names
  have found : ((tree.walked walk).filesBelow names).Perm (tree.filesBelow names) :=
    same.filterMap _
  have sorted := List.pairwise_mergeSort Path.namesLE_trans Path.namesLE_total
  refine List.Perm.eq_of_pairwise ?_ (sorted _) (sorted _) ?_
  · exact fun first second _ _ one other => Path.namesLE_antisymm one other
  · exact (List.mergeSort_perm _ _).trans
      ((found.filter _).trans (List.mergeSort_perm _ _).symm)

theorem inputs_walked (proper : tree.Proper) (same : walk.Perm tree.entries) :
    (tree.walked walk).inputs = tree.inputs := by
  funext path
  rw [inputs, inputs, locate?_walked proper same, hasFolder_walked proper same,
    programFiles_walked same]

end

theorem walkedInputs_eq (proper : tree.Proper) (folder : String)
    {walks : List (String × List (List String × Entry))}
    (same : ∀ walk ∈ walks, walk.2.Perm tree.entries) :
    tree.walkedInputs folder walks = tree.allInputs folder (walks.map Prod.fst) := by
  have each : walks.mapM (fun walk => (tree.walked walk.2).inputs (Path.join folder walk.1)) =
      (walks.map Prod.fst).mapM fun path => tree.inputs (Path.join folder path) := by
    induction walks with
    | nil => rfl
    | cons walk rest ih =>
        rw [List.map_cons, List.mapM_cons, List.mapM_cons,
          inputs_walked proper (same walk List.mem_cons_self),
          ih fun other among => same other (List.mem_cons_of_mem _ among)]
  rw [walkedInputs, allInputs, each]

end

end FileTree

/-- The files that paths mean are found, all of them and in order, whatever the order in which
entries are met; and if one of the paths leads nowhere, the first such path is reported. -/
theorem input_search_complete {tree : FileTree} (proper : tree.Proper) (folder : String)
    (paths : List String) :
    ((∀ path ∈ paths, tree.Stands (Path.join folder path)) →
      ∃ listings, tree.allInputs folder paths = .ok listings.flatten ∧
        List.Forall₂ (fun path listing => tree.Means (Path.join folder path) listing)
          paths listings) ∧
    (∀ before path after, paths = before ++ path :: after →
      (∀ earlier ∈ before, tree.Stands (Path.join folder earlier)) →
      ¬ tree.Stands (Path.join folder path) →
      tree.allInputs folder paths = .error (.inputNotFound (Path.join folder path))) ∧
    ∀ walks, walks.map Prod.fst = paths → (∀ walk ∈ walks, walk.2.Perm tree.entries) →
      tree.walkedInputs folder walks = tree.allInputs folder paths := by
  refine ⟨fun stand => ?_, ?_, ?_⟩
  · obtain ⟨listings, found, means⟩ := FileTree.mapM_inputs_of_stands proper stand
    refine ⟨listings, ?_, means⟩
    rw [FileTree.allInputs, found]
    rfl
  · rintro before path after rfl stand absent
    rw [FileTree.allInputs, FileTree.mapM_inputs_of_not_stands proper after stand absent]
    rfl
  · rintro walks rfl same
    exact FileTree.walkedInputs_eq proper folder same

def crowdedTree : FileTree where
  entries :=
    [(["w"], .folder), (["w", "a.json"], .file .empty), (["w", "a"], .folder),
      (["w", "a", "b.json"], .file .empty), (["w", ".json"], .file .empty),
      (["w", "x.json"], .folder), (["w", "x.json", "rebind.json"], .file .empty),
      (["w", "t.txt"], .file .empty)]

theorem crowdedTree_proper : crowdedTree.Proper where
  formed := FileTree.wellFormed_of_entries (by decide +kernel)
  distinct := by decide +kernel
  inner := by decide +kernel
  named := by
    have checked : ∀ entry ∈ crowdedTree.entries, ∀ name ∈ entry.1,
        '/' ∉ name.toList ∧ Path.isIdle name = false ∧ name ≠ ".." := by decide +kernel
    intro entry among name inside
    obtain ⟨plain, busy, inner⟩ := checked entry among name inside
    exact ⟨plain, busy, inner⟩

theorem crowdedTree_inputs :
    crowdedTree.allInputs "/w" ["t.txt", "."] =
      .ok ["/w/t.txt", "/w/./a/b.json", "/w/./a.json"] := by
  have program : (crowdedTree.filesBelow ["w"]).filter isProgramFile =
      [["a.json"], ["a", "b.json"]] := by decide +kernel
  have sorted : crowdedTree.programFiles ["w"] = [["a", "b.json"], ["a.json"]] := by
    rw [FileTree.programFiles, program]
    simp [List.mergeSort, List.MergeSort.Internal.splitInTwo, Path.namesLE, Path.nameLE]
  have file : crowdedTree.inputs (Path.join "/w" "t.txt") = .ok ["/w/t.txt"] := by
    have found : crowdedTree.locate? "/w/t.txt" = some ["w", "t.txt"] := by decide +kernel
    have joined : Path.join "/w" "t.txt" = "/w/t.txt" := by decide +kernel
    rw [joined, FileTree.inputs, found]
    rfl
  have folder : crowdedTree.inputs (Path.join "/w" ".") =
      .ok ["/w/./a/b.json", "/w/./a.json"] := by
    have found : crowdedTree.locate? "/w/." = some ["w"] := by decide +kernel
    have joined : Path.join "/w" "." = "/w/." := by decide +kernel
    have below : (crowdedTree.programFiles ["w"]).map (·.foldl Path.join "/w/.") =
        ["/w/./a/b.json", "/w/./a.json"] := by
      rw [sorted]
      decide +kernel
    rw [joined, FileTree.inputs, found, ← below]
    rfl
  rw [FileTree.allInputs, List.mapM_cons, List.mapM_cons, file, folder]
  rfl

theorem input_search_complete_crowded :
    (∃ listings, crowdedTree.allInputs "/w" ["t.txt", "."] = .ok listings.flatten ∧
      List.Forall₂ (fun path listing => crowdedTree.Means (Path.join "/w" path) listing)
        ["t.txt", "."] listings) ∧
    crowdedTree.allInputs "/w" ["t.txt", "no", "."] =
      .error (.inputNotFound (Path.join "/w" "no")) ∧
    crowdedTree.walkedInputs "/w"
        [("t.txt", crowdedTree.entries), (".", crowdedTree.entries.reverse)] =
      .ok ["/w/t.txt", "/w/./a/b.json", "/w/./a.json"] := by
  refine ⟨?_, ?_, ?_⟩
  · exact (input_search_complete crowdedTree_proper "/w" _).1 (by decide +kernel)
  · exact (input_search_complete crowdedTree_proper "/w" _).2.1 ["t.txt"] "no" ["."] rfl
      (by decide +kernel) (by decide +kernel)
  · rw [← crowdedTree_inputs]
    apply (input_search_complete crowdedTree_proper "/w" ["t.txt", "."]).2.2 _ rfl
    intro walk among
    rcases List.mem_pair.mp among with rfl | rfl
    · exact .refl _
    · exact List.reverse_perm _

end Freshen
