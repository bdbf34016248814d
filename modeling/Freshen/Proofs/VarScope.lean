import Freshen.Proofs.Moments
import Freshen.Proofs.TreeMarks
import Freshen.Proofs.WrittenParts

/-!
What `var` means in JavaScript, and what becomes of it. A `var` belongs to the function around it,
through all blocks and loops between them. Frames are narrower: a `var` is bound in the block or the
loop it stands in, so that the variable of a function gets one name for each of its blocks that
declare it, and a reference has the name of the innermost such block that it sees.
-/

namespace Freshen

structure Mention where
  occurrence : Occurrence
  isVar : Bool
deriving DecidableEq, Repr

namespace Program

def mentions (program : Program) : List Mention :=
  (program.occurrences.zip (stmtsVarMarks program.body)).map fun (occurrence, isVar) =>
    ⟨occurrence, isVar⟩

/-- Whether a frame is that of a function, or of the program. -/
def isFunction (program : Program) (frame : Nat) : Bool :=
  frame == 0 || program.frameKind frame != .plain

def function? (program : Program) (occurrence : Occurrence) : Option Nat :=
  occurrence.frames.find? program.isFunction

/-- The frame that a declaration belongs to in JavaScript. -/
def owner? (program : Program) (mention : Mention) : Option Nat :=
  if mention.occurrence.declares then
    if mention.isVar then program.function? mention.occurrence else mention.occurrence.frames.head?
  else none

def owns (program : Program) (frame : Nat) (name : String) : Bool :=
  program.mentions.any fun mention =>
    mention.occurrence.name == name && program.owner? mention == some frame

/-- The frame that a reference finds its name in, in JavaScript. -/
def meaning? (program : Program) (occurrence : Occurrence) : Option Nat :=
  occurrence.frames.find? (program.owns · occurrence.name)

structure IsVarOf (program : Program) (owner : Nat) (name : String) (mention : Mention) :
    Prop where
  declares : mention.occurrence.declares = true
  isVar : mention.isVar = true
  name : mention.occurrence.name = name
  owner : program.function? mention.occurrence = some owner

/-- The frame is around a reference and has its name, by the tree or because a declaration of it
stands before the reference. -/
def Sees (program : Program) (before : List (Mention × Piece)) (use : Occurrence) (frame : Nat) :
    Prop :=
  frame ∈ use.frames ∧
    (use.name ∈ frameNames program.frames frame ∨
      ∃ earlier ∈ before, earlier.1.occurrence.site? = some (frame, use.name))

end Program

/-! Frames go down outwards, so the first frame that is looked for is the highest. -/

section Descending

variable {frames inner : List Nat} {frame other : Nat}

theorem find?_eq_some_iff_highest {good : Nat → Bool} (descending : frames.Pairwise (· > ·)) :
    frames.find? good = some frame ↔
      frame ∈ frames ∧ good frame = true ∧
        ∀ higher ∈ frames, good higher = true → higher ≤ frame := by
  induction frames with
  | nil => simp
  | cons first rest ih =>
      obtain ⟨lower, descending⟩ := List.pairwise_cons.mp descending
      by_cases found : good first = true
      · rw [List.find?_cons_of_pos found]
        constructor
        · rintro ⟨⟩
          refine ⟨List.mem_cons_self, found, ?_⟩
          intro higher member _
          rcases List.mem_cons.mp member with rfl | member
          · exact Nat.le_refl _
          · exact Nat.le_of_lt (lower higher member)
        · rintro ⟨member, _, highest⟩
          rcases List.mem_cons.mp member with rfl | member
          · rfl
          · have below := lower frame member
            have above := highest first List.mem_cons_self found
            exact absurd below (Nat.not_lt_of_le above)
      · rw [List.find?_cons_of_neg found, ih descending]
        constructor
        · rintro ⟨member, holds, highest⟩
          refine ⟨List.mem_cons_of_mem _ member, holds, ?_⟩
          intro higher member holds
          rcases List.mem_cons.mp member with rfl | member
          · exact absurd holds found
          · exact highest higher member holds
        · rintro ⟨member, holds, highest⟩
          rcases List.mem_cons.mp member with rfl | member
          · exact absurd holds found
          · exact ⟨member, holds, fun higher above =>
              highest higher (List.mem_cons_of_mem _ above)⟩

theorem mem_of_suffix (descending : frames.Pairwise (· > ·)) (suffix : inner <:+ frames)
    (innermost : inner.head? = some frame) (member : other ∈ frames) (below : other ≤ frame) :
    other ∈ inner := by
  obtain ⟨front, rfl⟩ := suffix
  rcases List.mem_append.mp member with front | member
  · have above := (List.pairwise_append.mp descending).2.2 other front frame
      (List.mem_of_head? innermost)
    exact absurd above (Nat.not_lt_of_le below)
  · exact member

end Descending

theorem Occurrence.site_of_head {occurrence : Occurrence} {frame : Nat}
    (declares : occurrence.declares = true) (innermost : occurrence.frames.head? = some frame) :
    occurrence.site? = some (frame, occurrence.name) := by
  rw [Occurrence.site?, if_pos declares, innermost, Option.map_some]

namespace Program

variable {program : Program}

theorem IsVarOf.has_innermost {owner : Nat} {name : String} {mention : Mention}
    (isVar : program.IsVarOf owner name mention) :
    ∃ frame, mention.occurrence.frames.head? = some frame := by
  have inside := List.mem_of_find?_eq_some isVar.owner
  exact ⟨_, List.head?_eq_some_head (List.ne_nil_of_mem inside)⟩

theorem map_mentions (program : Program) :
    program.mentions.map Mention.occurrence = program.occurrences := by
  have lengths := length_stmtsVarMarks program.body [0] 1
  rw [mentions, List.map_map]
  exact List.map_fst_zip (Nat.le_of_eq lengths.symm)

theorem map_moments (program : Program) :
    program.moments.map (fun moment => moment.occurrence) = program.occurrences := by
  rw [← program.traced.written, ← events_eq, written_eq_history [], moments]

section Owner

variable {moment : Moment} {owner frame : Nat} {name : String}

theorem owns_iff : program.owns frame name = true ↔
    ∃ mention ∈ program.mentions, mention.occurrence.name = name ∧
      program.owner? mention = some frame := by
  simp [owns]

/-- A frame between a reference and its owner can have the name only through another `var` of the
owner. -/
theorem var_of_nearer (member : moment ∈ program.moments)
    (means : program.meaning? moment.occurrence = some owner)
    (isFunction : program.isFunction owner = true)
    (around : frame ∈ moment.occurrence.frames) (nearer : owner < frame)
    (declared : (frame, moment.occurrence.name) ∈ program.sites) :
    ∃ mention ∈ program.mentions,
      program.IsVarOf owner moment.occurrence.name mention ∧
        mention.occurrence.frames.head? = some frame := by
  have descending := nested_of_moment member
  obtain ⟨ownerAround, _, highest⟩ := (find?_eq_some_iff_highest descending).mp means
  obtain ⟨occurrence, listed, site⟩ := List.mem_filterMap.mp declared
  obtain ⟨declares, innermost, named⟩ := Occurrence.head_of_site site
  rw [← map_mentions] at listed
  obtain ⟨mention, mentioned, rfl⟩ := List.mem_map.mp listed
  rw [map_mentions, ← map_moments] at listed
  obtain ⟨other, written, same⟩ := List.mem_map.mp listed
  have suffix : mention.occurrence.frames <:+ moment.occurrence.frames := by
    rw [← same] at innermost ⊢
    exact moments_coherent written member innermost around
  cases isVar : mention.isVar with
  | false =>
      have owned : program.owns frame moment.occurrence.name = true :=
        owns_iff.mpr ⟨mention, mentioned, named, by simp [owner?, declares, isVar, innermost]⟩
      have above := highest frame around owned
      exact absurd nearer (Nat.not_lt_of_le above)
  | true =>
      have inside := mem_of_suffix descending suffix innermost ownerAround (Nat.le_of_lt nearer)
      have innerDescending := descending.sublist suffix.sublist
      obtain ⟨home, found⟩ : ∃ home, program.function? mention.occurrence = some home := by
        apply Option.isSome_iff_exists.mp
        exact List.find?_isSome.mpr ⟨owner, inside, isFunction⟩
      obtain ⟨homeInside, _, homeHighest⟩ := (find?_eq_some_iff_highest innerDescending).mp found
      have owned : program.owns home moment.occurrence.name = true :=
        owns_iff.mpr ⟨mention, mentioned, named, by simp [owner?, declares, isVar, found]⟩
      have low := highest home (suffix.subset homeInside) owned
      have high := homeHighest owner inside isFunction
      have same : home = owner := Nat.le_antisymm low high
      exact ⟨mention, mentioned, ⟨declares, isVar, named, same ▸ found⟩, innermost⟩

end Owner

theorem zip_mentions {writer : Writer} (ran : Step.runAll program.steps {} = .ok () writer) :
    (program.mentions.zip writer.names).map (Prod.map Mention.occurrence id) =
      program.moments.map writtenAt := by
  rw [← List.zip_map_left, map_mentions, zip_names ran]

section Written

variable {writer : Writer} (ran : Step.runAll program.steps {} = .ok () writer)
  {use decl : Mention × Piece} {owner block : Nat} {name : String}

include ran

theorem moment_of_mention {before behind : List (Mention × Piece)}
    (split : program.mentions.zip writer.names = before ++ use :: behind) :
    ∃ first moment rest, program.moments = first ++ moment :: rest ∧
      writtenAt moment = (use.1.occurrence, use.2) ∧
      first.map (·.occurrence) = before.map (·.1.occurrence) := by
  have mapped := zip_mentions ran
  rw [split, List.map_append, List.map_cons] at mapped
  obtain ⟨first, _, moments, front, tail⟩ := List.map_eq_append_iff.mp mapped.symm
  obtain ⟨moment, rest, rfl, written, _⟩ := List.map_eq_cons_iff.mp tail
  refine ⟨first, moment, rest, moments, written, ?_⟩
  have names := congrArg (List.map Prod.fst) front
  simpa [List.map_map, Function.comp_def, writtenAt] using names

theorem var_written (style : Style) (listed : decl ∈ program.mentions.zip writer.names)
    (isVar : program.IsVarOf owner name decl.1)
    (innermost : decl.1.occurrence.frames.head? = some block) :
    (block, name) ∈ program.bindings ∧
      decl.2.render style = (mintedFor program.bindings (block, name)).text style.separator ∧
      owner ≤ block ∧ program.isFunction owner = true := by
  have mapped := List.mem_map_of_mem (f := Prod.map Mention.occurrence id) listed
  rw [zip_mentions ran] at mapped
  obtain ⟨moment, member, written⟩ := List.mem_map.mp mapped
  have occurrence : moment.occurrence = decl.1.occurrence := congrArg Prod.fst written
  have piece : moment.occurrence.piece moment.declared = decl.2 := congrArg Prod.snd written
  have site : moment.occurrence.site? = some (block, name) := by
    rw [occurrence, Occurrence.site_of_head isVar.declares innermost, isVar.name]
  have present := site_of_history (List.mem_of_mem_filter member) site
  have descending := nested_of_moment member
  rw [occurrence] at descending
  obtain ⟨inside, isFunction, _⟩ := (find?_eq_some_iff_highest descending).mp isVar.owner
  refine ⟨(prefix_of_moment member).subset present, ?_,
    le_of_mem_descending descending innermost inside, isFunction⟩
  rw [← piece, Occurrence.piece_of_site (prefix_of_moment member) site present]
  rfl

end Written

/-- The frames that a reference sees are those that have declared its name when it is written. -/
theorem sees_iff_declared {before : List (Mention × Piece)}
    {first rest : List Moment} {moment : Moment}
    (moments : program.moments = first ++ moment :: rest)
    (earlier : first.map (·.occurrence) = before.map (·.1.occurrence))
    (refers : moment.occurrence.declares = false) (frame : Nat) :
    program.Sees before moment.occurrence frame ↔
      frame ∈ moment.occurrence.frames ∧ (frame, moment.occurrence.name) ∈ moment.declared := by
  rw [Sees]
  apply and_congr_right
  intro around
  rw [declared_at_reference moments refers around]
  apply or_congr_right
  have exists_map {α : Type} (list : List α) (occurrence : α → Occurrence) :
      (∃ item ∈ list, (occurrence item).site? = some (frame, moment.occurrence.name)) ↔
        ∃ item ∈ list.map occurrence, item.site? = some (frame, moment.occurrence.name) := by
    simp
  rw [exists_map before, exists_map first, earlier]

/-- A reference has the text of the block that it sees, unless it sees a nearer one with a `var` of
the same function. -/
theorem reference_text_eq_iff {before : List (Mention × Piece)}
    {first rest : List Moment} {moment : Moment}
    (moments : program.moments = first ++ moment :: rest)
    (earlier : first.map (·.occurrence) = before.map (·.1.occurrence))
    (refers : moment.occurrence.declares = false) {style : Style}
    (valid : separatorFault? style.separator = none) {owner block : Nat}
    (means : program.meaning? moment.occurrence = some owner)
    (isFunction : program.isFunction owner = true) (below : owner ≤ block)
    (declared : (block, moment.occurrence.name) ∈ program.bindings) :
    (moment.occurrence.piece moment.declared).render style =
        (mintedFor program.bindings (block, moment.occurrence.name)).text style.separator ↔
      program.Sees before moment.occurrence block ∧
        ∀ other ∈ program.mentions, program.IsVarOf owner moment.occurrence.name other →
          ∀ inner, other.occurrence.frames.head? = some inner →
            program.Sees before moment.occurrence inner → inner ≤ block := by
  have member : moment ∈ program.moments := by simp [moments]
  have sees := sees_iff_declared moments earlier refers
  rw [render_eq_iff_binder member refers valid declared, binder?,
    find?_eq_some_iff_highest (nested_of_moment member)]
  simp only [decide_eq_true_eq]
  constructor
  · rintro ⟨around, present, highest⟩
    refine ⟨(sees block).mpr ⟨around, present⟩, ?_⟩
    intro other _ _ inner _ seen
    obtain ⟨innerAround, innerPresent⟩ := (sees inner).mp seen
    exact highest inner innerAround innerPresent
  · rintro ⟨seen, nearest⟩
    obtain ⟨around, present⟩ := (sees block).mp seen
    refine ⟨around, present, ?_⟩
    intro inner innerAround innerPresent
    apply Nat.le_of_not_lt
    intro nearer
    -- a frame between the reference and the block can have the name only by another `var`
    have site : (inner, moment.occurrence.name) ∈ program.sites :=
      program.mem_bindings.mp ((prefix_of_moment member).subset innerPresent)
    obtain ⟨other, mentioned, otherVar, innermost⟩ := var_of_nearer member means isFunction
      innerAround (Nat.lt_of_le_of_lt below nearer) site
    have above := nearest other mentioned otherVar inner innermost
      ((sees inner).mpr ⟨innerAround, innerPresent⟩)
    exact absurd nearer (Nat.not_lt_of_le above)

end Program

/-- All `var`s of one name in one function have the same text exactly if they stand in the same
block. A reference to that variable has the text of a `var` exactly if it sees the name in the
block of that `var`, and in no block of another one nearer to it. -/
theorem var_text_eq_iff_innermost_seen (program : Program) (style : Style) (text : String)
    (valid : separatorFault? style.separator = none)
    (written : program.transform style = .ok text) :
    ∃ writer, Step.runAll program.steps {} = .ok () writer ∧
      text = style.render writer.output.toList ∧
      program.mentions.map Mention.occurrence = program.occurrences ∧
      writer.names.length = program.mentions.length ∧
      ∀ decl ∈ program.mentions.zip writer.names, ∀ owner name block,
        program.IsVarOf owner name decl.1 → decl.1.occurrence.frames.head? = some block →
        (∀ other ∈ program.mentions.zip writer.names, program.IsVarOf owner name other.1 →
          (other.2.render style = decl.2.render style ↔
            other.1.occurrence.frames.head? = some block)) ∧
        ∀ before use behind, program.mentions.zip writer.names = before ++ use :: behind →
          use.1.occurrence.declares = false → use.1.occurrence.name = name →
          program.meaning? use.1.occurrence = some owner →
          (use.2.render style = decl.2.render style ↔
            program.Sees before use.1.occurrence block ∧
              ∀ other ∈ program.mentions, program.IsVarOf owner name other →
                ∀ inner, other.occurrence.frames.head? = some inner →
                  program.Sees before use.1.occurrence inner → inner ≤ block) := by
  obtain ⟨writer, ran, rendered⟩ := program.written_of_transform written
  have length : writer.names.length = program.mentions.length := by
    rw [Program.length_names ran, ← program.map_mentions, List.length_map]
  refine ⟨writer, ran, rendered, program.map_mentions, length, ?_⟩
  intro decl listed owner name block isVar innermost
  obtain ⟨declared, declText, below, isFunction⟩ :=
    Program.var_written ran style listed isVar innermost
  rw [declText]
  constructor
  · intro other otherListed otherVar
    obtain ⟨inner, otherInnermost⟩ := otherVar.has_innermost
    obtain ⟨_, otherText, _, _⟩ := Program.var_written ran style otherListed otherVar otherInnermost
    rw [otherText, otherInnermost, eq_comm,
      (Minted.text_injective (exists_nonDigit_of_valid valid)).eq_iff, mintedFor_inj declared]
    simp [eq_comm]
  · intro before use behind split refers named means
    obtain ⟨first, moment, rest, moments, written, earlier⟩ :=
      Program.moment_of_mention ran split
    obtain ⟨occurrence, piece⟩ := Prod.mk.inj written
    subst named
    rw [← occurrence] at refers means declared ⊢
    rw [← piece]
    exact Program.reference_text_eq_iff moments earlier refers valid means isFunction below declared

theorem var_text_eq_iff_innermost_seen_blocks :
    let program : Program := ⟨[.var .var [.mk "x" none {}] {},
      .block [.var .var [.mk "x" none {}] {}, .expr (.ident "x" {}) {}] {},
      .expr (.ident "x" {}) {}], {}⟩
    separatorFault? "$" = none ∧
      program.transform {} =
        .ok "var x$0;\n\x7b\n  var x$1;\n  x$1;\n\x7d\nx$0;\n" ∧
      ∃ writer, Step.runAll program.steps {} = .ok () writer ∧
        ∃ outer inner inside behind : Piece,
          program.mentions.zip writer.names = [(⟨⟨"x", [0], true⟩, true⟩, outer),
            (⟨⟨"x", [1, 0], true⟩, true⟩, inner), (⟨⟨"x", [1, 0], false⟩, false⟩, inside),
            (⟨⟨"x", [0], false⟩, false⟩, behind)] ∧
          inner.render {} ≠ outer.render {} ∧ inside.render {} ≠ outer.render {} ∧
          behind.render {} = outer.render {} := by
  intro program
  have valid : separatorFault? "$" = none := by decide
  have written : program.transform {} =
      .ok "var x$0;\n\x7b\n  var x$1;\n  x$1;\n\x7d\nx$0;\n" := rfl
  obtain ⟨writer, ran, _, _, _, compare⟩ :=
    var_text_eq_iff_innermost_seen program {} _ valid written
  have names : writer.names = [.declaration ⟨"x", 0⟩, .declaration ⟨"x", 1⟩, .reference ⟨"x", 1⟩,
      .reference ⟨"x", 0⟩] := by
    have same := (EStateM.Result.ok.inj ran).2
    rw [← same]
    rfl
  have zip : program.mentions.zip writer.names = [(⟨⟨"x", [0], true⟩, true⟩, .declaration ⟨"x", 0⟩),
      (⟨⟨"x", [1, 0], true⟩, true⟩, .declaration ⟨"x", 1⟩),
      (⟨⟨"x", [1, 0], false⟩, false⟩, .reference ⟨"x", 1⟩),
      (⟨⟨"x", [0], false⟩, false⟩, .reference ⟨"x", 0⟩)] := by
    rw [names]
    rfl
  obtain ⟨declarations, references⟩ := compare (⟨⟨"x", [0], true⟩, true⟩, .declaration ⟨"x", 0⟩)
    (by simp [zip]) 0 "x" 0 ⟨rfl, rfl, rfl, rfl⟩ rfl
  refine ⟨valid, written, writer, ran, _, _, _, _, zip, ?_, ?_, ?_⟩
  · intro same
    have block := (declarations (⟨⟨"x", [1, 0], true⟩, true⟩, .declaration ⟨"x", 1⟩)
      (by simp [zip]) ⟨rfl, rfl, rfl, rfl⟩).mp same
    cases block
  · intro same
    have nearest := ((references [_, _] _ [_] zip rfl rfl rfl).mp same).2
    have above := nearest ⟨⟨"x", [1, 0], true⟩, true⟩ (by decide) ⟨rfl, rfl, rfl, rfl⟩ 1 rfl
      ⟨by decide, Or.inl (by decide)⟩
    cases above
  · refine (references [_, _, _] _ [] zip rfl rfl rfl).mpr
      ⟨⟨by decide, Or.inl (by decide)⟩, ?_⟩
    rintro _ _ _ inner _ ⟨around, _⟩
    exact Nat.le_of_eq (List.mem_singleton.mp around)

/-- A `var` is lost outside its block: the reference behind the block is left free. -/
theorem var_text_ne_outside_block :
    ¬ ∀ (program : Program) (style : Style) (writer : Writer),
      separatorFault? style.separator = none →
      (∀ below, (Fragment.program program).Contains below →
        (∀ decls, below = .group decls → decls.length = 1) ∧
          ∀ name ∈ below.names, ¬ style.separator.toList <:+: name.toList) →
      Step.runAll program.steps {} = .ok () writer →
      ∀ use ∈ program.mentions.zip writer.names, ∀ decl ∈ program.mentions.zip writer.names,
        ∀ owner, use.1.occurrence.declares = false →
          program.meaning? use.1.occurrence = some owner →
          program.IsVarOf owner use.1.occurrence.name decl.1 →
          use.2.render style = decl.2.render style := by
  intro agree
  let program : Program :=
    ⟨[.block [.var .var [.mk "x" none {}] {}] {}, .expr (.ident "x" {}) {}], {}⟩
  have apart : ∀ name ∈ ["x"], ¬ "$".toList <:+: name.toList :=
    List.forall_mem_singleton.mpr (by decide)
  have single : ∀ below, (Fragment.program program).Contains below →
      (∀ decls, below = .group decls → decls.length = 1) ∧
        ∀ name ∈ below.names, ¬ "$".toList <:+: name.toList := by
    refine Fragment.forall_below ⟨nofun, nofun⟩ fun stmt member => ?_
    rcases List.mem_pair.mp member with rfl | rfl
    · refine Fragment.forall_below ⟨nofun, nofun⟩ (List.forall_mem_singleton.mpr ?_)
      refine Fragment.forall_below ⟨nofun, nofun⟩ (List.forall_mem_singleton.mpr ?_)
      refine Fragment.forall_below ⟨?_, nofun⟩ (List.forall_mem_singleton.mpr ?_)
      · rintro _ ⟨⟩
        rfl
      · exact Fragment.forall_below ⟨nofun, apart⟩ nofun
    · refine Fragment.forall_below ⟨nofun, nofun⟩ (List.forall_mem_singleton.mpr ?_)
      exact Fragment.forall_below ⟨nofun, apart⟩ nofun
  have same := agree program {} _ (by decide) single rfl (⟨⟨"x", [0], false⟩, false⟩, .free "x")
    (by decide) (⟨⟨"x", [1, 0], true⟩, true⟩, .declaration ⟨"x", 0⟩) (by decide) 0 rfl rfl
    ⟨rfl, rfl, rfl, rfl⟩
  exact absurd same (by decide)

end Freshen
