import Freshen.Proofs.GuardedCode
import Freshen.Proofs.Openings

/-!
Array literals are read back with their holes where they were. What is written for an element is
guarded, so that an array is cut at its own commas only. It is not taken for a hole, and nothing of
it is lost, exactly if it begins and ends with something that shows; a name with nothing in it does
not.
-/

namespace Freshen

open ArrayLiteral

/-! Expressions begin and end with something that shows. -/

def Visible (text : List Char) : Prop := ∃ c ∈ text.head?, isSpacing c = false

theorem visible_append {text : List Char} (visible : Visible text) (more : List Char) :
    Visible (text ++ more) := by
  obtain ⟨c, first, shows⟩ := visible
  exact ⟨c, by simp [Option.mem_def.mp first], shows⟩

theorem bare_minted {separator name : String} (bare : Bare name.toList) (number : Nat) :
    Bare (Minted.text separator ⟨name, number⟩).toList := by
  rw [Minted.toList_text]
  refine ⟨visible_append (visible_append bare.first _) _, ?_⟩
  have some : Nat.toDigits 10 number ≠ [] := Nat.toDigits_ne_nil
  have digit := isDigit_toDigits _ (List.getLast_mem some)
  refine ⟨(Nat.toDigits 10 number).getLast some, ?_,
    isSpacing_of_isIdentifierChar (isIdentifierChar_of_isDigit digit)⟩
  rw [List.getLast?_append, List.getLast?_eq_some_getLast some]
  rfl

theorem visible_of_opening {separator : String} {text : List Char}
    (opening : Opening separator (fun name => Bare name.toList) text) : Visible text := by
  cases opening with
  | @symbol c rest bracket =>
      refine ⟨c, rfl, ?_⟩
      simp only [isSymbol, Bool.or_eq_true, beq_iff_eq] at bracket
      rcases bracket with ((rfl | rfl) | rfl) | rfl <;> decide
  | @word word rest listed _ =>
      refine visible_append ?_ rest
      simp only [List.mem_cons, List.not_mem_nil, or_false] at listed
      rcases listed with rfl | rfl | rfl | rfl <;> exact ⟨_, rfl, by decide⟩
  | @name name front rest bare spells _ =>
      refine visible_append ?_ rest
      rcases spells with rfl | ⟨number, rfl⟩
      · exact bare.first
      · exact (bare_minted bare number).first

namespace Step

def Closes (style : Style) (steps : List Step) : Prop :=
  ∀ pieces, YieldsAll steps pieces →
    ∃ c ∈ (style.render pieces).toList.getLast?, isSpacing c = false

namespace Closes

variable {style : Style} {steps : List Step}

theorem append (front : List Step) (closes : Closes style steps) :
    Closes style (front ++ steps) := by
  intro pieces yields
  obtain ⟨before, last, _, written, rfl⟩ := yieldsAll_append.mp yields
  obtain ⟨c, here, shows⟩ := closes last written
  refine ⟨c, ?_, shows⟩
  rw [Style.render_append, String.toList_append, List.getLast?_append, Option.mem_def.mp here]
  rfl

theorem of_last {content : String} (last : ∃ c ∈ content.toList.getLast?, isSpacing c = false) :
    Closes style [.text content] := by
  intro pieces yields
  rw [yieldsAll_singleton, Yields] at yields
  rw [yields, Style.render_singleton]
  exact last

theorem text {content : String} (shows : content.toList.getLast?.any (!isSpacing ·) = true) :
    Closes style [.text content] := by
  rw [Option.any_eq_true] at shows
  obtain ⟨c, last, shows⟩ := shows
  exact of_last ⟨c, last, by simpa using shows⟩

theorem parenthesized (steps : List Step) : Closes style (Freshen.parenthesized steps) :=
  append _ (text (by decide))

theorem reject (cause : Unsupported) : Closes style [.reject cause] := by
  intro pieces yields
  rw [yieldsAll_singleton, Yields] at yields
  exact yields.elim

end Closes

end Step

namespace Expr

open Step

variable {style : Style}

theorem closes {expr : Expr} (regex : ∀ pattern flags span, expr ≠ .regex pattern flags span)
    (named : ∀ name ∈ (Fragment.expr expr).names, Bare name.toList) :
    Closes style expr.steps := by
  cases expr with
  | null span =>
      rw [steps]
      exact .text (by decide)
  | bool value span =>
      rw [steps]
      cases value <;> exact .text (by decide)
  | number value span =>
      rw [steps]
      refine .of_last ?_
      rw [String.toList_ofList]
      exact (clean_numeral value).bare.last
  | string value span =>
      rw [steps]
      refine .of_last ⟨'"', ?_, by decide⟩
      rw [toList_stringLiteral, ← List.cons_append, List.getLast?_concat]
      rfl
  | regex pattern flags span => exact absurd rfl (regex pattern flags span)
  | ident name span =>
      have bare := named name List.mem_cons_self
      intro pieces yields
      rw [steps, yieldsAll_singleton, Yields] at yields
      rcases yields with rfl | ⟨number, rfl⟩
      · rw [Style.render_singleton]
        exact bare.last
      · rw [Style.render_singleton]
        exact (bare_minted bare number).last
  | array elements span =>
      rw [steps]
      exact .append _ (.text (by decide))
  | object properties span =>
      rw [steps]
      exact .append _ (.text (by decide))
  | function | arrow | arrowBlock | binary | assign | update | conditional | sequence =>
      rw [steps]
      exact .parenthesized _
  | unary | call | new =>
      rw [steps]
      exact .append _ (.parenthesized _)
  | member receiver name span =>
      obtain ⟨c, last, shows⟩ := (named name List.mem_cons_self).last
      rw [steps]
      refine .append _ (.of_last ⟨c, ?_, shows⟩)
      rw [String.toList_append, List.getLast?_append, Option.mem_def.mp last]
      rfl
  | index receiver property span =>
      rw [steps]
      exact .append _ (.text (by decide))
  | unsupported kind span =>
      rw [steps]
      exact .reject _

/-- What is written for an expression is bare, if the names that are written in it are. -/
theorem bare {expr : Expr} (regex : ∀ pattern flags span, expr ≠ .regex pattern flags span)
    (named : ∀ below, (Fragment.expr expr).Writes below → ∀ name ∈ below.names, Bare name.toList)
    {pieces : List Piece} (yields : YieldsAll expr.steps pieces) :
    Bare (style.render pieces).toList where
  first := by
    -- unary operators and numerals are looked at by themselves
    have other (unary : expr.isUnary = false) (number : expr.isNumber = false) :
        Visible (style.render pieces).toList :=
      visible_of_opening (expr.opening
        (fun name _ writes => named _ writes name List.mem_cons_self) unary number _ yields)
    cases expr with
    | number value span =>
        rw [steps, yieldsAll_singleton, Yields] at yields
        rw [yields, Style.render_singleton, Piece.render, String.toList_ofList]
        exact (clean_numeral value).bare.first
    | unary op arg span =>
        rw [steps] at yields
        obtain ⟨front, back, token, _, rfl⟩ := yieldsAll_append.mp yields
        rw [yieldsAll_singleton, Yields] at token
        rw [token, Style.render_append, Style.render_singleton, String.toList_append]
        have clean : Clean op.token.toList :=
          ⟨by cases op <;> decide, List.all_eq_true.mp (by cases op <;> decide)⟩
        exact visible_append clean.bare.first _
    | _ => exact other rfl rfl
  last := closes regex (named _ .refl) _ yields

end Expr

/-! The elements of an array, one after another. -/

/-- The texts of the elements, each written in the scopes that those before it leave, and the holes
between them. -/
def elementTexts (style : Style) :
    List (Option Expr) → Writer → Option (List (Option (List Char)))
  | [], _ => some []
  | none :: rest, writer => (elementTexts style rest writer).map (none :: ·)
  | some expr :: rest, writer => do
    let (pieces, after) ← Step.emit expr.steps writer
    let texts ← elementTexts style rest after
    return some (style.render pieces).toList :: texts

section Elements

variable {style : Style} {elements : List (Option Expr)} {writer : Writer}
  {texts : List (Option (List Char))}

theorem elementTexts_blank (style : Style) (elements : List (Option Expr)) (writer : Writer) :
    elementTexts style elements writer.blank = elementTexts style elements writer := by
  induction elements with
  | nil => rfl
  | cons first rest ih =>
      cases first with
      | none => rw [elementTexts, elementTexts, ih]
      | some expr => rfl

theorem elementTexts_cons_eq_some {expr : Expr} {rest : List (Option Expr)} :
    elementTexts style (some expr :: rest) writer = some texts ↔
      ∃ pieces after others, Step.emit expr.steps writer = some (pieces, after) ∧
        elementTexts style rest after = some others ∧
        some (style.render pieces).toList :: others = texts := by
  simp [elementTexts, Option.bind_eq_some_iff]

theorem isSome_elementTexts (same : elementTexts style elements writer = some texts) :
    texts.map Option.isSome = elements.map Option.isSome := by
  induction elements generalizing writer texts with
  | nil =>
      cases same
      rfl
  | cons first rest ih =>
      cases first with
      | none =>
          obtain ⟨others, later, rfl⟩ := Option.map_eq_some_iff.mp same
          rw [List.map_cons, List.map_cons, ih later]
          rfl
      | some expr =>
          obtain ⟨pieces, after, others, _, later, rfl⟩ := elementTexts_cons_eq_some.mp same
          rw [List.map_cons, List.map_cons, ih later]
          rfl

theorem elementTexts_ne_nil {second : Option Expr} {rest : List (Option Expr)}
    (same : elementTexts style (second :: rest) writer = some texts) : texts ≠ [] := by
  rintro rfl
  exact nomatch isSome_elementTexts same

theorem render_comma (style : Style) (pieces : List Piece) :
    (style.render ([.text ", "] ++ pieces)).toList =
      ',' :: ' ' :: (style.render pieces).toList := by
  simp [Style.render, Piece.render]

theorem listed_of_emit {stop : Writer} {pieces : List Piece}
    (emitted : Step.emit (elementSteps elements) writer = some (pieces, stop)) :
    ∃ texts, elementTexts style elements writer = some texts ∧
      (style.render pieces).toList = listed texts := by
  induction elements generalizing writer pieces with
  | nil =>
      rw [elementSteps] at emitted
      cases emitted
      exact ⟨[], rfl, rfl⟩
  | cons first rest ih =>
      cases rest with
      | nil =>
          cases first with
          | none =>
              rw [elementSteps, Step.emit_text] at emitted
              cases emitted
              exact ⟨[none], rfl, by simp [Style.render, Piece.render, listed]⟩
          | some expr =>
              rw [elementSteps] at emitted
              exact ⟨_, elementTexts_cons_eq_some.mpr ⟨_, _, _, emitted, rfl, rfl⟩, rfl⟩
      | cons second rest =>
          cases first with
          | none =>
              rw [elementSteps_hole_cons, Step.emit_append_eq_some] at emitted
              obtain ⟨front, middle, back, comma, others, rfl⟩ := emitted
              rw [Step.emit_text] at comma
              cases comma
              obtain ⟨texts, same, text⟩ := ih others
              rw [elementTexts_blank] at same
              refine ⟨none :: texts, ?_, ?_⟩
              · rw [elementTexts, same, Option.map_some]
              · rw [render_comma, text, listed_hole_cons (elementTexts_ne_nil same)]
          | some expr =>
              rw [elementSteps_cons_cons, List.append_assoc, Step.emit_append_eq_some] at emitted
              obtain ⟨front, middle, back, here, behind, rfl⟩ := emitted
              obtain ⟨_, _, last, comma, others, rfl⟩ := Step.emit_append_eq_some.mp behind
              rw [Step.emit_text] at comma
              cases comma
              obtain ⟨texts, same, text⟩ := ih others
              rw [elementTexts_blank] at same
              refine ⟨_, elementTexts_cons_eq_some.mpr ⟨front, middle, texts, here, same, rfl⟩, ?_⟩
              rw [Style.render_append, String.toList_append, render_comma, text,
                listed_text_cons _ (elementTexts_ne_nil same)]

theorem listed_of_emit_array {span : Span} {stop : Writer} {pieces : List Piece}
    (emitted : Step.emit (Expr.array elements span).steps writer = some (pieces, stop)) :
    ∃ texts, elementTexts style elements writer = some texts ∧
      (style.render pieces).toList = '[' :: (listed texts ++ [']']) := by
  rw [Expr.steps, List.append_assoc, Step.emit_append_eq_some] at emitted
  obtain ⟨_, _, _, opening, behind, rfl⟩ := emitted
  obtain ⟨_, _, _, inside, closing, rfl⟩ := Step.emit_append_eq_some.mp behind
  rw [Step.emit_text] at opening closing
  cases opening
  cases closing
  obtain ⟨texts, same, text⟩ := listed_of_emit inside
  rw [elementTexts_blank] at same
  refine ⟨texts, same, ?_⟩
  rw [Style.render_append, Style.render_append, Style.render_singleton, Style.render_singleton,
    String.toList_append, String.toList_append, text]
  simp [Piece.render]

theorem elementTexts_yields (orderly : writer.Orderly)
    (same : elementTexts style elements writer = some texts) {text : List Char}
    (member : some text ∈ texts) :
    ∃ expr pieces, some expr ∈ elements ∧ Step.YieldsAll expr.steps pieces ∧
      text = (style.render pieces).toList := by
  induction elements generalizing writer texts with
  | nil =>
      cases same
      cases member
  | cons first rest ih =>
      cases first with
      | none =>
          obtain ⟨others, later, rfl⟩ := Option.map_eq_some_iff.mp same
          obtain ⟨expr, pieces, inside, yields, text⟩ := ih orderly later (by simpa using member)
          exact ⟨expr, pieces, List.mem_cons_of_mem _ inside, yields, text⟩
      | some first =>
          obtain ⟨pieces, after, others, here, later, rfl⟩ := elementTexts_cons_eq_some.mp same
          rcases List.mem_cons.mp member with same | member
          · exact ⟨first, pieces, List.mem_cons_self, Step.yields_of_emit orderly here,
              Option.some.inj same⟩
          · obtain ⟨expr, pieces, inside, yields, text⟩ :=
              ih (Step.orderly_of_emit orderly here) later member
            exact ⟨expr, pieces, List.mem_cons_of_mem _ inside, yields, text⟩

end Elements

/-- The text of an array is read as an array literal up to its end, whatever follows it, with the
holes where they were and the texts of the elements everywhere else. This needs texts that are not
empty and have no spacing at their ends, as all have whose names are such. -/
theorem array_literal_read_back (program : Program) (style : Style)
    (valid : separatorFault? style.separator = none)
    (indent : ∀ c ∈ (style.indent.getD "  ").toList, isSpacing c = true)
    (elements : List (Option Expr)) (span : Span)
    (names : ∀ below, (Fragment.expr (.array elements span)).Writes below →
      ∀ name ∈ below.names, ∀ c ∈ name.toList, isPlain c = true)
    (regex : ∀ below, (Fragment.expr (.array elements span)).Writes below →
      ∀ pattern flags place, below ≠ .expr (.regex pattern flags place)) :
    (∀ text, program.transform style = .ok text →
        (Fragment.program program).Writes (.expr (.array elements span)) →
        ∃ start pieces stop, program.Reaches (Expr.array elements span).steps start ∧
          Step.emit (Expr.array elements span).steps start = some (pieces, stop)) ∧
      ∀ start, program.Reaches (Expr.array elements span).steps start →
        ∀ pieces stop, Step.emit (Expr.array elements span).steps start = some (pieces, stop) →
          ∃ texts, elementTexts style elements start = some texts ∧
            texts.map Option.isSome = elements.map Option.isSome ∧
            (∀ following, arrayLiteral? ((style.render pieces).toList ++ following) =
              some (texts, following) ↔ ∀ text, some text ∈ texts → Bare text) ∧
            ((∀ below, (Fragment.expr (.array elements span)).Writes below →
                ∀ name ∈ below.names, Bare name.toList) →
              ∀ text, some text ∈ texts → Bare text) := by
  have sound : style.Sound := ⟨valid, List.all_eq_true.mpr indent⟩
  have inside {expr : Expr} (member : some expr ∈ elements) {below : Fragment}
      (writes : (Fragment.expr expr).Writes below) :
      (Fragment.expr (.array elements span)).Writes below :=
    .head (List.mem_map_of_mem (List.reduceOption_mem_iff.mpr member)) writes
  constructor
  · intro text transformed writes
    apply program.emitted_of_writes transformed writes
    intro part drafted
    cases drafted
    exact Step.Within.refl _
  · intro start reaches pieces stop emitted
    have orderly := reaches.orderly
    obtain ⟨texts, same, written⟩ := listed_of_emit_array emitted
    refine ⟨texts, same, isSome_elementTexts same, fun following => ?_, fun bare text member => ?_⟩
    · have guarded : ∀ text, some text ∈ texts → Guarded false text := by
        intro text member
        obtain ⟨expr, pieces, element, yields, rfl⟩ := elementTexts_yields orderly same member
        exact Fragment.guards sound (fun below writes =>
          ⟨names below (inside element writes), regex below (inside element writes)⟩)
          (.expr expr) pieces yields
      rw [written, List.cons_append, List.append_assoc, List.singleton_append,
        arrayLiteral?_listed guarded, Option.some_inj, Prod.mk.injEq, and_iff_left rfl,
        readBack_eq_self_iff]
    · obtain ⟨expr, pieces, element, yields, rfl⟩ := elementTexts_yields orderly same member
      refine Expr.bare (fun pattern flags place same => ?_)
        (fun below writes => bare below (inside element writes)) yields
      exact regex _ (inside element .refl) pattern flags place (congrArg Fragment.expr same)

/-- Holes at both ends, between elements and inside one, and a string that would end the array. -/
theorem array_literal_read_back_holes :
    let elements : List (Option Expr) := [none, some (.string ",]" {}), none,
      some (.array [some (.ident "x" {}), none] {}), none]
    let program : Program := ⟨[.expr (.array elements {}) {}], {}⟩
    program.transform {} = .ok "[, \",]\", , [x, ,], ,];\n" ∧
      arrayLiteral? "[, \",]\", , [x, ,], ,];".toList =
        some ([none, some "\",]\"".toList, none, some "[x, ,]".toList, none], [';']) := by
  intro elements program
  let Fit (fragment : Fragment) : Prop :=
    fragment.Plain ∧ ∀ name ∈ fragment.names, Bare name.toList
  have unnamed {fragment : Fragment} (names : fragment.names = [])
      (regex : ∀ pattern flags span, fragment ≠ .expr (.regex pattern flags span)) :
      Fit fragment := ⟨.of_unnamed names regex, by simp [names]⟩
  have leaf {fragment : Fragment} (own : Fit fragment) (last : fragment.written = []) :
      ∀ below, fragment.Writes below → Fit below :=
    Fragment.forall_writes own fun child member => by simp [last] at member
  have inner : ∀ below, (Fragment.expr (.array [some (.ident "x" {}), none] {})).Writes below →
      Fit below := by
    refine Fragment.forall_writes (unnamed rfl nofun) fun child member => ?_
    obtain rfl := List.mem_singleton.mp member
    have clean : Clean "x".toList := ⟨by decide, List.all_eq_true.mp (by decide)⟩
    have plain : ∀ c ∈ "x".toList, isPlain c = true := List.all_eq_true.mp (by decide)
    exact leaf ⟨⟨List.forall_mem_singleton.mpr plain, nofun⟩,
      List.forall_mem_singleton.mpr clean.bare⟩ rfl
  have fit : ∀ below, (Fragment.expr (.array elements {})).Writes below → Fit below := by
    refine Fragment.forall_writes (unnamed rfl nofun) fun child member => ?_
    rcases List.mem_cons.mp member with rfl | member
    · exact leaf (unnamed rfl nofun) rfl
    · obtain rfl := List.mem_singleton.mp member
      exact inner
  have reaches : program.Reaches (Expr.array elements {}).steps {} :=
    .here [.text ";", .newline] rfl
  obtain ⟨texts, same, _, read, bare⟩ := (array_literal_read_back program {} (by decide)
    (List.all_eq_true.mp (by decide)) elements {} (fun below writes => (fit below writes).1.names)
    (fun below writes => (fit below writes).1.regex)).2 {} reaches _ _ rfl
  obtain rfl := Option.some.inj same
  exact ⟨rfl, (read [';']).mpr (bare fun below writes => (fit below writes).2)⟩

/-- An element whose name has nothing in it is lost: there is only `[]` to be read. -/
theorem array_of_empty_name_not_read_back :
    ¬ ∀ (program : Program) (style : Style) (elements : List (Option Expr)) (span : Span),
      separatorFault? style.separator = none →
      (∀ c ∈ (style.indent.getD "  ").toList, isSpacing c = true) →
      (∀ below, (Fragment.expr (.array elements span)).Writes below →
        (∀ name ∈ below.names, ∀ c ∈ name.toList, isPlain c = true) ∧
          ∀ pattern flags place, below ≠ .expr (.regex pattern flags place)) →
      ∀ text, program.transform style = .ok text →
        ∀ start, program.Reaches (Expr.array elements span).steps start →
          ∀ pieces stop, Step.emit (Expr.array elements span).steps start = some (pieces, stop) →
            ∃ texts, elementTexts style elements start = some texts ∧
              arrayLiteral? (style.render pieces).toList = some (texts, []) := by
  intro claimed
  let elements : List (Option Expr) := [some (.ident "" {})]
  let program : Program := ⟨[.expr (.array elements {}) {}], {}⟩
  have plain : ∀ below, (Fragment.expr (.array elements {})).Writes below → below.Plain := by
    refine Fragment.forall_writes (.of_unnamed rfl nofun) fun child member => ?_
    obtain rfl := List.mem_singleton.mp member
    have empty : ∀ c ∈ "".toList, isPlain c = true := List.all_eq_true.mp (by decide)
    exact Fragment.forall_writes ⟨List.forall_mem_singleton.mpr empty, nofun⟩
      fun child member => nomatch member
  have written : program.transform {} = .ok "[];\n" := rfl
  have reaches : program.Reaches (Expr.array elements {}).steps {} :=
    .here [.text ";", .newline] rfl
  obtain ⟨texts, same, read⟩ := claimed program {} elements {} (by decide)
    (List.all_eq_true.mp (by decide)) (fun below writes => ⟨(plain below writes).names,
      (plain below writes).regex⟩) _ written {} reaches _ _ rfl
  obtain rfl : [some []] = texts := Option.some.inj same
  cases read

end Freshen
