import Freshen.Proofs.ArrayLiterals
import Freshen.Proofs.NameReading
import Freshen.Proofs.WrittenParts

/-!
Written code is guarded: every bracket in it is closed, and outside of brackets and strings there is
no comma. This needs names and literals that have no brackets, quotes and commas of their own, as
all but regular expressions have.
-/

namespace Freshen

open ArrayLiteral

/-! Characters that show and cut nothing. -/

theorem isPlain_of_isSpacing {c : Char} (spacing : isSpacing c = true) : isPlain c = true :=
  isPlain_of_kind (by decide) spacing

theorem isPlain_of_isIdentifierChar {c : Char} (identifier : isIdentifierChar c = true) :
    isPlain c = true :=
  isPlain_of_kind (by decide) identifier

theorem isSpacing_of_isIdentifierChar {c : Char} (identifier : isIdentifierChar c = true) :
    isSpacing c = false := by
  have apart : (spacingCodes ++ List.range' 0x2000 11).all
      (fun code => !isIdentifierChar (Char.ofNat code)) = true := by decide
  by_contra spacing
  have member : c.toNat ∈ spacingCodes ++ List.range' 0x2000 11 := by
    rw [List.mem_append, List.mem_range'_1]
    simp only [isSpacing, Bool.not_eq_false, Bool.or_eq_true, Bool.and_eq_true, decide_eq_true_eq,
      List.contains_iff_mem] at spacing
    exact spacing.imp_right fun between => ⟨between.1, Nat.lt_succ_of_le between.2⟩
  have other := List.all_eq_true.mp apart _ member
  rw [Char.ofNat_toNat, identifier] at other
  cases other

def isClean (c : Char) : Bool := isPlain c && !isSpacing c

theorem isClean_of_isIdentifierChar {c : Char} (identifier : isIdentifierChar c = true) :
    isClean c = true := by
  rw [isClean, isPlain_of_isIdentifierChar identifier, isSpacing_of_isIdentifierChar identifier]
  rfl

structure Clean (text : List Char) : Prop where
  some : text ≠ []
  all : ∀ c ∈ text, isClean c = true

namespace Clean

variable {text : List Char}

theorem guarded (clean : Clean text) {commas : Bool} : Guarded commas text :=
  .of_plain fun c member => (Bool.and_eq_true_iff.mp (clean.all c member)).1

theorem isSpacing_eq_false (clean : Clean text) {c : Char} (member : c ∈ text) :
    isSpacing c = false := by
  simpa using (Bool.and_eq_true_iff.mp (clean.all c member)).2

theorem bare (clean : Clean text) : Bare text where
  first := ⟨text.head clean.some, List.head?_eq_some_head clean.some,
    clean.isSpacing_eq_false (List.head_mem _)⟩
  last := ⟨text.getLast clean.some, List.getLast?_eq_some_getLast clean.some,
    clean.isSpacing_eq_false (List.getLast_mem _)⟩

theorem append {more : List Char} (clean : Clean text) (all : ∀ c ∈ more, isClean c = true) :
    Clean (text ++ more) where
  some := List.append_ne_nil_of_left_ne_nil clean.some _
  all := by
    intro c member
    rcases List.mem_append.mp member with member | member
    · exact clean.all c member
    · exact all c member

end Clean

theorem isPlain_minted {separator name : String} (valid : separatorFault? separator = none)
    (plain : ∀ c ∈ name.toList, isPlain c = true) (number : Nat) :
    ∀ c ∈ (Minted.text separator ⟨name, number⟩).toList, isPlain c = true := by
  intro c member
  rw [Minted.toList_text, List.append_assoc] at member
  rcases List.mem_append.mp member with member | member
  · exact plain c member
  · apply isPlain_of_isIdentifierChar
    rcases List.mem_append.mp member with member | member
    · exact isIdentifierChar_of_valid valid c member
    · exact isIdentifierChar_of_isDigit (isDigit_toDigits c member)

theorem isClean_of_isDigit {c : Char} (digit : c.isDigit = true) : isClean c = true :=
  isClean_of_isIdentifierChar (isIdentifierChar_of_isDigit digit)

theorem isClean_scaleText (scale : Option Int) : ∀ c ∈ scaleText scale, isClean c = true := by
  have digits (n : Nat) : ∀ c ∈ Nat.toDigits 10 n, isClean c = true := fun c member =>
    isClean_of_isDigit (isDigit_toDigits c member)
  cases scale with
  | none => simp [scaleText]
  | some exponent =>
      intro c member
      rw [scaleText, Int.toString_eq_repr, Int.repr_eq_if] at member
      rcases List.mem_cons.mp member with rfl | member
      · decide
      split at member
      · rw [Nat.toList_repr] at member
        exact digits _ c member
      · rw [String.toList_append, Nat.toList_repr] at member
        rcases List.mem_cons.mp member with rfl | member
        · decide
        · exact digits _ c member

theorem clean_unsignedNumeral {magnitude : Nat} (finite : magnitude < Double.infinity) :
    Clean (Double.unsignedNumeral magnitude) := by
  obtain ⟨_, ⟨before, after, scale, written, some, digits, _⟩, _⟩ :=
    Double.unsignedNumeral_shows finite
  rw [written, numeralText]
  have whole : Clean before := ⟨some, fun c member =>
    isClean_of_isDigit (digits c (List.mem_append_left _ member))⟩
  apply whole.append
  intro c member
  rcases List.mem_append.mp member with member | member
  · split at member
    · cases member
    · rcases List.mem_cons.mp member with rfl | member
      · decide
      · exact isClean_of_isDigit (digits c (List.mem_append_right _ member))
  · exact isClean_scaleText scale c member

theorem clean_numeral (value : Double) : Clean value.numeral := by
  have sign (text : List Char) (clean : Clean text) :
      Clean ((if value.isNegative then ['-'] else []) ++ text) := by
    split
    · exact Clean.append ⟨by simp, List.forall_mem_singleton.mpr (by decide)⟩ clean.all
    · exact clean
  rw [Double.numeral]
  split
  · exact ⟨by decide, List.all_eq_true.mp (by decide)⟩
  · split
    · rename_i finite
      exact sign _ (clean_unsignedNumeral (of_decide_eq_true finite))
    · exact sign _ ⟨by decide, List.all_eq_true.mp (by decide)⟩

/-! What steps write. -/

/-- A choice of style that keeps names apart and writes lines that start with spacing. -/
structure Style.Sound (style : Style) : Prop where
  separator : separatorFault? style.separator = none
  indent : (style.indent.getD "  ").toList.all isSpacing = true

theorem guarded_newline {style : Style} (sound : style.Sound) {commas : Bool} (level : Nat) :
    Guarded commas ((Piece.newline level).render style).toList := by
  apply Guarded.of_plain
  intro c member
  simp only [Piece.render, String.toList_append, String.toList_join, List.mem_append,
    List.mem_flatMap, List.mem_replicate] at member
  rcases member with member | ⟨_, ⟨_, rfl⟩, member⟩
  · obtain rfl : c = '\n' := by simpa using member
    decide
  · exact isPlain_of_isSpacing (List.all_eq_true.mp sound.indent c member)

/-- Two texts of plain characters, but for a bracket in the one and what closes it in the other. -/
def encloses (opening closing : String) : Bool :=
  match opening.toList.dropWhile isPlain, closing.toList.dropWhile isPlain with
  | opener :: behind, closer :: after =>
    closer? opener == some closer && behind.all isPlain && after.all isPlain
  | _, _ => false

theorem guarded_takeWhile (text : List Char) {commas : Bool} :
    Guarded commas (text.takeWhile isPlain) :=
  .of_plain fun _ member => List.mem_takeWhile_imp member

theorem guarded_of_encloses {opening closing : String} (pair : encloses opening closing = true)
    {commas : Bool} {inner : List Char} (guarded : Guarded true inner) :
    Guarded commas (opening.toList ++ (inner ++ closing.toList)) := by
  rw [encloses] at pair
  split at pair
  · rename_i opener behind closer after opens closes
    simp only [Bool.and_eq_true, beq_iff_eq, List.all_eq_true] at pair
    obtain ⟨⟨closes', plain⟩, plain'⟩ := pair
    rw [← List.takeWhile_append_dropWhile (p := isPlain) (l := opening.toList), opens,
      ← List.takeWhile_append_dropWhile (p := isPlain) (l := closing.toList), closes]
    have middle : Guarded true (behind ++ inner ++ closing.toList.takeWhile isPlain) :=
      ((Guarded.of_plain plain).append guarded).append (guarded_takeWhile _)
    have whole : Guarded commas _ := (guarded_takeWhile opening.toList).append
      (.bracket closes' middle (.of_plain plain'))
    simpa only [List.append_assoc, List.cons_append] using whole
  · cases pair

namespace Step

/-- Whatever the steps write in a style is guarded. -/
def Guards (style : Style) (commas : Bool) (steps : List Step) : Prop :=
  ∀ pieces, YieldsAll steps pieces → Guarded commas (style.render pieces).toList

namespace Guards

variable {style : Style} {commas : Bool} {steps more : List Step} {name : String}

theorem allow (guards : Guards style commas steps) : Guards style true steps :=
  fun pieces yields => (guards pieces yields).allow

theorem nil : Guards style commas [] := by
  intro pieces yields
  rw [yieldsAll_nil.mp yields]
  exact .nil

theorem append (first : Guards style commas steps) (second : Guards style commas more) :
    Guards style commas (steps ++ more) := by
  intro pieces yields
  obtain ⟨front, back, front', back', rfl⟩ := yieldsAll_append.mp yields
  rw [Style.render_append, String.toList_append]
  exact (first _ front').append (second _ back')

theorem text {content : String} (guarded : Guarded commas content.toList) :
    Guards style commas [.text content] := by
  intro pieces yields
  rw [yieldsAll_singleton, Yields] at yields
  rw [yields, Style.render_singleton]
  exact guarded

theorem plain {content : String} (plain : content.toList.all isPlain = true) :
    Guards style commas [.text content] :=
  text (.of_plain (List.all_eq_true.mp plain))

theorem newline (sound : style.Sound) : Guards style commas [.newline] := by
  intro pieces yields
  rw [yieldsAll_singleton, Yields] at yields
  obtain ⟨level, rfl⟩ := yields
  rw [Style.render_singleton]
  exact guarded_newline sound level

theorem hoist (body : List Stmt) : Guards style commas (hoistSteps body) := by
  rw [hoistSteps]
  induction body.filterMap Stmt.hoistedName with
  | nil => exact nil
  | cons name rest ih =>
      have bound : Guards style commas [.bind name] := by
        intro pieces yields
        rw [yieldsAll_singleton, Yields] at yields
        rw [yields]
        exact .nil
      exact bound.append ih

theorem declare (sound : style.Sound) (plain : ∀ c ∈ name.toList, isPlain c = true) :
    Guards style commas [.declare name] := by
  intro pieces yields
  rw [yieldsAll_singleton, Yields] at yields
  obtain ⟨number, rfl⟩ := yields
  rw [Style.render_singleton]
  exact .of_plain (isPlain_minted sound.separator plain number)

theorem refer (sound : style.Sound) (plain : ∀ c ∈ name.toList, isPlain c = true) :
    Guards style commas [.refer name] := by
  intro pieces yields
  rw [yieldsAll_singleton, Yields] at yields
  rcases yields with rfl | ⟨number, rfl⟩
  · rw [Style.render_singleton]
    exact .of_plain plain
  · rw [Style.render_singleton]
    exact .of_plain (isPlain_minted sound.separator plain number)

theorem framed (guards : Guards style commas steps) : Guards style commas [.framed steps] := by
  intro pieces yields
  rw [yieldsAll_singleton, Yields] at yields
  exact guards pieces yields

theorem braced (sound : style.Sound) (guards : Guards style true steps) :
    Guards style commas [.braced steps] := by
  intro pieces yields
  rw [yieldsAll_singleton, Yields] at yields
  obtain ⟨inside, level, yields, rfl⟩ := yields
  have text : (style.render (.openBrace :: (inside ++ [.newline level, .closeBrace]))).toList =
      '\x7b' :: (((style.render inside).toList ++ ((Piece.newline level).render style).toList) ++
        ['\x7d']) := by
    simp [Style.render, Piece.render]
  rw [text]
  exact .bracket rfl ((guards inside yields).append (guarded_newline sound level)) .nil

theorem reject (cause : Unsupported) : Guards style commas [.reject cause] := by
  intro pieces yields
  rw [yieldsAll_singleton, Yields] at yields
  exact yields.elim

theorem between {opening closing : String}
    (encloses : ∀ inner, Guarded true inner →
      Guarded commas (opening.toList ++ (inner ++ closing.toList)))
    (guards : Guards style true steps) :
    Guards style commas ([.text opening] ++ steps ++ [.text closing]) := by
  intro pieces yields
  obtain ⟨front, last, others, closes, rfl⟩ := yieldsAll_append.mp yields
  obtain ⟨first, middle, opens, inside, rfl⟩ := yieldsAll_append.mp others
  rw [yieldsAll_singleton, Yields] at opens closes
  rw [opens, closes, Style.render_append, Style.render_append, Style.render_singleton,
    Style.render_singleton, String.toList_append, String.toList_append, List.append_assoc]
  exact encloses _ (guards middle inside)

theorem enclosed {opening closing : String} (pair : encloses opening closing = true)
    (guards : Guards style true steps) :
    Guards style commas ([.text opening] ++ steps ++ [.text closing]) :=
  between (fun _ inner => guarded_of_encloses pair inner) guards

theorem append_enclosed {opening closing : String} (before : Guards style commas more)
    (pair : encloses opening closing = true) (guards : Guards style true steps) :
    Guards style commas (more ++ [.text opening] ++ steps ++ [.text closing]) := by
  have whole := before.append (guards.enclosed pair)
  simpa only [List.append_assoc] using whole

theorem parenthesized (guards : Guards style true steps) :
    Guards style commas (Freshen.parenthesized steps) :=
  guards.enclosed (by decide)

theorem asOperand (expr : Expr) (guards : Guards style false steps) :
    Guards style false (expr.asOperand steps) := by
  rw [Expr.asOperand]
  split
  · exact guards
  · exact guards.allow.parenthesized

theorem asConstructor (expr : Expr) (guards : Guards style false steps) :
    Guards style false (expr.asConstructor steps) := by
  rw [Expr.asConstructor]
  split
  · exact guards
  · exact guards.allow.parenthesized

theorem asLeft (expr : Expr) (op : BinaryOp) (guards : Guards style false steps) :
    Guards style false (expr.asLeft op steps) := by
  rw [Expr.asLeft]
  split
  · exact guards.allow.parenthesized
  · exact guards

theorem comma : Guards style true [.text ", "] := text (.comma (.plain rfl .nil))

theorem divided {items : List (List Step)} (guards : ∀ item ∈ items, Guards style false item) :
    Guards style true (Freshen.divided items) := by
  induction items with
  | nil => exact nil
  | cons first rest ih =>
      have head := (guards first List.mem_cons_self).allow
      cases rest with
      | nil => exact head
      | cons second rest =>
          rw [divided_cons_cons]
          exact (head.append comma).append (ih fun item member =>
            guards item (List.mem_cons_of_mem _ member))

theorem elements {elements : List (Option Expr)}
    (guards : ∀ expr, some expr ∈ elements → Guards style false expr.steps) :
    Guards style true (elementSteps elements) := by
  induction elements with
  | nil => exact nil
  | cons first rest ih =>
      have later := ih fun expr member => guards expr (List.mem_cons_of_mem _ member)
      cases rest with
      | nil =>
          cases first with
          | none => exact text (.comma .nil)
          | some first => exact (guards first List.mem_cons_self).allow
      | cons second rest =>
          cases first with
          | none =>
              rw [elementSteps_hole_cons]
              exact comma.append later
          | some first =>
              rw [elementSteps_cons_cons]
              exact ((guards first List.mem_cons_self).allow.append comma).append later

theorem body (sound : style.Sound) {body : List Stmt}
    (guards : ∀ stmt ∈ body, Guards style false stmt.steps) :
    Guards style commas (bodySteps body) := by
  have lines : Guards style true (lineSteps body) := by
    induction body with
    | nil => exact nil
    | cons first rest ih =>
        rw [lineSteps]
        exact ((newline sound).append (guards first List.mem_cons_self).allow).append
          (ih fun stmt member => guards stmt (List.mem_cons_of_mem _ member))
  rw [bodySteps_eq]
  split
  · exact text (.bracket rfl .nil .nil)
  · exact lines.braced sound

end Guards

end Step

/-! Every fragment with plain names and no regular expression is guarded. -/

/-- The fragment has nothing of its own that could cut an array. -/
structure Fragment.Plain (fragment : Fragment) : Prop where
  names : ∀ name ∈ fragment.names, ∀ c ∈ name.toList, isPlain c = true
  regex : ∀ pattern flags span, fragment ≠ .expr (.regex pattern flags span)

theorem Fragment.Plain.of_unnamed {fragment : Fragment} (unnamed : fragment.names = [])
    (regex : ∀ pattern flags span, fragment ≠ .expr (.regex pattern flags span)) :
    fragment.Plain := ⟨by simp [unnamed], regex⟩

namespace Fragment

open Step

variable {style : Style}

theorem guards_string (value : String) : Guards style false [.text (stringLiteral value)] := by
  refine .text ?_
  rw [← List.append_nil (stringLiteral value).toList]
  exact .literal value .nil

theorem guards_numeral (value : Double) :
    Guards style false [.text (String.ofList value.numeral)] := by
  refine .text ?_
  rw [String.toList_ofList]
  exact (clean_numeral value).guarded

theorem guards_head (sound : style.Sound) {name : Option String}
    (plain : ∀ text ∈ name, ∀ c ∈ text.toList, isPlain c = true) :
    Guards style false (functionHead name) := by
  cases name with
  | none => exact .plain (by decide)
  | some text => exact Guards.append (.plain (by decide)) (.declare sound (plain text rfl))

theorem guards_params (sound : style.Sound) {params : List Param}
    (plain : ∀ name ∈ params.map Param.name, ∀ c ∈ name.toList, isPlain c = true) :
    Guards style false (parenthesized (paramSteps params)) := by
  rw [paramSteps_eq_divided]
  refine .parenthesized (.divided ?_)
  intro item member
  obtain ⟨param, inside, rfl⟩ := List.mem_map.mp member
  exact .declare sound (plain _ (List.mem_map_of_mem inside))

theorem guards_exprs {exprs : List Expr}
    (guards : ∀ expr ∈ exprs, Guards style false expr.steps) :
    Guards style false (parenthesized (exprsSteps exprs)) := by
  rw [exprsSteps_eq_divided]
  exact .parenthesized (.divided (List.forall_mem_map.mpr guards))

theorem isPlain_token_unary (op : UnaryOp) : op.token.toList.all isPlain = true := by
  cases op <;> decide

theorem isPlain_token_binary (op : BinaryOp) :
    (" " ++ op.token ++ " ").toList.all isPlain = true := by
  cases op <;> decide

theorem isPlain_token_assign (op : AssignOp) :
    (" " ++ op.token ++ " ").toList.all isPlain = true := by
  cases op <;> decide

theorem isPlain_token_update (op : UpdateOp) : op.token.toList.all isPlain = true := by
  cases op <;> decide

theorem guards_expr (sound : style.Sound) {inner : Expr} (plain : (Fragment.expr inner).Plain)
    (inside : ∀ child ∈ inner.fragments, ∀ part, child.Drafted part → Guards style false part) :
    Guards style false inner.steps := by
  have guards {expr : Expr} (below : .expr expr ∈ inner.fragments) :
      Guards style false expr.steps := inside _ below _ (.expr expr)
  cases inner with
  | null span => exact .plain (by decide)
  | bool value span =>
      rw [Expr.steps]
      cases value <;> exact .plain (by decide)
  | number value span =>
      rw [Expr.steps]
      exact guards_numeral value
  | string value span =>
      rw [Expr.steps]
      exact guards_string value
  | regex pattern flags span => exact absurd rfl (plain.regex pattern flags span)
  | ident name span => exact .refer sound (plain.names name (by simp [names]))
  | array elements span =>
      rw [Expr.steps]
      refine .enclosed (by decide) (.elements fun expr member => ?_)
      exact guards (List.mem_map_of_mem (List.reduceOption_mem_iff.mpr member))
  | object properties span =>
      rw [Expr.steps, propertySteps_eq_divided]
      refine .between (fun inside guarded => ?_) (.divided (List.forall_mem_map.mpr ?_))
      · have braces : Guarded true ('\x7b' :: (inside ++ '\x7d' :: [])) :=
          .bracket rfl guarded .nil
        have object : Guarded false ('(' :: ('\x7b' :: (inside ++ '\x7d' :: []) ++ ')' :: [])) :=
          .bracket rfl braces .nil
        simpa using object
      · intro property member
        exact inside _ (List.mem_map_of_mem member) _ (.property property)
  | function name params body own span =>
      rw [Expr.steps]
      refine .parenthesized (.framed (.allow (.append (.append (.append (.append
        (guards_head sound fun text member => plain.names _ ?_)
        (guards_params sound fun text member => plain.names _ ?_)) (.plain (by decide)))
        (.hoist body)) (.body sound fun stmt member => ?_))))
      · exact List.mem_append_left _ (Option.mem_toList.mpr member)
      · exact List.mem_append_right _ member
      · exact inside _ (List.mem_map_of_mem member) _ (.stmt stmt)
  | arrow params result own span =>
      rw [Expr.steps]
      exact .parenthesized (.framed (.allow (.append_enclosed (.append
        (guards_head sound fun text member => nomatch member)
        (guards_params sound plain.names)) (by decide) (guards List.mem_cons_self).allow)))
  | arrowBlock params body own span =>
      rw [Expr.steps]
      exact .parenthesized (.framed (.allow (.append (.append (.append (.append
        (guards_head sound fun text member => nomatch member)
        (guards_params sound plain.names)) (.plain (by decide)))
        (.hoist body)) (.body sound fun stmt member =>
          inside _ (List.mem_map_of_mem member) _ (.stmt stmt)))))
  | unary op arg span =>
      rw [Expr.steps]
      exact .append (.plain (isPlain_token_unary op))
        (.parenthesized (guards List.mem_cons_self).allow)
  | binary op left right span =>
      rw [Expr.steps]
      exact .parenthesized (.allow (.append (.append (.asLeft left op (guards List.mem_cons_self))
        (.plain (isPlain_token_binary op))) (guards (by simp [Expr.fragments]))))
  | assign op target value span =>
      rw [Expr.steps]
      exact .parenthesized (.allow (.append (.append (guards List.mem_cons_self)
        (.plain (isPlain_token_assign op))) (guards (by simp [Expr.fragments]))))
  | update op before arg span =>
      have operand : Guards style false arg.steps := guards List.mem_cons_self
      have token : Guards style false [.text op.token] := .plain (isPlain_token_update op)
      rw [Expr.steps]
      refine .parenthesized ?_
      split
      · exact (token.append operand).allow
      · exact (operand.append token).allow
  | conditional test consequent alternate span =>
      rw [Expr.steps]
      exact .parenthesized (.allow (.append (.append (.append (.append (guards List.mem_cons_self)
        (.plain (by decide))) (guards (by simp [Expr.fragments]))) (.plain (by decide)))
          (guards (by simp [Expr.fragments]))))
  | sequence exprs span =>
      rw [Expr.steps]
      exact guards_exprs fun expr member => guards (List.mem_map_of_mem member)
  | member object name span =>
      rw [Expr.steps]
      refine .append (.asOperand object (guards List.mem_cons_self)) (.text ?_)
      rw [String.toList_append]
      exact .plain (by decide) (.of_plain (plain.names name (by simp [names])))
  | index object property span =>
      rw [Expr.steps]
      exact .append_enclosed (.asOperand object (guards List.mem_cons_self)) (by decide)
        (guards (by simp [Expr.fragments])).allow
  | call callee args span =>
      rw [Expr.steps]
      exact .append (.asOperand callee (guards List.mem_cons_self))
        (guards_exprs fun expr member => guards (by simp [Expr.fragments, member]))
  | new callee args span =>
      rw [Expr.steps]
      exact .append (.append (.plain (by decide))
        (.asConstructor callee (guards List.mem_cons_self)))
        (guards_exprs fun expr member => guards (by simp [Expr.fragments, member]))
  | unsupported kind span =>
      rw [Expr.steps]
      exact .reject _

theorem guards_optional {optional : Option Expr}
    (guards : ∀ expr ∈ optional, Guards style false expr.steps) :
    Guards style false (optionalSteps optional) := by
  cases optional with
  | none => exact .nil
  | some expr => exact .append (.plain (by decide)) (guards expr rfl)

theorem guards_stmt (sound : style.Sound) {inner : Stmt} (plain : (Fragment.stmt inner).Plain)
    (inside : ∀ child ∈ inner.fragments, ∀ part, child.Drafted part → Guards style false part) :
    Guards style false inner.steps := by
  have exprs {expr : Expr} (below : .expr expr ∈ inner.fragments) :
      Guards style false expr.steps := inside _ below _ (.expr expr)
  have stmts {stmt : Stmt} (below : .stmt stmt ∈ inner.fragments) :
      Guards style false stmt.steps := inside _ below _ (.stmt stmt)
  cases inner with
  | var kind decls span =>
      rw [Stmt.steps]
      exact .append (inside _ List.mem_cons_self _ (.group kind span decls)) (.plain (by decide))
  | function name params body own span =>
      have rest : Guards style false (parenthesized (paramSteps params) ++ [.text " "] ++
          hoistSteps body ++ bodySteps body) :=
        .append (.append (.append (guards_params sound fun text member =>
          plain.names _ (List.mem_append_right _ member)) (.plain (by decide))) (.hoist body))
          (.body sound fun stmt member => stmts (List.mem_map_of_mem member))
      have head : Guards style false (functionHead name) := guards_head sound fun text member =>
        plain.names _ (List.mem_append_left _ (Option.mem_toList.mpr member))
      cases name with
      | none =>
          rw [Stmt.steps]
          exact .append (.parenthesized (.framed (head.append rest).allow)) (.plain (by decide))
      | some name =>
          rw [Stmt.steps]
          exact head.append rest.framed
  | block body span =>
      rw [Stmt.steps]
      exact .framed (.append (.hoist body) (.body sound fun stmt member =>
        stmts (List.mem_map_of_mem member)))
  | cond test consequent alternate span =>
      have head : Guards style false ([.text "if ("] ++ test.steps ++ [.text ") "]) :=
        .enclosed (by decide) (exprs List.mem_cons_self).allow
      have then' : Guards style false consequent.steps := stmts (by simp [Stmt.fragments])
      cases alternate with
      | none =>
          rw [Stmt.steps]
          exact head.append then'
      | some alternate =>
          have else' : Guards style false alternate.steps := stmts (by simp [Stmt.fragments])
          rw [Stmt.steps]
          refine head.append (.append (.append ?_ (.plain (by decide))) else')
          split
          · exact then'
          · exact .braced sound (.append (.newline sound) then'.allow)
  | loop init test update body span =>
      have first : Guards style false (init.steps span) := by
        cases init with
        | absent =>
            rw [LoopInit.steps]
            exact .nil
        | decl kind decls =>
            rw [LoopInit.steps]
            exact inside _ List.mem_cons_self _ (.group kind span decls)
        | expr init =>
            rw [LoopInit.steps]
            exact exprs List.mem_cons_self
      have semicolon : Guards style false [.text ";"] := .plain (by decide)
      have second : Guards style false (optionalSteps test) := guards_optional fun expr member =>
        exprs (by simp [Stmt.fragments, Option.mem_def.mp member])
      have third : Guards style false (optionalSteps update) := guards_optional fun expr member =>
        exprs (by simp [Stmt.fragments, Option.mem_def.mp member])
      have last : Guards style false body.steps := stmts (by simp [Stmt.fragments])
      have head : Guards style false ([.text "for ("] ++ (init.steps span ++ [.text ";"] ++
          optionalSteps test ++ [.text ";"] ++ optionalSteps update) ++ [.text ") "]) :=
        .enclosed (by decide)
          (.allow (.append (.append (.append (first.append semicolon) second) semicolon) third))
      rw [Stmt.steps_loop]
      refine .framed ?_
      simpa only [List.append_assoc] using head.append last
  | whileLoop test body span =>
      rw [Stmt.steps]
      exact .append (.enclosed (by decide) (exprs List.mem_cons_self).allow)
        (stmts (by simp [Stmt.fragments]))
  | doWhile body test span =>
      rw [Stmt.steps]
      exact .append_enclosed (.append (.plain (by decide)) (stmts (by simp [Stmt.fragments])))
        (by decide) (exprs List.mem_cons_self).allow
  | exitLoop span =>
      rw [Stmt.steps]
      exact .plain (by decide)
  | nextLoop span =>
      rw [Stmt.steps]
      exact .plain (by decide)
  | ret arg span =>
      cases arg with
      | none =>
          rw [Stmt.steps]
          exact .plain (by decide)
      | some arg =>
          rw [Stmt.steps]
          exact .append (.append (.plain (by decide)) (exprs List.mem_cons_self))
            (.plain (by decide))
  | throw arg span =>
      rw [Stmt.steps]
      exact .append (.append (.plain (by decide)) (exprs List.mem_cons_self)) (.plain (by decide))
  | expr arg span =>
      rw [Stmt.steps]
      exact .append (exprs List.mem_cons_self) (.plain (by decide))
  | empty span =>
      rw [Stmt.steps]
      exact .plain (by decide)
  | unsupported kind span =>
      rw [Stmt.steps]
      exact .reject _

theorem guards_declarator (sound : style.Sound) {inner : Declarator}
    (plain : (Fragment.declarator inner).Plain)
    (inside : ∀ child ∈ (Fragment.declarator inner).children, ∀ part, child.Drafted part →
      Guards style false part) (kind : DeclKind) (place : Span) :
    Guards style false (declSteps kind place [inner]) := by
  cases inner with
  | mk name init span =>
      have word : Guards style false [.text (kind.word ++ " ")] := .plain (by cases kind <;> decide)
      have head := word.append (.declare sound (plain.names name List.mem_cons_self))
      cases init with
      | none =>
          rw [declSteps]
          exact head
      | some init =>
          rw [declSteps]
          exact (head.append (.plain (by decide))).append
            (inside _ List.mem_cons_self _ (.expr init))

theorem guards_property {inner : Property} (plain : (Fragment.property inner).Plain)
    (inside : ∀ child ∈ (Fragment.property inner).children, ∀ part, child.Drafted part →
      Guards style false part) : Guards style false inner.steps := by
  cases inner with
  | named key value shorthand =>
      have last : Guards style false value.steps := inside _ List.mem_cons_self _ (.expr value)
      rw [Property.steps]
      refine .append (.append ?_ (.plain (by decide))) last
      cases key with
      | ident name =>
          exact .text (.of_plain (plain.names name List.mem_cons_self))
      | string value => exact guards_string value
      | number value => exact guards_numeral value
  | computed key value shorthand =>
      have first : Guards style false key.steps := inside _ List.mem_cons_self _ (.expr key)
      have last : Guards style false value.steps := inside _ (by simp [children]) _ (.expr value)
      rw [Property.steps]
      exact .append (.enclosed (by decide) first.allow) last

theorem guards_of_written (sound : style.Sound) {fragment : Fragment} (plain : fragment.Plain)
    (inside : ∀ child ∈ fragment.written, ∀ part, child.Drafted part → Guards style false part)
    {steps : List Step} (drafted : fragment.Drafted steps) : Guards style false steps := by
  cases drafted with
  | program whole =>
      rw [Program.steps]
      refine .append (.hoist _) ?_
      have each : ∀ stmt ∈ whole.body, Guards style false stmt.steps := fun stmt member =>
        inside _ (List.mem_map_of_mem member) _ (.stmt stmt)
      generalize whole.body = body at each
      clear inside
      induction body with
      | nil => exact .nil
      | cons first rest ih =>
          rw [List.flatMap_cons]
          exact .append (.append (each first List.mem_cons_self) (.newline sound))
            (ih fun stmt member => each stmt (List.mem_cons_of_mem _ member))
  | stmt inner => exact guards_stmt sound plain inside
  | expr inner => exact guards_expr sound plain inside
  | group kind span decls =>
      cases decls with
      | nil =>
          rw [declSteps]
          exact .reject _
      | cons first rest =>
          have only := inside _ List.mem_cons_self _ (.declarator kind span first)
          cases first with
          | mk name init place => cases init <;> exact only
  | declarator kind span inner => exact guards_declarator sound plain inside kind span
  | property inner => exact guards_property plain inside

/-- Whatever is written for a fragment is guarded, if what is written in it is plain. -/
theorem guards (sound : style.Sound) {fragment : Fragment}
    (plain : ∀ below, fragment.Writes below → below.Plain) {steps : List Step}
    (drafted : fragment.Drafted steps) : Guards style false steps := by
  refine guards_of_written sound (plain fragment .refl) ?_ drafted
  intro child below part drafted
  have smaller := sizeOf_lt_of_mem_children (mem_children_of_written below)
  exact guards sound (fun other writes => plain other (.head below writes)) drafted
termination_by sizeOf fragment

end Fragment

end Freshen
