import Freshen.Proofs.NameReading
import Freshen.Proofs.StringLiterals
import Freshen.Proofs.WrittenParts

/-!
How the text of an expression begins. Most expressions are written in brackets, and what stands in
front of a member access or a call begins like the expression that is accessed or called. What is
left are literals, names, the word `new`, and unary operators.
-/

namespace Freshen

def Spells (separator name : String) (text : List Char) : Prop :=
  text = name.toList ∨ Numbered separator name text

def isBreak (c : Char) : Bool := c == '.' || c == '[' || c == '(' || c == ' '

def Breaks (rest : List Char) : Prop := ∀ c ∈ rest.head?, isBreak c = true

def isSymbol (c : Char) : Bool := c == '(' || c == '[' || c == '"' || c == '/'

/-- The ways in which the text of an expression may begin, unary operators and numerals apart. -/
inductive Opening (separator : String) (named : String → Prop) : List Char → Prop
  | symbol {c : Char} (rest : List Char) : isSymbol c = true → Opening separator named (c :: rest)
  | word {word : String} {rest : List Char} : word ∈ ["null", "true", "false", "new"] →
    Breaks rest → Opening separator named (word.toList ++ rest)
  | name {name : String} {front rest : List Char} : named name → Spells separator name front →
    Breaks rest → Opening separator named (front ++ rest)

namespace Step

def Parted (steps : List Step) : Prop :=
  steps = [] ∨ ∃ content rest, steps = .text content :: rest ∧
    content.toList.head?.any isBreak = true

/-- The ways in which the steps of an expression may begin, unary operators and numerals apart. -/
inductive Leads (named : String → Prop) : List Step → Prop
  | symbol {content : String} (rest : List Step) : content.toList.head?.any isSymbol = true →
    Leads named (.text content :: rest)
  | word {word : String} {rest : List Step} : word ∈ ["null", "true", "false"] → Parted rest →
    Leads named (.text word :: rest)
  | new (rest : List Step) : Leads named (.text "new " :: rest)
  | refer {name : String} {rest : List Step} : named name → Parted rest →
    Leads named (.refer name :: rest)
  | reject (cause : Unsupported) (rest : List Step) : Leads named (.reject cause :: rest)

def Starts (style : Style) (named : String → Prop) (steps : List Step) : Prop :=
  ∀ pieces, YieldsAll steps pieces → Opening style.separator named (style.render pieces).toList

variable {style : Style} {named : String → Prop} {steps : List Step}

theorem toList_render_cons (piece : Piece) (pieces : List Piece) :
    (style.render (piece :: pieces)).toList =
      (piece.render style).toList ++ (style.render pieces).toList := by
  rw [← List.singleton_append, Style.render_append, Style.render_singleton, String.toList_append]

theorem breaks_text {content : String} (ends : content.toList.head?.any isBreak = true)
    (pieces : List Piece) : Breaks (style.render (.text content :: pieces)).toList := by
  rw [toList_render_cons, Piece.render]
  cases word : content.toList with
  | nil =>
      rw [word] at ends
      cases ends
  | cons c tail =>
      rw [word] at ends
      intro first same
      cases same
      exact ends

theorem Parted.breaks {pieces : List Piece} (parted : Parted steps)
    (yields : YieldsAll steps pieces) : Breaks (style.render pieces).toList := by
  rcases parted with rfl | ⟨content, rest, rfl, ends⟩
  · rw [yieldsAll_nil.mp yields]
    exact fun c first => nomatch first
  · obtain ⟨front, back, written, _, rfl⟩ := yieldsAll_cons.mp yields
    rw [Yields] at written
    rw [written]
    exact breaks_text ends back

namespace Leads

theorem parenthesized (steps : List Step) : Leads named (Freshen.parenthesized steps) :=
  .symbol _ (by decide)

theorem append_text (leads : Leads named steps) {content : String}
    (ends : content.toList.head?.any isBreak = true) (rest : List Step) :
    Leads named (steps ++ .text content :: rest) := by
  have parted {more : List Step} (first : Parted more) :
      Parted (more ++ .text content :: rest) := by
    rcases first with rfl | ⟨front, back, rfl, first⟩
    · exact .inr ⟨content, rest, rfl, ends⟩
    · exact .inr ⟨front, _, rfl, first⟩
  cases leads with
  | symbol _ bracket => exact .symbol _ bracket
  | word listed first => exact .word listed (parted first)
  | new => exact .new _
  | refer holds first => exact .refer holds (parted first)
  | reject cause => exact .reject cause _

theorem starts (leads : Leads named steps) : Starts style named steps := by
  intro pieces yields
  cases leads with
  | @symbol content rest bracket =>
      obtain ⟨front, back, written, _, rfl⟩ := yieldsAll_cons.mp yields
      rw [Yields] at written
      rw [written, List.singleton_append, toList_render_cons, Piece.render]
      cases text : content.toList with
      | nil =>
          rw [text] at bracket
          cases bracket
      | cons c tail =>
          rw [text] at bracket
          exact .symbol _ bracket
  | word listed parted =>
      obtain ⟨front, back, written, behind, rfl⟩ := yieldsAll_cons.mp yields
      rw [Yields] at written
      rw [written, List.singleton_append, toList_render_cons]
      exact .word (List.mem_append_left ["new"] listed) (parted.breaks behind)
  | new rest =>
      obtain ⟨front, back, written, _, rfl⟩ := yieldsAll_cons.mp yields
      rw [Yields] at written
      rw [written, List.singleton_append, toList_render_cons, Piece.render]
      have breaks : Breaks (' ' :: (style.render back).toList) := by simp [Breaks, isBreak]
      have begins : Opening style.separator named
          ("new".toList ++ ' ' :: (style.render back).toList) := .word (by simp) breaks
      simpa using begins
  | refer holds parted =>
      obtain ⟨front, back, written, behind, rfl⟩ := yieldsAll_cons.mp yields
      rw [Yields] at written
      rcases written with rfl | ⟨number, rfl⟩
      · rw [List.singleton_append, toList_render_cons]
        exact .name holds (.inl rfl) (parted.breaks behind)
      · rw [List.singleton_append, toList_render_cons]
        exact .name holds (.inr ⟨number, rfl⟩) (parted.breaks behind)
  | reject cause rest =>
      obtain ⟨_, _, written, _, _⟩ := yieldsAll_cons.mp yields
      rw [Yields] at written
      exact written.elim

end Leads

theorem Starts.parenthesized (steps : List Step) :
    Starts style named (Freshen.parenthesized steps) :=
  (Leads.parenthesized steps).starts

end Step

namespace Expr

open Step

def isNumber : Expr → Bool
  | number .. => true
  | _ => false

variable {style : Style} {named : String → Prop}

/-- The steps of an expression that is neither unary nor a number begin with a bracket, a quote, a
slash, a word or a name. Those of what is accessed or called decide, unless it is in parentheses. -/
theorem leads (expr : Expr)
    (names : ∀ name span, (Fragment.expr expr).Writes (.expr (.ident name span)) → named name)
    (unary : expr.isUnary = false) (number : expr.isNumber = false) : Leads named expr.steps := by
  have operand (receiver : Expr) (below : .expr receiver ∈ (Fragment.expr expr).written) :
      Leads named (receiver.asOperand receiver.steps) := by
    have smaller : sizeOf receiver < sizeOf expr := by
      simpa using Fragment.sizeOf_lt_of_mem_children (Fragment.mem_children_of_written below)
    rw [asOperand]
    split
    · rename_i delimited
      apply receiver.leads
      · exact fun name span writes => names name span (.head below writes)
      · cases receiver <;> first | rfl | cases delimited
      · cases receiver <;> first | rfl | cases delimited
    · exact .parenthesized _
  cases expr with
  | null span =>
      rw [steps]
      exact .word (by simp) (.inl rfl)
  | bool value span =>
      rw [steps]
      cases value <;> exact .word (by simp) (.inl rfl)
  | number => cases number
  | string value span =>
      rw [steps]
      exact .symbol [] (by rw [toList_stringLiteral]; rfl)
  | regex pattern flags span =>
      rw [steps]
      exact .symbol [] (by simp [isSymbol])
  | ident name span =>
      rw [steps]
      exact .refer (names name span .refl) (.inl rfl)
  | array elements span =>
      rw [steps, List.append_assoc]
      exact .symbol _ (by decide)
  | object properties span =>
      rw [steps, List.append_assoc]
      exact .symbol _ (by decide)
  | function | arrow | arrowBlock | binary | assign | update
  | conditional | sequence =>
      rw [steps]
      exact .parenthesized _
  | unary => cases unary
  | member receiver name span =>
      rw [steps]
      exact (operand receiver List.mem_cons_self).append_text (by simp [isBreak]) []
  | index receiver property span =>
      rw [steps, List.append_assoc, List.append_assoc]
      exact (operand receiver List.mem_cons_self).append_text (by decide) _
  | call callee args span =>
      rw [steps, parenthesized, List.append_assoc]
      exact (operand callee List.mem_cons_self).append_text (by decide) _
  | new callee args span =>
      rw [steps, List.append_assoc]
      exact .new _
  | unsupported kind span =>
      rw [steps]
      exact .reject _ []
termination_by sizeOf expr

theorem opening (expr : Expr)
    (names : ∀ name span, (Fragment.expr expr).Writes (.expr (.ident name span)) → named name)
    (unary : expr.isUnary = false) (number : expr.isNumber = false) :
    Starts style named expr.steps :=
  (expr.leads names unary number).starts

end Expr

end Freshen
