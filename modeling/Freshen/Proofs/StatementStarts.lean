import Freshen.Proofs.NumeralReading
import Freshen.Proofs.Openings

/-!
How expression statements begin. A statement that begins with a brace is a block, and one that
begins with the word `function` is a declaration. What is written for an expression begins with
neither: first comes a parenthesis or another mark, a word of the language that is not `function`,
or a name, and behind a name something that ends it.
-/

namespace Freshen

def Piece.isReference : Piece → Bool
  | reference _ | free _ => true
  | _ => false

/-- The text can be read neither as a block nor as a function declaration: if it begins with the
letters of `function`, they are the beginning of a longer word. -/
structure Unmistakable (text : List Char) : Prop where
  nonempty : text ≠ []
  noBlock : text.head? ≠ some '\x7b'
  noFunction : ∀ rest, text = "function".toList ++ rest →
    ∃ c ∈ rest.head?, isIdentifierChar c = true

namespace Unmistakable

theorem of_first {c : Char} (brace : c ≠ '\x7b') (letter : c ≠ 'f') (rest : List Char) :
    Unmistakable (c :: rest) where
  nonempty := List.cons_ne_nil c rest
  noBlock := by simpa using brace
  noFunction := by
    intro more same
    exact absurd (List.cons.inj same).1 letter

theorem symbol {text : List Char} (bracket : text.head?.any isSymbol = true) (more : List Char) :
    Unmistakable (text ++ more) := by
  cases text with
  | nil => cases bracket
  | cons c rest =>
      have among : isSymbol c = true := bracket
      simp only [isSymbol, Bool.or_eq_true, beq_iff_eq] at among
      rcases among with ((rfl | rfl) | rfl) | rfl <;> exact of_first (by decide) (by decide) _

theorem word {word : String} (listed : word ∈ ["null", "true", "false"]) (more : List Char) :
    Unmistakable (word.toList ++ more) := by
  simp only [List.mem_cons, List.not_mem_nil, or_false] at listed
  rcases listed with rfl | rfl | rfl
  · exact of_first (by decide) (by decide) _
  · exact of_first (by decide) (by decide) _
  · exact ⟨by simp, by simp, by simp⟩

theorem operator (op : UnaryOp) (more : List Char) : Unmistakable (op.token.toList ++ more) := by
  cases op <;> exact of_first (by decide) (by decide) _

theorem numeral (value : Double) (more : List Char) : Unmistakable (value.numeral ++ more) := by
  have signed {text : List Char} (unsigned : Unmistakable (text ++ more)) :
      Unmistakable ((if value.isNegative then ['-'] else []) ++ text ++ more) := by
    cases value.isNegative with
    | false => exact unsigned
    | true => exact of_first (by decide) (by decide) _
  rw [Double.numeral]
  split
  · exact of_first (by decide) (by decide) _
  · split
    · rename_i finite
      obtain ⟨_, shows, _⟩ := Double.unsignedNumeral_shows (of_decide_eq_true finite)
      obtain ⟨c, rest, written, digit⟩ := shows.opens
      apply signed
      rw [written]
      apply of_first
      · rintro rfl
        cases digit
      · rintro rfl
        cases digit
    · exact signed (of_first (by decide) (by decide) _)

theorem name {word : String} (named : isName word = true) (other : word ≠ "function")
    {rest : List Char} (stops : Stops isIdentifierChar rest) :
    Unmistakable (word.toList ++ rest) := by
  obtain ⟨letters, c, more, chars, _⟩ := opens_of_isName named
  refine ⟨by simp [chars], ?_, ?_⟩
  · intro brace
    rw [chars] at brace letters
    cases brace
    exact absurd (letters _ List.mem_cons_self) (by decide)
  · intro tail same
    by_contra ended
    -- Otherwise both texts begin with a whole word, and the words are the same.
    have ends : Stops isIdentifierChar tail := by
      intro c here
      exact Bool.eq_false_iff.mpr fun letter => ended ⟨c, here, letter⟩
    have read := congrArg (List.takeWhile isIdentifierChar) same
    rw [takeWhile_append_stop letters stops,
      takeWhile_append_stop (List.all_eq_true.mp (by decide)) ends] at read
    exact other (String.toList_inj.mp read)

theorem semicolon {text : List Char} (clear : Unmistakable text) :
    Unmistakable (text ++ [';']) := by
  refine ⟨by simp, ?_, ?_⟩
  · rw [List.head?_append_of_ne_nil _ clear.nonempty]
    exact clear.noBlock
  · intro rest same
    rcases List.append_eq_append_iff.mp same with ⟨back, word, split⟩ | ⟨front, whole, rfl⟩
    · -- The text is the word itself, or the word has a semicolon in it.
      cases back with
      | nil =>
          rw [List.append_nil] at word
          obtain ⟨c, first, _⟩ := clear.noFunction [] (by rw [List.append_nil, word])
          cases first
      | cons c back =>
          obtain ⟨rfl, _⟩ := List.cons.inj split
          have inside : ';' ∈ "function".toList := by simp [word]
          exact absurd inside (by decide)
    · obtain ⟨c, first, letter⟩ := clear.noFunction front whole
      exact ⟨c, by simp [Option.mem_def.mp first], letter⟩

end Unmistakable

namespace Step

variable {style : Style} {steps rest : List Step} {writer stop : Writer} {pieces : List Piece}

theorem emit_text_cons {content : String}
    (emitted : emit (.text content :: rest) writer = some (pieces, stop)) :
    ∃ back, pieces = .text content :: back := by
  rw [← List.singleton_append, emit_append_eq_some] at emitted
  obtain ⟨front, middle, back, first, _, rfl⟩ := emitted
  cases first
  exact ⟨back, rfl⟩

theorem emit_refer_cons {name : String}
    (emitted : emit (.refer name :: rest) writer = some (pieces, stop)) :
    ∃ piece middle back, piece.isReference = true ∧ emit rest middle = some (back, stop) ∧
      pieces = piece :: back := by
  rw [← List.singleton_append, emit_append_eq_some] at emitted
  obtain ⟨front, middle, back, first, second, rfl⟩ := emitted
  have written : ∃ piece : Piece, piece.isReference = true ∧ front = [piece] := by
    simp only [emit, runAll, run, Writer.refer] at first
    split at first
    · cases first
      exact ⟨_, rfl, rfl⟩
    · cases first
      exact ⟨_, rfl, rfl⟩
  obtain ⟨piece, reference, rfl⟩ := written
  exact ⟨piece, middle, back, reference, second, rfl⟩

/-- Whatever follows, the text in front decides. -/
theorem unmistakable_text {content : String}
    (clear : ∀ more, Unmistakable (content.toList ++ more))
    (emitted : emit (.text content :: rest) writer = some (pieces, stop)) :
    Unmistakable (style.render pieces).toList := by
  obtain ⟨back, rfl⟩ := emit_text_cons emitted
  rw [toList_render_cons]
  exact clear _

theorem Parted.stops (parted : Parted steps) (emitted : emit steps writer = some (pieces, stop)) :
    Stops isIdentifierChar (style.render pieces).toList := by
  rcases parted with rfl | ⟨content, rest, rfl, ends⟩
  · cases emitted
    exact fun c first => nomatch first
  · obtain ⟨back, rfl⟩ := emit_text_cons emitted
    intro c first
    have breaks := breaks_text ends back c first
    simp only [isBreak, Bool.or_eq_true, beq_iff_eq] at breaks
    rcases breaks with ((rfl | rfl) | rfl) | rfl <;> decide

theorem Leads.unmistakable {named : String → Prop} (leads : Leads named steps)
    (emitted : emit steps writer = some (pieces, stop))
    (names : ∀ piece ∈ pieces, piece.isReference = true →
      isName (piece.render style) = true ∧ piece.render style ≠ "function") :
    Unmistakable (style.render pieces).toList := by
  cases leads with
  | symbol rest bracket => exact unmistakable_text (Unmistakable.symbol bracket) emitted
  | word listed _ => exact unmistakable_text (Unmistakable.word listed) emitted
  | new rest =>
      refine unmistakable_text (fun more => ?_) emitted
      exact Unmistakable.of_first (by decide) (by decide) _
  | refer _ parted =>
      obtain ⟨piece, middle, back, reference, behind, rfl⟩ := emit_refer_cons emitted
      obtain ⟨word, other⟩ := names piece List.mem_cons_self reference
      rw [toList_render_cons]
      exact Unmistakable.name word other (parted.stops behind)
  | reject cause rest => cases emitted

end Step

theorem Expr.unmistakable {expr : Expr} {style : Style} {writer stop : Writer}
    {pieces : List Piece} (emitted : Step.emit expr.steps writer = some (pieces, stop))
    (names : ∀ piece ∈ pieces, piece.isReference = true →
      isName (piece.render style) = true ∧ piece.render style ≠ "function") :
    Unmistakable (style.render pieces).toList := by
  cases unary : expr.isUnary with
  | true =>
      cases expr with
      | unary op arg span =>
          rw [steps] at emitted
          exact Step.unmistakable_text (Unmistakable.operator op) emitted
      | _ => cases unary
  | false =>
      cases number : expr.isNumber with
      | true =>
          cases expr with
          | number value span =>
              rw [steps] at emitted
              refine Step.unmistakable_text (fun more => ?_) emitted
              rw [String.toList_ofList]
              exact Unmistakable.numeral value more
          | _ => cases number
      | false =>
          have leads : Step.Leads (fun _ => True) expr.steps :=
            expr.leads (fun _ _ _ => trivial) unary number
          exact leads.unmistakable emitted names

/-- Whatever the scopes are, what is written for an expression can be read neither as a block nor as
a function declaration, by itself or as a statement, if every reference in it is written as an ASCII
identifier that is not reserved. Of the reserved words, `function` alone could do harm. -/
theorem expr_statement_unmistakable (expr : Expr) (span : Span) (style : Style) (writer : Writer)
    (steps : List Step) (listed : steps ∈ [expr.steps, (Stmt.expr expr span).steps])
    (pieces : List Piece) (stop : Writer) (emitted : Step.emit steps writer = some (pieces, stop))
    (names : ∀ piece ∈ pieces, piece.isReference = true →
      isName (piece.render style) = true ∧ piece.render style ≠ "function") :
    Unmistakable (style.render pieces).toList := by
  rcases List.mem_pair.mp listed with rfl | rfl
  · exact Expr.unmistakable emitted names
  · rw [Stmt.steps, Step.emit_append_eq_some] at emitted
    obtain ⟨front, middle, back, inner, last, rfl⟩ := emitted
    rw [Step.emit_text] at last
    cases last
    have clear : Unmistakable (style.render front).toList :=
      Expr.unmistakable inner fun piece among => names piece (List.mem_append_left _ among)
    rw [Style.render_append, Style.render_singleton, String.toList_append, Piece.render]
    simpa using clear.semicolon

theorem expr_statement_unmistakable_chain :
    let expr : Expr := .call (.member (.index (.ident "functions" {}) (.object [] {}) {}) "map" {})
      [.ident "function" {}] {}
    let writer : Writer := { context := (({} : Context).declare "function").2 }
    let text := "functions[(\x7b\x7d)].map(function$0);"
    ∃ pieces stop, Step.emit (Stmt.expr expr {}).steps writer = some (pieces, stop) ∧
      (∀ piece ∈ pieces, piece.isReference = true →
        isName (piece.render {}) = true ∧ piece.render {} ≠ "function") ∧
      Style.render {} pieces = text ∧ Unmistakable text.toList := by
  intro expr writer text
  have emitted : ∃ pieces stop,
      Step.emit (Stmt.expr expr {}).steps writer = some (pieces, stop) ∧
      (∀ piece ∈ pieces, piece.isReference = true →
        isName (piece.render {}) = true ∧ piece.render {} ≠ "function") ∧
      Style.render {} pieces = text := ⟨_, _, rfl, by decide, by decide⟩
  obtain ⟨pieces, stop, emitted, names, rendered⟩ := emitted
  refine ⟨pieces, stop, emitted, names, rendered, ?_⟩
  rw [← rendered]
  exact expr_statement_unmistakable expr {} {} writer _ (by simp) pieces stop emitted names

end Freshen
