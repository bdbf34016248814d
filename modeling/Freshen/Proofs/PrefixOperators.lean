import Freshen.Proofs.NumeralReading
import Freshen.Proofs.Openings

/-!
Prefix operators where JavaScript has no place for one: in front of `**`, of a member access or a
call, behind `new`, and as a property name. Every unary operator there is put in parentheses. Only
the sign of a negative number is not, before `**` and in a property name.
-/

namespace Freshen

def signs : List Char := ['-', '+', '!', '~']

def wordOperators : List UnaryOp := [.typeof, .void, .delete]

/-- The text begins with a sign, or with an operator that is a word and the parenthesis of its
argument. -/
def opensWithPrefix (text : List Char) : Bool :=
  text.head?.any signs.contains ||
    wordOperators.any fun op => (op.token.toList ++ ['(']).isPrefixOf text

def isNameChar (c : Char) : Bool := isIdentifierChar c || 0x80 ≤ c.toNat

/-- Property names that are written without quotes. Every one of JavaScript is among them. -/
def isPropertyWord (name : String) : Bool := name != "" && name.toList.all isNameChar

/-- Identifiers: words that are not operators. Every one of JavaScript is among them. -/
def isIdentifier (name : String) : Bool :=
  isPropertyWord name && wordOperators.all fun op => name != op.token

def Fragment.isNamed : Fragment → Bool
  | expr (.ident name _) => isIdentifier name
  | property (.named (.ident name) _ _) => isPropertyWord name
  | _ => true

/-- An expression or a name in a place where no prefix operator may stand. -/
inductive Operand where
  /-- The left operand of `**`. -/
  | base (expr : Expr)
  /-- What is called, or has a property read. -/
  | receiver (expr : Expr)
  /-- What stands behind `new`. -/
  | constructed (expr : Expr)
  /-- A property name that is not computed. -/
  | key (name : PropertyName)

namespace Operand

def steps : Operand → List Step
  | base expr => expr.asLeft .power expr.steps
  | receiver expr => expr.asOperand expr.steps
  | constructed expr => expr.asConstructor expr.steps
  | key name => name.steps

def expr? : Operand → Option Expr
  | base expr | receiver expr | constructed expr => some expr
  | key _ => none

def isBareNegative : Operand → Bool
  | base (.number value _) | key (.number value) => value.isNegative && !value.isNaN
  | _ => false

end Operand

inductive Fragment.Has : Fragment → Operand → Prop
  | power (left right : Expr) (span : Span) :
      Has (.expr (.binary .power left right span)) (.base left)
  | member (object : Expr) (name : String) (span : Span) :
      Has (.expr (.member object name span)) (.receiver object)
  | index (object key : Expr) (span : Span) :
      Has (.expr (.index object key span)) (.receiver object)
  | call (callee : Expr) (args : List Expr) (span : Span) :
      Has (.expr (.call callee args span)) (.receiver callee)
  | new (callee : Expr) (args : List Expr) (span : Span) :
      Has (.expr (.new callee args span)) (.constructed callee)
  | key (name : PropertyName) (value : Expr) (shorthand : Bool) :
      Has (.property (.named name value shorthand)) (.key name)

/-! Texts that begin with no operator. -/

theorem opensWithPrefix_eq_false {text : List Char} (sign : ∀ c ∈ text.head?, c ∉ signs)
    (word : ∀ op ∈ wordOperators, ¬ op.token.toList ++ ['('] <+: text) :
    opensWithPrefix text = false := by
  rw [opensWithPrefix, Bool.or_eq_false_iff]
  constructor
  · cases first : text.head? with
    | none => rfl
    | some c => simpa using sign c first
  · rw [List.any_eq_false]
    intro op member
    rw [List.isPrefixOf_iff_prefix]
    exact word op member

theorem opensWithPrefix_cons {c : Char} (other : c ∉ ['-', '+', '!', '~', 't', 'v', 'd'])
    (rest : List Char) : opensWithPrefix (c :: rest) = false := by
  have first : ∀ op ∈ wordOperators, ∃ d ∈ ['t', 'v', 'd'], op.token.toList.head? = some d := by
    simp [wordOperators, UnaryOp.token]
  apply opensWithPrefix_eq_false
  · intro d same
    cases same
    exact fun member => other (List.mem_append_left ['t', 'v', 'd'] member)
  · intro op member begins
    obtain ⟨d, listed, same⟩ := first op member
    obtain ⟨tail, token⟩ := List.head?_eq_some_iff.mp same
    rw [token] at begins
    obtain rfl := (List.cons_prefix_cons.mp begins).1
    exact other (List.mem_append_right ['-', '+', '!', '~'] listed)

theorem isNameChar_sign (c : Char) (sign : c ∈ signs) : isNameChar c = false := by
  have apart : signs.any isNameChar = false := by decide
  exact Bool.eq_false_iff.mpr (List.any_eq_false.mp apart c sign)

theorem isNameChar_eq_false {c : Char} (breaks : isBreak c = true) : isNameChar c = false := by
  simp only [isBreak, Bool.or_eq_true, beq_iff_eq] at breaks
  rcases breaks with ((rfl | rfl) | rfl) | rfl <;> decide

theorem opensWithPrefix_word {front rest : List Char} (some : front ≠ [])
    (all : ∀ c ∈ front, isNameChar c = true) (breaks : Breaks rest)
    (other : ∀ op ∈ wordOperators, front ≠ op.token.toList) :
    opensWithPrefix (front ++ rest) = false := by
  have words : ∀ op ∈ wordOperators, op.token.toList.all isNameChar = true := by decide
  have stops : Stops isNameChar rest := fun c first => isNameChar_eq_false (breaks c first)
  apply opensWithPrefix_eq_false
  · intro c first sign
    rw [List.head?_append_of_ne_nil _ some] at first
    have named := all c (List.mem_of_mem_head? first)
    rw [isNameChar_sign c sign] at named
    cases named
  · rintro op member ⟨more, same⟩
    have read := congrArg (List.takeWhile isNameChar) same
    have ends : Stops isNameChar ('(' :: more) := Stops.cons (by decide) _
    rw [List.append_assoc, List.singleton_append,
      takeWhile_append_stop (List.all_eq_true.mp (words op member)) ends,
      takeWhile_append_stop all stops] at read
    exact other op member read.symm

theorem opensWithPrefix_property {name : String} (named : isPropertyWord name = true) :
    opensWithPrefix name.toList = false := by
  have all := List.all_eq_true.mp (Bool.and_eq_true_iff.mp named).2
  apply opensWithPrefix_eq_false
  · intro c first sign
    have named := all c (List.mem_of_mem_head? first)
    rw [isNameChar_sign c sign] at named
    cases named
  · intro op _ begins
    have parenthesis : '(' ∈ name.toList := begins.subset (by simp)
    exact nomatch all '(' parenthesis

theorem isNameChar_minted {separator name : String} (valid : separatorFault? separator = none)
    (all : ∀ c ∈ name.toList, isNameChar c = true) (number : Nat) :
    ∀ c ∈ (Minted.text separator ⟨name, number⟩).toList, isNameChar c = true := by
  have plain {c : Char} (identifier : isIdentifierChar c = true) : isNameChar c = true := by
    rw [isNameChar, identifier, Bool.true_or]
  intro c member
  rw [Minted.toList_text] at member
  simp only [List.mem_append] at member
  rcases member with (member | member) | member
  · exact all c member
  · exact plain (isIdentifierChar_of_valid valid c member)
  · exact plain (isIdentifierChar_of_isDigit (isDigit_toDigits c member))

theorem opensWithPrefix_spells {separator : String} (valid : separatorFault? separator = none)
    {name : String} (identifier : isIdentifier name = true) {front rest : List Char}
    (spells : Spells separator name front) (breaks : Breaks rest) :
    opensWithPrefix (front ++ rest) = false := by
  obtain ⟨word, other⟩ := Bool.and_eq_true_iff.mp identifier
  obtain ⟨some, all⟩ := Bool.and_eq_true_iff.mp word
  have nonempty : name.toList ≠ [] := by simpa using some
  rw [List.all_eq_true] at all other
  rcases spells with rfl | numbered
  · apply opensWithPrefix_word nonempty all breaks
    intro op member same
    have apart := other op member
    rw [String.toList_inj.mp same] at apart
    simp at apart
  · have unlisted := numbered.ofWord?
    obtain ⟨number, rfl⟩ := numbered
    apply opensWithPrefix_word ?_ (isNameChar_minted valid all number) breaks
    · intro op member same
      have listed : ∀ op ∈ wordOperators, (Keyword.ofWord? op.token).isSome = true := by decide
      have found := listed op member
      rw [same, String.ofList_toList] at unlisted
      rw [unlisted] at found
      cases found
    · rw [Minted.toList_text, List.append_assoc]
      exact List.append_ne_nil_of_left_ne_nil nonempty _

theorem opensWithPrefix_opening {separator : String} (valid : separatorFault? separator = none)
    {text : List Char} (opening : Opening separator (isIdentifier · = true) text) :
    opensWithPrefix text = false := by
  cases opening with
  | @symbol c rest bracket =>
      apply opensWithPrefix_cons
      simp only [isSymbol, Bool.or_eq_true, beq_iff_eq] at bracket
      rcases bracket with ((rfl | rfl) | rfl) | rfl <;> decide
  | @word word rest listed breaks =>
      have words : ∀ word ∈ ["null", "true", "false", "new"], isIdentifier word = true := by decide
      exact opensWithPrefix_spells valid (words word listed) (.inl rfl) breaks
  | name identifier spells breaks => exact opensWithPrefix_spells valid identifier spells breaks

theorem opensWithPrefix_numeral (value : Double) :
    opensWithPrefix value.numeral = (value.isNegative && !value.isNaN) := by
  have signed (text : List Char) (unsigned : opensWithPrefix text = false) :
      opensWithPrefix ((if value.isNegative then ['-'] else []) ++ text) = value.isNegative := by
    cases value.isNegative with
    | false => exact unsigned
    | true => rfl
  rw [Double.numeral]
  split
  · rename_i nan
    rw [nan, Bool.not_true, Bool.and_false]
    exact opensWithPrefix_property (by decide)
  · rename_i number
    rw [Bool.not_eq_true] at number
    rw [number, Bool.not_false, Bool.and_true]
    split
    · rename_i finite
      apply signed
      obtain ⟨_, shows, _⟩ := Double.unsignedNumeral_shows (of_decide_eq_true finite)
      obtain ⟨c, more, written, digit⟩ := shows.opens
      rw [written]
      refine opensWithPrefix_cons (fun listed => ?_) _
      simp only [List.mem_cons, List.not_mem_nil, or_false] at listed
      rcases listed with rfl | rfl | rfl | rfl | rfl | rfl | rfl <;> cases digit
    · exact signed _ (opensWithPrefix_property (by decide))

namespace Operand

open Step

variable {style : Style}

theorem opensWithPrefix_parenthesized (valid : separatorFault? style.separator = none)
    {steps : List Step} {pieces : List Piece} (yields : YieldsAll (parenthesized steps) pieces) :
    opensWithPrefix (style.render pieces).toList = false :=
  opensWithPrefix_opening valid (Starts.parenthesized steps pieces yields)

theorem opensWithPrefix_expr (valid : separatorFault? style.separator = none) {expr : Expr}
    (identifiers : ∀ name span, (Fragment.expr expr).Writes (.expr (.ident name span)) →
      isIdentifier name = true)
    (unary : expr.isUnary = false) (number : expr.isNumber = false) {pieces : List Piece}
    (yields : YieldsAll expr.steps pieces) :
    opensWithPrefix (style.render pieces).toList = false :=
  opensWithPrefix_opening valid (expr.opening identifiers unary number pieces yields)

/-- What is written for an operand begins with a prefix operator exactly if it is a negative number
without parentheses. -/
theorem opensWithPrefix_eq {operand : Operand} (valid : separatorFault? style.separator = none)
    (identifiers : ∀ expr ∈ operand.expr?, ∀ name span,
      (Fragment.expr expr).Writes (.expr (.ident name span)) → isIdentifier name = true)
    (words : ∀ name, operand = .key (.ident name) → isPropertyWord name = true)
    {pieces : List Piece} (yields : YieldsAll operand.steps pieces) :
    opensWithPrefix (style.render pieces).toList = operand.isBareNegative := by
  cases operand with
  | base expr =>
      rw [steps, Expr.asLeft] at yields
      split at yields
      · rename_i unary
        rw [opensWithPrefix_parenthesized valid yields]
        cases expr <;> first | rfl | cases unary.2
      · rename_i bare
        have unary : expr.isUnary = false := by simpa using bare
        cases number : expr.isNumber with
        | true =>
            cases expr with
            | number value span =>
                rw [Expr.steps, yieldsAll_singleton, Yields] at yields
                rw [yields, Style.render_singleton, Piece.render, String.toList_ofList]
                exact opensWithPrefix_numeral value
            | _ => cases number
        | false =>
            rw [opensWithPrefix_expr valid (identifiers expr rfl) unary number yields]
            cases expr <;> first | rfl | cases number
  | receiver expr =>
      rw [steps, Expr.asOperand] at yields
      split at yields
      · rename_i delimited
        refine opensWithPrefix_expr valid (identifiers expr rfl) ?_ ?_ yields
        · cases expr <;> first | rfl | cases delimited
        · cases expr <;> first | rfl | cases delimited
      · exact opensWithPrefix_parenthesized valid yields
  | constructed expr =>
      rw [steps, Expr.asConstructor] at yields
      split at yields
      · rename_i ident
        refine opensWithPrefix_expr valid (identifiers expr rfl) ?_ ?_ yields
        · cases expr <;> first | rfl | cases ident
        · cases expr <;> first | rfl | cases ident
      · exact opensWithPrefix_parenthesized valid yields
  | key name =>
      rw [steps] at yields
      cases name with
      | ident name =>
          rw [PropertyName.steps, yieldsAll_singleton, Yields] at yields
          rw [yields, Style.render_singleton]
          exact opensWithPrefix_property (words name rfl)
      | string value =>
          rw [PropertyName.steps, yieldsAll_singleton, Yields] at yields
          rw [yields, Style.render_singleton, Piece.render, toList_stringLiteral]
          exact opensWithPrefix_cons (by decide) _
      | number value =>
          rw [PropertyName.steps, yieldsAll_singleton, Yields] at yields
          rw [yields, Style.render_singleton, Piece.render, String.toList_ofList]
          exact opensWithPrefix_numeral value

theorem within {fragment : Fragment} {operand : Operand} (has : fragment.Has operand)
    {part : List Step} (drafted : fragment.Drafted part) : Within operand.steps part := by
  cases has with
  | power =>
      cases drafted
      rw [Expr.steps]
      exact (((Within.refl _).left _).left _).parenthesized
  | member | call =>
      cases drafted
      rw [Expr.steps]
      exact (Within.refl _).left _
  | index =>
      cases drafted
      rw [Expr.steps]
      exact (((Within.refl _).left _).left _).left _
  | new =>
      cases drafted
      rw [Expr.steps]
      exact ((Within.refl _).right _).left _
  | key =>
      cases drafted
      rw [Property.steps]
      exact ((Within.refl _).left _).left _

theorem mem_written {fragment : Fragment} {operand : Operand} (has : fragment.Has operand)
    {expr : Expr} (inside : expr ∈ operand.expr?) : .expr expr ∈ fragment.written := by
  cases has <;> cases inside <;> exact List.mem_cons_self

end Operand

/-- Where no prefix operator may stand, what is written begins with one exactly if it is a negative
number before `**` or as a property name. -/
theorem prefix_only_of_negative (program : Program) (style : Style)
    (valid : separatorFault? style.separator = none)
    (named : ∀ below, (Fragment.program program).Writes below → below.isNamed = true)
    (fragment : Fragment) (writes : (Fragment.program program).Writes fragment)
    (operand : Operand) (has : fragment.Has operand) :
    (∀ text, program.transform style = .ok text →
        ∃ start pieces stop, program.Reaches operand.steps start ∧
          Step.emit operand.steps start = some (pieces, stop)) ∧
      ∀ start, program.Reaches operand.steps start →
        ∀ pieces stop, Step.emit operand.steps start = some (pieces, stop) →
          (opensWithPrefix (style.render pieces).toList = true ↔
            operand.isBareNegative = true) := by
  refine ⟨fun text transformed => program.emitted_of_writes transformed writes fun part drafted =>
    Operand.within has drafted, ?_⟩
  intro start reaches pieces stop emitted
  rw [Operand.opensWithPrefix_eq valid ?_ ?_ (Step.yields_of_emit reaches.orderly emitted)]
  · intro expr inside name span below
    exact named _ ((writes.tail (Operand.mem_written has inside)).trans below)
  · rintro name rfl
    cases has
    exact named _ writes

theorem Program.reaches_base (base exponent : Expr) :
    Program.Reaches ⟨[.expr (.binary .power base exponent {}) {}], {}⟩ (Operand.base base).steps
      (Writer.write {} (.text "(")) := by
  have parts : Program.steps ⟨[.expr (.binary .power base exponent {}) {}], {}⟩ =
      [.text "("] ++ ((Operand.base base).steps ++
        ([.text " ** "] ++ exponent.steps ++ [.text ")", .text ";", .newline])) := by
    have unhoisted : hoistSteps [.expr (.binary .power base exponent {}) {}] = [] := rfl
    have token : " " ++ BinaryOp.power.token ++ " " = " ** " := by decide
    simp [Program.steps, Stmt.steps, Expr.steps, parenthesized, Operand.steps, unhoisted, token]
  rw [Program.Reaches, parts]
  exact .here _ rfl

theorem prefix_only_of_negative_typeof :
    let base : Expr := .unary .typeof (.ident "x" {}) {}
    let exponent : Expr := .number ⟨0xbff0000000000000⟩ {}
    let program : Program := ⟨[.expr (.binary .power base exponent {}) {}], {}⟩
    (program.transform {}).toOption = some "((typeof(x)) ** -1);\n" ∧
      opensWithPrefix "(typeof(x))".toList = false := by
  intro base exponent program
  have leaf {fragment : Fragment} (own : fragment.isNamed = true) (last : fragment.written = []) :
      ∀ below, fragment.Writes below → below.isNamed = true :=
    Fragment.forall_writes own fun child member => by simp [last] at member
  have named : ∀ below, (Fragment.program program).Writes below → below.isNamed = true := by
    refine Fragment.forall_writes rfl fun child member => ?_
    obtain rfl := List.mem_singleton.mp member
    refine Fragment.forall_writes rfl fun child member => ?_
    obtain rfl := List.mem_singleton.mp member
    refine Fragment.forall_writes rfl fun child member => ?_
    rcases List.mem_cons.mp member with rfl | member
    · refine Fragment.forall_writes rfl fun child member => ?_
      obtain rfl := List.mem_singleton.mp member
      exact leaf (by decide) rfl
    · obtain rfl := List.mem_singleton.mp member
      exact leaf rfl rfl
  have writes : (Fragment.program program).Writes (.expr (.binary .power base exponent {})) :=
    .head List.mem_cons_self (.head List.mem_cons_self .refl)
  have begins := (prefix_only_of_negative program {} (by decide) named _ writes (.base base)
    (.power _ _ _)).2 _ (Program.reaches_base base exponent) _ _ rfl
  exact ⟨by decide +kernel, Bool.eq_false_iff.mpr fun opens => nomatch begins.mp opens⟩

/-- The sign of a negative number stands bare in front of `**`. -/
theorem negative_bare_before_power :
    let base : Expr := .number ⟨0xbff0000000000000⟩ {}
    let exponent : Expr := .number ⟨0x4000000000000000⟩ {}
    let program : Program := ⟨[.expr (.binary .power base exponent {}) {}], {}⟩
    let start : Writer := Writer.write {} (.text "(")
    (program.transform {}).toOption = some "(-1 ** 2);\n" ∧
      program.Reaches (Operand.base base).steps start ∧
      (Step.emit (Operand.base base).steps start).map (Style.render {} ·.1) = some "-1" ∧
      opensWithPrefix "-1".toList = true := by
  intro base exponent program start
  exact ⟨by decide +kernel, Program.reaches_base base exponent, by decide +kernel, by decide⟩

end Freshen
