import Freshen.Config.Separator
import Freshen.Proofs.LiteralReading
import Freshen.Proofs.NumeralReading
import Freshen.Tree.Basic
import Mathlib.Data.List.DropRight
import Mathlib.Data.List.Infix

/-!
A reader of written code. It takes characters from the front, as deep as it is asked to, and leaves
every span and shorthand flag empty. Names are read without the numbers that a renaming gave them.
-/

namespace Freshen

/-- Words that code uses itself in places where a name may stand. -/
inductive Keyword where
  | null | bool (value : Bool) | new | unary (op : UnaryOp)
  | function | group (kind : DeclKind)
  | cond | loop | whileLoop | doWhile | exitLoop | nextLoop | ret | throw
deriving DecidableEq, Repr

namespace Keyword

def word : Keyword → String
  | null => "null"
  | bool value => if value then "true" else "false"
  | new => "new"
  | unary op => op.token
  | function => "function"
  | group kind => kind.word
  | cond => "if"
  | loop => "for"
  | whileLoop => "while"
  | doWhile => "do"
  | exitLoop => "break"
  | nextLoop => "continue"
  | ret => "return"
  | throw => "throw"

def all : List Keyword :=
  [null, bool true, bool false, new, unary .typeof, unary .void, unary .delete, function,
    group .var, group .lexical, group .constant, cond, loop, whileLoop, doWhile, exitLoop, nextLoop,
    ret, throw]

def ofWord? (word : String) : Option Keyword := all.find? (·.word == word)

end Keyword

namespace Reading

abbrev Reader (α : Type) : Type := List Char → Option (α × List Char)

def skip? : List Char → List Char → Option (List Char)
  | [], text => some text
  | _ :: _, [] => none
  | c :: token, d :: text => if c = d then skip? token text else none

def word (text : List Char) : List Char := text.takeWhile isIdentifierChar

def afterWord (text : List Char) : List Char := text.dropWhile isIdentifierChar

def keyword? (text : List Char) : Option Keyword := Keyword.ofWord? (String.ofList (word text))

/-- The declared name behind a written one, which may have the separator and a number after it. -/
def original (separator written : List Char) : List Char :=
  if separator <:+: written then
    let marked := written.rdropWhile Char.isDigit
    marked.take (marked.length - separator.length)
  else written

def name? (separator : String) (text : List Char) : Option (String × List Char) :=
  if word text = [] then none
  else some (String.ofList (original separator.toList (word text)), afterWord text)

def several? {α : Type} (item : Reader α) : Nat → Reader (List α)
  | 0, _ => none
  | count + 1, text => do
    let (first, rest) ← item text
    match rest with
    | ',' :: ' ' :: rest =>
      let (others, rest) ← several? item count rest
      return (first :: others, rest)
    | rest => return ([first], rest)

def enclosed? {α : Type} (closer : Char) (items : Reader (List α)) (text : List Char) :
    Option (List α × List Char) :=
  match skip? [closer] text with
  | some rest => some ([], rest)
  | none => do
    let (found, rest) ← items text
    let rest ← skip? [closer] rest
    return (found, rest)

/-- The inside of an array literal that is not empty. A hole at its end has a comma of its own. -/
def elements? (expr : Reader Expr) : Nat → Reader (List (Option Expr))
  | 0, _ => none
  | count + 1, text =>
    match text with
    | ',' :: ' ' :: rest => do
      let (others, rest) ← elements? expr count rest
      return (none :: others, rest)
    | ',' :: rest => some ([none], rest)
    | text => do
      let (first, rest) ← expr text
      match rest with
      | ',' :: ' ' :: rest =>
        let (others, rest) ← elements? expr count rest
        return (some first :: others, rest)
      | rest => return ([some first], rest)

def lines? (stmt : Reader Stmt) : Nat → Reader (List Stmt)
  | 0, _ => none
  | count + 1, text => do
    let (first, rest) ← stmt text
    let rest ← skip? ['\n'] rest
    match rest.dropWhile (· == ' ') with
    | '\x7d' :: rest => return ([first], rest)
    | rest =>
      let (others, rest) ← lines? stmt count rest
      return (first :: others, rest)

/-- How many items a list may have, and the readers of what may stand inside an expression or a
statement. -/
structure Readers where
  count : Nat
  expr : Reader Expr
  stmt : Reader Stmt

def Readers.exprs (inside : Readers) : Reader (List Expr) := several? inside.expr inside.count

def params? (separator : String) (count : Nat) (text : List Char) :
    Option (List Param × List Char) :=
  (enclosed? ')' (several? (name? separator) count) text).map fun (names, rest) =>
    (names.map (⟨·, {}⟩), rest)

def args? (inside : Readers) : Reader (List Expr) := enclosed? ')' inside.exprs

def body? (inside : Readers) (text : List Char) : Option (List Stmt × List Char) :=
  match text with
  | '\x7b' :: '\x7d' :: rest => some ([], rest)
  | '\x7b' :: '\n' :: rest => lines? inside.stmt inside.count (rest.dropWhile (· == ' '))
  | _ => none

def operand? (expr : Reader Expr) (op : UnaryOp) (text : List Char) :
    Option (Expr × List Char) := do
  let rest ← skip? ['('] text
  let (arg, rest) ← expr rest
  let rest ← skip? [')'] rest
  return (.unary op arg {}, rest)

def callee? (separator : String) (expr : Reader Expr) (text : List Char) :
    Option (Expr × List Char) :=
  match text with
  | '(' :: rest => do
    let (callee, rest) ← expr rest
    let rest ← skip? [')'] rest
    return (callee, rest)
  | rest => (name? separator rest).map fun (name, rest) => (.ident name {}, rest)

def construction? (separator : String) (inside : Readers) (text : List Char) :
    Option (Expr × List Char) := do
  let rest ← skip? [' '] text
  let (callee, rest) ← callee? separator inside.expr rest
  let rest ← skip? ['('] rest
  let (args, rest) ← args? inside rest
  return (.new callee args {}, rest)

def propertyName? (text : List Char) : Option (PropertyName × List Char) :=
  match word text with
  | [] => do
    let rest ← skip? ['"'] text
    let (content, rest) ← quoted? rest
    return (.string (String.ofList content), rest)
  | c :: _ =>
    if c.isDigit then do
      let (value, rest) ← Double.read? text
      return (.number value, rest)
    else some (.ident (String.ofList (word text)), afterWord text)

def property? (expr : Reader Expr) (text : List Char) : Option (Property × List Char) :=
  match text with
  | '[' :: rest => do
    let (key, rest) ← expr rest
    let rest ← skip? "]: ".toList rest
    let (value, rest) ← expr rest
    return (.computed key value false, rest)
  | text => do
    let (name, rest) ← propertyName? text
    let rest ← skip? ": ".toList rest
    let (value, rest) ← expr rest
    return (.named name value false, rest)

def functionHead? (separator : String) (count : Nat) (text : List Char) :
    Option (Option String × List Param × List Char) := do
  let (name, rest) ← match text with
    | ' ' :: rest => (name? separator rest).map fun (name, rest) => (some name, rest)
    | rest => some (none, rest)
  let rest ← skip? ['('] rest
  let (params, rest) ← params? separator count rest
  let rest ← skip? [' '] rest
  return (name, params, rest)

/-- The body of a function expression. One that starts on the line of its brace is the result of an
arrow. -/
def functionBody? (inside : Readers) (name : Option String) (params : List Param)
    (text : List Char) : Option (Expr × List Char) :=
  match text with
  | '\x7b' :: ' ' :: rest => do
    let rest ← skip? "return ".toList rest
    let (result, rest) ← inside.expr rest
    let rest ← skip? "; \x7d".toList rest
    return (.arrow params result {} {}, rest)
  | text => (body? inside text).map fun (body, rest) => (.function name params body {} {}, rest)

def function? (separator : String) (inside : Readers) (text : List Char) :
    Option (Expr × List Char) := do
  let (name, params, rest) ← functionHead? separator inside.count text
  let (function, rest) ← functionBody? inside name params rest
  let rest ← skip? [')'] rest
  return (function, rest)

def operatorMeaning (token : String) (first second : Expr) : Option Expr :=
  match BinaryOp.ofToken? token, AssignOp.ofToken? token with
  | some op, _ => some (.binary op first second {})
  | none, some op => some (.assign op first second {})
  | none, none => none

def operation? (inside : Readers) (first : Expr) (text : List Char) :
    Option (Expr × List Char) :=
  match text with
  | ')' :: rest => some (first, rest)
  | '+' :: '+' :: ')' :: rest => some (.update .increment false first {}, rest)
  | '-' :: '-' :: ')' :: rest => some (.update .decrement false first {}, rest)
  | ',' :: ' ' :: rest => do
    let (others, rest) ← inside.exprs rest
    let rest ← skip? [')'] rest
    return (.sequence (first :: others) {}, rest)
  | ' ' :: '?' :: ' ' :: rest => do
    let (consequent, rest) ← inside.expr rest
    let rest ← skip? " : ".toList rest
    let (alternate, rest) ← inside.expr rest
    let rest ← skip? [')'] rest
    return (.conditional first consequent alternate {}, rest)
  | ' ' :: rest => do
    let token := String.ofList (rest.takeWhile (· != ' '))
    let rest ← skip? [' '] (rest.dropWhile (· != ' '))
    let (second, rest) ← inside.expr rest
    let rest ← skip? [')'] rest
    let result ← operatorMeaning token first second
    return (result, rest)
  | _ => none

def update? (expr : Reader Expr) (op : UpdateOp) (text : List Char) :
    Option (Expr × List Char) := do
  let (arg, rest) ← expr text
  let rest ← skip? [')'] rest
  return (.update op true arg {}, rest)

def object? (inside : Readers) (text : List Char) : Option (Expr × List Char) := do
  let (properties, rest) ← enclosed? '\x7d' (several? (property? inside.expr) inside.count) text
  let rest ← skip? [')'] rest
  return (.object properties {}, rest)

def array? (inside : Readers) (text : List Char) : Option (Expr × List Char) :=
  (enclosed? ']' (elements? inside.expr inside.count) text).map fun (elements, rest) =>
    (.array elements {}, rest)

def regex? (text : List Char) : Option (Expr × List Char) := do
  let pattern := text.takeWhile (· != '/')
  let rest ← skip? ['/'] (text.dropWhile (· != '/'))
  return (.regex (String.ofList pattern) (String.ofList (word rest)) {}, afterWord rest)

def declarator? (separator : String) (expr : Reader Expr) (text : List Char) :
    Option (Declarator × List Char) := do
  let rest ← skip? [' '] text
  let (name, rest) ← name? separator rest
  match skip? " = ".toList rest with
  | some rest =>
    let (init, rest) ← expr rest
    return (.mk name (some init) {}, rest)
  | none => return (.mk name none {}, rest)

def loopInit? (separator : String) (expr : Reader Expr) (text : List Char) :
    Option (LoopInit × List Char) :=
  match text with
  | ';' :: _ => some (.absent, text)
  | text =>
    match keyword? text with
    | some (.group kind) => do
      let (decl, rest) ← declarator? separator expr (afterWord text)
      return (.decl kind [decl], rest)
    | _ => do
      let (value, rest) ← expr text
      return (.expr value, rest)

def optional? (expr : Reader Expr) (text : List Char) : Option (Option Expr × List Char) :=
  match text with
  | ' ' :: rest => do
    let (value, rest) ← expr rest
    return (some value, rest)
  | rest => some (none, rest)

def group? (separator : String) (inside : Readers) (text : List Char) :
    Option (Expr × List Char) :=
  match text with
  | '\x7b' :: rest => object? inside rest
  | '+' :: '+' :: rest => update? inside.expr .increment rest
  | '-' :: '-' :: rest => update? inside.expr .decrement rest
  | text =>
    match keyword? text with
    | some .function => function? separator inside (afterWord text)
    | _ => do
      let (first, rest) ← inside.expr text
      operation? inside first rest

def symbol? (separator : String) (inside : Readers) (text : List Char) :
    Option (Expr × List Char) :=
  match text with
  | '(' :: rest => group? separator inside rest
  | '[' :: rest => array? inside rest
  | '"' :: rest => (quoted? rest).map fun (content, rest) =>
    (.string (String.ofList content) {}, rest)
  | '/' :: rest => regex? rest
  | '-' :: rest => operand? inside.expr .minus rest
  | '+' :: rest => operand? inside.expr .plus rest
  | '!' :: rest => operand? inside.expr .not rest
  | '~' :: rest => operand? inside.expr .bitNot rest
  | _ => none

def worded? (separator : String) (inside : Readers) (text : List Char) :
    Option (Expr × List Char) :=
  match keyword? text with
  | none => (name? separator text).map fun (name, rest) => (.ident name {}, rest)
  | some .null => some (.null {}, afterWord text)
  | some (.bool value) => some (.bool value {}, afterWord text)
  | some (.unary op) => operand? inside.expr op (afterWord text)
  | some .new => construction? separator inside (afterWord text)
  | _ => none

def primary? (separator : String) (inside : Readers) (text : List Char) :
    Option (Expr × List Char) :=
  match word text with
  | [] => symbol? separator inside text
  | c :: _ =>
    if c.isDigit then (Double.read? text).map fun (value, rest) => (.number value {}, rest)
    else worded? separator inside text

/-- Property reads and calls after an expression, at most so many. -/
def tails? (inside : Readers) : Nat → Expr → Reader Expr
  | 0, _, _ => none
  | count + 1, object, text =>
    match text with
    | '.' :: rest =>
      tails? inside count (.member object (String.ofList (word rest)) {}) (afterWord rest)
    | '[' :: rest => do
      let (property, rest) ← inside.expr rest
      let rest ← skip? [']'] rest
      tails? inside count (.index object property {}) rest
    | '(' :: rest => do
      let (args, rest) ← args? inside rest
      tails? inside count (.call object args {}) rest
    | rest => some (object, rest)

def expr? (separator : String) (inside : Readers) (text : List Char) :
    Option (Expr × List Char) :=
  (primary? separator inside text).bind fun (first, rest) => tails? inside inside.count first rest

def opened? (separator : String) (inside : Readers) : Keyword → Option (Reader Stmt)
  | .group kind => some fun text => do
    let (decl, rest) ← declarator? separator inside.expr text
    let rest ← skip? [';'] rest
    return (.var kind [decl] {}, rest)
  | .function => some fun text => do
    let (name, params, rest) ← functionHead? separator inside.count text
    let (body, rest) ← body? inside rest
    return (.function name params body {} {}, rest)
  | .cond => some fun text => do
    let rest ← skip? " (".toList text
    let (test, rest) ← inside.expr rest
    let rest ← skip? ") ".toList rest
    let (consequent, rest) ← inside.stmt rest
    match skip? " else ".toList rest with
    | some rest =>
      let (alternate, rest) ← inside.stmt rest
      return (.cond test consequent (some alternate) {}, rest)
    | none => return (.cond test consequent none {}, rest)
  | .loop => some fun text => do
    let rest ← skip? " (".toList text
    let (init, rest) ← loopInit? separator inside.expr rest
    let rest ← skip? [';'] rest
    let (test, rest) ← optional? inside.expr rest
    let rest ← skip? [';'] rest
    let (update, rest) ← optional? inside.expr rest
    let rest ← skip? ") ".toList rest
    let (body, rest) ← inside.stmt rest
    return (.loop init test update body {}, rest)
  | .whileLoop => some fun text => do
    let rest ← skip? " (".toList text
    let (test, rest) ← inside.expr rest
    let rest ← skip? ") ".toList rest
    let (body, rest) ← inside.stmt rest
    return (.whileLoop test body {}, rest)
  | .doWhile => some fun text => do
    let rest ← skip? [' '] text
    let (body, rest) ← inside.stmt rest
    let rest ← skip? " while (".toList rest
    let (test, rest) ← inside.expr rest
    let rest ← skip? ");".toList rest
    return (.doWhile body test {}, rest)
  | .exitLoop => some fun text => (skip? [';'] text).map (.exitLoop {}, ·)
  | .nextLoop => some fun text => (skip? [';'] text).map (.nextLoop {}, ·)
  | .ret => some fun text => do
    let (arg, rest) ← optional? inside.expr text
    let rest ← skip? [';'] rest
    return (.ret arg {}, rest)
  | .throw => some fun text => do
    let rest ← skip? [' '] text
    let (arg, rest) ← inside.expr rest
    let rest ← skip? [';'] rest
    return (.throw arg {}, rest)
  | _ => none

def stmt? (separator : String) (inside : Readers) (text : List Char) :
    Option (Stmt × List Char) :=
  match text with
  | ';' :: rest => some (.empty {}, rest)
  | '\x7b' :: _ => (body? inside text).map fun (body, rest) => (.block body {}, rest)
  | text =>
    match (keyword? text).bind (opened? separator inside) with
    | some reader => reader (afterWord text)
    | none => do
      let (value, rest) ← inside.expr text
      let rest ← skip? [';'] rest
      return (.expr value {}, rest)

/-- Readers of expressions and statements that are nested at most so deep. -/
def readers (separator : String) : Nat → Readers
  | 0 => ⟨0, fun _ => none, fun _ => none⟩
  | depth + 1 =>
    let inside := readers separator depth
    ⟨depth + 1, expr? separator inside, stmt? separator inside⟩

def program? (stmt : Reader Stmt) : Nat → List Char → Option (List Stmt)
  | 0, _ => none
  | _ + 1, [] => some []
  | count + 1, text => do
    let (first, rest) ← stmt text
    let rest ← skip? ['\n'] rest
    let others ← program? stmt count (rest.dropWhile (· == ' '))
    return first :: others

end Reading

end Freshen
