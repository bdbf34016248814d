/-! Operators of JavaScript expressions and the tokens that write them. -/

namespace Freshen

inductive UnaryOp where
  | minus | plus | not | bitNot | typeof | void | delete
deriving DecidableEq, Repr

namespace UnaryOp

def token : UnaryOp → String
  | minus => "-"
  | plus => "+"
  | not => "!"
  | bitNot => "~"
  | typeof => "typeof"
  | void => "void"
  | delete => "delete"

def all : List UnaryOp := [minus, plus, not, bitNot, typeof, void, delete]

def ofToken? (token : String) : Option UnaryOp := all.find? (·.token == token)

theorem ofToken?_token (op : UnaryOp) : ofToken? op.token = some op := by
  cases op <;> decide

end UnaryOp

inductive BinaryOp where
  | add | sub | mul | div | rem | power
  | looseEq | looseNe | strictEq | strictNe
  | lt | le | gt | ge
  | bitOr | bitXor | bitAnd
  | shiftLeft | shiftRight | shiftRightUnsigned
  | and | or | coalesce
  | isIn | instanceOf
deriving DecidableEq, Repr

namespace BinaryOp

def token : BinaryOp → String
  | add => "+"
  | sub => "-"
  | mul => "*"
  | div => "/"
  | rem => "%"
  | power => "**"
  | looseEq => "=="
  | looseNe => "!="
  | strictEq => "==="
  | strictNe => "!=="
  | lt => "<"
  | le => "<="
  | gt => ">"
  | ge => ">="
  | bitOr => "|"
  | bitXor => "^"
  | bitAnd => "&"
  | shiftLeft => "<<"
  | shiftRight => ">>"
  | shiftRightUnsigned => ">>>"
  | and => "&&"
  | or => "||"
  | coalesce => "??"
  | isIn => "in"
  | instanceOf => "instanceof"

def all : List BinaryOp :=
  [add, sub, mul, div, rem, power, looseEq, looseNe, strictEq, strictNe, lt, le, gt, ge,
    bitOr, bitXor, bitAnd, shiftLeft, shiftRight, shiftRightUnsigned, and, or, coalesce,
    isIn, instanceOf]

def ofToken? (token : String) : Option BinaryOp := all.find? (·.token == token)

theorem ofToken?_token (op : BinaryOp) : ofToken? op.token = some op := by
  cases op <;> decide

/-- Operators that may leave their right operand unevaluated. -/
def isLogical : BinaryOp → Bool
  | and | or | coalesce => true
  | _ => false

end BinaryOp

inductive AssignOp where
  | plain
  | add | sub | mul | div | rem | power
  | shiftLeft | shiftRight | shiftRightUnsigned
  | bitOr | bitXor | bitAnd
  | and | or | coalesce
deriving DecidableEq, Repr

namespace AssignOp

def token : AssignOp → String
  | plain => "="
  | add => "+="
  | sub => "-="
  | mul => "*="
  | div => "/="
  | rem => "%="
  | power => "**="
  | shiftLeft => "<<="
  | shiftRight => ">>="
  | shiftRightUnsigned => ">>>="
  | bitOr => "|="
  | bitXor => "^="
  | bitAnd => "&="
  | and => "&&="
  | or => "||="
  | coalesce => "??="

def all : List AssignOp :=
  [plain, add, sub, mul, div, rem, power, shiftLeft, shiftRight, shiftRightUnsigned,
    bitOr, bitXor, bitAnd, and, or, coalesce]

def ofToken? (token : String) : Option AssignOp := all.find? (·.token == token)

theorem ofToken?_token (op : AssignOp) : ofToken? op.token = some op := by
  cases op <;> decide

end AssignOp

inductive UpdateOp where
  | increment | decrement
deriving DecidableEq, Repr

namespace UpdateOp

def token : UpdateOp → String
  | increment => "++"
  | decrement => "--"

def all : List UpdateOp := [increment, decrement]

def ofToken? (token : String) : Option UpdateOp := all.find? (·.token == token)

theorem ofToken?_token (op : UpdateOp) : ofToken? op.token = some op := by
  cases op <;> decide

end UpdateOp

inductive DeclKind where
  | var | lexical | constant
deriving DecidableEq, Repr

namespace DeclKind

def word : DeclKind → String
  | var => "var"
  | lexical => "let"
  | constant => "const"

def all : List DeclKind := [var, lexical, constant]

def ofWord? (word : String) : Option DeclKind := all.find? (·.word == word)

theorem ofWord?_word (kind : DeclKind) : ofWord? kind.word = some kind := by
  cases kind <;> decide

end DeclKind

end Freshen
