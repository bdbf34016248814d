import Freshen.Scope.Chain

/-! Written code whose names and line starts are still open, and the style that fills them. -/

namespace Freshen

structure Style where
  /-- Stands between a declared name and its number. -/
  separator : String := "$"
  /-- One level of indentation; two spaces if nothing is chosen. -/
  indent : Option String := none
deriving DecidableEq, Repr

inductive Piece where
  | text (content : String)
  /-- The name of a binding where it is declared. -/
  | declaration (minted : Minted)
  /-- The name of a binding where it is used. -/
  | reference (minted : Minted)
  /-- A name that nothing binds. -/
  | free (name : String)
  /-- A line break, and the indentation of the next line. -/
  | newline (level : Nat)
  /-- The braces around statements. -/
  | openBrace
  | closeBrace
deriving DecidableEq, Repr

def Piece.render (style : Style) : Piece → String
  | text content => content
  | declaration minted | reference minted => minted.text style.separator
  | free name => name
  | newline level => "\n" ++ String.join (List.replicate level (style.indent.getD "  "))
  | openBrace => "\x7b"
  | closeBrace => "\x7d"

def Style.render (style : Style) (pieces : List Piece) : String :=
  String.join (pieces.map (Piece.render style))

end Freshen
