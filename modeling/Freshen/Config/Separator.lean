import Freshen.Text.Quoted

/-!
Separators that keep renamed programs sound: they can stand inside an identifier, and the digits of
a number after them cannot be taken for a part of them. A separator that does not is one of the
things that can be wrong with a configuration.
-/

namespace Freshen

inductive SeparatorFault where
  | empty | forbiddenCharacter | digitAtEnd
deriving DecidableEq, Repr

def SeparatorFault.reason : SeparatorFault → String
  | empty => "must not be empty"
  | forbiddenCharacter => "only ASCII letters, digits, '_' and '$' are allowed"
  | digitAtEnd => "must not end with a digit"

def isIdentifierChar (c : Char) : Bool := c.isAlphanum || c == '_' || c == '$'

/-- What is wrong with a separator, the first fault first. -/
def separatorFault? (separator : String) : Option SeparatorFault :=
  if separator.toList = [] then some .empty
  else if !separator.toList.all isIdentifierChar then some .forbiddenCharacter
  else if separator.toList.getLast?.any Char.isDigit then some .digitAtEnd
  else none

inductive Error where
  | io (cause : String)
  | configRead (path : String)
  | configParse (path : String)
  | invalidSeparator (separator : String) (fault : SeparatorFault)
  | other (cause : String)
deriving DecidableEq, Repr

def Error.message : Error → String
  | io cause => s!"IO error: {cause}"
  | configRead path => s!"Failed to read config at {path}"
  | configParse path => s!"Failed to parse config at {path}"
  | invalidSeparator separator fault =>
    s!"Invalid separator {quoted separator}: {fault.reason}"
  | other cause => cause

end Freshen
