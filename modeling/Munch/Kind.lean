import Munch.Text.Basic

/-! Lexical kinds, their labels, and the order in which they are tried. -/

namespace Munch

/-- What a piece of source text can be. -/
inductive Kind where
  | keyword
  | breaker
  | operator
  | literal
  | identifier
  | newline
  | comment
deriving DecidableEq, Repr

namespace Kind

/-- The label of a kind in every output. -/
def name : Kind → Text
  | keyword => "KEYWORD".toList
  | breaker => "BREAKER".toList
  | operator => "OPERATOR".toList
  | literal => "LITERAL".toList
  | identifier => "IDENTIFIER".toList
  | newline => "NEWLINE".toList
  | comment => "COMMENT".toList

/-- All kinds, in the order in which a text is tested for them: the first one that admits it is its kind. -/
def precedence : List Kind :=
  [literal, keyword, identifier, operator, breaker, newline, comment]

/-- The kind with a given label. -/
def ofName? (label : Text) : Option Kind := precedence.find? fun k => k.name == label

/-- Identifiers and keywords are words: while a word grows it may turn from one into the other and back. -/
def isWord : Kind → Bool
  | identifier | keyword => true
  | _ => false

/-- A candidate of the first kind may go on growing when the grown one is of the second: the two kinds are
    the same, or both are words. -/
def continuesAs (k l : Kind) : Bool := l == k || (k.isWord && l.isWord)

end Kind

end Munch
