import Munch.Text.Basic

/-! Rule tables: the words and signs that a language reserves, the delimiters of its comments and literals, and
    the tests that a table answers about a candidate text. -/

namespace Munch

/-- The two delimiters of a comment. -/
structure CommentPair where
  opener : Text
  closer : Text
deriving DecidableEq, Repr

/-- The lexical rules of a language. Breakers are delimiters that stand for no operation. -/
structure RuleTable where
  keywords : List Text
  breakers : List Text
  operators : List Text
  commentPairs : List CommentPair
  boolValues : Text × Text
  stringBound : Char
  runeBound : Char
deriving DecidableEq, Repr

/-- A comment pair encloses a text that starts with its opener and ends with its closer. The two may share
    characters, so `/*/` is enclosed by `/*` and `*/`. -/
def CommentPair.encloses (p : CommentPair) (w : Text) : Bool :=
  p.opener.isPrefixOf w && p.closer.isSuffixOf w

namespace RuleTable

/-- The rules of the language itself. -/
def standard : RuleTable where
  keywords := ["pub".toList, "const".toList, "struct".toList, "enum".toList, "use".toList]
  breakers := [['('], [')'], ['\x7b'], ['\x7d'], [',']]
  operators := [[':', '='], ['='], ['+'], ['-'], ['*'], ['/']]
  commentPairs := [⟨['/', '/'], ['\n']⟩, ⟨['/', '*'], ['*', '/']⟩]
  boolValues := ("true".toList, "false".toList)
  stringBound := '\''
  runeBound := '\x60'

def isKeyword (r : RuleTable) (w : Text) : Bool := r.keywords.contains w

def isBreaker (r : RuleTable) (w : Text) : Bool := r.breakers.contains w

def isOperator (r : RuleTable) (w : Text) : Bool := r.operators.contains w

def isBool (r : RuleTable) (w : Text) : Bool := w == r.boolValues.1 || w == r.boolValues.2

def isCommentOpener (r : RuleTable) (w : Text) : Bool := r.commentPairs.any fun p => p.opener == w

def isComment (r : RuleTable) (w : Text) : Bool := r.commentPairs.any fun p => p.encloses w

end RuleTable

end Munch
