import Munch.Kind
import Munch.Numeral
import Munch.RuleTable.Basic

/-! The kind of a candidate text. Each kind has a test of its own; several may hold of one text, and the first
    kind of `Kind.precedence` whose test holds is the kind of the text. -/

namespace Munch

/-- A text between two equal bounds. It is open when the character before its last bound is a backslash, whatever
    stands before that one. -/
def isBounded (bound : Char) : Text → Bool
  | [] => false
  | c :: cs => c == bound && cs.getLast? == some bound && cs.dropLast.getLast? != some '\\'

/-- An identifier is a nonempty run of ASCII letters, ASCII digits and underscores. -/
def isIdentifier (w : Text) : Bool := !w.isEmpty && w.all fun c => c == '_' || c.isAlphanum

namespace RuleTable

/-- A literal is a string, a rune, a truth value or a numeral. -/
def isLiteral (r : RuleTable) (w : Text) : Bool :=
  isBounded r.stringBound w || isBounded r.runeBound w || r.isBool w || isNumeral w

/-- The test for one kind, without regard to the others. -/
def admits (r : RuleTable) : Kind → Text → Bool
  | .keyword, w => r.isKeyword w
  | .breaker, w => r.isBreaker w
  | .operator, w => r.isOperator w
  | .literal, w => r.isLiteral w
  | .identifier, w => isIdentifier w
  | .newline, w => w == ['\n']
  | .comment, w => r.isComment w

/-- The kind of a text, or `none` when no test holds of it. -/
def classify (r : RuleTable) (w : Text) : Option Kind := Kind.precedence.find? fun k => r.admits k w

end RuleTable

end Munch
