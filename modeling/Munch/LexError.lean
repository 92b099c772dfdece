import Munch.Span
import Munch.Text.Quoted

/-! Lexical errors: no rule makes a token of the text from some position to the end of the source. -/

namespace Munch

/-- The text of which no token could be made, where it stands, and the name of its file. -/
structure LexError where
  token : Text
  span : Span
  file : Text
deriving DecidableEq, Repr

namespace LexError

/-- The name under which every lexical error is reported. -/
def name : Text := "UnclassifiableToken".toList

/-- The sentence that says what is wrong. -/
def message (e : LexError) : Text := "undefined token: '".toList ++ e.token ++ ['\x27']

/-- The advice on an error whose text is quoted with the character classes `cls`. A single character needs none;
    anything else may be a literal or a comment that was left open. -/
def tipWith (cls : CharClasses) (e : LexError) : Option Text :=
  if e.token.length = 1 then none
  else some ("no lexical rule matches ".toList ++ ['\x60'] ++ Quoting.fragment.escape cls e.token ++ ['\x60']
    ++ ", is a literal or comment left unclosed?".toList)

/-- The advice on an error. -/
def tip (e : LexError) : Option Text := e.tipWith .unicode

end LexError

end Munch
