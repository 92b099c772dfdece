import Munch.Unicode.ExtendingMark
import Munch.Unicode.NonPrintable
import Munch.Text.Basic

/-! Quoting: how a text is shown between quotes so that it stays on one line, shows no invisible character, and
    can be read back. Controls with a letter of their own and the backslash are written with a backslash, all
    other characters that cannot be shown as `\u` and their code point in braces. The two styles differ in which
    quotes they protect and in how far they trust a mark that merges with the character before it. -/

namespace Munch

/-- The two classes of characters on which quoting depends: those that cannot be shown, and marks that merge with
    the character before them. -/
structure CharClasses where
  nonPrintable : Char → Bool
  extendingMark : Char → Bool

/-- The classes of the Unicode character database. -/
def CharClasses.unicode : CharClasses := ⟨Unicode.isNonPrintable, Unicode.isExtendingMark⟩

/-- What a style of quoting escapes beyond the controls, the backslash and the double quote: single quotes, and
    extending marks after the first character of the text. -/
structure Quoting where
  singleQuotes : Bool
  laterMarks : Bool
deriving DecidableEq, Repr

namespace Quoting

/-- The style of a whole value that stands between double quotes. -/
def value : Quoting := ⟨false, true⟩

/-- The style of a piece of source text inside a sentence. -/
def fragment : Quoting := ⟨true, false⟩

/-- A character as its code point in hexadecimal. -/
def codePoint (c : Char) : Text := ['\\', 'u', '\x7b'] ++ Text.hexadecimal c.toNat ++ ['\x7d']

/-- One character as it is written, the first one of its text or a later one. -/
def escapeChar (cls : CharClasses) (q : Quoting) (isFirst : Bool) (c : Char) : Text :=
  if c = '\x00' then ['\\', '0']
  else if c = '\t' then ['\\', 't']
  else if c = '\r' then ['\\', 'r']
  else if c = '\n' then ['\\', 'n']
  else if c = '\\' then ['\\', '\\']
  else if c = '\x22' then ['\\', '\x22']
  else if c = '\x27' && q.singleQuotes then ['\\', '\x27']
  else if cls.extendingMark c && (isFirst || q.laterMarks) then codePoint c
  else if cls.nonPrintable c then codePoint c
  else [c]

/-- The characters of a text as they are written, without the quotes around them. -/
def escape (cls : CharClasses) (q : Quoting) : Text → Text
  | [] => []
  | c :: cs => q.escapeChar cls true c ++ cs.flatMap (q.escapeChar cls false)

end Quoting

/-- A value between double quotes. -/
def Text.quoted (cls : CharClasses) (w : Text) : Text := '\x22' :: Quoting.value.escape cls w ++ ['\x22']

end Munch
