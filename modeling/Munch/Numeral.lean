import Munch.Text.Basic

/-! Numerals. They are told by the characters they are made of alone: an underscore may stand anywhere, a decimal
    fraction may hold any number of `E` and `+`, and a radix mark may be followed by no digit at all. -/

namespace Munch.Numeral

def isBinaryDigit (c : Char) : Bool := c == '0' || c == '1' || c == '_'

def isOctalDigit (c : Char) : Bool := ('0' ≤ c && c ≤ '7') || c == '_'

def isDecimalDigit (c : Char) : Bool := c.isDigit || c == '_'

def isHexadecimalDigit (c : Char) : Bool :=
  c.isDigit || ('a' ≤ c && c ≤ 'f') || ('A' ≤ c && c ≤ 'F') || c == '_'

def isFractionChar (c : Char) : Bool := isDecimalDigit c || c == '.' || c == 'E' || c == '+'

/-- An integer is a nonempty run of digits and underscores. -/
def isInteger (w : Text) : Bool := !w.isEmpty && w.all isDecimalDigit

/-- A fraction is made of digits, underscores, `E`, `+` and exactly one point. -/
def isFraction (w : Text) : Bool := w.all isFractionChar && w.count '.' == 1

/-- A zero, the mark of the radix, and any number of its digits. -/
def isRadix (mark : Char) (isDigit : Char → Bool) : Text → Bool
  | '0' :: m :: digits => m == mark && digits.all isDigit
  | _ => false

end Numeral

/-- Whether a text is a numeral of any form. -/
def isNumeral (w : Text) : Bool :=
  Numeral.isInteger w || Numeral.isFraction w || Numeral.isRadix 'b' Numeral.isBinaryDigit w
    || Numeral.isRadix 'o' Numeral.isOctalDigit w || Numeral.isRadix 'x' Numeral.isHexadecimalDigit w

end Munch
