/-! Texts. A text is the list of its characters, so every length and every position of the library counts
    characters and never bytes. Numbers enter a text in decimal, code points in hexadecimal. -/

namespace Munch

/-- A sequence of Unicode characters. -/
abbrev Text := List Char

namespace Text

/-- The digits of `n` in base ten, the most significant one first. -/
def decimal (n : Nat) : Text := Nat.toDigits 10 n

/-- The digits of `n` in base sixteen, in lower case and without leading zeros. -/
def hexadecimal (n : Nat) : Text := Nat.toDigits 16 n

/-- The text that `bytes` encodes, or `none` when they are not valid UTF-8. -/
def ofUtf8? (bytes : ByteArray) : Option Text := (String.fromUTF8? bytes).map String.toList

/-- The lines of `ls`, each one ended by a newline. -/
def unlines (ls : List Text) : Text := ls.flatMap (· ++ ['\n'])

end Text

end Munch
