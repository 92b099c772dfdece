import Munch.Text.Basic
import Munch.Unicode.WhiteSpace

/-! Padding to a width and trimming. A text wider than the width is never cut. Widths are numbers of 16 bits. -/

namespace Munch.Text

/-- The largest width. -/
def maxWidth : Nat := UInt16.size - 1

/-- A width that is computed from a text may be too large. -/
inductive Overwide where
  | overwide
deriving DecidableEq, Repr

/-- What is reported of a width that is too large. -/
def Overwide.message : Overwide → Text
  | .overwide => "Formatting argument out of range".toList

/-- Blanks after a text up to a width. -/
def padRight (width : Nat) (w : Text) : Text := w ++ List.replicate (width - w.length) ' '

/-- Blanks before a text up to a width. -/
def padLeft (width : Nat) (w : Text) : Text := List.replicate (width - w.length) ' ' ++ w

/-- A text without the spaces at its start. No other blank is removed there. -/
def dropIndent (w : Text) : Text := w.dropWhile (· == ' ')

/-- The number of spaces at the start of a text. -/
def indent (w : Text) : Nat := (w.takeWhile (· == ' ')).length

/-- A text without the white space at its end. -/
def trimEnd (w : Text) : Text := (w.reverse.dropWhile Unicode.isWhiteSpace).reverse

end Munch.Text
