import Munch.LexError
import Munch.Text.Layout
import Munch.Text.Line

/-! Reports of lexical errors: a header, the file, and the line of the source in which the error starts, with a
    caret below its first character. -/

namespace Munch.LexError

/-- The first line of a report: the name of the error, and the advice in parentheses if there is one. -/
def header (e : LexError) : Text :=
  "Error: ".toList ++ name ++ match e.tip with
    | none => []
    | some tip => " (".toList ++ tip ++ [')']

/-- The three lines that show a place: a margin as wide as the line number, the line without the spaces at its
    start and the white space at its end, and the caret. The caret stays in the first column when the place is
    among the spaces that are left out. -/
def excerpt (p : Place) : List Text :=
  let number := Text.decimal p.line
  let margin := Text.padLeft (number.length + 2) ['|']
  [margin,
    number ++ " | ".toList ++ (p.text.dropIndent).trimEnd,
    margin ++ ' ' :: List.replicate (p.column - p.text.indent) '-' ++ ['^']]

/-- The lines of a report. The excerpt is left out when the source ends before the error starts. -/
def reportLines (e : LexError) (source : Text) : List Text :=
  e.header :: ("-> ".toList ++ e.file) :: match Place.ofPosition? source e.span.first with
    | none => []
    | some p => excerpt p

/-- The text of a report, however far to the right its caret is. -/
def report (e : LexError) (source : Text) : Text := Text.unlines (e.reportLines source)

/-- The width to which the caret is padded: its column in the shown line, counted from one. -/
def caretWidth (p : Place) : Nat := p.column - p.text.indent + 1

/-- The report of an error in a source, when its caret is not too far to the right to be padded. All other widths in a report are
    those of numbers. -/
def print (e : LexError) (source : Text) : Except Text.Overwide Text :=
  match Place.ofPosition? source e.span.first with
  | none => .ok (e.report source)
  | some p => if caretWidth p ≤ Text.maxWidth then .ok (e.report source) else .error .overwide

end Munch.LexError
