import Munch.Text.Basic

/-! Lines of a text, and the line that holds a position. A newline belongs to the line that it ends, and no other
    character ends a line. -/

namespace Munch

namespace Text

/-- The lines of a text, each with its newline; only the last one may lack it. -/
def lines : Text → List Text
  | [] => []
  | c :: cs =>
    if c = '\n' then [c] :: lines cs
    else match lines cs with
      | [] => [[c]]
      | l :: ls => (c :: l) :: ls

end Text

/-- A place in a text: the number of its line, counted from one, the line, and the column in it, counted
    from zero. -/
structure Place where
  line : Nat
  text : Text
  column : Nat
deriving DecidableEq, Repr

namespace Place

/-- The place that is `position` characters into the lines, of which the first one has the number `n`. -/
def inLines? (n position : Nat) : List Text → Option Place
  | [] => none
  | l :: ls => if position < l.length then some ⟨n, l, position⟩ else inLines? (n + 1) (position - l.length) ls

/-- The place of a position, or `none` when the text ends before it. -/
def ofPosition? (content : Text) (position : Nat) : Option Place := inLines? 1 position content.lines

end Place

end Munch
