import Munch.Text.Basic

/-! Spans: inclusive ranges of positions in a source text, and their length in 64-bit arithmetic. -/

namespace Munch

/-- The positions from `first` to `last`, both included. -/
structure Span where
  first : Nat
  last : Nat
deriving DecidableEq, Repr

namespace Span

/-- A span is written as its two ends in brackets, with three points between them. -/
def render (s : Span) : Text :=
  '[' :: Text.decimal s.first ++ ['.', '.', '.'] ++ Text.decimal s.last ++ [']']

/-- The operation on 64-bit numbers whose result is out of range. -/
inductive Overflow where
  | subtraction
  | addition
deriving DecidableEq, Repr

/-- What is reported of an operation whose result is out of range. -/
def Overflow.message : Overflow → Text
  | .subtraction => "attempt to subtract with overflow".toList
  | .addition => "attempt to add with overflow".toList

/-- The number of positions in a span, `last - first + 1`, computed from left to right in unsigned 64-bit numbers:
    a reversed span has no length, and neither has the span of all `2 ^ 64` positions. -/
def length (s : Span) : Except Overflow Nat :=
  if s.last < s.first then .error .subtraction
  else if s.last - s.first + 1 < UInt64.size then .ok (s.last - s.first + 1)
  else .error .addition

end Span

end Munch
