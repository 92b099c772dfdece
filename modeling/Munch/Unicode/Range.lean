/-! Properties of characters as tables of ranges of code points. All tables of the library are those of version
    17.0 of the Unicode character database. -/

namespace Munch.Unicode

/-- The code points from `first` to `last`, both included. -/
structure Range where
  first : Nat
  last : Nat
deriving DecidableEq, Repr

/-- Whether a character lies in one of the ranges. -/
def isInRanges (table : List Range) (c : Char) : Bool :=
  table.any fun r => r.first ≤ c.toNat && c.toNat ≤ r.last

end Munch.Unicode
