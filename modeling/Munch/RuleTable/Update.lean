import Munch.RuleTable.Basic

/-! Changing a rule table: adding a single rule, or setting all rules of one sort. -/

namespace Munch

namespace RuleTable

/-- One more rule of a table. -/
inductive Addition where
  | keyword (w : Text)
  | breaker (w : Text)
  | operator (w : Text)
  | commentPair (p : CommentPair)
deriving DecidableEq, Repr

/-- A table with one more rule, after those of its sort. -/
def add (r : RuleTable) : Addition → RuleTable
  | .keyword w => { r with keywords := r.keywords ++ [w] }
  | .breaker w => { r with breakers := r.breakers ++ [w] }
  | .operator w => { r with operators := r.operators ++ [w] }
  | .commentPair p => { r with commentPairs := r.commentPairs ++ [p] }

/-- All rules of one sort. -/
inductive Setting where
  | keywords (ws : List Text)
  | breakers (ws : List Text)
  | operators (ws : List Text)
  | commentPairs (ps : List CommentPair)
  | boolValues (first second : Text)
  | stringBound (c : Char)
  | runeBound (c : Char)
deriving DecidableEq, Repr

/-- A table in which the rules of one sort are replaced. -/
def set (r : RuleTable) : Setting → RuleTable
  | .keywords ws => { r with keywords := ws }
  | .breakers ws => { r with breakers := ws }
  | .operators ws => { r with operators := ws }
  | .commentPairs ps => { r with commentPairs := ps }
  | .boolValues a b => { r with boolValues := (a, b) }
  | .stringBound c => { r with stringBound := c }
  | .runeBound c => { r with runeBound := c }

/-- Whether a table is the standard one, down to the order of its rules. -/
def isStandard (r : RuleTable) : Bool := r == standard

end RuleTable

end Munch
