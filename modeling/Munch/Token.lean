import Munch.Kind
import Munch.Span

/-! Tokens. -/

namespace Munch

/-- A piece of source text, its kind and the positions it takes. -/
structure Token where
  kind : Kind
  value : Text
  span : Span
deriving DecidableEq, Repr

end Munch
