import Munch.Text.Layout
import Munch.Text.Quoted
import Munch.Token

/-! The two written forms of a token: the line of the token dump, made for reading in columns, and the short form
    with the value quoted, which tells tokens apart. -/

namespace Munch.Token

/-- A text with each newline written as a backslash and an `n`, and nothing else changed. -/
def flatten (w : Text) : Text := w.flatMap fun c => if c = '\n' then ['\\', 'n'] else [c]

/-- The line of a token in the token dump. -/
def dumpLine (t : Token) : Text :=
  "TYPE: ".toList ++ Text.padRight 10 t.kind.name ++ "  POS: ".toList ++ Text.padRight 14 t.span.render
    ++ "  VALUE: \"".toList ++ flatten t.value ++ ['\x22']

/-- The short form of a token under the character classes `cls`: kind, span, and the value between quotes. -/
def renderWith (cls : CharClasses) (t : Token) : Text :=
  t.kind.name ++ ' ' :: t.span.render ++ ' ' :: Text.quoted cls t.value

/-- The short form of a token. -/
def render (t : Token) : Text := t.renderWith .unicode

end Munch.Token
