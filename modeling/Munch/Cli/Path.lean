import Munch.Text.Basic

/-! Paths of files: texts whose components are separated by slashes. -/

namespace Munch

/-- The components of a path, between its slashes. -/
def pathComponents : Text → List Text
  | [] => [[]]
  | c :: cs =>
    if c = '/' then [] :: pathComponents cs
    else match pathComponents cs with
      | [] => [[c]]
      | w :: ws => (c :: w) :: ws

/-- The last component of a path. Empty ones and single points lead nowhere and are passed over; two points are the
    name of no file. -/
def fileName? (path : Text) : Option Text :=
  (((pathComponents path).filter fun w => w != [] && w != ['.']).getLast?).filter (· != ['.', '.'])

end Munch
