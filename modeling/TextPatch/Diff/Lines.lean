/-
# The lines of a text

A line ends with a line feed, with a carriage return, or with both in this order; the last line of a
text may have no end.
-/
import TextPatch.Text

namespace TextPatch.Diff

/-- The lines of a text, each with its end. -/
def lines : Text → List Text
  | [] => []
  | '\r' :: '\n' :: t => ['\r', '\n'] :: lines t
  | c :: t =>
    if c = '\n' ∨ c = '\r' then [c] :: lines t
    else match lines t with
      | [] => [[c]]
      | l :: ls => (c :: l) :: ls

/-- Whether a line has an end. -/
def isEnded (l : Text) : Bool := l.getLast? == some '\n' || l.getLast? == some '\r'

end TextPatch.Diff
