/-
# Unified diffs

A unified diff shows the changed lines with a few lines around them.  Changes that are close to one
another share a hunk; the header of a hunk says which lines of the old and of the new text it covers.
-/
import TextPatch.Diff.Lines
import TextPatch.Diff.Script

namespace TextPatch.Diff

/-- A line of a hunk, with the sign in front of it. -/
structure SignedLine where
  sign : Char
  line : Text
  deriving DecidableEq, Repr

/-- Changes that are shown together. -/
structure Hunk where
  header : String
  lines : List SignedLine
  deriving DecidableEq, Repr

/-- The lines `start` up to `stop`, as a header shows them: counted from one, and from the line
before if there are none. -/
def rangeText (start stop : Nat) : String :=
  match stop - start with
  | 0 => s!"{start},0"
  | 1 => s!"{start + 1}"
  | n => s!"{start + 1},{n}"

namespace Stretch

/-- The first old line of a stretch. -/
def oldStart : Stretch → Nat
  | kept i _ _ => i
  | changed i _ _ _ => i

/-- The first old line behind a stretch. -/
def oldEnd : Stretch → Nat
  | kept i _ l => i + l
  | changed i l _ _ => i + l

/-- The first new line of a stretch. -/
def newStart : Stretch → Nat
  | kept _ j _ => j
  | changed _ _ j _ => j

/-- The first new line behind a stretch. -/
def newEnd : Stretch → Nat
  | kept _ j l => j + l
  | changed _ _ j l => j + l

/-- The lines of a stretch with their signs. -/
def signed (old new : List Text) : Stretch → List SignedLine
  | kept i _ l => ((old.drop i).take l).map (SignedLine.mk ' ')
  | changed i l j n =>
    ((old.drop i).take l).map (SignedLine.mk '-') ++ ((new.drop j).take n).map (SignedLine.mk '+')

/-- The last `n` lines of kept ones. -/
def trimFront (n : Nat) : Stretch → Stretch
  | kept i j l => kept (i + (l - n)) (j + (l - n)) (l - (l - n))
  | s => s

/-- The first `n` lines of kept ones. -/
def trimBack (n : Nat) : Stretch → Stretch
  | kept i j l => kept i j (l - (l - n))
  | s => s

end Stretch

/-- Trims the last stretch. -/
def trimLast (radius : Nat) : List Stretch → List Stretch
  | [] => []
  | [s] => [s.trimBack radius]
  | s :: rest => s :: trimLast radius rest

/-- Trims the kept lines at both ends. -/
def trimEnds (radius : Nat) : List Stretch → List Stretch
  | [] => []
  | s :: rest => trimLast radius (s.trimFront radius :: rest)

/-- A group that shows a change. -/
def finish : List Stretch → List (List Stretch)
  | [] => []
  | [.kept _ _ _] => []
  | group => [group]

/-- Splits stretches into groups where more lines are kept than two groups show; `group` is what has
been gathered. -/
def split (radius : Nat) (group : List Stretch) : List Stretch → List (List Stretch)
  | [] => finish group
  | .kept i j l :: rest =>
    if 2 * radius < l then
      (group ++ [.kept i j radius]) ::
        split radius [.kept (i + (l - radius)) (j + (l - radius)) radius] rest
    else split radius (group ++ [.kept i j l]) rest
  | s :: rest => split radius (group ++ [s]) rest

/-- The hunk of a group. -/
def hunk (old new : List Text) (group : List Stretch) : Hunk :=
  let first := group.headD (.kept 0 0 0)
  let last := group.getLastD (.kept 0 0 0)
  ⟨"@@ -" ++ rangeText first.oldStart last.oldEnd ++ " +" ++
      rangeText first.newStart last.newEnd ++ " @@",
    group.flatMap (Stretch.signed old new)⟩

/-- The hunks between two texts, with `radius` lines around the changes. -/
def unified (radius : Nat) (old new : Text) : List Hunk :=
  let (old, new) := (lines old, lines new)
  (split radius [] (trimEnds radius (script old new))).map (hunk old new)

/-- A line as it is printed: with a line feed for a missing end, and one more to tell that it is
missing. -/
def SignedLine.text (l : SignedLine) : Text :=
  l.sign :: (l.line ++ if isEnded l.line then [] else ['\n', '\n'])

end TextPatch.Diff
