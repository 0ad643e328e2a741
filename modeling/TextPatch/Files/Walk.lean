/-
# Following paths

A path is followed step by step from the root or from the working directory.  Every step but the
last must lead to a directory or to a link to one; a link stands for its target, followed from where
the link is.  `Tree.locate` answers the place that a path leads to, whether or not something stands
there.  The number of links on the way is limited, so that links in a circle lead to a failure.

A path that ends with a slash leads to a directory or fails.
-/
import TextPatch.Files.IoError
import TextPatch.Files.Tree

namespace TextPatch

/-- A step on the way along a path. -/
inductive Step where
  | here
  | up
  | name (s : String)
  deriving DecidableEq, Repr

/-- The step of a piece of a path. -/
def Step.ofPiece (t : Text) : Step :=
  if t = [] ∨ t = ['.'] then .here
  else if t = ['.', '.'] then .up
  else .name (String.ofList t)

/-- The steps of the pieces of a path.  Only the last piece counts if it is empty: it stands behind
a slash. -/
def Step.ofPieces : List Text → List Step
  | [] => []
  | [t] => [Step.ofPiece t]
  | t :: ts => if t = [] then ofPieces ts else Step.ofPiece t :: ofPieces ts

/-- The steps of a path from where it starts. -/
def Path.steps (p : Path) : List Step := Step.ofPieces p.pieces

/-- The greatest number of links on the way along a path. -/
def linkLimit : Nat := 40

/-- The greatest number of bytes of a name. -/
def nameLimit : Nat := 255

/-- The greatest number of bytes of a path. -/
def pathLimit : Nat := 4095

namespace Tree

/-- Why no step leads on from a place. -/
def noWayOn (t : Tree) (l : Location) : IoError :=
  if (t.get? l).isSome then .notADirectory else .notFound

/-- Follows steps from a place.  A link at the end is followed only if `follow`; from any other link
`onward` goes on, along the steps of its target and those that are left. -/
def walkSteps (t : Tree) (follow : Bool)
    (onward : Location → List Step → Except IoError Location) (l : Location) :
    List Step → Except IoError Location
  | [] => .ok l
  | step :: rest =>
    if !t.isDirectory l then .error (t.noWayOn l)
    else match step with
      | .here => walkSteps t follow onward l rest
      | .up => walkSteps t follow onward l.dropLast rest
      | .name s =>
        if nameLimit < s.utf8ByteSize then .error .nameTooLong
        else match t.get? (l ++ [s]) with
          | some (.link target) =>
            if rest.isEmpty && !follow then .ok (l ++ [s])
            else onward (if target.hasRoot then [] else l) (target.steps ++ rest)
          | _ => walkSteps t follow onward (l ++ [s]) rest

/-- Follows steps from a place.  `links` is how many links may still be on the way; a link at the
end is followed only if `follow`. -/
def walk (t : Tree) (follow : Bool) : (links : Nat) → Location → List Step →
    Except IoError Location
  | 0 => walkSteps t follow fun _ _ => .error .tooManyLinks
  | links + 1 => walkSteps t follow (walk t follow links)

@[simp] theorem walk_nil (t : Tree) (follow : Bool) (links : Nat) (l : Location) :
    walk t follow links l [] = .ok l := by
  cases links <;> rfl

/-- One step of a walk. -/
theorem walk_cons (t : Tree) (follow : Bool) (links : Nat) (l : Location) (step : Step)
    (rest : List Step) : walk t follow links l (step :: rest) =
      if !t.isDirectory l then .error (t.noWayOn l)
      else match step with
        | .here => walk t follow links l rest
        | .up => walk t follow links l.dropLast rest
        | .name s =>
          if nameLimit < s.utf8ByteSize then .error .nameTooLong
          else match t.get? (l ++ [s]) with
            | some (.link target) =>
              if rest.isEmpty && !follow then .ok (l ++ [s])
              else match links with
                | 0 => .error .tooManyLinks
                | links + 1 =>
                  walk t follow links (if target.hasRoot then [] else l) (target.steps ++ rest)
            | _ => walk t follow links (l ++ [s]) rest := by
  cases links <;> rfl

/-- The place that a path leads to, seen from a working directory. -/
def locate (t : Tree) (working : Location) (follow : Bool) (p : Path) : Except IoError Location :=
  if p.text.toList.contains '\x00' then .error .zeroInPath
  else if p.text.isEmpty then .error .notFound
  else if pathLimit < p.text.utf8ByteSize then .error .nameTooLong
  else walk t follow linkLimit (if p.hasRoot then [] else working) p.steps

end Tree

end TextPatch
