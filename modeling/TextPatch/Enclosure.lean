/-
# Staying inside a directory

The files of an extension are given relative to its root and must not lead out of it.  A path is
first normalised by its text alone: a step up cancels the name before it, and one that has nothing
to cancel leads out (`normalise?`).  If the path that comes out leads to something, the place
without links must still lie in the root.

A file need not exist.
-/
import TextPatch.Host

namespace TextPatch

/-- Why a path may not be used. -/
inductive SafetyError where
  | absolutePath (path : Path)
  | outsideRoot (path root : Path)
  | canonicalize (path : Path) (cause : IoError)
  deriving DecidableEq, Repr

namespace SafetyError

/-- The wording of an error. -/
def message : SafetyError → String
  | absolutePath path => "path must be relative to the target root: " ++ path.text
  | outsideRoot path root =>
    "path is outside target root: " ++ path.text ++ " (root: " ++ root.text ++ ")"
  | canonicalize path cause => "failed to canonicalize " ++ path.text ++ ": " ++ cause.message

/-- The failure of the file operation behind an error, if there is one. -/
def cause? : SafetyError → Option IoError
  | canonicalize _ cause => some cause
  | _ => none

end SafetyError

/-- The names that are left of the components of a relative path, the last one first; `done` are
those before them. -/
def normalise? (done : List String) : List Path.Component → Option (List String)
  | [] => some done
  | .name s :: rest => normalise? (s :: done) rest
  | .here :: rest => normalise? done rest
  | .up :: rest =>
    match done with
    | [] => none
    | _ :: done => normalise? done rest
  | .root :: _ => none

/-- Whether a path begins with all components of another one. -/
def Path.isBelow (p root : Path) : Bool := root.components.isPrefixOf p.components

/-- A directory that paths are kept in: its path without links. -/
structure Enclosure where
  root : Path
  deriving DecidableEq, Repr

namespace Enclosure

variable {m : Type → Type} [Monad m] [Host m]

/-- The directory that a path leads to; it must exist. -/
def ofRoot (path : Path) : m (Except SafetyError Enclosure) := do
  match ← Host.canonicalPath path with
  | .ok root => return .ok ⟨root⟩
  | .error e => return .error (.canonicalize path e)

/-- The path behind the root that a relative path leads to by its text alone. -/
def place (e : Enclosure) (relative : Path) : Except SafetyError Path :=
  if relative.hasRoot then .error (.absolutePath relative)
  else match normalise? [] relative.components with
    | none => .error (.outsideRoot relative e.root)
    | some names => .ok (names.reverse.foldl (fun p name => p.join ⟨name⟩) e.root)

/-- Whether a path, its links followed, lies in the root. -/
def confirm (e : Enclosure) (path : Path) : m (Except SafetyError Path) := do
  match ← Host.canonicalPath path with
  | .error cause => return .error (.canonicalize path cause)
  | .ok canonical =>
    return if canonical.isBelow e.root then .ok path else .error (.outsideRoot canonical e.root)

/-- The path behind the root that a relative path leads to.  If something is there, it must lie in
the root when links are followed. -/
def resolve (e : Enclosure) (relative : Path) : m (Except SafetyError Path) := do
  match e.place relative with
  | .error cause => return .error cause
  | .ok path => if ← Host.present path then e.confirm path else return .ok path

end Enclosure

end TextPatch
