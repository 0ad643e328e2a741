/-
# Operations on files

What reading, writing, copying and renaming do to a tree, and why they fail.  Every operation takes
the tree and the working directory and answers the tree that it leaves; an operation that fails
leaves the tree as it was.
-/
import TextPatch.Files.Walk

namespace TextPatch

namespace Tree

/-! ## 1. Looking -/

/-- What a path leads to. -/
def entryAt (t : Tree) (working : Location) (p : Path) : Option Entry :=
  match t.locate working true p with
  | .ok l => t.get? l
  | .error _ => none

/-- Whether a path leads to something. -/
def present (t : Tree) (working : Location) (p : Path) : Bool := (t.entryAt working p).isSome

/-- Whether a path leads to a file. -/
def isFileAt (t : Tree) (working : Location) (p : Path) : Bool :=
  match t.entryAt working p with
  | some (.file _) => true
  | _ => false

/-- Whether a path leads to a directory. -/
def isDirectoryAt (t : Tree) (working : Location) (p : Path) : Bool :=
  match t.entryAt working p with
  | some .directory => true
  | _ => false

/-- The path without links of the place that a path leads to, if it is not too long for a path. -/
def canonicalPath (t : Tree) (working : Location) (p : Path) : Except IoError Path := do
  let l ← t.locate working true p
  if !(t.get? l).isSome then .error .notFound
  else if pathLimit < (Path.ofNames l).text.utf8ByteSize then .error .nameTooLong
  else .ok (Path.ofNames l)

/-- The names of the directories in a directory, links aside, in ascending order. -/
def subdirectories (t : Tree) (working : Location) (p : Path) : List String :=
  match t.locate working true p with
  | .ok l => (t.children l).filter fun name => t.isDirectory (l ++ [name])
  | .error _ => []

/-! ## 2. Reading and writing -/

/-- The content of a file. -/
def read (t : Tree) (working : Location) (p : Path) : Except IoError ByteArray := do
  let l ← t.locate working true p
  match t.get? l with
  | some (.file content) => .ok content
  | some _ => .error .isADirectory
  | none => .error .notFound

/-- The text that a file holds. -/
def readText (t : Tree) (working : Location) (p : Path) : Except IoError String := do
  match String.fromUTF8? (← t.read working p) with
  | some s => .ok s
  | none => .error .notText

/-- Gives a file a content; the file is made if there is none. -/
def write (t : Tree) (working : Location) (p : Path) (content : ByteArray) :
    Except IoError Tree := do
  let l ← t.locate working true p
  if t.isDirectory l then .error .isADirectory else .ok (t.set l (.file content))

/-- Gives a file the content of another one. -/
def copy (t : Tree) (working : Location) (source target : Path) : Except IoError Tree := do
  let l ← t.locate working true source
  match t.get? l with
  | some (.file content) => t.write working target content
  | some _ => .error .notAFile
  | none => .error .notFound

/-! ## 3. Renaming -/

/-- A path without slashes at its end, and whether it had some. -/
def withoutSlashes (p : Path) : Path × Bool :=
  let body := p.text.toList.reverse.dropWhile (· == '/')
  if body.isEmpty then (p, false)
  else (⟨String.ofList body.reverse⟩, body.length != p.text.length)

/-- The place that a path names: links are followed on the way, but not at the end.  Tells whether
the path asks for a directory, and fails if the path does not end with a name. -/
def namedPlace (t : Tree) (working : Location) (p : Path) : Except IoError (Location × Bool) := do
  let (p, slashed) := withoutSlashes p
  let l ← t.locate working false p
  match p.steps.getLast? with
  | some (.name _) => .ok (l, slashed)
  | _ => .error .busy

/-- Whether an entry may take the place of what stands at `l`. -/
def mayReplace (t : Tree) (e : Entry) (l : Location) : Except IoError Unit :=
  match e, t.get? l with
  | _, none => .ok ()
  | .directory, some .directory =>
    if (t.children l).isEmpty then .ok () else .error .directoryNotEmpty
  | .directory, some _ => .error .notADirectory
  | _, some .directory => .error .isADirectory
  | _, some _ => .ok ()

/-- Renames a file, a link or a directory; what stood under the new name is replaced. -/
def rename (t : Tree) (working : Location) (source target : Path) : Except IoError Tree := do
  let (origin, slashed) ← t.namedPlace working source
  let (goal, slashed') ← t.namedPlace working target
  match t.get? origin with
  | none => .error .notFound
  | some e =>
    if (slashed || slashed') && !t.isDirectory origin then .error .notADirectory
    else if origin = goal then .ok t
    else if (below? origin goal).isSome then .error .invalidArgument
    else if (below? goal origin).isSome then .error .directoryNotEmpty
    else do
      t.mayReplace e goal
      return t.move origin goal

/-- The directory of a path; the working directory for a lone name. -/
def directoryOf (p : Path) : Path :=
  match p.parent? with
  | some d => if d.text.isEmpty then ⟨"."⟩ else d
  | none => ⟨"."⟩

/-- The name of a new file that is not in its place yet.  Its last six characters are such that no
other file has the name. -/
def temporaryName : String := ".tmpXXXXXX"

/-- The path at which a new file is made before it is put at a path: in the same directory, written
from the root on. -/
def temporaryPath (working : Location) (p : Path) : Path :=
  ((Path.ofNames working).join (directoryOf p)).join ⟨temporaryName⟩

/-- Whether a new file can be made in the directory of a path. -/
def mayMake (t : Tree) (working : Location) (p : Path) : Except IoError Unit :=
  if (directoryOf p).text.toList.contains '\x00' then .error .zeroInPath
  else if pathLimit < (temporaryPath working p).text.utf8ByteSize then .error .nameTooLong
  else do
    let d ← t.locate working true (directoryOf p)
    if t.isDirectory d then return () else .error (t.noWayOn d)

/-- Puts a new file under a name; what stood there, even a link, is replaced.  The new file is made
in the directory of the path first and then renamed. -/
def replace (t : Tree) (working : Location) (p : Path) (content : ByteArray) :
    Except IoError Tree := do
  t.mayMake working p
  let (l, slashed) ← t.namedPlace working p
  if slashed then .error .notADirectory
  else do
    t.mayReplace (.file content) l
    return t.set l (.file content)

end Tree

end TextPatch
