/-
# The host

The patcher reaches files, the terminal and what it remembers of source maps through the operations
of a `Host` only.  Whatever is written against them runs on the disk of a machine as well as on a
`Tree` of files.
-/
import TextPatch.Files.IoError
import TextPatch.Files.Path
import TextPatch.SourceMap.Document

namespace TextPatch

/-- How much a note matters. -/
inductive Level where
  | error
  | warning
  | info
  | debug
  deriving DecidableEq, Repr

/-- Where printed text goes. -/
inductive Channel where
  | output
  | messages
  deriving DecidableEq, Repr

/-- Source maps that have been loaded, under the paths that they are known by. -/
abbrev MapMemory := List (Path × SourceMap.Document)

/-- What the patcher needs to be run in `m`. -/
class Host (m : Type → Type) where
  /-- The home directory of the user. -/
  home : m (Option Path)
  /-- The path without links of the place that a path leads to. -/
  canonicalPath : Path → m (Except IoError Path)
  /-- Whether a path leads to something. -/
  present : Path → m Bool
  isFile : Path → m Bool
  isDirectory : Path → m Bool
  /-- The names of the directories in a directory, links aside, in ascending order. -/
  subdirectories : Path → m (List String)
  read : Path → m (Except IoError ByteArray)
  /-- Gives a file a content; the file is made if there is none. -/
  write : Path → ByteArray → m (Except IoError Unit)
  copy : Path → Path → m (Except IoError Unit)
  rename : Path → Path → m (Except IoError Unit)
  /-- Puts a new file under a name at one stroke. -/
  replace : Path → ByteArray → m (Except IoError Unit)
  maps : m MapMemory
  setMaps : MapMemory → m Unit
  /-- Tells something that is shown only to those who ask for it. -/
  note : Level → String → m Unit
  print : Channel → String → m Unit

namespace Host

variable {m : Type → Type} [Monad m] [Host m]

/-- The text of some bytes. -/
def decodeText (bytes : ByteArray) : Except IoError String :=
  match String.fromUTF8? bytes with
  | some s => .ok s
  | none => .error .notText

/-- The text that a file holds. -/
def readText (p : Path) : m (Except IoError String) := do
  match ← read p with
  | .ok bytes => return decodeText bytes
  | .error e => return .error e

/-- Tells several things in order. -/
def noteAll (level : Level) (notes : List String) : m Unit := notes.forM (note level)

/-- Prints a line. -/
def printLine (c : Channel) (s : String) : m Unit := print c (s ++ "\n")

end Host

end TextPatch
