/-
# The program

Runs the patcher on the disk of a machine.  Notes go to the messages if the arguments ask for them.
-/
import TextPatch.CommandLine.Commands
import TextPatch.Files.Operations

namespace TextPatch

/-- What a run on a machine keeps. -/
structure MachineState where
  maps : MapMemory
  verbosity : Nat

/-- Runs on a machine. -/
abbrev Machine := StateT MachineState IO

namespace Machine

/-- The number and the wording of a failure. -/
def failureParts : IO.Error → UInt32 × String
  | .alreadyExists _ n s => (n, s)
  | .otherError n s => (n, s)
  | .resourceBusy n s => (n, s)
  | .resourceVanished n s => (n, s)
  | .unsupportedOperation n s => (n, s)
  | .hardwareFault n s => (n, s)
  | .unsatisfiedConstraints n s => (n, s)
  | .illegalOperation n s => (n, s)
  | .protocolError n s => (n, s)
  | .timeExpired n s => (n, s)
  | .interrupted _ n s => (n, s)
  | .noFileOrDirectory _ n s => (n, s)
  | .invalidArgument _ n s => (n, s)
  | .permissionDenied _ n s => (n, s)
  | .resourceExhausted _ n s => (n, s)
  | .inappropriateType _ n s => (n, s)
  | .noSuchThing _ n s => (n, s)
  | .unexpectedEof => (0, "end of file")
  | .userError s => (0, s)

/-- The number of a failure, which some operations count downwards from zero. -/
def failureNumber (n : UInt32) : UInt32 := if n < 0x80000000 then n else 0 - n

/-- The cause of a failure. -/
def cause (e : IO.Error) : IoError :=
  let (n, s) := failureParts e
  match failureNumber n with
  | 2 => .notFound
  | 16 => .busy
  | 17 => .alreadyExists
  | 20 => .notADirectory
  | 21 => .isADirectory
  | 22 => .invalidArgument
  | 36 => .nameTooLong
  | 39 => .directoryNotEmpty
  | 40 => .tooManyLinks
  | 0 => .other s
  | n => .other (s ++ s!" (os error {n})")

/-- Does something with files. -/
def attempt (act : IO α) : Machine (Except IoError α) := do
  match ← act.toBaseIO with
  | .ok a => return .ok a
  | .error e => return .error (cause e)

/-- What kind of thing a path leads to. -/
def kind? (p : Path) : IO (Option IO.FS.FileType) := do
  try
    let real ← IO.FS.realPath p.text
    return some (← real.metadata).type
  catch _ => return none

/-- The names of the directories in a directory. -/
def subdirectoryNames (p : Path) : IO (List String) := do
  try
    let real ← IO.FS.realPath p.text
    let mut names := []
    for entry in ← real.readDir do
      if (← entry.path.symlinkMetadata).type == .dir then names := entry.fileName :: names
    return names.mergeSort
  catch _ => return []

/-- Copies a file. -/
def copyFile (source target : Path) : Machine (Except IoError Unit) := do
  match ← kind? source with
  | some .file => attempt do IO.FS.writeBinFile target.text (← IO.FS.readBinFile source.text)
  | some _ => return .error .notAFile
  | none => attempt do let _ ← IO.FS.readBinFile source.text

/-- Reads a file. -/
def readFile (p : Path) : Machine (Except IoError ByteArray) := do
  match ← kind? p with
  | some .dir => return .error .isADirectory
  | _ => attempt (IO.FS.readBinFile p.text)

/-- Writes a new file next to another one and renames it. -/
def replaceFile (p : Path) (content : ByteArray) : Machine (Except IoError Unit) := attempt do
  let directory := (Path.mk (← IO.currentDir).toString).join (Tree.directoryOf p)
  let fresh := directory.join ⟨s!".tmp{← IO.rand 100000 999999}"⟩
  IO.FS.writeBinFile fresh.text content
  try IO.FS.rename fresh.text p.text
  catch e =>
    IO.FS.removeFile fresh.text
    throw e

/-- Prints a text at once. -/
def printNow (channel : Channel) (text : String) : IO Unit := do
  let stream ← match channel with
    | .output => IO.getStdout
    | .messages => IO.getStderr
  stream.putStr text
  stream.flush

end Machine

instance : Host Machine where
  home := do return (← IO.getEnv "HOME").map Path.mk
  canonicalPath p := Machine.attempt do return ⟨(← IO.FS.realPath p.text).toString⟩
  present p := do return (← Machine.kind? p).isSome
  isFile p := do return (← Machine.kind? p) == some .file
  isDirectory p := do return (← Machine.kind? p) == some .dir
  subdirectories p := Machine.subdirectoryNames p
  read p := Machine.readFile p
  write p content := Machine.attempt (IO.FS.writeBinFile p.text content)
  copy p q := Machine.copyFile p q
  rename p q := Machine.attempt (IO.FS.rename p.text q.text)
  replace p content := Machine.replaceFile p content
  maps := do return (← get).maps
  setMaps maps := modify fun s => { s with maps }
  note level text := do
    match CommandLine.noteText? (← get).verbosity level text with
    | some line => Machine.printNow .messages line
    | none => return ()
  print channel text := Machine.printNow channel text

end TextPatch

/-- Runs the patcher.  Answers the exit code. -/
def main (args : List String) : IO UInt32 := do
  let request := TextPatch.CommandLine.parse args
  let (code, _) ← (request.answer : TextPatch.Machine UInt32).run ⟨[], request.verbosity⟩
  return code
