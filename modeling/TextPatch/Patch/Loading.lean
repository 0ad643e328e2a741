/-
# Loading patch sets

A patch set is written as an array of descriptors, or as an object whose members are descriptors
under the names of the places that they were downloaded from.  Comments may stand between tokens.
`PatchSet.load` reads such a document and accepts it only if `PatchSet.issues` finds nothing.
-/
import TextPatch.Json.Comment
import TextPatch.Json.Parser
import TextPatch.Patch.Decode
import TextPatch.Patch.Validation

namespace TextPatch

/-- Why a document does not hold what was looked for. -/
inductive DocumentError where
  | unreadable (cause : Json.Read.Fault)
  | mistyped (cause : DecodeError)
  deriving DecidableEq, Repr

namespace DocumentError

/-- The wording of an error. -/
def message : DocumentError → String
  | unreadable .malformed => "the document is malformed"
  | unreadable .truncated => "the document ends too early"
  | unreadable .broken => "the document cannot be read to its end"
  | mistyped cause => cause.message

end DocumentError

/-- Why settings or a patch set cannot be loaded. -/
inductive ConfigError where
  | io (path : Path) (cause : IoError)
  /-- `entry` is the name of the member that is no descriptor. -/
  | json (path : Option Path) (entry : Option String) (cause : DocumentError)
  | toml (path : Option Path)
  | validation (path : Option Path) (issues : List ValidationIssue)
  deriving DecidableEq, Repr

namespace ConfigError

/-- A path in parentheses, if there is one. -/
def pathNote : Option Path → String
  | none => ""
  | some path => " (" ++ path.text ++ ")"

/-- The wording of an error. -/
def message : ConfigError → String
  | io path cause => "failed to read " ++ path.text ++ ": " ++ cause.message
  | json path entry cause =>
    "failed to parse patch set JSON" ++ pathNote path ++
      (match entry with
        | none => ""
        | some entry => " entry " ++ entry) ++ ": " ++ cause.message
  | toml path => "failed to parse settings TOML" ++ pathNote path ++ ": TOML parse error"
  | validation path issues =>
    "invalid patch set" ++ pathNote path ++ ": " ++
      String.intercalate "\n" (issues.map ValidationIssue.message)

/-- The same error about the content of a file. -/
def inFile (path : Path) : ConfigError → ConfigError
  | io p cause => io p cause
  | json none entry cause => json (some path) entry cause
  | toml none => toml (some path)
  | validation none issues => validation (some path) issues
  | e => e

end ConfigError

namespace PatchSet

/-- The document in a text with comments. -/
def readDocument (t : Text) : Except Json.Read.Fault Json :=
  let (stripped, broken) := Json.stripComments t
  Json.parseStream broken stripped

/-- The descriptors of an object, each under a name. -/
def ofMembers (members : Members) : Except ConfigError (List Descriptor) :=
  members.mapM fun (name, v) =>
    match Descriptor.decode v with
    | .ok d => .ok d
    | .error e => .error (.json none (some name) (.mistyped e))

/-- The descriptors of a document. -/
def ofDocument (v : Json) : Except ConfigError (List Descriptor) :=
  match v with
  | .object members => ofMembers members
  | v =>
    match Json.decodeList Descriptor.decode v with
    | .ok ds => .ok ds
    | .error e => .error (.json none none (.mistyped e))

/-- A set without issues. -/
def validated (descriptors : List Descriptor) : Except ConfigError PatchSet :=
  let s : PatchSet := ⟨descriptors⟩
  match s.issues with
  | [] => .ok s
  | issues => .error (.validation none issues)

/-- The patch set that a text holds. -/
def load (t : Text) : Except ConfigError PatchSet :=
  match readDocument t with
  | .error fault => .error (.json none none (.unreadable fault))
  | .ok v => do validated (← ofDocument v)

end PatchSet

end TextPatch
