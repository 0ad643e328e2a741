/-
# Manifests

The root of an extension holds a manifest, an object.  Under one key of it stands the record of the
descriptors that have been applied: the files that each of them changed, by its identity.  All other
keys belong to the extension, and they and their order survive when the record changes.

* `applied` reads the record, `contains` looks for one identity;
* `record` adds to it and `clear` empties it;
* `read` and `write` take the manifest from its file and put it back.
-/
import TextPatch.Host
import TextPatch.Json.Parser
import TextPatch.Json.Printer

namespace TextPatch

/-- The name of the file that holds a manifest. -/
def manifestFile : Path := ⟨"package.json"⟩

/-- The key of the record. -/
def recordKey : String := "customPatches-appliedPatches"

/-- Why a manifest cannot be read or written. -/
inductive RecordError where
  | io (path : Path) (cause : IoError)
  | malformed (path : Path)
  | notAnObject (path : Path)
  deriving DecidableEq, Repr

namespace RecordError

/-- What messages say of a manifest that is no document. -/
def malformedDocument : String := "the document is malformed"

/-- The wording of an error. -/
def message : RecordError → String
  | io path cause => "failed to access manifest " ++ path.text ++ ": " ++ cause.message
  | malformed path => "failed to parse manifest " ++ path.text ++ ": " ++ malformedDocument
  | notAnObject path => "manifest " ++ path.text ++ " is not a JSON object"

/-- The wording of what is behind an error. -/
def causes : RecordError → List String
  | io _ cause => [cause.message]
  | malformed _ => [malformedDocument]
  | notAnObject _ => []

end RecordError

/-- A manifest: where it stands and what it holds. -/
structure Manifest where
  path : Path
  members : Members

namespace Manifest

/-- The value of a key that holds a string. -/
def stringField (d : Manifest) (key : String) : Option String :=
  (d.members.get? key).bind Json.string?

/-- The strings among the items of an array. -/
def stringItems (v : Json) : List String := ((v.items?).getD []).filterMap Json.string?

/-- The record, if it is an object. -/
def recordMembers? (d : Manifest) : Option Members :=
  (d.members.get? recordKey).bind Json.members?

/-- The identities of the record, each with its files. -/
def applied (d : Manifest) : List (String × List String) :=
  (d.recordMembers?.getD []).map fun (identity, files) => (identity, stringItems files)

/-- Whether an identity is recorded. -/
def contains (d : Manifest) (identity : String) : Bool :=
  d.recordMembers?.any fun record => Members.contains record identity

/-- Adds items that are not there yet. -/
def addNew (items : List String) : List String → List String
  | [] => items
  | s :: rest => addNew (if items.contains s then items else items ++ [s]) rest

/-- The files of the record, each once. -/
def appliedFiles (d : Manifest) : List String := addNew [] (d.applied.flatMap Prod.snd)

/-- Records an identity with its files.  A record that is no object is replaced. -/
def record (d : Manifest) (identity : String) (files : List String) : Manifest :=
  let entries := Members.insert (d.recordMembers?.getD []) identity
    (.array (files.map .string))
  { d with members := d.members.insert recordKey (.object entries) }

/-- Empties the record. -/
def clear (d : Manifest) : Manifest :=
  { d with members := d.members.insert recordKey (.object []) }

/-- The text of a manifest. -/
def written (d : Manifest) : String := String.ofList (Json.pretty (.object d.members))

/-- The manifest that a text holds. -/
def ofText (path : Path) (text : String) : Except RecordError Manifest :=
  match Json.parse text.toList with
  | .ok (.object members) => .ok ⟨path, members⟩
  | .ok _ => .error (.notAnObject path)
  | .error _ => .error (.malformed path)

variable {m : Type → Type} [Monad m] [Host m]

/-- Reads the manifest of the extension at a root. -/
def read (root : Path) : m (Except RecordError Manifest) := do
  let path := root.join manifestFile
  match ← Host.readText path with
  | .ok text => return ofText path text
  | .error e => return .error (.io path e)

/-- Puts a manifest back in its file. -/
def write (d : Manifest) : m (Except RecordError Unit) := do
  match ← Host.replace d.path d.written.toUTF8 with
  | .ok () => return .ok ()
  | .error e => return .error (.io d.path e)

end Manifest

end TextPatch
