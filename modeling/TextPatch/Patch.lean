/-
# Patches as data

A patch set is a list of descriptors.  A descriptor names what it patches, installed extensions or
the bundled script, and lists file patches; a file patch lists edit rules; a rule says what to
search for and what to do at each match.  Everything that may be left out is an `Option`, so that a
descriptor remembers what was written, and what was written decides its identity.
-/

namespace TextPatch

/-- What a rule searches for: one needle, or several to be found one behind the other. -/
inductive Search where
  | one (needle : String)
  | many (needles : List String)
  deriving DecidableEq, Repr

/-- The needles of a search. -/
def Search.needles : Search → List String
  | .one needle => [needle]
  | .many needles => needles

/-- How needles are read, and how many matches count. -/
inductive SearchMode where
  | single
  | multiple
  | regex
  deriving DecidableEq, Repr

/-- Where the text of a rule goes, seen from the match. -/
inductive InsertMode where
  | before
  | after
  | replace
  deriving DecidableEq, Repr

/-- A range of offsets from some byte of a match. -/
structure OffsetRange where
  start : Int64
  stop : Int64
  deriving DecidableEq, Repr

/-- An edit: what to search for and what to do at each match. -/
structure EditRule where
  search : Search
  searchMode : Option SearchMode
  insertText : Option String
  insertMode : Option InsertMode
  insertOffset : Option Int64
  /-- Removed first, counted from the start of the match. -/
  removeRange : Option OffsetRange
  /-- Removed next, counted from the end of the match. -/
  removeRangeAfter : Option OffsetRange
  patchOptional : Option Bool
  deriving DecidableEq, Repr

/-- The rules for one file. -/
structure FilePatch where
  /-- The file, relative to the root of the extension; for the bundled script, the source
  in which its needles are looked up. -/
  file : String
  fileCanBeMissing : Option Bool
  rules : List EditRule
  deriving DecidableEq, Repr

/-- Whether a missing file is no error. -/
def FilePatch.canBeMissing (p : FilePatch) : Bool := p.fileCanBeMissing.getD false

/-- The identifiers of extensions. -/
inductive ExtensionIds where
  | one (id : String)
  | many (ids : List String)
  deriving DecidableEq, Repr

/-- The list of identifiers. -/
def ExtensionIds.ids : ExtensionIds → List String
  | .one id => [id]
  | .many ids => ids

/-- What a descriptor patches. -/
inductive Target where
  | extensions (ids : ExtensionIds)
  /-- The bundled script, unless `enabled` is `false`. -/
  | bundledScript (enabled : Bool)
  deriving DecidableEq, Repr

namespace Target

/-- Whether a target is extensions. -/
def isExtensions : Target → Bool
  | extensions _ => true
  | bundledScript _ => false

/-- Whether a target is the bundled script, switched on. -/
def isBundledScript : Target → Bool
  | extensions _ => false
  | bundledScript enabled => enabled

/-- The extensions that a target names. -/
def extensionIds : Target → List String
  | extensions ids => ids.ids
  | bundledScript _ => []

/-- How messages name a target. -/
def label : Target → String
  | extensions ids => String.intercalate ", " ids.ids
  | bundledScript _ => "bundled script"

end Target

/-- A target and the file patches for it. -/
structure Descriptor where
  target : Target
  files : List FilePatch
  deriving DecidableEq, Repr

/-- An ordered collection of descriptors. -/
structure PatchSet where
  descriptors : List Descriptor
  deriving DecidableEq, Repr, Inhabited

namespace PatchSet

/-- The descriptors for installed extensions. -/
def forExtensions (s : PatchSet) : List Descriptor :=
  s.descriptors.filter fun d => d.target.isExtensions

/-- The descriptors for the bundled script. -/
def forBundledScript (s : PatchSet) : List Descriptor :=
  s.descriptors.filter fun d => d.target.isBundledScript

end PatchSet

end TextPatch
