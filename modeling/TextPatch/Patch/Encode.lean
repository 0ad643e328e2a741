/-
# Writing descriptors, and their identity

`Descriptor.toJson` writes the members of a descriptor in the order of their declaration and leaves
out what is unset.  The digest of that document, together with where the descriptor came from,
identifies it: `Descriptor.identity`.
-/
import TextPatch.Patch
import TextPatch.Json.Printer
import TextPatch.Digest.Xxh3

namespace TextPatch

/-- The document of a search. -/
def Search.toJson : Search → Json
  | .one needle => .string needle
  | .many needles => .array (needles.map .string)

/-- The text by which messages name a search. -/
def Search.label (s : Search) : String := String.ofList s.toJson.compact

/-- The name of a search mode. -/
def SearchMode.toJson : SearchMode → Json
  | .single => .string "single"
  | .multiple => .string "multiple"
  | .regex => .string "regex"

/-- The name of an insert mode. -/
def InsertMode.toJson : InsertMode → Json
  | .before => .string "before"
  | .after => .string "after"
  | .replace => .string "replace"

/-- A signed integer as a document. -/
def Json.ofInt64 (n : Int64) : Json := .number (.integer n.toInt)

/-- A range as an array of its ends. -/
def OffsetRange.toJson (r : OffsetRange) : Json :=
  .array [Json.ofInt64 r.start, Json.ofInt64 r.stop]

/-- A member, if its value is set. -/
def optionalMember (name : String) (v : Option Json) : Members :=
  match v with
  | some v => [(name, v)]
  | none => []

/-- The document of a rule. -/
def EditRule.toJson (r : EditRule) : Json :=
  .object (("search", r.search.toJson) ::
    (optionalMember "searchMode" (r.searchMode.map SearchMode.toJson) ++
      optionalMember "insertText" (r.insertText.map .string) ++
      optionalMember "insertMode" (r.insertMode.map InsertMode.toJson) ++
      optionalMember "insertOffset" (r.insertOffset.map Json.ofInt64) ++
      optionalMember "removeRange" (r.removeRange.map OffsetRange.toJson) ++
      optionalMember "removeRangeAfter" (r.removeRangeAfter.map OffsetRange.toJson) ++
      optionalMember "patchOptional" (r.patchOptional.map .bool)))

/-- The document of a file patch. -/
def FilePatch.toJson (p : FilePatch) : Json :=
  .object (("file", .string p.file) ::
    (optionalMember "fileCanBeMissing" (p.fileCanBeMissing.map .bool) ++
      [("patches", .array (p.rules.map EditRule.toJson))]))

/-- The document of identifiers. -/
def ExtensionIds.toJson : ExtensionIds → Json
  | .one id => .string id
  | .many ids => .array (ids.map .string)

/-- A target as an object with the one member that says which kind it is. -/
def Target.toJson : Target → Json
  | .extensions ids => .object [("extension", ids.toJson)]
  | .bundledScript enabled => .object [("workbenchJs", .bool enabled)]

/-- The document of a descriptor. -/
def Descriptor.toJson (d : Descriptor) : Json :=
  .object [("target", d.target.toJson), ("patches", .array (d.files.map FilePatch.toJson))]

/-- The written form of a descriptor. -/
def Descriptor.written (d : Descriptor) : String := String.ofList d.toJson.compact

/-- Where a descriptor comes from. -/
inductive PatchSource where
  | here
  | remote
  deriving DecidableEq, Repr

/-- The word for a source in an identity. -/
def PatchSource.word : PatchSource → String
  | .here => "local"
  | .remote => "remote"

/-- What a descriptor is recorded under: its source, a hyphen, and the digest of its written
form. -/
def Descriptor.identity (source : PatchSource) (d : Descriptor) : String :=
  source.word ++ "-" ++ Digest.hex (Digest.xxh3 d.written.toUTF8)

end TextPatch
