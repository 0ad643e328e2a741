/-
# Reading descriptors

How descriptors, file patches and rules are written in documents.  Unknown members are errors, and
so are members of the wrong kind; what may be left out may also be `null`, the list of rules
excepted.  `Descriptor.decode` is the inverse of `Descriptor.toJson`.
-/
import TextPatch.Patch
import TextPatch.Json.Decode

namespace TextPatch

open Json

/-! ## 1. Searches and rules -/

/-- One string, or an array of strings. -/
def Search.decode : Decoder Search
  | .string s => .ok (.one s)
  | .array items =>
    match items.mapM Json.string? with
    | some needles => .ok (.many needles)
    | none => .error (.noVariant "Search")
  | _ => .error (.noVariant "Search")

/-- A search mode, by its name. -/
def SearchMode.decode : Decoder SearchMode :=
  decodeWord [("single", .single), ("multiple", .multiple), ("regex", .regex)]

/-- An insert mode, by its name. -/
def InsertMode.decode : Decoder InsertMode :=
  decodeWord [("before", .before), ("after", .after), ("replace", .replace)]

/-- An array of two integers. -/
def OffsetRange.decode : Decoder OffsetRange
  | .array [] => .error (.invalidLength 0 "an array of length 2")
  | .array [a] => do
    let _ ← decodeInt64 a
    .error (.invalidLength 1 "an array of length 2")
  | .array (a :: b :: rest) => do
    let start ← decodeInt64 a
    let stop ← decodeInt64 b
    if rest.isEmpty then .ok ⟨start, stop⟩
    else .error (.invalidLength (rest.length + 2) "fewer elements in array")
  | v => mistyped "an array of length 2" v

namespace EditRule

/-- The members of a rule, in the order of their declaration. -/
def fields : List String :=
  ["search", "searchMode", "insertText", "insertMode", "insertOffset", "removeRange",
    "removeRangeAfter", "patchOptional"]

/-- A rule of which the search has not been read yet, but which has all defaults. -/
structure Draft where
  search : Option Search
  rest : EditRule

/-- The rule that searches for something and leaves out the rest. -/
def ofSearch (s : Search) : EditRule := ⟨s, none, none, none, none, none, none, none⟩

/-- The rule before its first member. -/
def Draft.start : Draft := ⟨none, ofSearch (.one "")⟩

/-- Reads one member. -/
def Draft.read (d : Draft) (name : String) (v : Json) : Except DecodeError Draft :=
  let update (f : EditRule → EditRule) : Draft := { d with rest := f d.rest }
  match name with
  | "search" => do return { d with search := some (← Search.decode v) }
  | "searchMode" => do
    let x ← decodeOption SearchMode.decode v
    return update fun r => { r with searchMode := x }
  | "insertText" => do
    let x ← decodeOption decodeString v
    return update fun r => { r with insertText := x }
  | "insertMode" => do
    let x ← decodeOption InsertMode.decode v
    return update fun r => { r with insertMode := x }
  | "insertOffset" => do
    let x ← decodeOption decodeInt64 v
    return update fun r => { r with insertOffset := x }
  | "removeRange" => do
    let x ← decodeOption OffsetRange.decode v
    return update fun r => { r with removeRange := x }
  | "removeRangeAfter" => do
    let x ← decodeOption OffsetRange.decode v
    return update fun r => { r with removeRangeAfter := x }
  | "patchOptional" => do
    let x ← decodeOption decodeBool v
    return update fun r => { r with patchOptional := x }
  | name => .error (.unknownField name fields)

/-- The rule that members make. -/
def Draft.ofMembers (d : Draft) : Except DecodeError EditRule :=
  match d.search with
  | some s => .ok { d.rest with search := s }
  | none => .error (.missingField "search")

/-- The rule that the items of an array make. -/
def Draft.ofItems (d : Draft) : Except DecodeError EditRule :=
  match d.search with
  | some s => .ok { d.rest with search := s }
  | none => .error (.invalidLength 0 "struct EditRule with 8 elements")

/-- A rule, as an object or as an array of its fields. -/
def decode : Decoder EditRule
  | .object members => do
    (← members.foldlM (fun d (name, v) => Draft.read d name v) Draft.start).ofMembers
  | .array items => do
    let d ← (fields.zip items).foldlM (fun d (name, v) => Draft.read d name v) Draft.start
    let r ← d.ofItems
    if items.length ≤ fields.length then .ok r
    else .error (.invalidLength items.length "fewer elements in array")
  | v => mistyped "struct EditRule" v

end EditRule

/-! ## 2. File patches -/

namespace FilePatch

/-- The members of a file patch, in the order of their declaration. -/
def fields : List String := ["file", "fileCanBeMissing", "patches"]

/-- A file patch whose file has not been read yet. -/
structure Draft where
  file : Option String
  canBeMissing : Option Bool
  rules : List EditRule

/-- Reads one member. -/
def Draft.read (d : Draft) (name : String) (v : Json) : Except DecodeError Draft :=
  match name with
  | "file" => do return { d with file := some (← decodeString v) }
  | "fileCanBeMissing" => do return { d with canBeMissing := ← decodeOption decodeBool v }
  | "patches" => do return { d with rules := ← decodeList EditRule.decode v }
  | name => .error (.unknownField name fields)

/-- The file patch before its first member. -/
def Draft.start : Draft := ⟨none, none, []⟩

/-- The file patch that members make. -/
def Draft.ofMembers (d : Draft) : Except DecodeError FilePatch :=
  match d.file with
  | some file => .ok ⟨file, d.canBeMissing, d.rules⟩
  | none => .error (.missingField "file")

/-- The file patch that the items of an array make. -/
def Draft.ofItems (d : Draft) : Except DecodeError FilePatch :=
  match d.file with
  | some file => .ok ⟨file, d.canBeMissing, d.rules⟩
  | none => .error (.invalidLength 0 "struct FilePatch with 3 elements")

/-- A file patch, as an object or as an array of its fields. -/
def decode : Decoder FilePatch
  | .object members => do
    (← members.foldlM (fun d (name, v) => Draft.read d name v) Draft.start).ofMembers
  | .array items => do
    let d ← (fields.zip items).foldlM (fun d (name, v) => Draft.read d name v) Draft.start
    let p ← d.ofItems
    if items.length ≤ fields.length then .ok p
    else .error (.invalidLength items.length "fewer elements in array")
  | v => mistyped "struct FilePatch" v

end FilePatch

/-! ## 3. Targets and descriptors -/

/-- One identifier, or an array of them. -/
def ExtensionIds.decode? : Json → Option ExtensionIds
  | .string id => some (.one id)
  | .array items => (items.mapM Json.string?).map .many
  | _ => none

/-- A target: an object with the one member that says which kind it is, or an array of just the
value of that member. -/
def Target.decode : Decoder Target
  | .object [("extension", v)] => extensions v
  | .object [("workbenchJs", .bool b)] => .ok (.bundledScript b)
  | .object [("bundledScript", .bool b)] => .ok (.bundledScript b)
  | .array [.bool b] => .ok (.bundledScript b)
  | .array [v] => extensions v
  | _ => .error (.noVariant "PatchTarget")
where
  extensions (v : Json) : Except DecodeError Target :=
    match ExtensionIds.decode? v with
    | some ids => .ok (.extensions ids)
    | none => .error (.noVariant "PatchTarget")

namespace Descriptor

/-- The members of a descriptor, in the order of their declaration. -/
def fields : List String := ["target", "patches"]

/-- A descriptor that is being read. -/
structure Draft where
  target : Option Target
  files : Option (List FilePatch)

/-- Reads one member. -/
def Draft.read (d : Draft) (name : String) (v : Json) : Except DecodeError Draft :=
  match name with
  | "target" => do return { d with target := some (← Target.decode v) }
  | "patches" => do return { d with files := some (← decodeList FilePatch.decode v) }
  | name => .error (.unknownField name fields)

/-- The descriptor before its first member. -/
def Draft.start : Draft := ⟨none, none⟩

/-- The descriptor that members make. -/
def Draft.ofMembers (d : Draft) : Except DecodeError Descriptor :=
  match d.target, d.files with
  | some target, some files => .ok ⟨target, files⟩
  | none, _ => .error (.missingField "target")
  | _, none => .error (.missingField "patches")

/-- The descriptor that the items of an array make. -/
def Draft.ofItems (d : Draft) : Except DecodeError Descriptor :=
  match d.target, d.files with
  | some target, some files => .ok ⟨target, files⟩
  | none, _ => .error (.invalidLength 0 "struct PatchDescription with 2 elements")
  | _, none => .error (.invalidLength 1 "struct PatchDescription with 2 elements")

/-- A descriptor, as an object or as an array of its fields. -/
def decode : Decoder Descriptor
  | .object members => do
    (← members.foldlM (fun d (name, v) => Draft.read d name v) Draft.start).ofMembers
  | .array items => do
    let d ← (fields.zip items).foldlM (fun d (name, v) => Draft.read d name v) Draft.start
    let descriptor ← d.ofItems
    if items.length ≤ fields.length then .ok descriptor
    else .error (.invalidLength items.length "fewer elements in array")
  | v => mistyped "struct PatchDescription" v

end Descriptor

end TextPatch
