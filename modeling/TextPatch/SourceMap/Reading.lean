/-
# Reading source maps

A source map is a document with members of fixed types, all of which may be left out or `null`.
Members that are not known are passed over.  A line in front of the document that begins with a
closing bracket or a quote is a header and is dropped.

`Document.ofText` decodes a map: it reads the members, then the mapping table, and puts the root of
the sources in front of their paths.  A map made up of sections, or with scopes, is decoded as far
as it can be and then refused.
-/
import TextPatch.SourceMap.Segment
import TextPatch.Json.Skip

namespace TextPatch.SourceMap

open Json

/-! ## 1. The header -/

/-- The text from the first line feed on.  A carriage return must be followed by a line feed. -/
def afterHeader : Text → Except MapFault Text
  | [] => .ok []
  | '\n' :: t => .ok ('\n' :: t)
  | '\r' :: c :: t => if c = '\n' then .ok (c :: t) else .error .badHeader
  | _ :: t => afterHeader t

/-- The text without a header. -/
def dropHeader (t : Text) : Except MapFault Text :=
  match t with
  | c :: _ => if [')', ']', '\x7d', '\''].contains c then afterHeader t else .ok t
  | [] => .ok t

/-! ## 2. Members -/

/-- Whether every item of an array passes a check. -/
def allItems (check : Json → Bool) : Json → Bool
  | .array items => items.all check
  | _ => false

/-- Whether a value is `null` or passes a check. -/
def orNull (check : Json → Bool) : Json → Bool
  | .null => true
  | v => check v

/-- Whether a value is a natural number below `2 ^ 32`. -/
def isWord (v : Json) : Bool :=
  match v with
  | .number (.integer n) => 0 ≤ n && n < UInt32.size
  | _ => false

/-- Whether a value is a string. -/
def isString (v : Json) : Bool := v.string?.isSome

/-- Whether a text is a number in hexadecimal digits below `2 ^ 32`; it may have a plus sign. -/
def isHexWord (t : Text) : Bool :=
  let ds := match t with
    | '+' :: r => r
    | r => r
  !ds.isEmpty && ds.all Text.isHexDigit &&
    (ds.dropWhile (· == '0')).length ≤ 8

/-- Whether a text is a universally unique identifier, with or without hyphens. -/
def isUuid (t : Text) : Bool :=
  if t.length = 36 then
    (Text.fields '-' t).map List.length == [8, 4, 4, 4, 12] && (Text.fields '-' t).all fun s => s.all Text.isHexDigit
  else t.length == 32 && t.all Text.isHexDigit

/-- Whether a text identifies debug information: a time stamp and an age, or a universally unique
identifier that an age may follow. -/
def isDebugId (t : Text) : Bool :=
  let hyphenated := t[8]? == some '-'
  if !t.all (fun c => c.toNat ≤ 0x7F) then false
  else if 9 ≤ t.length ∧ t.length ≤ 16 ∧ !hyphenated then
    isHexWord (t.take 8) && isHexWord (t.drop 8)
  else
    let n := if hyphenated then 36 else 32
    let age := t.drop n
    isUuid (t.take n) &&
      (age.isEmpty ||
        match hyphenated, age with
        | true, '-' :: r => isHexWord r
        | true, _ => false
        | false, r => r.head? != some '-' && isHexWord r)

/-- A map as it is written. -/
inductive RawMap where
  | mk (members : List (String × Json)) (sections : Option (List (Option RawMap)))
    (hasScopes : Bool)

/-- What a member holds: a document of the right type, the maps of the sections, or scopes. -/
inductive RawMember where
  | plain (v : Json)
  | sections (maps : Option (List (Option RawMap)))
  | scopes (present : Bool)

/-- The members of a map, in the order of their declaration. -/
def mapMembers : List String :=
  ["version", "file", "sources", "sourceRoot", "sourcesContent", "sections", "names",
    "rangeMappings", "mappings", "ignoreList", "x_facebook_offsets", "x_metro_module_paths",
    "x_facebook_sources", "debugId", "debug_id"]

/-- Whether the value of a member has its type. -/
def isMember (name : String) (v : Json) : Bool :=
  match name with
  | "version" => orNull isWord v
  | "file" => true
  | "sources" => orNull (allItems (orNull isString)) v
  | "sourceRoot" => orNull isString v
  | "sourcesContent" => orNull (allItems (orNull isString)) v
  | "names" => orNull (allItems fun _ => true) v
  | "rangeMappings" => orNull isString v
  | "mappings" => orNull isString v
  | "ignoreList" => orNull (allItems isWord) v
  | "x_facebook_offsets" => orNull (allItems (orNull isWord)) v
  | "x_metro_module_paths" => orNull (allItems isString) v
  | "debugId" => orNull (fun v => v.string?.any fun s => isDebugId s.toList) v
  | "debug_id" => orNull (fun v => v.string?.any fun s => isDebugId s.toList) v
  | _ => false

/-- A document that passes a check, with `depth` more levels of containers allowed. -/
def checked (depth : Nat) (check : Json → Bool) (t : Text) : Option (Json × Text) :=
  match Read.value false (Read.fuelFor t) depth t with
  | .ok (v, t) => if check v then some (v, t) else none
  | .error _ => none

/-- The items of an array, each read by `read`, from behind the bracket or from behind an item. -/
def arrayItems (read : Text → Option (α × Text)) :
    (fuel : Nat) → (first : Bool) → Text → Option (List α × Text)
  | 0, _, _ => none
  | fuel + 1, first, t => do
    match Read.skipBlanks t, first with
    | ']' :: t, _ => some ([], t)
    | ',' :: t, false =>
      let (a, t) ← read t
      let (rest, t) ← arrayItems read fuel false t
      return (a :: rest, t)
    | t, true =>
      let (a, t) ← read t
      let (rest, t) ← arrayItems read fuel false t
      return (a :: rest, t)
    | _, _ => none

/-- An array, each item read by `read`. -/
def arrayOf (read : Text → Option (α × Text)) (t : Text) : Option (List α × Text) :=
  match Read.skipBlanks t with
  | '[' :: t => arrayItems read (t.length + 1) true t
  | _ => none

/-- `null`, or what `read` reads. -/
def optional (read : Text → Option (α × Text)) (t : Text) : Option (Option α × Text) :=
  match Read.skipBlanks t with
  | 'n' :: t => ((Read.word false ['u', 'l', 'l'] t).toOption).map fun t => (none, t)
  | t => (read t).map fun (a, t) => (some a, t)

/-- A record all of whose members must be there and pass a check. -/
def fullRecord (depth : Nat) (members : List (String × (Json → Bool))) (t : Text) :
    Option (Unit × Text) := do
  let names := members.map Prod.fst
  let (found, t) ← Read.record names
    (fun name t => checked depth ((members.lookup name).getD fun _ => false) t) t
  if names.all fun name => found.any fun m => m.1 == name then some ((), t) else none

/-- The scopes of one source. -/
def scope (depth : Nat) : Text → Option (Unit × Text) :=
  fullRecord depth [("names", allItems isString), ("mappings", isString)]

mutual

/-- A map, with `depth` more levels of containers allowed. -/
def rawMap : (fuel depth : Nat) → Text → Option (RawMap × Text)
  | 0, _, _ => none
  | _, 0, _ => none
  | fuel + 1, depth + 1, t => do
    let read (name : String) (t : Text) : Option (RawMember × Text) :=
      match name with
      | "sections" =>
        if depth = 0 then none
        else (optional (arrayOf (rawSection fuel (depth - 1))) t).map fun (s, t) => (.sections s, t)
      | "x_facebook_sources" =>
        if depth < 3 then none
        else (optional (arrayOf (optional (arrayOf (scope (depth - 3))))) t).map fun (s, t) =>
          (.scopes s.isSome, t)
      | name => (checked depth (isMember name) t).map fun (v, t) => (.plain v, t)
    let (found, t) ← Read.record mapMembers read t
    let plain := found.filterMap fun (name, m) => match m with
      | .plain v => some (name, v)
      | _ => none
    let sections := found.findSome? fun (_, m) => match m with
      | .sections s => s
      | _ => none
    let hasScopes := found.any fun (_, m) => match m with
      | .scopes present => present
      | _ => false
    return (.mk plain sections hasScopes, t)

/-- A section: where it starts, and the map of it if there is one. -/
def rawSection : (fuel depth : Nat) → Text → Option (Option RawMap × Text)
  | 0, _, _ => none
  | _, 0, _ => none
  | fuel + 1, depth + 1, t => do
    let read (name : String) (t : Text) : Option (Option RawMap × Text) :=
      match name with
      | "offset" =>
        if depth = 0 then none
        else (fullRecord (depth - 1) [("line", isWord), ("column", isWord)] t).map fun (_, t) =>
          (none, t)
      | "map" => optional (rawMap fuel depth) t
      | _ => (checked depth (orNull isString) t).map fun (_, t) => (none, t)
    let (found, t) ← Read.record ["offset", "url", "map"] read t
    if found.any fun m => m.1 == "offset" then
      some (found.findSome? fun (_, m) => m, t)
    else none

end

/-! ## 3. Documents -/

namespace RawMap

/-- The value of a member; `null` if it is left out. -/
def get (members : List (String × Json)) (name : String) : Json :=
  (members.lookup name).getD .null

/-- The text of a member; empty if it is left out. -/
def text (members : List (String × Json)) (name : String) : String :=
  ((get members name).string?).getD ""

/-- The items of a member; none if it is left out. -/
def list (members : List (String × Json)) (name : String) : List Json :=
  ((get members name).items?).getD []

/-- A source with the root of the sources in front, unless it is a place of its own. -/
def rooted (root source : String) : String :=
  if root.isEmpty || source.startsWith "/" || source.startsWith "http:" ||
      source.startsWith "https:" then source
  else
    let r := root.toList
    String.ofList (if r.getLast? == some '/' then r.dropLast else r) ++ "/" ++ source

/-- The document of a map that stands alone. -/
def plainDocument (members : List (String × Json)) : Except MapFault Document := do
  let sources := (list members "sources").map fun v => (v.string?).getD ""
  let names := list members "names"
  let mappings ← readTable ⟨sources.length, names.length⟩ (text members "mappings").toList
    (text members "rangeMappings").toList
  return Document.ofParts (sources.map (rooted (text members "sourceRoot")))
    ((list members "sourcesContent").map Json.string?) mappings

mutual

/-- The document of a map.  Faults of the parts come before the refusal of what is made of them. -/
def document : RawMap → Except MapFault Document
  | .mk _ (some parts) _ => do
    checkParts parts
    .error .incompatible
  | .mk members none hasScopes => do
    let d ← plainDocument members
    if hasScopes then .error .incompatible else .ok d

/-- Looks for faults in the maps of sections. -/
def checkParts : List (Option RawMap) → Except MapFault Unit
  | [] => .ok ()
  | none :: rest => checkParts rest
  | some m :: rest => do
    match document m with
    | .error .incompatible => checkParts rest
    | .error e => .error e
    | .ok _ => checkParts rest

end

end RawMap

namespace Document

/-- The document that a text holds. -/
def ofText (t : Text) : Except MapFault Document := do
  let t ← dropHeader t
  match rawMap (t.length + 1) Read.deepest t with
  | none => .error .badJson
  | some (m, rest) => if (Read.skipBlanks rest).isEmpty then m.document else .error .badJson

end Document

end TextPatch.SourceMap
