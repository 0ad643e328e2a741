/-
# Reading values of known types

A document is read as a value of some type by a function into `Except DecodeError`.  A
`DecodeError` names what was found and what was expected.  Members are read in document order, so
the first offending member decides; a member that is missing is noticed at the end.

A record may also be written as an array of its fields in the order of their declaration.
-/
import TextPatch.Json.Printer
import TextPatch.Text.Quoted

namespace TextPatch

/-- Why a document does not hold a value of the wanted type. -/
inductive DecodeError where
  | missingField (name : String)
  | unknownField (name : String) (known : List String)
  | duplicateField (name : String)
  | unknownVariant (name : String) (known : List String)
  /-- Something of the wrong kind; `found` describes it. -/
  | invalidType (found expected : String)
  | invalidValue (found expected : String)
  | invalidLength (length : Nat) (expected : String)
  /-- None of the forms that a type can take fits. -/
  | noVariant (type : String)
  deriving DecidableEq, Repr

namespace DecodeError

/-- A name between backward ticks. -/
def ticked (name : String) : String := "\x60" ++ name ++ "\x60"

/-- A choice between names. -/
def oneOf : List String → String
  | [] => "there are no fields"
  | [a] => "expected " ++ ticked a
  | [a, b] => "expected " ++ ticked a ++ " or " ++ ticked b
  | names => "expected one of " ++ String.intercalate ", " (names.map ticked)

/-- The wording of an error. -/
def message : DecodeError → String
  | missingField name => "missing field " ++ ticked name
  | unknownField name known => "unknown field " ++ ticked name ++ ", " ++ oneOf known
  | duplicateField name => "duplicate field " ++ ticked name
  | unknownVariant name known => "unknown variant " ++ ticked name ++ ", " ++ oneOf known
  | invalidType found expected => "invalid type: " ++ found ++ ", expected " ++ expected
  | invalidValue found expected => "invalid value: " ++ found ++ ", expected " ++ expected
  | invalidLength length expected => s!"invalid length {length}, expected " ++ expected
  | noVariant type => "data did not match any variant of untagged enum " ++ type

end DecodeError

namespace Json

/-- What messages call a document. -/
def describe : Json → String
  | .null => "null"
  | .bool b => "boolean " ++ DecodeError.ticked (toString b)
  | .number (.integer n) => "integer " ++ DecodeError.ticked (toString n)
  | .number (.real x) => "floating point " ++ DecodeError.ticked (String.ofList (realText x))
  | .string s => "string " ++ showQuoted s
  | .array _ => "sequence"
  | .object _ => "map"

/-- A reader of values of a type. -/
abbrev Decoder (α : Type) := Json → Except DecodeError α

/-- The error for a document of the wrong kind. -/
def mistyped (expected : String) (v : Json) : Except DecodeError α :=
  .error (.invalidType v.describe expected)

/-- A string. -/
def decodeString : Decoder String
  | .string s => .ok s
  | v => mistyped "a string" v

/-- A boolean. -/
def decodeBool : Decoder Bool
  | .bool b => .ok b
  | v => mistyped "a boolean" v

/-- A signed integer of 64 bits. -/
def decodeInt64 : Decoder Int64
  | .number (.integer n) =>
    if -0x8000000000000000 ≤ n ∧ n < 0x8000000000000000 then .ok (Int64.ofInt n)
    else .error (.invalidValue (describe (.number (.integer n))) "i64")
  | v => mistyped "i64" v

/-- A value that `null` leaves out. -/
def decodeOption (f : Decoder α) : Decoder (Option α)
  | .null => .ok none
  | v => (f v).map some

/-- An array, each item read by `f`. -/
def decodeList (f : Decoder α) : Decoder (List α)
  | .array items => items.mapM f
  | v => mistyped "a sequence" v

/-- One of the words of a list: as a string, or as the key of a lone `null`. -/
def decodeWord (words : List (String × α)) : Decoder α
  | .string s => pick s
  | .object [(s, v)] => do
    let a ← pick s
    match v with
    | .null => .ok a
    | v => mistyped "unit" v
  | .object _ => .error (.invalidValue "map" "map with a single key")
  | v => mistyped "string or map" v
where
  pick (s : String) : Except DecodeError α :=
    match words.lookup s with
    | some a => .ok a
    | none => .error (.unknownVariant s (words.map Prod.fst))

end Json

end TextPatch
