/-
# From places of sources to places of the generated text

A place of a source is given by its byte, or by needles to be found one at or behind the other, the
last of which starts at the place.  `Document.trace` finds the place's line and column, then the
last entry of the table for exactly that place, then the byte of the generated text at that entry's
line and column.

`Document.identifierAt` goes on to read the identifier that starts there.
-/
import TextPatch.SourceMap.Document
import TextPatch.Text.Position
import TextPatch.Text.Occurrence

namespace TextPatch

/-- A name in a generated text. -/
structure Identifier where
  offset : Nat
  name : String
  deriving DecidableEq, Repr

/-- A way to find the identifier that needles in a source stand for: it is given the generated text
and the needles. -/
abbrev Lookup := Text → List String → Except SourceMapError Identifier

namespace SourceMap

/-! ## 1. Places -/

/-- A place of a source. -/
inductive SourcePlace where
  | offset (n : Nat)
  | needles (needles : List String)
  deriving DecidableEq, Repr

/-- How messages name a place. -/
def SourcePlace.label : SourcePlace → String
  | offset n => s!"offset {n}"
  | needles ns => showQuotedList ns

/-- The byte at which the last of some needles starts, each found at or behind the one before it. -/
def chase (source : SourceFile) (cursor : Nat) :
    List String → Except SourceMapError Nat
  | [] => .ok cursor
  | needle :: rest =>
    match Text.findWord? needle.toList cursor source.content.toList with
    | none => .error (.needleNotFound needle source.path)
    | some n => chase source n rest

/-- The byte of a place. -/
def SourcePlace.byte (source : SourceFile) : SourcePlace → Except SourceMapError Nat
  | offset n => .ok n
  | needles ns => chase source 0 ns

/-- Whether an entry of the table is about a place of a source. -/
def Mapping.isAbout (m : Mapping) (source : Nat) (p : Position) : Bool :=
  m.source == source && m.sourceLine == p.line && m.sourceColumn == p.column

/-- The generated place of an entry. -/
def Mapping.generated (m : Mapping) : Position := ⟨m.generatedLine, m.generatedColumn⟩

/-! ## 2. Traces -/

/-- A place of a source together with the place that it has become. -/
structure Trace where
  source : SourceFile
  /-- The place in the source. -/
  place : Position
  /-- The place in the generated text. -/
  generated : Position
  /-- The byte of the generated text. -/
  offset : Nat
  deriving DecidableEq, Repr

/-- What messages say of a trace. -/
def Trace.label (t : Trace) (place : SourcePlace) : String :=
  "source map: " ++ t.source.path ++ " " ++ place.label ++
    s!" ({t.place.line}:{t.place.column}) -> generated " ++
    s!"{t.generated.line}:{t.generated.column} (offset {t.offset})"

namespace Document

/-- Follows a place of a source to the place of the generated text that it has become. -/
def trace (d : Document) (hint : String) (generated : Text) (target : SourcePlace) :
    Except SourceMapError Trace := do
  let source ← d.find hint
  let byte ← target.byte source
  let place := Position.ofOffset source.content.toList byte
  match d.mappings.reverse.find? fun m => m.isAbout source.index place with
  | none => .error (.noMapping source.path target.label place.line place.column)
  | some m =>
    match Position.offset? generated m.generated with
    | none => .error (.generatedOutOfRange m.generatedLine m.generatedColumn)
    | some offset => .ok ⟨source, place, m.generated, offset⟩

/-- What there is to tell about a lookup. -/
def lookupNotes (d : Document) (hint : String) (generated : Text) (needles : List String) :
    List String :=
  match d.trace hint generated (.needles needles) with
  | .ok t => [t.label (.needles needles)]
  | .error _ => []

end Document

/-! ## 3. Identifiers -/

/-- The characters of identifiers. -/
def isIdentifierChar (c : Char) : Bool := c.isAlphanum || c == '_' || c == '$'

namespace Document

/-- The identifier that starts at a byte of a generated text. -/
def readIdentifier (generated : Text) (offset : Nat) : Except SourceMapError Identifier :=
  match generated.splitAt? offset with
  | none => .error (.notAnIdentifier offset)
  | some (_, rest) =>
    let name := rest.takeWhile isIdentifierChar
    if name.isEmpty then .error (.notAnIdentifier offset)
    else .ok ⟨offset, String.ofList name⟩

/-- The identifier that needles in a source have become. -/
def identifierAt (d : Document) (hint : String) (generated : Text) (needles : List String) :
    Except SourceMapError Identifier := do
  let t ← d.trace hint generated (.needles needles)
  readIdentifier generated t.offset

/-- The lookup in one source of a map. -/
def lookup (d : Document) (hint : String) : Lookup := d.identifierAt hint

end Document

end SourceMap

end TextPatch
