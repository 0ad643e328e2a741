/-
# Source maps

A source map lists the sources of a generated text, with their contents where it has them, and a
table of places: each entry ties a place of the generated text to a place of one of the sources.
`Document.find` picks a source by the end of its path.
-/
import TextPatch.SourceMap.Error

namespace TextPatch.SourceMap

/-- An entry of the table; lines and columns are zero-based. -/
structure Mapping where
  generatedLine : Nat
  generatedColumn : Nat
  /-- The number of the source. -/
  source : Nat
  sourceLine : Nat
  sourceColumn : Nat
  deriving DecidableEq, Repr, Inhabited

/-- A source map: as many contents as sources, and the table. -/
structure Document where
  sources : List String
  contents : List (Option String)
  mappings : List Mapping
  length_contents : contents.length = sources.length := by simp

/-- A source of a map that has a content. -/
structure SourceFile where
  index : Nat
  path : String
  content : String
  deriving DecidableEq, Repr

namespace Document

/-- The map of some sources; contents beyond the sources are dropped, missing ones are none. -/
def ofParts (sources : List String) (contents : List (Option String)) (mappings : List Mapping) :
    Document where
  sources := sources
  contents := (List.range sources.length).map fun i => (contents[i]?).join
  mappings := mappings

/-- The first source whose path ends with `hint`. -/
def find (d : Document) (hint : String) : Except SourceMapError SourceFile :=
  match d.sources.findIdx? fun path => hint.toList.isSuffixOf path.toList with
  | none => .error (.sourceNotFound hint)
  | some i =>
    let path := d.sources.getD i ""
    match (d.contents[i]?).join with
    | none => .error (.missingContent path)
    | some content => .ok ⟨i, path, content⟩

end Document

end TextPatch.SourceMap
