/-
# Failures of source maps

`MapFault` says why a file is no source map, `SourceMapError` why a place of a source cannot be
followed to the generated text.
-/
import TextPatch.Files.IoError
import TextPatch.Files.Path
import TextPatch.Text.Quoted

namespace TextPatch

/-- Why a document is no source map that can be used. -/
inductive MapFault where
  /-- The document, or one of its fields, does not have the form of a source map. -/
  | badJson
  /-- A number of a segment is cut off. -/
  | leftover
  /-- A segment holds no number. -/
  | noValues
  /-- A number of a segment is too long. -/
  | overflow
  /-- A segment holds `count` numbers. -/
  | badSegmentSize (count : Nat)
  | badSourceReference (index : Nat)
  | badNameReference (index : Nat)
  /-- The map is made up of others, or carries scopes. -/
  | incompatible
  | invalidBase64 (c : Char)
  /-- The header in front of the document does not end with its line. -/
  | badHeader
  deriving DecidableEq, Repr

namespace MapFault

/-- The wording of a fault. -/
def message : MapFault → String
  | badJson => "bad json: the document is not a source map"
  | leftover => "leftover cur/shift in vlq decode"
  | noValues => "vlq decode did not produce any values"
  | overflow => "vlq decode caused an overflow"
  | badSegmentSize count => s!"got {count} segments, expected 4 or 5"
  | badSourceReference index => s!"bad reference to source #{index}"
  | badNameReference index => s!"bad reference to name #{index}"
  | incompatible => "encountered incompatible sourcemap format"
  | invalidBase64 c => s!"invalid base64 character: {c}"
  | badHeader => "expected newline"

end MapFault

/-- Why a place of a source cannot be followed to the generated text. -/
inductive SourceMapError where
  | sourceNotFound (hint : String)
  | missingContent (sourcePath : String)
  | needleNotFound (needle sourcePath : String)
  | noMapping (sourcePath place : String) (line column : Nat)
  | generatedOutOfRange (line column : Nat)
  | notAnIdentifier (offset : Nat)
  | noMappingUrl
  | unsupportedUrl (url : String)
  | unavailable
  | io (path : Path) (cause : IoError)
  | parse (path : Path) (cause : MapFault)
  deriving DecidableEq, Repr

namespace SourceMapError

/-- The wording of an error. -/
def message : SourceMapError → String
  | sourceNotFound hint => s!"source file not found in source map: {hint}"
  | missingContent path => s!"source map carries no embedded content for {path}"
  | needleNotFound needle path =>
    "cannot find " ++ showQuoted needle ++ " in original source " ++ path
  | noMapping path place line column =>
    "couldn't find generated position in " ++ path ++ " for " ++ place ++
      s!" (line {line}, column {column})"
  | generatedOutOfRange line column =>
    s!"generated line {line}, column {column} lies outside the generated text"
  | notAnIdentifier offset => s!"generated offset {offset} is not a valid identifier"
  | noMappingUrl => "generated script has no sourceMappingURL comment"
  | unsupportedUrl url =>
    s!"source map URL {url} cannot be loaded locally; pass the map path explicitly"
  | unavailable => "no source map available for source-mapped needles"
  | io path cause => "I/O error reading source map " ++ path.text ++ ": " ++ cause.message
  | parse path cause => "failed to parse source map " ++ path.text ++ ": " ++ cause.message

end SourceMapError

end TextPatch
