/-
# Where a script says its source map is

The last `sourceMappingURL` comment of a script names its map.  A relative name is resolved against
the directory of the script; names of remote places and maps inside the comment are refused.
-/
import TextPatch.SourceMap.Error
import TextPatch.Text.Blank
import TextPatch.Text.Occurrence

namespace TextPatch.SourceMap

/-- What comes before the name of a map. -/
def urlMarker : Text := "//# sourceMappingURL=".toList

/-- What follows the last occurrence of a word. -/
def afterLast? (w : Text) : Text → Option Text
  | [] => none
  | c :: t =>
    match afterLast? w t with
    | some r => some r
    | none => if w.isPrefixOf (c :: t) then some ((c :: t).drop w.length) else none

/-- The name in the last comment, if there is one and it is not blank. -/
def mappingUrl? (script : Text) : Option String :=
  match afterLast? urlMarker script with
  | none => none
  | some t =>
    let url := Text.trim (t.takeWhile (· != '\n'))
    if url.isEmpty then none else some (String.ofList url)

/-- The path of the map of a script. -/
def locate (script : Path) (text : Text) : Except SourceMapError Path :=
  match mappingUrl? text with
  | none => .error .noMappingUrl
  | some url =>
    let t := url.toList
    if "file://".toList.isPrefixOf t then .ok ⟨String.ofList (t.drop 7)⟩
    else if Text.hasWord "://".toList t || "data:".toList.isPrefixOf t then
      .error (.unsupportedUrl url)
    else .ok (((script.parent?).getD ⟨"."⟩).join ⟨url⟩)

end TextPatch.SourceMap
