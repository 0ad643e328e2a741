/-
# Remembering source maps

Source maps are large, so a map that has been loaded is remembered under its path without links and
not read again.  At most `memoryLimit` maps are remembered; when one more comes, all others are
forgotten.  A map that cannot be loaded is not remembered.

Paths are compared by their components, so a slash behind a path does not count.
-/
import TextPatch.Host
import TextPatch.SourceMap.Reading
import TextPatch.SourceMap.Url

namespace TextPatch.SourceMap

/-- The greatest number of maps that are remembered. -/
def memoryLimit : Nat := 16

/-- The document that some bytes hold. -/
def Document.ofBytes (bytes : ByteArray) : Except MapFault Document :=
  match String.fromUTF8? bytes with
  | some s => Document.ofText s.toList
  | none => .error .badJson

/-- The map that is remembered under a path. -/
def remembered? (maps : MapMemory) (path : Path) : Option Document :=
  (maps.find? fun entry => entry.1.components == path.components).map Prod.snd

/-- The maps that are remembered once one more has been loaded. -/
def remember (maps : MapMemory) (path : Path) (d : Document) : MapMemory :=
  if memoryLimit ≤ maps.length then [(path, d)] else maps ++ [(path, d)]

variable {m : Type → Type} [Monad m] [Host m]

/-- Reads the map in a file. -/
def readDocument (path : Path) : m (Except SourceMapError Document) := do
  match ← Host.read path with
  | .error e => return .error (.io path e)
  | .ok bytes =>
    match Document.ofBytes bytes with
    | .error fault => return .error (.parse path fault)
    | .ok d => return .ok d

/-- The path that a map is remembered under: without links if the file exists. -/
def memoryKey (path : Path) : m Path := do
  match ← Host.canonicalPath path with
  | .ok canonical => return canonical
  | .error _ => return path

/-- Reads the map in a file and remembers it under `key`. -/
def readAndRemember (key path : Path) : m (Except SourceMapError Document) := do
  match ← readDocument path with
  | .error e => return .error e
  | .ok d =>
    Host.note .debug ("loaded source map " ++ path.text ++
      s!" ({d.sources.length} sources, {d.mappings.length} mappings)")
    Host.setMaps (remember (← Host.maps) key d)
    return .ok d

/-- The map in a file, read unless it is remembered. -/
def load (path : Path) : m (Except SourceMapError Document) := do
  let key ← memoryKey path
  match remembered? (← Host.maps) key with
  | some d => return .ok d
  | none => readAndRemember key path

/-- Forgets all maps. -/
def forget : m Unit := Host.setMaps []

/-- A way to come by the source map of a script: it is given the path and the text of the script. -/
abbrev Provider (m : Type → Type) := Path → Text → m (Except SourceMapError Document)

/-- Takes the map from the given file, or else from the file that the script names. -/
def fromFiles (explicit : Option Path) : Provider m := fun script text =>
  match explicit with
  | some path => load path
  | none =>
    match locate script text with
    | .ok path => load path
    | .error e => return .error e

/-- Answers the same for all scripts. -/
def fixed (answer : Except SourceMapError Document) : Provider m := fun _ _ => return answer

end TextPatch.SourceMap
