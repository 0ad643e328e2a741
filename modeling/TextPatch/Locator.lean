/-
# Finding extensions

An extension is named `publisher.name`.  A scan of a directory finds the extensions in it by their
manifests; several of them may be versions of the same extension, and the highest one counts.
Directories that are given for a name (*overrides*) come before the scan.

Names are compared without regard to the case of ASCII letters, except where an override is looked
up.
-/
import TextPatch.Manifest
import TextPatch.Text.Blank
import TextPatch.Version

namespace TextPatch

/-- An extension that has been found. -/
structure InstalledExtension where
  /-- The name that was asked for. -/
  id : String
  root : Path
  /-- Whether a running editor has loaded the extension. -/
  isActive : Bool
  deriving DecidableEq, Repr

/-- An extension that a scan has found. -/
structure ScannedExtension where
  id : String
  version : String
  root : Path
  deriving DecidableEq, Repr

/-- The extensions of a directory. -/
structure ExtensionDirectory where
  scanned : List ScannedExtension
  /-- Directories that come before the scan, by name in ascending order. -/
  overrides : List (String × Path)
  /-- The names of the extensions that a running editor has loaded. -/
  active : List String
  deriving DecidableEq, Repr

namespace ExtensionDirectory

/-- Whether an extension is loaded by a running editor. -/
def isActive (d : ExtensionDirectory) (id : String) : Bool :=
  d.active.any fun name => equalsIgnoringAsciiCase name id

/-- The one of two extensions that counts: the second unless the first has the higher version. -/
def newer (a b : ScannedExtension) : ScannedExtension :=
  match (VersionKey.ofString a.version).compareTo (VersionKey.ofString b.version) with
  | .gt => a
  | _ => b

/-- The last of the extensions with the highest version. -/
def newest : List ScannedExtension → Option ScannedExtension
  | [] => none
  | a :: rest => some (rest.foldl newer a)

/-- The extensions of a name that the scan has found. -/
def candidates (d : ExtensionDirectory) (id : String) : List ScannedExtension :=
  d.scanned.filter fun e => equalsIgnoringAsciiCase e.id id

/-- The root of the extension of a name. -/
def rootOf (d : ExtensionDirectory) (id : String) : Option Path :=
  match d.overrides.lookup id with
  | some root => some root
  | none => (newest (d.candidates id)).map ScannedExtension.root

/-- The extension of a name. -/
def find (d : ExtensionDirectory) (id : String) : Option InstalledExtension :=
  (d.rootOf id).map fun root => ⟨id, root, d.isActive id⟩

/-- Adds the names of extensions that are not among the names yet. -/
def addNames (names : List String) : List ScannedExtension → List String
  | [] => names
  | e :: rest =>
    addNames (if names.any fun name => equalsIgnoringAsciiCase name e.id then names
      else names ++ [e.id]) rest

/-- All extensions: the overrides, then those of the scan. -/
def installed (d : ExtensionDirectory) : List InstalledExtension :=
  (addNames (d.overrides.map Prod.fst) d.scanned).filterMap d.find

/-- The extension that a manifest describes, if it has a publisher and a name. -/
def ofManifest (root : Path) (d : Manifest) : Option ScannedExtension := do
  let publisher ← d.stringField "publisher"
  let name ← d.stringField "name"
  return ⟨publisher ++ "." ++ name, (d.stringField "version").getD "", root⟩

variable {m : Type → Type} [Monad m] [Host m]

/-- The extension in a directory, if there is one. -/
def inspectRoot (root : Path) : m (Option ScannedExtension) := do
  if ← Host.isFile (root.join manifestFile) then
    match ← Manifest.read root with
    | .ok manifest => return ofManifest root manifest
    | .error e =>
      Host.note .debug ("skipping " ++ root.text ++ ": " ++ e.message)
      return none
  else return none

/-- The extensions in directories, in order. -/
def inspectRoots : List Path → m (List ScannedExtension)
  | [] => return []
  | root :: rest => do
    let found ← inspectRoot root
    let others ← inspectRoots rest
    return found.toList ++ others

/-- The extensions in a directory, in the order of their names.  There are none if the directory
does not exist. -/
def scan (dir : Path) : m (List ScannedExtension) := do
  if ← Host.isDirectory dir then
    let names ← Host.subdirectories dir
    let scanned ← inspectRoots (names.map fun name => dir.join ⟨name⟩)
    Host.note .debug (s!"found {scanned.length} extension(s) in " ++ dir.text)
    return scanned
  else
    Host.note .warning ("extensions directory " ++ dir.text ++ " does not exist")
    return []

end ExtensionDirectory

end TextPatch
