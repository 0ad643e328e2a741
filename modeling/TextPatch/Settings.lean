/-
# Settings

The settings of the patcher are a TOML document.  All of them may be left out, and keys that are
not known do not matter.
-/
import TextPatch.Toml.Parser
import TextPatch.Patch.Loading

namespace TextPatch

/-- The name of the settings file that is looked for in the working directory. -/
def settingsFile : String := "bundle-patcher.toml"

/-- The settings of the patcher. -/
structure Settings where
  /-- The directory of the installed extensions. -/
  extensionsDir : Option Path
  /-- Patch sets that are applied after the downloaded ones. -/
  localPatches : List Path
  /-- The store of downloaded patch sets. -/
  downloadedPatches : Option Path
  /-- Whether failed patches are only noted. -/
  silentPatchErrors : Bool
  /-- The extensions that a running editor has loaded. -/
  activeExtensions : List String
  bundledScript : Option Path
  sourceMap : Option Path
  /-- Directories of extensions that come before the installed ones, by identifier in ascending
  order. -/
  extensionPaths : List (String × Path)
  deriving DecidableEq, Repr, Inhabited

namespace Settings

/-- The settings of an empty document. -/
def default : Settings := ⟨none, [], none, false, [], none, none, []⟩

/-- A string. -/
def string? : Toml → Option String
  | .string s => some s
  | _ => none

/-- A path, which is written as a string. -/
def path? (v : Toml) : Option Path := (string? v).map Path.mk

/-- A boolean. -/
def boolean? : Toml → Option Bool
  | .boolean b => some b
  | _ => none

/-- An array, each item read by `f`. -/
def list? (f : Toml → Option α) : Toml → Option (List α)
  | .array items => items.mapM f
  | _ => none

/-- Puts a key into ascending order. -/
def insertSorted (key : String) (v : Path) : List (String × Path) → List (String × Path)
  | [] => [(key, v)]
  | (k, w) :: rest =>
    if key < k then (key, v) :: (k, w) :: rest else (k, w) :: insertSorted key v rest

/-- A table of paths, in ascending order of the keys. -/
def paths? (v : Toml) : Option (List (String × Path)) := do
  let entries ← v.entries?
  let pairs ← entries.mapM fun (key, v) => (path? v).map fun p => (key, p)
  return pairs.foldl (fun sorted (key, p) => insertSorted key p sorted) []

/-- Reads one entry. -/
def read (s : Settings) (key : String) (v : Toml) : Option Settings :=
  match key with
  | "extensions_dir" => (path? v).map fun x => { s with extensionsDir := some x }
  | "local_patches" => (list? path? v).map fun x => { s with localPatches := x }
  | "downloaded_patches" => (path? v).map fun x => { s with downloadedPatches := some x }
  | "silent_patch_errors" => (boolean? v).map fun x => { s with silentPatchErrors := x }
  | "active_extensions" => (list? string? v).map fun x => { s with activeExtensions := x }
  | "bundled_script" => (path? v).map fun x => { s with bundledScript := some x }
  | "source_map" => (path? v).map fun x => { s with sourceMap := some x }
  | "extension_paths" => (paths? v).map fun x => { s with extensionPaths := x }
  | _ => some s

/-- The settings of a text. -/
def load (t : Text) : Except ConfigError Settings :=
  match (Toml.parse? t).bind fun doc =>
      doc.entries.foldlM (fun s (key, v) => read s key v) default with
  | some s => .ok s
  | none => .error (.toml none)

/-- The directory of the installed extensions: the one that is set, or the one that the editor has
in the home directory. -/
def resolvedExtensionsDir (s : Settings) (home : Option Path) : Option Path :=
  match s.extensionsDir with
  | some dir => some (dir.expandHome home)
  | none => home.map fun h => (h.join ⟨".vscode"⟩).join ⟨"extensions"⟩

end Settings

end TextPatch
