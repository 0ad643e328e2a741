/-
# Commands

What the commands of the patcher do, and what they print.  A command ends with an exit code, or with
a complaint.
-/
import TextPatch.CommandLine.Arguments
import TextPatch.CommandLine.Complaint
import TextPatch.Diff.Unified
import TextPatch.Inspect
import TextPatch.Restore
import TextPatch.Settings

namespace TextPatch

namespace PatchSet

variable {m : Type → Type} [Monad m] [Host m]

/-- The patch set in a file. -/
def loadFile (path : Path) : m (Except ConfigError PatchSet) := do
  match ← Host.readText path with
  | .error cause => return .error (.io path cause)
  | .ok text =>
    match load text.toList with
    | .error e => return .error (e.inFile path)
    | .ok s => return .ok s

end PatchSet

namespace Settings

variable {m : Type → Type} [Monad m] [Host m]

/-- The settings in a file. -/
def loadFile (path : Path) : m (Except ConfigError Settings) := do
  match ← Host.readText path with
  | .error cause => return .error (.io path cause)
  | .ok text =>
    match load text.toList with
    | .error e => return .error (e.inFile path)
    | .ok s => return .ok s

end Settings

namespace CommandLine

variable {m : Type → Type} [Monad m] [Host m]

/-! ## 1. What commands start from -/

/-- The settings: those of the file that is asked for, or of the one in the working directory, or
those of an empty one. -/
def findSettings (config : Option Path) : m (Except Complaint Settings) := do
  match config with
  | some path => return (← Settings.loadFile path).mapError Complaint.ofConfig
  | none =>
    if ← Host.isFile ⟨settingsFile⟩ then
      return (← Settings.loadFile ⟨settingsFile⟩).mapError Complaint.ofConfig
    else return .ok .default

/-- A path with the home directory in the place of a leading `~`. -/
def expand (p : Path) : m Path := do return p.expandHome (← Host.home)

/-- Loads a patch set; `what` says what it is in complaints. -/
def loadSet (what : String) (path : Path) : m (Except Complaint PatchSet) := do
  let path ← expand path
  match ← PatchSet.loadFile path with
  | .ok s => return .ok s
  | .error e =>
    return .error (.because ("failed to load " ++ what ++ " " ++ path.text) (.ofConfig e))

/-- Loads patch sets from their files, up to the first that cannot be loaded. -/
def loadSets : List (PatchSource × Path) → m (Except Complaint (List (PatchSource × PatchSet)))
  | [] => return .ok []
  | (source, path) :: rest => do
    let what := match source with
      | .remote => "downloaded patches"
      | .here => "patch set"
    match ← loadSet what path with
    | .error c => return .error c
    | .ok s =>
      match ← loadSets rest with
      | .error c => return .error c
      | .ok others => return .ok ((source, s) :: others)

/-- The patch sets to apply, the downloaded ones first. -/
def findSets (s : Settings) (patches : List Path) (downloaded : Option Path) :
    m (Except Complaint (List (PatchSource × PatchSet))) := do
  let locals := if patches.isEmpty then s.localPatches else patches
  let remote := (downloaded <|> s.downloadedPatches).toList
  let sets := remote.map (PatchSource.remote, ·) ++ locals.map (PatchSource.here, ·)
  if sets.isEmpty then
    return .error (.ofMessage
      ("No patch sets configured. Pass --patches or set local_patches in " ++ settingsFile))
  else loadSets sets

/-- The overrides of the settings. -/
def expandAll : List (String × Path) → m (List (String × Path))
  | [] => return []
  | (id, path) :: rest => do return (id, ← expand path) :: (← expandAll rest)

/-- The directory of the installed extensions. -/
def extensionsDir (s : Settings) (dir : Option Path) : m (Option Path) := do
  match dir with
  | some dir => return some (← expand dir)
  | none => return s.resolvedExtensionsDir (← Host.home)

/-- The extensions that are known. -/
def findExtensions (s : Settings) (dir : Option Path) :
    m (Except Complaint ExtensionDirectory) := do
  match ← extensionsDir s dir with
  | none =>
    return .error (.ofMessage
      "Could not determine the extensions directory; pass --extensions-dir")
  | some dir =>
    let overrides ← expandAll s.extensionPaths
    return .ok ⟨← ExtensionDirectory.scan dir, overrides, s.activeExtensions⟩

/-- The extensions of some names.  Names that are not known are told. -/
def findEach (d : ExtensionDirectory) : List String → m (List InstalledExtension)
  | [] => return []
  | id :: rest => do
    match d.find id with
    | some extension => return extension :: (← findEach d rest)
    | none =>
      Host.printLine .messages ("⊘ " ++ id ++ ": not installed")
      findEach d rest

/-- The extensions of some names, or all if there are none. -/
def selected (d : ExtensionDirectory) (ids : List String) : m (List InstalledExtension) :=
  if ids.isEmpty then return d.installed else findEach d ids

/-! ## 2. Applying -/

/-- What might help with a failure. -/
def hint : ApplicationError → List String
  | .edit file _ =>
    ["  File: " ++ file, "  Possible causes:",
      "    - The extension was updated and the needle text changed",
      "    - The rule should be marked patchOptional"]
  | .missingFile path =>
    ["  File: " ++ path.text, "  Action: set fileCanBeMissing if the file is optional"]
  | _ => []

/-- Prints lines. -/
def printLines (c : Channel) (ls : List String) : m Unit := ls.forM (Host.printLine c)

/-- Prints what became of a descriptor. -/
def printOutcome (silent : Bool) (o : PatchOutcome) : m Unit :=
  match o.result with
  | .ok (.applied target files) =>
    printLines .output (("✓ " ++ o.identity ++ ": Applied to " ++ target) ::
      files.map fun file => "  " ++ file)
  | .ok (.alreadyApplied target) =>
    Host.printLine .output ("⊙ " ++ o.identity ++ ": Already applied to " ++ target)
  | .ok (.targetNotInstalled target) =>
    Host.note .debug (o.identity ++ ": " ++ target ++ " is not installed")
  | .error e =>
    if silent then Host.note .debug (o.identity ++ " on " ++ o.target ++ ": " ++ e.message)
    else printLines .messages
      (("✗ " ++ o.identity ++ " on " ++ o.target ++ ": Error - " ++ e.message) :: hint e)

/-- Prints a failure that concerns a whole extension. -/
def printTargetError (silent : Bool) (target : String) (e : ApplicationError) : m Unit :=
  if silent then Host.note .debug (target ++ ": " ++ e.message)
  else Host.printLine .messages ("✗ " ++ target ++ ": Error - " ++ e.message)

/-- The lines that sum up a report. -/
def applySummary (r : ApplyReport) : List String :=
  ["", "Summary:", s!"  {r.appliedCount} applied",
    s!"  {r.outcomes.countP PatchOutcome.isSkipped} already applied",
    s!"  {r.outcomes.countP PatchOutcome.isNotInstalled} not installed",
    s!"  {r.failureCount + r.targetErrors.length} failed"] ++
  if r.needsRestart then
    ["", "Patched extensions are active; restart the editor to load the changes."]
  else []

/-- Prints a report. -/
def printReport (silent : Bool) (r : ApplyReport) : m Unit := do
  r.outcomes.forM (printOutcome silent)
  r.targetErrors.forM fun (target, e) => printTargetError silent target e
  printLines .output (applySummary r)

/-- Applies patch sets, in order. -/
def applySets (d : ExtensionDirectory) : List (PatchSource × PatchSet) → m ApplyReport
  | [] => return .empty
  | (source, s) :: rest => do
    let report ← Apply.patchSet d.find source s
    let others ← applySets d rest
    return report.merge others

/-- Applies patch sets to the installed extensions. -/
def runApply (s : Settings) (patches : List Path) (downloaded dir : Option Path) :
    m (Except Complaint UInt32) := do
  match ← findSets s patches downloaded with
  | .error c => return .error c
  | .ok sets =>
    match ← findExtensions s dir with
    | .error c => return .error c
    | .ok d =>
      let report ← applySets d sets
      printReport s.silentPatchErrors report
      return .ok (if report.hasFailures && !s.silentPatchErrors then 1 else 0)

/-! ## 3. Taking back and telling -/

/-- Whether the record of an extension can be read and is not empty. -/
def isPatched (root : Path) : m Bool := do
  match ← Manifest.read root with
  | .ok manifest => return !manifest.applied.isEmpty
  | .error _ => return false

/-- Takes back the patches of an extension and prints what became of it.  Tells whether there were
any and all went well. -/
def unpatchOne (extension : InstalledExtension) : m Bool := do
  if ← isPatched extension.root then
    match ← Restore.extension extension.root with
    | .ok r =>
      printLines .output
        (("✓ " ++ extension.id ++
            s!": restored {r.restored.length} file(s), cleared {r.cleared} patch(es)") ::
          r.missingBackups.map fun file => "  ⊙ no backup for " ++ file)
      return true
    | .error e =>
      Host.printLine .messages ("✗ " ++ extension.id ++ ": Error - " ++ e.message)
      return false
  else return false

/-- Takes back the patches of extensions.  Tells whether any have been taken back. -/
def unpatchEach : List InstalledExtension → m Bool
  | [] => return false
  | extension :: rest => do
    let restored ← unpatchOne extension
    let others ← unpatchEach rest
    return restored || others

/-- Takes back the patches of the installed extensions. -/
def runUnpatch (s : Settings) (ids : List String) (dir : Option Path) :
    m (Except Complaint UInt32) := do
  match ← findExtensions s dir with
  | .error c => return .error c
  | .ok d =>
    let restored ← unpatchEach (← selected d ids)
    if !restored then Host.printLine .output "Nothing to restore"
    return .ok 0

/-- The lines about the record of an extension. -/
def statusLines (extension : InstalledExtension) (applied : List (String × List String)) :
    List String :=
  [(if applied.isEmpty then "⊘ " else "✓ ") ++ extension.id ++ s!" ({applied.length} patches)",
    "  " ++ extension.root.text] ++
  (applied.map fun (identity, files) =>
    "  - " ++ identity ++ " (" ++ String.intercalate ", " files ++ ")") ++ [""]

/-- Prints the record of an extension; `all` prints empty ones, too. -/
def printStatus (all : Bool) (extension : InstalledExtension) : m Unit := do
  match ← Manifest.read extension.root with
  | .error e => Host.printLine .messages ("✗ " ++ extension.id ++ ": " ++ e.message)
  | .ok manifest =>
    if all || !manifest.applied.isEmpty then
      printLines .output (statusLines extension manifest.applied)

/-- Tells which patches the installed extensions have. -/
def runStatus (s : Settings) (ids : List String) (dir : Option Path) :
    m (Except Complaint UInt32) := do
  match ← findExtensions s dir with
  | .error c => return .error c
  | .ok d =>
    printLines .output ["Patch Status Report", ""]
    (← selected d ids).forM (printStatus (!ids.isEmpty))
    return .ok 0

/-! ## 4. The bundled script -/

/-- The bundled script to work on. -/
def findScript (s : Settings) (script : Option Path) : m (Except Complaint Path) := do
  match script <|> s.bundledScript with
  | some path => return .ok (← expand path)
  | none =>
    return .error (.ofMessage
      "No bundled script configured. Pass --script or set bundled_script")

/-- Where source maps come from. -/
def findProvider (s : Settings) (sourceMap : Option Path) : m (SourceMap.Provider m) := do
  match sourceMap <|> s.sourceMap with
  | some path => return SourceMap.fromFiles (some (← expand path))
  | none => return SourceMap.fromFiles none

/-- The number of lines that a diff shows around a change. -/
def diffRadius : Nat := 2

/-- What is printed of a hunk. -/
def hunkText (h : Diff.Hunk) : String :=
  h.header ++ "\n" ++ String.ofList (h.lines.flatMap Diff.SignedLine.text)

/-- What is printed of the changes of a script. -/
def diffText (script : Path) (r : BundleReport) : String :=
  "\n--- " ++ script.text ++ " (original)\n+++ " ++ script.text ++ " (patched)\n" ++
    String.join ((Diff.unified diffRadius r.pristine r.output).map hunkText)

/-- Prints a failure of a descriptor for the bundled script. -/
def printBundleFailure (silent : Bool) (index : Nat) (e : ApplicationError) : m Unit :=
  if silent then Host.note .debug (s!"bundled script patch #{index}: " ++ e.message)
  else printLines .messages ((s!"✗ patch #{index}: Error - " ++ e.message) :: hint e)

/-- Prints what became of the bundled script. -/
def printBundle (silent diff : Bool) (script : Path) (r : BundleReport) : m Unit := do
  r.failures.forM fun (index, e) => printBundleFailure silent index e
  if diff && r.changed then Host.print .output (diffText script r)
  printLines .output
    ["", "Summary:", s!"  {r.applied} applied", s!"  {r.failures.length} failed"]

/-- All descriptors of some patch sets. -/
def combine (sets : List (PatchSource × PatchSet)) : PatchSet :=
  ⟨sets.flatMap fun (_, s) => s.descriptors⟩

/-- Patches the bundled script. -/
def runBundle (s : Settings) (script sourceMap : Option Path) (patches : List Path)
    (dryRun diff : Bool) : m (Except Complaint UInt32) := do
  match ← findScript s script with
  | .error c => return .error c
  | .ok script =>
    let provider ← findProvider s sourceMap
    match ← findSets s patches none with
    | .error c => return .error c
    | .ok sets =>
      Host.printLine .output ("Bundled script: " ++ script.text)
      if dryRun then Host.printLine .output "  [DRY RUN - showing what would be applied]"
      match ← Bundle.patchSet script (combine sets) provider dryRun with
      | .error e => return .error (.ofBundle e)
      | .ok report =>
        printBundle s.silentPatchErrors diff script report
        return .ok (if !report.failures.isEmpty && !s.silentPatchErrors then 1 else 0)

/-- The lines about a place of the bundled script. -/
def inspectionLines (i : Inspection) : List String :=
  ["Source: " ++ i.source,
    s!"Generated: offset {i.offset} (line {i.place.line}, column {i.place.column})",
    "  " ++ String.ofList i.excerpt]

/-- Shows a place of the bundled script. -/
def runInspect (s : Settings) (source : String) (needles : List String)
    (script sourceMap : Option Path) : m (Except Complaint UInt32) := do
  match ← findScript s script with
  | .error c => return .error c
  | .ok script =>
    let provider ← findProvider s sourceMap
    match ← Inspect.place script source needles provider with
    | .error e => return .error (.ofApplication e)
    | .ok i =>
      printLines .output (inspectionLines i)
      return .ok 0

/-! ## 5. All commands -/

/-- Carries out a command. -/
def Command.run (s : Settings) : Command → m (Except Complaint UInt32)
  | .apply patches downloaded dir => runApply s patches downloaded dir
  | .unpatch ids dir => runUnpatch s ids dir
  | .status ids dir => runStatus s ids dir
  | .bundle script sourceMap patches dryRun diff =>
    runBundle s script sourceMap patches dryRun diff
  | .inspect source needles script sourceMap => runInspect s source needles script sourceMap

/-- Carries out an invocation.  Answers the exit code. -/
def Invocation.run (i : Invocation) : m UInt32 := do
  let result ← do
    match ← findSettings i.config with
    | .error c => pure (.error c)
    | .ok s => i.command.run s
  match result with
  | .ok code => return code
  | .error c =>
    Host.printLine .messages c.text
    return 1

/-- What `--version` prints. -/
def versionText : String := "bundle-patcher 0.1.0"

/-- What `--help` prints. -/
def helpText : String :=
  String.intercalate "\n"
    ["Declarative text patches for installed extensions and bundled scripts",
      "",
      "Usage: bundle-patcher [OPTIONS] <COMMAND>",
      "",
      "Commands:",
      "  apply    Apply patch sets to installed extensions",
      "  unpatch  Restore patched extensions from their backups",
      "  status   Show the applied-patch record of installed extensions",
      "  bundle   Rebuild the bundled application script with its patches applied",
      "  inspect  Translate needles in an original source into a bundled script location",
      "  help     Print this message",
      "",
      "Options:",
      "  -c, --config <CONFIG>  Settings file (defaults to ./bundle-patcher.toml when present)",
      "  -v, --verbose...       Increase logging verbosity. -v for info, -vv for debug.",
      "  -h, --help             Print help",
      "  -V, --version          Print version"]

/-- Does what arguments ask for.  Answers the exit code. -/
def Request.answer : Request → m UInt32
  | .help => do
    Host.printLine .output helpText
    return 0
  | .version => do
    Host.printLine .output versionText
    return 0
  | .misuse => do
    Host.printLine .messages "error: the arguments are not understood; try '--help'"
    return 2
  | .run i => i.run

/-! ## 6. Notes -/

/-- Whether notes of a level are shown. -/
def Level.isShown (verbosity : Nat) : Level → Bool
  | .error => true
  | .warning => true
  | .info => 1 ≤ verbosity
  | .debug => 2 ≤ verbosity

/-- What stands in front of a note. -/
def Level.mark : Level → String
  | .error => "error: "
  | .warning => "warning: "
  | .info => ""
  | .debug => "debug: "

/-- The verbosity that arguments ask for. -/
def Request.verbosity : Request → Nat
  | .run i => i.verbosity
  | _ => 0

/-- A note as it is printed, if it is shown. -/
def noteText? (verbosity : Nat) (level : Level) (text : String) : Option String :=
  if Level.isShown verbosity level then some (Level.mark level ++ text ++ "\n") else none

end CommandLine

end TextPatch
