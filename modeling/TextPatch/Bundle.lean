/-
# Patching the bundled script

The bundled script has no manifest.  Every run starts from its pristine text, the backup if there is
one, and applies the whole patch set again, so a run does not depend on the runs before it.  A
descriptor that fails leaves the text as it was before the descriptor.

The source map belongs to the pristine text.  It is asked for when a rule needs it for the first
time; if that fails, the next descriptor that needs it asks again.
-/
import TextPatch.Failure
import TextPatch.SourceMap.Memory

namespace TextPatch

/-- Why the bundled script cannot be patched. -/
inductive BundleError where
  | io (path : Path) (cause : IoError)
  | backup (cause : BackupError)
  deriving DecidableEq, Repr

namespace BundleError

/-- The wording of an error. -/
def message : BundleError → String
  | io path cause => "failed to access bundled script " ++ path.text ++ ": " ++ cause.message
  | backup cause => cause.message

/-- The wording of what is behind an error. -/
def causes : BundleError → List String
  | io _ cause => [cause.message]
  | backup cause => [cause.cause.message]

end BundleError

/-- What became of the bundled script. -/
structure BundleReport where
  /-- The number of descriptors that have been applied. -/
  applied : Nat
  /-- The failures, each with the number of its descriptor among those for the bundled script. -/
  failures : List (Nat × ApplicationError)
  /-- The text that the run started from. -/
  pristine : Text
  /-- The text that the run made. -/
  output : Text

/-- Whether the run made another text. -/
def BundleReport.changed (r : BundleReport) : Bool := r.pristine != r.output

namespace Bundle

variable {m : Type → Type} [Monad m] [Host m]

/-! ## 1. The script -/

/-- The file that holds the pristine text of a script: its backup, or itself if there is none. -/
def pristineFile (script : Path) : m Path := do
  if ← Host.present script.backup then return script.backup else return script

/-- The pristine text of a script. -/
def readPristine (script : Path) : m (Except BundleError Text) := do
  let file ← pristineFile script
  match ← Host.readText file with
  | .error cause => return .error (.io file cause)
  | .ok text => return .ok text.toList

/-- The pristine text of a script, which is backed up unless this is a dry run. -/
def openScript (script : Path) (dryRun : Bool) : m (Except BundleError Text) := do
  if dryRun then readPristine script
  else
    match ← Backup.ensureCopy script with
    | .error cause => return .error (.backup cause)
    | .ok _ => readPristine script

/-! ## 2. Descriptors -/

/-- A script that is being patched: how to come by its source map, and the map if it is known. -/
structure Session (m : Type → Type) where
  script : Path
  pristine : Text
  provider : SourceMap.Provider m
  known : Option SourceMap.Document

/-- The source map of a script, asked for unless it is known. -/
def Session.map (s : Session m) : m (Except SourceMapError SourceMap.Document) := do
  match s.known with
  | some d => return .ok d
  | none =>
    match ← s.provider s.script s.pristine with
    | .error e => return .error e
    | .ok d =>
      Host.note .debug ("source map for " ++ s.script.text ++ " loaded")
      return .ok d

/-- The source map of a script, if rules need it. -/
def Session.mapFor (s : Session m) (plans : List RulePlan) :
    m (Except SourceMapError (Option SourceMap.Document)) := do
  if plans.any RulePlan.usesSourceMap then return (← s.map).map some else return .ok none

/-- Applies checked rules.  The source that they look names up in is `file`. -/
def runRules (file : String) (document : Option SourceMap.Document) (text : Text)
    (plans : List RulePlan) : m (Except ApplicationError Text) := do
  let lookup := document.map fun d => d.lookup file
  let lookupNotes : Text → List String → List String :=
    match document with
    | some d => d.lookupNotes file
    | none => fun _ _ => []
  Host.noteAll .debug (rulesNotes file lookup lookupNotes text plans)
  match applyRules file lookup text plans with
  | .error cause => return .error (.edit file cause)
  | .ok text => return .ok text

/-- Applies a file patch to a text.  Answers the session afterwards, too. -/
def filePatch (s : Session m) (text : Text) (p : FilePatch) :
    m (Session m × Except ApplicationError Text) := do
  match RulePlan.ofRules true p.rules with
  | .error cause => return (s, .error (.edit p.file (.resolve cause)))
  | .ok plans =>
    match ← s.mapFor plans with
    | .error cause => return (s, .error (.edit p.file (.sourceMap cause)))
    | .ok none => return (s, ← runRules p.file none text plans)
    | .ok (some d) => return ({ s with known := some d }, ← runRules p.file (some d) text plans)

/-- Applies file patches up to the first that fails. -/
def filePatches (s : Session m) (text : Text) :
    List FilePatch → m (Session m × Except ApplicationError Text)
  | [] => return (s, .ok text)
  | p :: rest => do
    match ← filePatch s text p with
    | (s, .error cause) => return (s, .error cause)
    | (s, .ok text) => filePatches s text rest

/-- Applies descriptors.  Answers the text that they leave, the number of those that have been
applied, and the failures; `index` is the number of the first one. -/
def descriptors (s : Session m) (text : Text) (index : Nat) :
    List Descriptor → m (Text × Nat × List (Nat × ApplicationError))
  | [] => return (text, 0, [])
  | d :: rest => do
    match ← filePatches s text d.files with
    | (s, .ok patched) =>
      let (output, applied, failures) ← descriptors s patched (index + 1) rest
      return (output, applied + 1, failures)
    | (s, .error cause) =>
      Host.note .debug (s!"bundled script patch #{index} failed: " ++ cause.message)
      let (output, applied, failures) ← descriptors s text (index + 1) rest
      return (output, applied, (index, cause) :: failures)

/-! ## 3. Runs -/

/-- Writes the patched script. -/
def writeScript (script : Path) (r : BundleReport) : m (Except BundleError BundleReport) := do
  match ← Host.replace script (String.ofList r.output).toUTF8 with
  | .error cause => return .error (.io script cause)
  | .ok () =>
    Host.note .info ("patched " ++ script.text ++
      s!" with {r.applied} descriptor(s), {r.failures.length} failed")
    return .ok r

/-- Applies the descriptors for the bundled script of a patch set to a script.  A dry run changes no
file. -/
def patchSet (script : Path) (s : PatchSet) (provider : SourceMap.Provider m) (dryRun : Bool) :
    m (Except BundleError BundleReport) := do
  match ← openScript script dryRun with
  | .error e => return .error e
  | .ok pristine =>
    let (output, applied, failures) ←
      descriptors ⟨script, pristine, provider, none⟩ pristine 0 s.forBundledScript
    let report : BundleReport := ⟨applied, failures, pristine, output⟩
    if dryRun then return .ok report else writeScript script report

end Bundle

end TextPatch
