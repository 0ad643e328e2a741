/-
# Applying patches to extensions

The descriptors of a patch set are grouped by the extensions that they name.  For each extension the
root and the manifest are opened once, then the descriptors are tried in order:

* one whose identity is recorded, in the manifest at hand or in the one on disk, is skipped;
* another one has its file patches applied in order; the first that fails ends the descriptor, and
  the files that have been written before stay written;
* one that succeeds is recorded, and the manifest is written at the end.

A file is backed up before it is edited for the first time, and it is written at one stroke.  A
failure concerns its descriptor only, or its extension if the extension cannot be opened.
-/
import TextPatch.Failure
import TextPatch.Locator

namespace TextPatch

/-! ## 1. Reports -/

/-- What became of a descriptor. -/
inductive PatchResult where
  /-- The file patches have been applied; `files` have been written. -/
  | applied (target : String) (files : List String)
  | alreadyApplied (target : String)
  | targetNotInstalled (target : String)
  deriving DecidableEq, Repr

namespace PatchResult

/-- The wording of a result. -/
def message : PatchResult → String
  | applied target files => "Applied to " ++ target ++ s!" ({files.length} file(s))"
  | alreadyApplied target => "Already applied to " ++ target
  | targetNotInstalled target => "Skipped: " ++ target ++ " is not installed"

end PatchResult

/-- What became of a descriptor for one of its extensions. -/
structure PatchOutcome where
  identity : String
  target : String
  result : Except ApplicationError PatchResult

namespace PatchOutcome

/-- Whether the descriptor has been applied just now. -/
def isApplied (o : PatchOutcome) : Bool :=
  match o.result with
  | .ok (.applied _ _) => true
  | _ => false

/-- Whether the descriptor had been applied before. -/
def isSkipped (o : PatchOutcome) : Bool :=
  match o.result with
  | .ok (.alreadyApplied _) => true
  | _ => false

/-- Whether the extension is not installed. -/
def isNotInstalled (o : PatchOutcome) : Bool :=
  match o.result with
  | .ok (.targetNotInstalled _) => true
  | _ => false

/-- Whether the descriptor has failed. -/
def isFailure (o : PatchOutcome) : Bool :=
  match o.result with
  | .error _ => true
  | _ => false

end PatchOutcome

/-- What became of a patch set. -/
structure ApplyReport where
  outcomes : List PatchOutcome
  /-- Failures that concern a whole extension. -/
  targetErrors : List (String × ApplicationError)
  /-- Whether an extension has changed that a running editor has loaded. -/
  needsRestart : Bool

namespace ApplyReport

/-- The report on no descriptors. -/
def empty : ApplyReport := ⟨[], [], false⟩

/-- The report on two runs, one after the other. -/
def merge (a b : ApplyReport) : ApplyReport :=
  ⟨a.outcomes ++ b.outcomes, a.targetErrors ++ b.targetErrors, a.needsRestart || b.needsRestart⟩

/-- The number of descriptors that have been applied just now. -/
def appliedCount (r : ApplyReport) : Nat := r.outcomes.countP PatchOutcome.isApplied

/-- The identities of the descriptors that had been applied before. -/
def skippedIdentities (r : ApplyReport) : List String :=
  (r.outcomes.filter PatchOutcome.isSkipped).map PatchOutcome.identity

/-- The number of descriptors that have failed. -/
def failureCount (r : ApplyReport) : Nat := r.outcomes.countP PatchOutcome.isFailure

/-- Whether a descriptor or a whole extension has failed. -/
def hasFailures (r : ApplyReport) : Bool :=
  r.outcomes.any PatchOutcome.isFailure || !r.targetErrors.isEmpty

end ApplyReport

/-! ## 2. Groups -/

/-- Adds a descriptor to the group of an extension; a new group comes last. -/
def addToGroup (d : Descriptor) (id : String) :
    List (String × List Descriptor) → List (String × List Descriptor)
  | [] => [(id, [d])]
  | (k, ds) :: rest =>
    if k = id then (k, ds ++ [d]) :: rest else (k, ds) :: addToGroup d id rest

namespace PatchSet

/-- The descriptors for extensions, by extension; all in the order of their first mention. -/
def groups (s : PatchSet) : List (String × List Descriptor) :=
  s.forExtensions.foldl (fun groups d =>
    d.target.extensionIds.foldl (fun groups id => addToGroup d id groups) groups) []

end PatchSet

namespace Apply

variable {m : Type → Type} [Monad m] [Host m]

/-! ## 3. Files -/

/-- Applies checked rules to a file that holds `content`, which is backed up first. -/
def editFile (path : Path) (file content : String) (plans : List RulePlan) :
    m (Except ApplicationError Bool) := do
  match ← Backup.ensure path content.toUTF8 with
  | .error cause => return .error (.backup cause)
  | .ok _ =>
    Host.noteAll .debug (rulesNotes file none (fun _ _ => []) content.toList plans)
    match applyRules file none content.toList plans with
    | .error cause => return .error (.edit file cause)
    | .ok patched =>
      match ← Host.replace path (String.ofList patched).toUTF8 with
      | .error cause => return .error (.io path cause)
      | .ok () => return .ok true

/-- Applies a file patch to the file at a path. -/
def patchFile (path : Path) (p : FilePatch) : m (Except ApplicationError Bool) := do
  match ← Host.readText path with
  | .error .notFound =>
    if p.canBeMissing then
      Host.note .debug (path.text ++ " is missing, skipping")
      return .ok false
    else return .error (.missingFile path)
  | .error cause => return .error (.io path cause)
  | .ok content =>
    if p.rules.isEmpty then return .ok false
    else match RulePlan.ofRules false p.rules with
      | .error cause => return .error (.edit p.file (.resolve cause))
      | .ok plans => editFile path p.file content plans

/-- Applies a file patch.  Tells whether the file has been written; it is not if it may be missing
and is, or if there are no rules. -/
def filePatch (e : Enclosure) (p : FilePatch) : m (Except ApplicationError Bool) := do
  match ← e.resolve ⟨p.file⟩ with
  | .error cause => return .error (.safety cause)
  | .ok path => patchFile path p

/-- Applies file patches up to the first that fails.  Answers the files that have been written. -/
def filePatches (e : Enclosure) : List FilePatch → m (Except ApplicationError (List String))
  | [] => return .ok []
  | p :: rest => do
    match ← filePatch e p with
    | .error cause => return .error cause
    | .ok written =>
      match ← filePatches e rest with
      | .error cause => return .error cause
      | .ok files => return .ok (if written then p.file :: files else files)

/-! ## 4. Extensions -/

/-- Whether an identity is recorded, in the manifest at hand or in the one on disk. -/
def isRecorded (e : Enclosure) (manifest : Manifest) (identity : String) : m Bool := do
  if manifest.contains identity then return true
  match ← Manifest.read e.root with
  | .ok fresh => return fresh.contains identity
  | .error _ => return false

/-- Tries a descriptor on an extension.  Answers the manifest at hand afterwards, too. -/
def descriptor (e : Enclosure) (id identity : String) (manifest : Manifest) (d : Descriptor) :
    m (Manifest × Except ApplicationError PatchResult) := do
  if ← isRecorded e manifest identity then
    Host.note .debug (identity ++ " already applied to " ++ id)
    return (manifest, .ok (.alreadyApplied id))
  match ← filePatches e d.files with
  | .ok files =>
    Host.note .info ("applied " ++ identity ++ " to " ++ id ++ s!" ({files.length} file(s))")
    return (manifest.record identity files, .ok (.applied id files))
  | .error cause =>
    Host.note .debug ("failed to apply " ++ identity ++ " to " ++ id ++ ": " ++ cause.message)
    return (manifest, .error cause)

/-- Tries descriptors on an extension, in order. -/
def descriptors (e : Enclosure) (id : String) (source : PatchSource) (manifest : Manifest) :
    List Descriptor → m (Manifest × List PatchOutcome)
  | [] => return (manifest, [])
  | d :: rest => do
    let identity := d.identity source
    let (manifest, result) ← descriptor e id identity manifest d
    let (manifest, outcomes) ← descriptors e id source manifest rest
    return (manifest, ⟨identity, id, result⟩ :: outcomes)

/-- Tries descriptors on an extension that is open, and writes the manifest if any has been
applied. -/
def openedTarget (e : Enclosure) (manifest : Manifest) (id : String) (isActive : Bool)
    (source : PatchSource) (ds : List Descriptor) : m ApplyReport := do
  let (manifest, outcomes) ← descriptors e id source manifest ds
  if outcomes.any PatchOutcome.isApplied then
    match ← manifest.write with
    | .ok () => return ⟨outcomes, [], isActive⟩
    | .error cause =>
      Host.note .error ("failed to record applied patches for " ++ id ++ ": " ++ cause.message)
      return ⟨outcomes, [(id, .record cause)], isActive⟩
  else return ⟨outcomes, [], false⟩

/-- Opens an extension: its root and its manifest. -/
def openTarget (root : Path) : m (Except ApplicationError (Enclosure × Manifest)) := do
  match ← Enclosure.ofRoot root with
  | .error cause => return .error (.safety cause)
  | .ok e =>
    match ← Manifest.read e.root with
    | .error cause => return .error (.record cause)
    | .ok manifest => return .ok (e, manifest)

/-- Tries descriptors on an extension, which reports call by the name that was asked for. -/
def target (id : String) (extension : InstalledExtension) (source : PatchSource)
    (ds : List Descriptor) : m ApplyReport := do
  match ← openTarget extension.root with
  | .error cause =>
    Host.note .error ("cannot patch " ++ id ++ ": " ++ cause.message)
    return ⟨[], [(id, cause)], false⟩
  | .ok (e, manifest) => openedTarget e manifest id extension.isActive source ds

/-- The report on an extension that is not installed. -/
def notInstalled (id : String) (source : PatchSource) (ds : List Descriptor) : ApplyReport :=
  ⟨ds.map fun d => ⟨d.identity source, id, .ok (.targetNotInstalled id)⟩, [], false⟩

/-- Tries a group of descriptors on its extension. -/
def group (find : String → Option InstalledExtension) (source : PatchSource) (id : String)
    (ds : List Descriptor) : m ApplyReport := do
  match find id with
  | none =>
    Host.note .info ("extension " ++ id ++ " is not installed, skipping its patches")
    return notInstalled id source ds
  | some extension => target id extension source ds

/-- Tries groups of descriptors, in order. -/
def groups (find : String → Option InstalledExtension) (source : PatchSource) :
    List (String × List Descriptor) → m ApplyReport
  | [] => return .empty
  | (id, ds) :: rest => do
    let report ← group find source id ds
    let others ← groups find source rest
    return report.merge others

/-- Applies the descriptors for extensions of a patch set.  `find` tells where an extension is. -/
def patchSet (find : String → Option InstalledExtension) (source : PatchSource) (s : PatchSet) :
    m ApplyReport :=
  groups find source s.groups

end Apply

end TextPatch
