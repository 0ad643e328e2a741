/-
# Taking patches back

Every file in the record of an extension is moved back from its backup; a file without a backup
stays as it is.  Then the record is emptied.  A failure ends the run before the record changes, so
that it can be taken up again.
-/
import TextPatch.Apply

namespace TextPatch

/-- What became of an extension that has been restored. -/
structure RestoreReport where
  /-- The files that have been moved back. -/
  restored : List String
  /-- The files of the record that had no backup. -/
  missingBackups : List String
  /-- The number of identities that the record held. -/
  cleared : Nat
  deriving DecidableEq, Repr

namespace Restore

variable {m : Type → Type} [Monad m] [Host m]

/-- Moves a file of the record back.  Tells whether it had a backup. -/
def file (e : Enclosure) (name : String) : m (Except ApplicationError Bool) := do
  match ← e.resolve ⟨name⟩ with
  | .error cause => return .error (.safety cause)
  | .ok path =>
    match ← Backup.restore path with
    | .error cause => return .error (.backup cause)
    | .ok true => return .ok true
    | .ok false =>
      Host.note .debug ("no backup for " ++ path.text)
      return .ok false

/-- Moves files of the record back up to the first that fails.  Answers those that had a backup and
those that had none. -/
def files (e : Enclosure) : List String → m (Except ApplicationError (List String × List String))
  | [] => return .ok ([], [])
  | name :: rest => do
    match ← file e name with
    | .error cause => return .error cause
    | .ok hadBackup =>
      match ← files e rest with
      | .error cause => return .error cause
      | .ok (restored, missing) =>
        return .ok (if hadBackup then (name :: restored, missing) else (restored, name :: missing))

/-- Takes back all patches of the extension at a root. -/
def extension (root : Path) : m (Except ApplicationError RestoreReport) := do
  match ← Apply.openTarget root with
  | .error cause => return .error cause
  | .ok (e, manifest) =>
    match ← files e manifest.appliedFiles with
    | .error cause => return .error cause
    | .ok (restored, missing) =>
      match ← manifest.clear.write with
      | .error cause => return .error (.record cause)
      | .ok () =>
        Host.note .info (s!"restored {restored.length} file(s) in " ++ root.text)
        return .ok ⟨restored, missing, manifest.applied.length⟩

end Restore

end TextPatch
