/-
# Backups

The backup of a file stands next to it under its name and `.backup`.  A backup is made before the
first change of the file and never overwritten; restoring a file moves its backup back over it.
-/
import TextPatch.Host

namespace TextPatch

/-- The path of the backup of a file. -/
def Path.backup (p : Path) : Path := ⟨p.text ++ ".backup"⟩

/-- Why a backup could not be made or moved back. -/
inductive BackupError where
  | create (path : Path) (cause : IoError)
  | restore (path : Path) (cause : IoError)
  deriving DecidableEq, Repr

namespace BackupError

/-- The wording of an error. -/
def message : BackupError → String
  | create path cause => "failed to back up " ++ path.text ++ ": " ++ cause.message
  | restore path cause =>
    "failed to restore " ++ path.text ++ " from backup: " ++ cause.message

/-- The failure of the file operation behind an error. -/
def cause : BackupError → IoError
  | create _ cause => cause
  | restore _ cause => cause

end BackupError

namespace Backup

variable {m : Type → Type} [Monad m] [Host m]

/-- Makes the backup of a file by `make`, unless there is one.  Tells whether one was made. -/
def ensureBy (path : Path) (make : m (Except IoError Unit)) : m (Except BackupError Bool) := do
  if ← Host.present path.backup then return .ok false
  match ← make with
  | .ok () =>
    Host.note .debug ("created backup " ++ path.backup.text)
    return .ok true
  | .error e => return .error (.create path e)

/-- Makes a backup with a content, unless there is one. -/
def ensure (path : Path) (content : ByteArray) : m (Except BackupError Bool) :=
  ensureBy path (Host.write path.backup content)

/-- Makes a backup that holds what the file holds, unless there is one. -/
def ensureCopy (path : Path) : m (Except BackupError Bool) :=
  ensureBy path (Host.copy path path.backup)

/-- Moves the backup of a file back over it.  Tells whether there was one. -/
def restore (path : Path) : m (Except BackupError Bool) := do
  match ← Host.rename path.backup path with
  | .ok () =>
    Host.note .debug ("restored " ++ path.text ++ " from backup")
    return .ok true
  | .error .notFound => return .ok false
  | .error e => return .error (.restore path e)

end Backup

end TextPatch
