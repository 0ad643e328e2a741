/-
# Failures

Why patches cannot be applied or taken back.  Every failure has a wording and the wordings of what
is behind it, the nearest cause first.
-/
import TextPatch.Backup
import TextPatch.Edit
import TextPatch.Enclosure
import TextPatch.Manifest

namespace TextPatch

namespace SourceMapError

/-- The wording of what is behind an error. -/
def causes : SourceMapError → List String
  | io _ cause => [cause.message]
  | parse _ cause => [cause.message]
  | _ => []

end SourceMapError

namespace EditError

/-- The wording of what is behind an error. -/
def causes : EditError → List String
  | resolve (.invalidRegex _ cause) => [cause.message]
  | resolve (.sourceMap cause) => cause.message :: cause.causes
  | sourceMap cause => cause.message :: cause.causes
  | _ => []

end EditError

/-- Why patches cannot be applied or taken back. -/
inductive ApplicationError where
  | io (path : Path) (cause : IoError)
  /-- A file that must exist does not. -/
  | missingFile (path : Path)
  | safety (cause : SafetyError)
  | backup (cause : BackupError)
  /-- A rule for a file cannot be applied. -/
  | edit (file : String) (cause : EditError)
  | record (cause : RecordError)
  deriving DecidableEq, Repr

namespace ApplicationError

/-- The wording of a failure. -/
def message : ApplicationError → String
  | io path cause => "I/O error on " ++ path.text ++ ": " ++ cause.message
  | missingFile path => "file not found: " ++ path.text
  | safety cause => "unsafe path: " ++ cause.message
  | backup cause => "backup error: " ++ cause.message
  | edit file cause => "edit error in " ++ file ++ ": " ++ cause.message
  | record cause => "record error: " ++ cause.message

/-- The wording of what is behind a failure. -/
def causes : ApplicationError → List String
  | io _ cause => [cause.message]
  | missingFile _ => []
  | safety cause => cause.message :: cause.cause?.toList.map IoError.message
  | backup cause => [cause.message, cause.cause.message]
  | edit _ cause => cause.message :: cause.causes
  | record cause => cause.message :: cause.causes

end ApplicationError

end TextPatch
