/-
# Failures of file operations

The causes for which an operation on files can fail, and how messages word them.
-/

namespace TextPatch

/-- Why a file operation failed. -/
inductive IoError where
  | notFound
  | alreadyExists
  | notADirectory
  | isADirectory
  | directoryNotEmpty
  | busy
  | invalidArgument
  | tooManyLinks
  | nameTooLong
  /-- A path with a zero character. -/
  | zeroInPath
  /-- The content of a file is not a text. -/
  | notText
  /-- Something that is neither a file nor leads to one was to be copied. -/
  | notAFile
  /-- Anything else, as the machine words it. -/
  | other (message : String)
  deriving DecidableEq, Repr

namespace IoError

/-- The wording of a failure. -/
def message : IoError → String
  | notFound => "No such file or directory (os error 2)"
  | alreadyExists => "File exists (os error 17)"
  | notADirectory => "Not a directory (os error 20)"
  | isADirectory => "Is a directory (os error 21)"
  | directoryNotEmpty => "Directory not empty (os error 39)"
  | busy => "Device or resource busy (os error 16)"
  | invalidArgument => "Invalid argument (os error 22)"
  | tooManyLinks => "Too many levels of symbolic links (os error 40)"
  | nameTooLong => "File name too long (os error 36)"
  | zeroInPath => "file name contained an unexpected NUL byte"
  | notText => "stream did not contain valid UTF-8"
  | notAFile => "the source path is neither a regular file nor a symlink to a regular file"
  | other message => message

end IoError

end TextPatch
