/-
# Comments in documents

A document may hold comments: from `//` to the end of the line and from `/*` to `*/`.
`stripComments` puts a blank in the place of every byte of a comment, so nothing moves; the line
feed behind a line comment stays.  Nothing inside a string starts a comment, and `#` never does.

A slash outside strings that starts no comment breaks the text there; so does an end of the text
inside a string or a block comment, after everything before it has been delivered.
-/
import TextPatch.Text

namespace TextPatch.Json

/-- What the characters that come next belong to. -/
inductive CommentState where
  | code
  | string
  /-- Behind a backslash in a string. -/
  | escaped
  /-- Behind a slash that must start a comment. -/
  | slash
  | line
  | block
  /-- Behind a star that may end a block comment. -/
  | star
  deriving DecidableEq, Repr

/-- As many blanks as a character has bytes. -/
def blanks (c : Char) : Text := List.replicate c.utf8Size ' '

/-- The text without its comments, and whether it broke before its end was reached in order. -/
def stripFrom : CommentState → Text → Text × Bool
  | .code, [] => ([], false)
  | .line, [] => ([], false)
  | _, [] => ([], true)
  | .code, c :: t =>
    if c = '"' then keep c (stripFrom .string t)
    else if c = '/' then drop c (stripFrom .slash t)
    else keep c (stripFrom .code t)
  | .string, c :: t =>
    keep c (stripFrom (if c = '"' then .code else if c = '\\' then .escaped else .string) t)
  | .escaped, c :: t => keep c (stripFrom .string t)
  | .slash, c :: t =>
    if c = '*' then drop c (stripFrom .block t)
    else if c = '/' then drop c (stripFrom .line t)
    else ([], true)
  | .line, c :: t =>
    if c = '\n' then keep c (stripFrom .code t) else drop c (stripFrom .line t)
  | .block, c :: t => drop c (stripFrom (if c = '*' then .star else .block) t)
  | .star, c :: t =>
    drop c (stripFrom (if c = '/' then .code else if c = '*' then .star else .block) t)
where
  /-- A character that stays. -/
  keep (c : Char) (r : Text × Bool) : Text × Bool := (c :: r.1, r.2)
  /-- A character of a comment. -/
  drop (c : Char) (r : Text × Bool) : Text × Bool := (blanks c ++ r.1, r.2)

/-- The text with blanks for its comments, and whether it broke. -/
def stripComments (t : Text) : Text × Bool := stripFrom .code t

end TextPatch.Json
