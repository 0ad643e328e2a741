/-
# Regular expressions

`Regex.compile` turns the text of a pattern and four switches into an expression that can be
matched.  `Regex.matchAt?` answers the length of the match that starts at a given place of a text,
seeing all of the text on both sides of it; of several matches it takes the one that the pattern
prefers, not the longest.  A match is a whole number of characters by construction.
-/
import TextPatch.Regex.Reader
import TextPatch.Regex.Room
import TextPatch.Regex.Run

namespace TextPatch

/-- The switches of an expression. -/
structure RegexOptions where
  ignoreCase : Bool
  multiLine : Bool
  dotAll : Bool
  verbose : Bool
  deriving DecidableEq, Repr

/-- Why a pattern is refused. -/
inductive RegexError where
  /-- The text is no pattern. -/
  | invalid
  /-- An automaton of the pattern would take more than `limit` bytes. -/
  | tooLarge (limit : Nat)
  deriving DecidableEq, Repr

namespace RegexError

/-- The wording of a refused pattern. -/
def message : RegexError → String
  | invalid => "regex parse error: the pattern is not valid"
  | tooLarge limit => s!"Compiled regex exceeds size limit of {limit} bytes."

end RegexError

/-- An expression that can be matched. -/
structure Regex where
  program : Regex.Program
  deriving Repr

namespace Regex

/-- The room that either automaton of an expression may take. -/
def sizeLimit : Nat := 10 * 1024 * 1024

/-- The expression of a pattern. -/
def compile (options : RegexOptions) (pattern : Text) : Except RegexError Regex :=
  let flags : Flags :=
    ⟨options.ignoreCase, options.multiLine, options.dotAll, false, true, false, options.verbose⟩
  match (Pattern.read? options.verbose pattern).bind (Core.ofPattern? flags) with
  | none => .error .invalid
  | some core =>
    if sizeLimit < max (core.searchRoom false) (core.searchRoom true) then
      .error (.tooLarge sizeLimit)
    else .ok ⟨Program.ofCore core⟩

/-- The number of bytes of the match that starts between two parts of a text; the first part is
given backwards. -/
def matchAt? (r : Regex) (before after : Text) : Option Nat :=
  (r.program.matchLength? before after).map fun n => Text.byteLength (after.take n)

end Regex

end TextPatch
