/-
# Complaints

When a command cannot be carried out, the patcher says why and lists what is behind it, each cause
indented and, if there are several, numbered.
-/
import TextPatch.Bundle
import TextPatch.Patch.Loading

namespace TextPatch

namespace ConfigError

/-- The wording of what is behind an error. -/
def causes : ConfigError → List String
  | io _ cause => [cause.message]
  | json _ _ cause => [cause.message]
  | toml _ => ["TOML parse error"]
  | validation _ issues => [String.intercalate "\n" (issues.map ValidationIssue.message)]

end ConfigError

namespace CommandLine

/-- Why a command cannot be carried out. -/
structure Complaint where
  message : String
  causes : List String
  deriving DecidableEq, Repr

namespace Complaint

/-- A complaint with nothing behind it. -/
def ofMessage (message : String) : Complaint := ⟨message, []⟩

/-- A complaint about settings or a patch set. -/
def ofConfig (e : ConfigError) : Complaint := ⟨e.message, e.causes⟩

/-- A complaint about the bundled script. -/
def ofBundle (e : BundleError) : Complaint := ⟨e.message, e.causes⟩

/-- A complaint about patches that cannot be applied. -/
def ofApplication (e : ApplicationError) : Complaint := ⟨e.message, e.causes⟩

/-- A complaint with another one behind it. -/
def because (message : String) (c : Complaint) : Complaint := ⟨message, c.message :: c.causes⟩

/-- Lines with an indentation; the first one has `first` instead. -/
def indent (first rest : String) (s : String) : String :=
  first ++ String.intercalate ("\n" ++ rest) (s.splitOn "\n")

/-- A number, filled up with blanks on the left. -/
def padded (width n : Nat) : String :=
  let digits := toString n
  String.ofList (List.replicate (width - digits.length) ' ') ++ digits

/-- The lines that show causes. -/
def showCauses : List String → String
  | [] => ""
  | [cause] => "\n\nCaused by:\n" ++ indent "    " "    " cause
  | causes =>
    "\n\nCaused by:\n" ++ String.intercalate "\n"
      (causes.mapIdx fun i cause => indent (padded 5 i ++ ": ") "       " cause)

/-- What is printed. -/
def text (c : Complaint) : String := "Error: " ++ c.message ++ showCauses c.causes

end Complaint

end CommandLine

end TextPatch
