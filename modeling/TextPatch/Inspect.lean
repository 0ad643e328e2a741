/-
# Inspecting the bundled script

Shows what place of the pristine script needles in a source lead to: the place that a rule
of the patch set with these needles would edit.
-/
import TextPatch.Bundle

namespace TextPatch

/-- A place of a script, with the text around it. -/
structure Inspection where
  /-- The path of the source. -/
  source : String
  offset : Nat
  place : Position
  excerpt : Text
  deriving DecidableEq, Repr

namespace Inspect

/-- How many bytes on either side of a place are shown. -/
def radius : Nat := 40

/-- The text around a byte, cut between characters, with line feeds made visible. -/
def excerpt (t : Text) (offset : Nat) : Text :=
  (t.between (t.boundaryBefore (offset - radius)) (t.boundaryBehind (offset + radius))).flatMap
    fun c => if c = '\n' then ['\\', 'n'] else [c]

/-- The place of a script that needles in a source lead to. -/
def inDocument (d : SourceMap.Document) (hint : String) (needles : List String) (script : Text) :
    Except SourceMapError Inspection := do
  let t ← d.trace hint script (.needles needles)
  return ⟨t.source.path, t.offset, Position.ofOffset script t.offset, excerpt script t.offset⟩

variable {m : Type → Type} [Monad m] [Host m]

/-- The place of the pristine script that needles in a source lead to. -/
def place (script : Path) (hint : String) (needles : List String)
    (provider : SourceMap.Provider m) : m (Except ApplicationError Inspection) := do
  match ← Bundle.readPristine script with
  | .error (.io path cause) => return .error (.io path cause)
  | .error (.backup cause) => return .error (.backup cause)
  | .ok text =>
    match ← provider script text with
    | .error cause => return .error (.edit hint (.sourceMap cause))
    | .ok d =>
      Host.noteAll .debug
        (match d.trace hint text (.needles needles) with
          | .ok t => [t.label (.needles needles)]
          | .error _ => [])
      match inDocument d hint needles text with
      | .error cause => return .error (.edit hint (.sourceMap cause))
      | .ok inspection => return .ok inspection

end Inspect

end TextPatch
