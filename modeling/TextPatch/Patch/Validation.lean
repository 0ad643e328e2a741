/-
# Checking patch sets

`PatchSet.issues` lists what is wrong with a set, in document order: targets that name no
extension or are switched off, blank file names, ranges that end before they start, and rules
whose search is not valid.  A set without issues is fit to be applied.
-/
import TextPatch.Edit

namespace TextPatch

/-- Something that is wrong with a patch set.  Each names its descriptor. -/
inductive ValidationIssue where
  | missingField (patch field : String)
  | invalidTarget (patch message : String)
  | invalidRule (patch file : String) (rule : Nat) (message : String)
  deriving DecidableEq, Repr

namespace ValidationIssue

/-- The wording of an issue. -/
def message : ValidationIssue → String
  | missingField patch field => "patch " ++ patch ++ " missing required field '" ++ field ++ "'"
  | invalidTarget patch message => "patch " ++ patch ++ " has invalid configuration: " ++ message
  | invalidRule patch file rule message =>
    "patch " ++ patch ++ ", file " ++ file ++ s!", rule {rule}: " ++ message

end ValidationIssue

/-- Whether a name consists of blanks only. -/
def isBlankName (s : String) : Bool := s.toList.all Text.isBlank

/-- What is wrong with a target. -/
def Target.issues (patch : String) : Target → List ValidationIssue
  | .extensions ids =>
    if ids.ids.isEmpty || ids.ids.any isBlankName then [.missingField patch "target.extension"]
    else []
  | .bundledScript true => []
  | .bundledScript false => [.invalidTarget patch "workbenchJs target must be true"]

/-- What is wrong with a range, under the name that the range has in documents. -/
def OffsetRange.issues (patch file : String) (rule : Nat) (name : String) :
    Option OffsetRange → List ValidationIssue
  | none => []
  | some r =>
    if r.stop < r.start then
      [.invalidRule patch file rule
        (name ++ s!" start {r.start.toInt} is after end {r.stop.toInt}")]
    else []

/-- What is wrong with a rule. -/
def EditRule.issues (patch file : String) (index : Nat) (sourceMapped : Bool) (r : EditRule) :
    List ValidationIssue :=
  OffsetRange.issues patch file index "removeRange" r.removeRange ++
    OffsetRange.issues patch file index "removeRangeAfter" r.removeRangeAfter ++
    match RulePlan.ofRule r sourceMapped with
    | .ok _ => []
    | .error e => [.invalidRule patch file index e.message]

/-- What is wrong with a file patch. -/
def FilePatch.issues (patch : String) (sourceMapped : Bool) (p : FilePatch) :
    List ValidationIssue :=
  (if isBlankName p.file then [.missingField patch "patches.file"] else []) ++
    (p.rules.mapIdx fun i r => r.issues patch p.file i sourceMapped).flatten

/-- How issues name a descriptor. -/
def Descriptor.label (index : Nat) (d : Descriptor) : String :=
  s!"#{index} (" ++ d.target.label ++ ")"

/-- What is wrong with a descriptor. -/
def Descriptor.issues (index : Nat) (d : Descriptor) : List ValidationIssue :=
  d.target.issues (d.label index) ++
    d.files.flatMap fun p => p.issues (d.label index) d.target.isBundledScript

/-- What is wrong with a set. -/
def PatchSet.issues (s : PatchSet) : List ValidationIssue :=
  (s.descriptors.mapIdx fun i d => d.issues i).flatten

end TextPatch
