/-
# Reading descriptors from texts

`Descriptor.readAll` reads an array of descriptors straight from a text without comments.  It
accepts what `Descriptor.decode` accepts, except that no member may be written twice, and tells the
line and the column of a value that does not fit.  Nothing is checked beyond that.
-/
import TextPatch.Json.Typed
import TextPatch.Patch.Decode

namespace TextPatch

open Json.Read Json.Typed

/-! ## 1. Places -/

/-- A place in a text: a line, counted from one, and the bytes before it on that line. -/
structure Place where
  line : Nat
  column : Nat
  deriving DecidableEq, Repr

/-- The place in a text in front of its last part. -/
def Place.before (rest t : Text) : Place :=
  let passed := t.take (t.length - rest.length)
  ⟨passed.count '\n' + 1, Text.byteLength (passed.reverse.takeWhile (· != '\n'))⟩

/-- Why a text does not hold descriptors. -/
inductive ReadError where
  | unreadable (cause : Fault)
  | mistyped (cause : DecodeError) (place : Place)
  deriving DecidableEq, Repr

/-! ## 2. Readers -/

/-- A rule, with `depth` levels of containers allowed inside it. -/
def EditRule.read (depth : Nat) : Reader EditRule :=
  Json.Typed.fields "EditRule" EditRule.fields EditRule.Draft.start
    (fun d name => match name with
      | "search" => document (d.read name) depth
      | "searchMode" | "insertMode" => oneWord (d.read name)
      | "removeRange" | "removeRangeAfter" => twoIntegers (d.read name)
      | _ => scalar (d.read name))
    EditRule.Draft.ofMembers EditRule.Draft.ofItems

/-- A file patch, with `depth` levels of containers allowed inside it. -/
def FilePatch.read (depth : Nat) : Reader FilePatch :=
  Json.Typed.fields "FilePatch" FilePatch.fields FilePatch.Draft.start
    (fun d name t => match name with
      | "patches" => do
        let (rules, t) ← list (EditRule.read (depth - 2)) t
        return ({ d with rules }, t)
      | _ => scalar (d.read name) t)
    FilePatch.Draft.ofMembers FilePatch.Draft.ofItems

/-- A target, with `depth` levels of containers allowed.  It has one member, and that only once. -/
def Target.read (depth : Nat) : Reader Target := fun t =>
  match skipBlanks t with
  | '\x7b' :: t => do
    let (ms, t) ← Json.Typed.members (fun ms name t => do
      let (v, t) ← document .ok (depth - 1) (← mark ':' t)
      return (ms ++ [(name, v)], t)) (t.length + 1) true [] t
    decided (Target.decode (.object ms)) (← mark '\x7d' t) false
  | t => document Target.decode depth t

namespace Descriptor

/-- A descriptor, with `depth` levels of containers allowed inside it. -/
def read (depth : Nat) : Reader Descriptor :=
  Json.Typed.fields "PatchDescription" fields Draft.start
    (fun d name t => match name with
      | "target" => do
        let (target, t) ← Target.read depth t
        return ({ d with target := some target }, t)
      | _ => do
        let (files, t) ← list (FilePatch.read (depth - 2)) t
        return ({ d with files := some files }, t))
    Draft.ofMembers Draft.ofItems

/-- The descriptors in a text. -/
def readAll (t : Text) : Except ReadError (List Descriptor) :=
  match list (read (deepest - 2)) t with
  | .error (.fault cause) => .error (.unreadable cause)
  | .error (.misfit cause rest _) => .error (.mistyped cause (Place.before rest t))
  | .ok (ds, rest) => if (skipBlanks rest).isEmpty then .ok ds else .error (.unreadable .malformed)

end Descriptor

/-- The wording of an error. -/
def ReadError.message : ReadError → String
  | unreadable .malformed => "the text is malformed"
  | unreadable .truncated => "the text ends too early"
  | unreadable .broken => "the text cannot be read to its end"
  | mistyped cause place =>
    cause.message ++ s!" at line {place.line} column {place.column}"

end TextPatch
