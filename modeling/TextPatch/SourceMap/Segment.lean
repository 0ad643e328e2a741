/-
# The written form of mapping tables

The table of a source map is written as lines separated by semicolons, and a line as segments
separated by commas.  A segment is a sequence of signed numbers in digits of six bits: five bits
of the number, lowest first, and one bit that says whether more digits follow; the lowest bit of
the number is its sign.

Each number is a difference to the value before it in the same field.  Running values are words of
32 bits and wrap around; the generated column starts anew on each line.
-/
import TextPatch.SourceMap.Document

namespace TextPatch.SourceMap

/-! ## 1. Numbers -/

/-- The value of a digit. -/
def digitValue? (c : Char) : Option Nat :=
  let n := c.toNat
  if 65 ≤ n ∧ n ≤ 90 then some (n - 65)
  else if 97 ≤ n ∧ n ≤ 122 then some (n - 71)
  else if 48 ≤ n ∧ n ≤ 57 then some (n + 4)
  else if c = '+' then some 62
  else if c = '/' then some 63
  else none

/-- The digits of a segment: the value of each and whether more follow.  Every byte that is no
digit counts as one with all bits set. -/
def digitsOf (t : Text) : List (Int64 × Bool) :=
  t.flatMap fun c =>
    match digitValue? c with
    | some n => [(Int64.ofNat (n % 32), 32 ≤ n)]
    | none => List.replicate c.utf8Size (31, true)

/-- The number whose lowest bit is its sign. -/
def unsign (n : Int64) : Int64 :=
  let half := n >>> 1
  if n &&& 1 = 0 then half else -half

/-- Reads numbers.  `current` holds the digits so far of the number that is being read, and the
next digit belongs `shift` bits higher. -/
def numbers (current : Int64) (shift : Nat) : List (Int64 × Bool) → Except MapFault (List Int64)
  | [] => if current = 0 ∧ shift = 0 then .ok [] else .error .leftover
  | (value, more) :: rest =>
    if 64 ≤ shift then .error .overflow
    else
      let current := current + (value <<< Int64.ofNat shift)
      if more then numbers current (shift + 5) rest
      else do return unsign current :: (← numbers 0 0 rest)

/-- The numbers of a segment; there is at least one. -/
def segmentNumbers (t : Text) : Except MapFault (List Int64) := do
  match ← numbers 0 0 (digitsOf t) with
  | [] => .error .noValues
  | ns => .ok ns

/-! ## 2. Tables -/

/-- The running values of a table. -/
structure Running where
  source : UInt32
  line : UInt32
  column : UInt32
  name : UInt32

/-- A running value moved by a difference. -/
def shiftBy (x : UInt32) (d : Int64) : UInt32 := (Int64.ofNat x.toNat + d).toUInt64.toUInt32

/-- What a table refers to. -/
structure Counts where
  sources : Nat
  names : Nat

/-- Reads one segment: the running values and the generated column behind it, and its entry if it
has a source. -/
def readSegment (counts : Counts) (line : Nat) (run : Running) (column : UInt32) (t : Text) :
    Except MapFault (Running × UInt32 × Option Mapping) := do
  let ns ← segmentNumbers t
  match ns with
  | [d] => return (run, shiftBy column d, none)
  | d :: s :: l :: c :: name =>
    if 1 < name.length then .error (.badSegmentSize ns.length)
    else
      let column := shiftBy column d
      let source := shiftBy run.source s
      if counts.sources ≤ source.toNat then .error (.badSourceReference source.toNat)
      else
        let run : Running := { run with
          source := source, line := shiftBy run.line l, column := shiftBy run.column c }
        let entry : Mapping :=
          ⟨line, column.toNat, source.toNat, run.line.toNat, run.column.toNat⟩
        match name with
        | [] => return (run, column, some entry)
        | n :: _ =>
          let n := shiftBy run.name n
          if counts.names ≤ n.toNat then .error (.badNameReference n.toNat)
          else return ({ run with name := n }, column, some entry)
  | _ => .error (.badSegmentSize ns.length)

/-- Reads the segments of a line; empty ones do not count. -/
def readSegments (counts : Counts) (line : Nat) :
    Running → UInt32 → List Text → Except MapFault (Running × List Mapping)
  | run, _, [] => .ok (run, [])
  | run, column, t :: rest =>
    if t.isEmpty then readSegments counts line run column rest
    else do
      let (run, column, entry) ← readSegment counts line run column t
      let (run, entries) ← readSegments counts line run column rest
      return (run, entry.toList ++ entries)

/-- The first byte of a character in UTF-8, as a character. -/
def leadingByte (c : Char) : Char :=
  match (String.singleton c).toUTF8.toList with
  | b :: _ => Char.ofNat b.toNat
  | [] => c

/-- Checks the range marks of a line: they are digits too. -/
def checkMarks (t : Text) : Except MapFault Unit :=
  match t.find? fun c => (digitValue? c).isNone with
  | some c => .error (.invalidBase64 (leadingByte c))
  | none => .ok ()

/-- Reads the lines of a table from some line on, each with its range marks. -/
def readLines (counts : Counts) :
    Nat → Running → List Text → List Text → Except MapFault (List Mapping)
  | _, _, [], _ => .ok []
  | n, run, t :: rest, marks => do
    if t.isEmpty then readLines counts (n + 1) run rest (marks.drop 1)
    else
      checkMarks (marks.headD [])
      let (run, entries) ← readSegments counts n run 0 (Text.fields ',' t)
      return entries ++ (← readLines counts (n + 1) run rest (marks.drop 1))

/-- Whether the generated place of an entry is not behind that of another. -/
def Mapping.notBehind (a b : Mapping) : Bool :=
  a.generatedLine < b.generatedLine ||
    (a.generatedLine == b.generatedLine && a.generatedColumn ≤ b.generatedColumn)

/-- The table of a map in the order of generated places; entries for one place keep their order. -/
def readTable (counts : Counts) (mappings marks : Text) : Except MapFault (List Mapping) := do
  let entries ← readLines counts 0 ⟨0, 0, 0, 0⟩ (Text.fields ';' mappings) (Text.fields ';' marks)
  return entries.mergeSort Mapping.notBehind

end TextPatch.SourceMap
