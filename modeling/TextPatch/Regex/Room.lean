/-
# The room that patterns take

Two automata recognise a pattern, one that reads forwards and one that reads backwards, and a
pattern is refused if either takes more than a fixed number of bytes.  They read bytes: a character
is read by one state for each byte of its UTF-8 form, a set of characters by an automaton of its own
(`setRoom`), and a repetition is written out round by round.

`Core.room` adds that up.  The automaton of a set is taken to be as small as the sharing of states
makes it, forwards of equal ends (`Sequences.nodes`) and backwards of equal beginnings
(`Sequences.edges`).
-/
import TextPatch.Regex.Core

namespace TextPatch.Regex

open Unicode

/-- The bytes that a state takes. -/
def stateSize : Nat := 32

/-- The bytes that a range takes in a state that reads one of several. -/
def rangeSize : Nat := 8

/-- The bytes that a way on takes in a state that reads nothing. -/
def wayOnSize : Nat := 4

/-! ## 1. Sets of characters -/

/-- Sequences of ranges of bytes, as many ranges as bytes. -/
abbrev Sequences := List (List (Nat × Nat))

namespace Sequences

/-- The sequences of the numbers from `a` to `b`, written with one digit from `lead` on and `k`
digits in base 64 behind it. -/
def ofDigits (lead : Nat) : (k : Nat) → (a b : Nat) → Sequences
  | 0, a, b => [[(lead + a, lead + b)]]
  | k + 1, a, b =>
    let block := 64 ^ (k + 1)
    let (low, high) := (a / block, b / block)
    let within (digit a b : Nat) : Sequences :=
      (ofDigits 0x80 k a b).map ((lead + digit, lead + digit) :: ·)
    if low = high then within low (a % block) (b % block)
    else
      let first := if a % block = 0 then [] else within low (a % block) (block - 1)
      let last := if b % block = block - 1 then [] else within high 0 (b % block)
      let low := if a % block = 0 then low else low + 1
      let high := if b % block = block - 1 then high + 1 else high
      let middle :=
        if low < high then [(lead + low, lead + (high - 1)) :: List.replicate (k + 1) (0x80, 0xBF)]
        else []
      first ++ middle ++ last

/-- The UTF-8 forms of a range of characters, those with as many bytes together. -/
def ofRange (r : Nat × Nat) : Sequences :=
  -- the surrogates have no form
  [(0x00, 0, 0x00, 0x7F), (0xC0, 1, 0x80, 0x7FF), (0xE0, 2, 0x800, 0xD7FF),
    (0xE0, 2, 0xE000, 0xFFFF), (0xF0, 3, 0x10000, 0x10FFFF)].flatMap fun (lead, k, low, high) =>
      if max r.1 low ≤ min r.2 high then ofDigits lead k (max r.1 low) (min r.2 high) else []

/-- The ranges with which some sequences begin, each with what follows it. -/
def heads : Sequences → List ((Nat × Nat) × Sequences)
  | [] => []
  | [] :: rest => heads rest
  | (r :: tail) :: rest =>
    match heads rest with
    | (r', tails) :: more =>
      if r = r' then (r, tail :: tails) :: more else (r, [tail]) :: (r', tails) :: more
    | [] => [(r, [tail])]

/-- The places from which bytes are left to read, by the sequences of what is left. -/
def nodes : (depth : Nat) → Sequences → List Sequences
  | 0, _ => []
  | depth + 1, seqs =>
    if seqs.all List.isEmpty then []
    else seqs :: (heads seqs).flatMap fun (_, tails) => nodes depth tails

/-- How many different beginnings the sequences have. -/
def edges : (depth : Nat) → Sequences → Nat
  | 0, _ => 0
  | depth + 1, seqs => (heads seqs).foldl (fun n (_, tails) => n + 1 + edges depth tails) 0

/-- How many different ranges there are to begin with. -/
def branching (seqs : Sequences) : Nat := (heads seqs).length

end Sequences

/-- The sequences of all characters of a set. -/
def sequencesOf (s : CharSet) : Sequences := s.ranges.flatMap Sequences.ofRange

/-- The room of a state that reads one of `n` ranges. -/
def readingRoom (n : Nat) : Nat := if n = 1 then stateSize else stateSize + rangeSize * n

/-- The room that a set takes, with a state behind it in which its automaton ends.  A set of one
character is no set but that character. -/
def setRoom (backwards : Bool) (s : CharSet) : Nat :=
  match s.ranges with
  | [(a, b)] =>
    if a = b then stateSize * (sequencesOf s).flatten.length
    else stateSize + ofSet
  | _ => stateSize + ofSet
where
  ofSet : Nat :=
    if s.ranges.all fun r => r.2 ≤ 0x7F then readingRoom s.ranges.length
    else
      let seqs := sequencesOf s
      if backwards then stateSize + wayOnSize * seqs.length + stateSize * Sequences.edges 4 seqs
      else
        (Sequences.nodes 4 seqs).eraseDups.foldl
          (fun room place => room + readingRoom (Sequences.branching place)) 0

/-! ## 2. Patterns -/

mutual

/-- Whether a pattern may match the empty text. -/
def Core.mayBeEmpty : Core → Bool
  | .empty => true
  | .chars _ => false
  | .look _ => true
  | .repetition sub min _ _ => min = 0 || sub.mayBeEmpty
  | .capture sub => sub.mayBeEmpty
  | .concat parts => Core.allMayBeEmpty parts
  | .alternation branches => Core.anyMayBeEmpty branches

/-- Whether patterns that follow one another may match the empty text together. -/
def Core.allMayBeEmpty : List Core → Bool
  | [] => true
  | r :: rs => r.mayBeEmpty && Core.allMayBeEmpty rs

/-- Whether one of some branches may match the empty text. -/
def Core.anyMayBeEmpty : List Core → Bool
  | [] => false
  | r :: rs => r.mayBeEmpty || Core.anyMayBeEmpty rs

end

mutual

/-- Whether a pattern matches nothing but the empty text. -/
def Core.isEmpty : Core → Bool
  | .empty => true
  | .chars _ => false
  | .look _ => true
  | .repetition sub _ max _ => max = some 0 || sub.isEmpty
  | .capture sub => sub.isEmpty
  | .concat parts => Core.allEmpty parts
  | .alternation branches => Core.allEmpty branches

/-- Whether none of some patterns matches anything but the empty text. -/
def Core.allEmpty : List Core → Bool
  | [] => true
  | r :: rs => r.isEmpty && Core.allEmpty rs

end

/-- The set of characters that a pattern comes to, if it is one. -/
def Core.set? : Core → Option CharSet
  | .chars s => some s
  | _ => none

/-- The set that branches of one character each come to. -/
def Core.setOf? (branches : List Core) : Option CharSet :=
  (branches.mapM Core.set?).map fun sets => CharSet.ofRanges (sets.flatMap CharSet.ranges)

/-- The room of a choice of `n` ways on. -/
def choiceRoom (n : Nat) : Nat := stateSize + wayOnSize * n

/-- The room of a repetition of a pattern that takes `room`.  `loops` if the pattern may match the
empty text, so that a round that reads nothing has to be kept from looping. -/
def roundsRoom (room : Nat) (loops : Bool) : (min : Nat) → (max : Option Nat) → Nat
  | 0, some 0 => stateSize
  | 1, some 1 => room
  | 0, none =>
    if loops then room + 2 * choiceRoom 2 + stateSize else room + choiceRoom 2
  | min, none => min * room + choiceRoom 2
  | min, some max =>
    let surely := if min = 0 ∧ 1 < max then stateSize else min * room
    if min = max then surely else surely + stateSize + (max - min) * (choiceRoom 2 + room)

mutual

/-- The room that one automaton of a pattern takes, in bytes. -/
def Core.room (backwards : Bool) : Core → Nat
  | .empty => stateSize
  | .chars s => setRoom backwards s
  | .look _ => stateSize
  | .repetition sub min max _ =>
    -- nothing comes of more than one round of what is empty
    if sub.isEmpty then
      roundsRoom (sub.room backwards) true (Nat.min min 1) (some (Nat.min (max.getD 1) 1))
    else roundsRoom (sub.room backwards) sub.mayBeEmpty min max
  | .capture sub => (if backwards then 0 else 2 * stateSize) + sub.room backwards
  | .concat parts => max stateSize (Core.partsRoom backwards parts)
  | .alternation branches =>
    match Core.setOf? branches with
    | some s => setRoom backwards s
    | none => stateSize + choiceRoom branches.length + Core.branchesRoom backwards branches

/-- The room of patterns that follow one another, those left out that are empty. -/
def Core.partsRoom (backwards : Bool) : List Core → Nat
  | [] => 0
  | .empty :: rs => Core.partsRoom backwards rs
  | r :: rs => r.room backwards + Core.partsRoom backwards rs

/-- The room of branches.  What they have in common at their beginnings is counted in each. -/
def Core.branchesRoom (backwards : Bool) : List Core → Nat
  | [] => 0
  | r :: rs => r.room backwards + Core.branchesRoom backwards rs

end

/-- The room of an automaton that finds a pattern: any bytes may be passed before it, where it
begins and ends is kept, and the automaton ends behind it. -/
def Core.searchRoom (backwards : Bool) (r : Core) : Nat :=
  choiceRoom 2 + 2 * stateSize + Core.room backwards (.capture r) + stateSize

end TextPatch.Regex
