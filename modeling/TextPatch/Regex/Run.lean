/-
# Running programs

A program runs over a text from one place on, keeping all the nodes at which it may be, in order
of preference.  `Program.expand` follows choices and checks places, without reading, until only
nodes that read a character are left; it drops everything behind the first node that accepts,
because nothing that comes later is preferred to it.  `Program.run` reads the text character by
character and remembers the last place at which something accepted.

So `Program.matchLength?` answers how many characters the preferred match that starts exactly
here has, if there is one.
-/
import TextPatch.Regex.Program

namespace TextPatch.Regex

open Unicode

/-- Whether a character belongs to words. -/
def isWord (unicode : Bool) (c : Option Char) : Bool :=
  match c with
  | none => false
  | some c =>
    if c.toNat ≤ 0x7F then LetterClass.word.asciiSet.contains c
    else unicode && Unicode.wordChar.contains c

/-- Whether a place lies between two characters, either of which may be missing. -/
def Look.holds (before after : Option Char) : Look → Bool
  | .textStart => before.isNone
  | .textEnd => after.isNone
  | .lineStart => before.isNone || before == some '\n'
  | .lineEnd => after.isNone || after == some '\n'
  | .crlfStart =>
    before.isNone || before == some '\n' || (before == some '\r' && after != some '\n')
  | .crlfEnd =>
    after.isNone || after == some '\r' || (after == some '\n' && before != some '\r')
  | .wordBoundary u => isWord u before != isWord u after
  | .notWordBoundary u => isWord u before == isWord u after
  | .wordStart u => !isWord u before && isWord u after
  | .wordEnd u => isWord u before && !isWord u after
  | .wordStartHalf u => !isWord u before
  | .wordEndHalf u => !isWord u after

namespace Program

/-- The nodes that read a character, in order of preference, and whether a node accepts. -/
structure Threads where
  reading : List (CharSet × Nat)
  accepts : Bool

/-- How often `expand` looks at a node: at most once for each way into it. -/
def ways (p : Program) : Nat :=
  p.nodes.foldl (fun n node => match node with
    | .choose options => n + options.length
    | _ => n + 1) 0

/-- Follows the nodes of a stack, the preferred one first, to the nodes that read.  A node that has
been seen is not followed again. -/
def expand (p : Program) (before after : Option Char) :
    (fuel : Nat) → (stack : List Nat) → (seen : Array Bool) → Threads
  | 0, _, _ => ⟨[], false⟩
  | _ + 1, [], _ => ⟨[], false⟩
  | fuel + 1, i :: stack, seen =>
    if seen.getD i true then p.expand before after fuel stack seen
    else
      let seen := seen.setIfInBounds i true
      match p.nodes[i]? with
      | none => p.expand before after fuel stack seen
      | some .accept => ⟨[], true⟩
      | some (.chars s next) =>
        let r := p.expand before after fuel stack seen
        ⟨(s, next) :: r.reading, r.accepts⟩
      | some (.look l next) =>
        if l.holds before after then p.expand before after fuel (next :: stack) seen
        else p.expand before after fuel stack seen
      | some (.choose options) => p.expand before after fuel (options ++ stack) seen

/-- Runs on from a stack of nodes.  `count` characters have been read, `best` is the length of the
preferred match so far. -/
def run (p : Program) (ways : Nat) (before : Option Char) (stack : List Nat) (count : Nat)
    (best : Option Nat) : Text → Option Nat
  | [] =>
    let threads := p.expand before none (ways + stack.length + 1) stack
      (Array.replicate p.nodes.size false)
    if threads.accepts then some count else best
  | c :: t =>
    let threads := p.expand before (some c) (ways + stack.length + 1) stack
      (Array.replicate p.nodes.size false)
    let best := if threads.accepts then some count else best
    if threads.reading.isEmpty then best
    else
      let stack := threads.reading.filterMap fun (s, next) => if s.contains c then some next else none
      p.run ways (some c) stack (count + 1) best t

/-- The number of characters of the preferred match that starts between two parts of a text; the
first part is given backwards. -/
def matchLength? (p : Program) (before after : Text) : Option Nat :=
  p.run p.ways before.head? [p.start] 0 none after

end Program

end TextPatch.Regex
