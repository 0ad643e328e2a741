/-
# Programs that recognise patterns

A program is a numbered list of nodes.  A node reads a character, checks a place, chooses between
other nodes in order of preference, or accepts.  `Program.ofCore` builds the program of a pattern
from the end backwards, so that each part knows where to go on.

The order of preference is the meaning of a pattern with several matches: of two branches the
first, of a greedy repetition one more round.  A repetition without an upper bound goes through a
node of its own behind each round, which keeps a round that reads nothing from looping.
-/
import TextPatch.Regex.Core

namespace TextPatch.Regex

open Unicode

/-- One step of a program. -/
inductive Node where
  | accept
  | chars (s : CharSet) (next : Nat)
  | look (l : Look) (next : Nat)
  | choose (options : List Nat)
  deriving Repr, Inhabited

/-- A program: its nodes and the first one. -/
structure Program where
  nodes : Array Node
  start : Nat
  deriving Repr, Inhabited

namespace Program

/-- Building steps: the nodes so far are the state. -/
abbrev Build := StateM (Array Node)

/-- Adds a node and returns its number. -/
def add (n : Node) : Build Nat := fun nodes => (nodes.size, nodes.push n)

/-- Replaces a node. -/
def set (i : Nat) (n : Node) : Build Unit := fun nodes => ((), nodes.setIfInBounds i n)

/-- A choice between going round again and going on. -/
def loopNode (greedy : Bool) (again next : Nat) : Node :=
  .choose (if greedy then [again, next] else [next, again])

/-- At least one round of `body`. -/
def plus (greedy : Bool) (body : Nat → Build Nat) (next : Nat) : Build Nat := do
  let loop ← add (.choose [next])
  let start ← body loop
  set loop (loopNode greedy start next)
  return start

/-- Any number of rounds of `body`. -/
def star (greedy : Bool) (body : Nat → Build Nat) (next : Nat) : Build Nat := do
  let start ← plus greedy body next
  add (loopNode greedy start next)

/-- Exactly `n` rounds of `body`. -/
def times (body : Nat → Build Nat) : Nat → Nat → Build Nat
  | 0, next => pure next
  | n + 1, next => do times body n (← body next)

/-- At most `n` rounds of `body`, each of them optional once the one before it has been made. -/
def upTo (greedy : Bool) (body : Nat → Build Nat) (out : Nat) : Nat → Build Nat
  | 0 => pure out
  | n + 1 => do
    let rest ← upTo greedy body out n
    let start ← body rest
    add (loopNode greedy start out)

/-- The rounds of `body` that a repetition asks for. -/
def rounds (body : Nat → Build Nat) (min : Nat) (max : Option Nat) (greedy : Bool) (next : Nat) :
    Build Nat :=
  match max, min with
  | none, 0 => star greedy body next
  | none, min + 1 => do times body min (← plus greedy body next)
  | some max, min => do times body min (← upTo greedy body next (max - min))

mutual

/-- Adds the nodes of a pattern that goes on at `next`, and returns the first of them. -/
def build : Core → Nat → Build Nat
  | .empty, next => pure next
  | .chars s, next => add (.chars s next)
  | .look l, next => add (.look l next)
  | .repetition sub min max greedy, next => rounds (build sub) min max greedy next
  | .capture sub, next => build sub next
  | .concat parts, next => buildConcat parts next
  | .alternation branches, next => do add (.choose (← buildBranches branches next))

/-- Adds the nodes of patterns that follow one another. -/
def buildConcat : List Core → Nat → Build Nat
  | [], next => pure next
  | r :: rs, next => do build r (← buildConcat rs next)

/-- Adds the nodes of branches, each of which goes on at `next`. -/
def buildBranches : List Core → Nat → Build (List Nat)
  | [], _ => pure []
  | r :: rs, next => do return (← build r next) :: (← buildBranches rs next)

end

/-- The program of a pattern. -/
def ofCore (r : Core) : Program :=
  let (start, nodes) := (do build r (← add .accept) : Build Nat) #[]
  ⟨nodes, start⟩

end Program

end TextPatch.Regex
