/-
# Edit scripts

An edit script turns the old lines into the new ones: it says which lines are kept, deleted and
inserted.  `script` finds a shortest one by cutting the problem in two at the middle of a shortest
path (`middle?`), so only the lines around the changes are compared more than once.

Among the shortest scripts `tidy` then picks one in which neighbouring changes are merged, and
insertions stand as late as the lines around them allow.
-/
import TextPatch.Text

namespace TextPatch.Diff

/-- A step of a script: a run of lines that are kept, deleted or inserted.  All numbers of lines
count from zero. -/
inductive Op where
  | keep (old new length : Nat)
  | delete (old length new : Nat)
  | insert (old new length : Nat)
  deriving DecidableEq, Repr, Inhabited

/-! ## 1. Shortest scripts -/

/-- How many lines two lists have in common at their start. -/
def commonStart : List Text → List Text → Nat
  | a :: as, b :: bs => if a = b then commonStart as bs + 1 else 0
  | _, _ => 0

/-- How many lines two lists have in common at their end. -/
def commonEnd (as bs : List Text) : Nat := commonStart as.reverse bs.reverse

/-- How far paths have come: for each diagonal, the number of old lines behind them. -/
structure Frontier where
  origin : Nat
  reached : Array Nat

namespace Frontier

/-- The frontier before the first step, for diagonals between `-size` and `size`. -/
def start (size : Nat) : Frontier := ⟨size + 1, Array.replicate (2 * size + 3) 0⟩

/-- The number of old lines behind the path on a diagonal. -/
def get (f : Frontier) (k : Int) : Nat := f.reached.getD (k + f.origin).toNat 0

/-- The frontier with another number on a diagonal. -/
def set (f : Frontier) (k : Int) (x : Nat) : Frontier :=
  { f with reached := f.reached.setIfInBounds (k + f.origin).toNat x }

/-- The number of old lines behind the furthest path that gets to diagonal `k` with step `d`, before
it follows the lines in common. -/
def enter (f : Frontier) (d k : Int) : Nat :=
  if k = -d ∨ (k ≠ d ∧ f.get (k - 1) < f.get (k + 1)) then f.get (k + 1) else f.get (k - 1) + 1

end Frontier

/-- How far two lists agree from line `x` of the first and line `y` of the second on. -/
def agree (old new : Array Text) (x : Nat) (y : Int) : (fuel : Nat) → Nat
  | 0 => 0
  | fuel + 1 =>
    if 0 ≤ y ∧ x < old.size ∧ y.toNat < new.size ∧ old[x]? = new[y.toNat]? then
      agree old new (x + 1) (y + 1) fuel + 1
    else 0

/-- The frontiers of a search from both ends. -/
structure Fronts where
  forward : Frontier
  backward : Frontier

/-- The diagonals of step `d`, from the greatest to the least. -/
def diagonals (d : Nat) : List Int := (List.range (d + 1)).map fun (i : Nat) => (d : Int) - 2 * i

/-- Takes the paths from the start to a diagonal.  Answers where the last run of lines in common
began if a path from the end has been met. -/
def advance (old new : Array Text) (d : Nat) (s : Fronts) (k : Int) :
    Fronts × Option (Nat × Nat) :=
  let delta : Int := old.size - new.size
  let x := s.forward.enter d k
  let y : Int := x - k
  let f := s.forward.set k (x + agree old new x y old.size)
  let met := delta % 2 ≠ 0 ∧ (k - delta).natAbs + 1 ≤ d ∧
    old.size ≤ f.get k + s.backward.get (delta - k)
  ({ s with forward := f }, if met then some (x, y.toNat) else none)

/-- Takes the paths from the end to a diagonal.  Answers how far a path from the start has come that
has been met. -/
def retreat (old new oldBack newBack : Array Text) (d : Nat) (s : Fronts) (k : Int) :
    Fronts × Option (Nat × Nat) :=
  let delta : Int := old.size - new.size
  let x₀ := s.backward.enter d k
  let n := agree oldBack newBack x₀ (x₀ - k) old.size
  let x := x₀ + n
  let y : Int := x - k
  let b := s.backward.set k x
  let met := delta % 2 = 0 ∧ (k - delta).natAbs ≤ d ∧
    old.size ≤ b.get k + s.forward.get (delta - k)
  ({ s with backward := b },
    if met then some (old.size - x, ((new.size : Int) - y).toNat) else none)

/-- Visits diagonals until paths meet. -/
def visit (f : Fronts → Int → Fronts × Option (Nat × Nat)) (s : Fronts) :
    List Int → Fronts × Option (Nat × Nat)
  | [] => (s, none)
  | k :: ks =>
    match f s k with
    | (s, some p) => (s, some p)
    | (s, none) => visit f s ks

/-- Takes steps from both ends until paths meet. -/
def meet? (old new oldBack newBack : Array Text) (s : Fronts) :
    List Nat → Option (Nat × Nat)
  | [] => none
  | d :: ds =>
    match visit (advance old new d) s (diagonals d) with
    | (_, some p) => some p
    | (s, none) =>
      match visit (retreat old new oldBack newBack d) s (diagonals d) with
      | (_, some p) => some p
      | (s, none) => meet? old new oldBack newBack s ds

/-- A place on a shortest path where the problem can be cut in two: numbers of old and new lines. -/
def middle? (old new : List Text) : Option (Nat × Nat) :=
  let size := (old.length + new.length + 1) / 2 + 1
  meet? old.toArray new.toArray old.reverse.toArray new.reverse.toArray
    ⟨.start size, .start size⟩ (List.range size)

/-- A run of kept lines, if there are any. -/
def keeping (old new length : Nat) : List Op := if length = 0 then [] else [.keep old new length]

/-- A shortest script from old to new lines, which begin at lines `i` and `j`.  Every cut makes both
problems smaller, so the number of lines is enough fuel. -/
def shortest : (fuel : Nat) → (i j : Nat) → (old new : List Text) → List Op
  | 0, i, j, old, new => [.delete i old.length j, .insert i j new.length]
  | fuel + 1, i, j, old, new =>
    let p := commonStart old new
    let (old, new) := (old.drop p, new.drop p)
    let s := commonEnd old new
    let (old, new) := (old.take (old.length - s), new.take (new.length - s))
    let (i', j') := (i + p, j + p)
    let changes :=
      if old.isEmpty && new.isEmpty then []
      else if new.isEmpty then [.delete i' old.length j']
      else if old.isEmpty then [.insert i' j' new.length]
      else match middle? old new with
        | some (x, y) =>
          shortest fuel i' j' (old.take x) (new.take y) ++
            shortest fuel (i' + x) (j' + y) (old.drop x) (new.drop y)
        | none => [.delete i' old.length j', .insert i' j' new.length]
    keeping i j p ++ (changes ++ keeping (i' + old.length) (j' + new.length) s)

/-! ## 2. Tidying up -/

/-- Whether a step is a deletion. -/
def Op.isDelete : Op → Bool
  | delete _ _ _ => true
  | _ => false

/-- Whether a step is an insertion. -/
def Op.isInsert : Op → Bool
  | insert _ _ _ => true
  | _ => false

/-- The lines that a step inserts. -/
def Op.inserted (new : List Text) : Op → List Text
  | insert _ j n => (new.drop j).take n
  | _ => []

/-- The step with `n` lines more at its end. -/
def Op.grow (n : Nat) : Op → Op
  | keep i j l => keep i j (l + n)
  | delete i l j => delete i (l + n) j
  | insert i j l => insert i j (l + n)

/-- The step with `n` lines more at its start. -/
def Op.growFront (n : Nat) : Op → Op
  | keep i j l => keep (i - n) (j - n) (l + n)
  | delete i l j => delete (i - n) (l + n) (j - n)
  | insert i j l => insert (i - n) (j - n) (l + n)

/-- The step `n` lines earlier. -/
def Op.earlier (n : Nat) : Op → Op
  | keep i j l => keep (i - n) (j - n) l
  | delete i l j => delete (i - n) l (j - n)
  | insert i j l => insert (i - n) (j - n) l

/-- The step `n` lines later. -/
def Op.later (n : Nat) : Op → Op
  | keep i j l => keep (i + n) (j + n) l
  | delete i l j => delete (i + n) l (j + n)
  | insert i j l => insert (i + n) (j + n) l

/-- The number of lines of a step. -/
def Op.length : Op → Nat
  | keep _ _ l => l
  | delete _ l _ => l
  | insert _ _ l => l

/-- The first new line behind a step. -/
def Op.newEnd : Op → Nat
  | keep _ j l => j + l
  | delete _ _ j => j
  | insert _ j l => j + l

/-- The first new line of a step. -/
def Op.newStart : Op → Nat
  | keep _ j _ => j
  | delete _ _ j => j
  | insert _ j _ => j

/-- A step of a script with the steps before it, the last one first, and the steps behind it. -/
structure Focus where
  before : List Op
  op : Op
  behind : List Op

/-- Puts kept lines in front of steps that may begin with kept lines. -/
def keepFront (i j n : Nat) : List Op → List Op
  | .keep a b l :: rest => (Op.keep a b l).growFront n :: rest
  | rest => .keep i j n :: rest

/-- Puts kept lines behind steps, given backwards, that may end with kept lines. -/
def keepBack (i j n : Nat) : List Op → List Op
  | .keep a b l :: rest => (Op.keep a b l).grow n :: rest
  | rest => .keep i j n :: rest

/-- Moves a change up as far as it goes: over other changes, which it merges with if they are of its
kind, and over kept lines that an insertion ends with. -/
def slideUp (old new : List Text) : (fuel : Nat) → Focus → Focus
  | 0, f => f
  | fuel + 1, f =>
    match f.before with
    | [] => f
    | .keep i j l :: before =>
      let n := commonEnd ((old.drop i).take l) (f.op.inserted new)
      if n = 0 then
        if l = 0 then slideUp old new fuel { f with before } else f
      else
        slideUp old new fuel
          ⟨if l = n then before else .keep i j (l - n) :: before, f.op.earlier n,
            keepFront (i + l - n) (f.op.newEnd - n) n f.behind⟩
    | other :: before =>
      if other.isDelete = f.op.isDelete then
        slideUp old new fuel ⟨before, other.grow f.op.length, f.behind⟩
      else slideUp old new fuel ⟨before, f.op, other :: f.behind⟩

/-- Moves a change down as far as it goes, like `slideUp`. -/
def slideDown (old new : List Text) : (fuel : Nat) → Focus → Focus
  | 0, f => f
  | fuel + 1, f =>
    match f.behind with
    | [] => f
    | .keep i j l :: behind =>
      let n := commonStart ((old.drop i).take l) (f.op.inserted new)
      if n = 0 then
        if l = 0 then slideDown old new fuel { f with behind } else f
      else
        slideDown old new fuel
          ⟨keepBack i f.op.newStart n f.before, f.op.later n,
            if l = n then behind else .keep (i + n) (j + n) (l - n) :: behind⟩
    | other :: behind =>
      if other.isDelete = f.op.isDelete then
        slideDown old new fuel ⟨f.before, f.op.grow other.length, behind⟩
      else slideDown old new fuel ⟨other :: f.before, f.op, behind⟩

/-- Moves every change of a kind up and then down.  `before` are the steps that are done, the last
one first. -/
def slideAll (old new : List Text) (chosen : Op → Bool) : (fuel : Nat) → (before behind : List Op) →
    List Op
  | 0, before, behind => before.reverse ++ behind
  | _ + 1, before, [] => before.reverse
  | fuel + 1, before, op :: behind =>
    if chosen op then
      let reach := 2 * (old.length + new.length) + before.length + behind.length + 1
      let f := slideDown old new reach (slideUp old new reach ⟨before, op, behind⟩)
      slideAll old new chosen fuel (f.op :: f.before) f.behind
    else slideAll old new chosen fuel (op :: before) behind

/-- Moves deletions, then insertions. -/
def tidy (old new : List Text) (ops : List Op) : List Op :=
  let fuel := 2 * (old.length + new.length) + 2 * ops.length + 2
  slideAll old new Op.isInsert fuel [] (slideAll old new Op.isDelete fuel [] ops)

/-! ## 3. Stretches -/

/-- A stretch of a script: lines that are kept, or old lines that give way to new ones. -/
inductive Stretch where
  | kept (old new length : Nat)
  | changed (old oldLength new newLength : Nat)
  deriving DecidableEq, Repr, Inhabited

/-- Changes that follow one another: a deletion and an insertion. -/
structure Pending where
  deletion : Option (Nat × Nat × Nat)
  insertion : Option (Nat × Nat × Nat)

namespace Pending

/-- No changes. -/
def none : Pending := ⟨.none, .none⟩

/-- The stretch of some changes. -/
def stretch : Pending → List Stretch
  | ⟨some (i, l, _), some (_, j, n)⟩ => [.changed i l j n]
  | ⟨some (i, l, j), .none⟩ => [.changed i l j 0]
  | ⟨.none, some (i, j, n)⟩ => [.changed i 0 j n]
  | ⟨.none, .none⟩ => []

end Pending

/-- Joins kept lines with the stretch behind them. -/
def joinKept (i j l : Nat) : List Stretch → List Stretch
  | .kept _ _ m :: rest => .kept i j (l + m) :: rest
  | rest => .kept i j l :: rest

/-- The stretches of a script: steps of a kind are joined. -/
def stretches (p : Pending) : List Op → List Stretch
  | [] => p.stretch
  | .keep i j l :: ops => p.stretch ++ joinKept i j l (stretches .none ops)
  | .delete i l j :: ops =>
    stretches { p with deletion := match p.deletion with
      | some (i', l', j') => some (i', l' + l, j')
      | .none => some (i, l, j) } ops
  | .insert i j l :: ops =>
    stretches { p with insertion := match p.insertion with
      | some (i', j', l') => some (i', j', l' + l)
      | .none => some (i, j, l) } ops

/-- The script from old to new lines. -/
def script (old new : List Text) : List Stretch :=
  stretches .none (tidy old new (shortest (old.length + new.length + 1) 0 0 old new))

end TextPatch.Diff
