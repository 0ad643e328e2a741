/-
# The shortest decimal that reads back

A finite binary64 number is `m · 2 ^ q`.  Among the decimals that round to it, this file picks one
with the fewest digits and, of those, the nearest; of two equally near ones, the one whose last
digit is even.  The search is exact: it goes through the digit counts `1, 2, … , 17`, looks at the
two neighbours of the value on the grid with that many digits, and compares natural numbers only.
-/

namespace TextPatch.Decimal

/-- A finite positive binary number `mantissa · 2 ^ exponent`; `narrow` marks the first number
behind a power of two, whose neighbour below is half as far away as the one above. -/
structure Binary where
  mantissa : Nat
  exponent : Int
  narrow : Bool

/-- A decimal `digits · 10 ^ exponent`. -/
structure Number where
  digits : Nat
  exponent : Int
  deriving DecidableEq, Repr

/-- The parts of a finite positive binary64 number, from its bits. -/
def Binary.ofBits (bits : Nat) : Binary :=
  let fraction : Nat := bits % 0x10000000000000
  let biased : Nat := bits / 0x10000000000000 % 0x800
  if biased = 0 then ⟨fraction, -1074, false⟩
  else ⟨0x10000000000000 + fraction, (biased : Int) - 1075, fraction == 0 && biased != 1⟩

/-- A ratio of two natural numbers. -/
structure Ratio where
  numerator : Nat
  denominator : Nat

/-- The ratio `n · base ^ e`. -/
def Ratio.scaled (n base : Nat) (e : Int) : Ratio :=
  if 0 ≤ e then ⟨n * base.pow e.toNat, 1⟩ else ⟨n, base.pow (-e).toNat⟩

/-- Whether a ratio is at most another one. -/
def Ratio.le (a b : Ratio) : Bool := a.numerator * b.denominator ≤ b.numerator * a.denominator

/-- Whether a ratio is less than another one. -/
def Ratio.lt (a b : Ratio) : Bool := a.numerator * b.denominator < b.numerator * a.denominator

/-- The distance between two ratios. -/
def Ratio.distance (a b : Ratio) : Ratio :=
  let x := a.numerator * b.denominator
  let y := b.numerator * a.denominator
  ⟨(x - y) + (y - x), a.denominator * b.denominator⟩

/-- The exponent of the first digit of a positive ratio, searched downwards from `high`. -/
def leadingExponent (r : Ratio) : Nat → Int → Int
  | 0, high => high
  | fuel + 1, high => if (Ratio.scaled 1 10 high).le r then high else leadingExponent r fuel (high - 1)

/-- The decimals that round to a binary number are those between `low` and `high`, the ends
included if the mantissa is even. -/
def Binary.covers (b : Binary) (d : Ratio) : Bool :=
  let low := Ratio.scaled (4 * b.mantissa - if b.narrow then 1 else 2) 2 (b.exponent - 2)
  let high := Ratio.scaled (4 * b.mantissa + 2) 2 (b.exponent - 2)
  if b.mantissa % 2 = 0 then low.le d && d.le high else low.lt d && d.lt high

/-- The better of the two neighbours of `b` on the grid of multiples of `10 ^ e`, if one of them
rounds to `b`. -/
def Binary.onGrid? (b : Binary) (e : Int) : Option Number :=
  let value := Ratio.scaled b.mantissa 2 b.exponent
  let step := Ratio.scaled 1 10 e
  let below := value.numerator * step.denominator / (value.denominator * step.numerator)
  let point (n : Nat) := Ratio.scaled n 10 e
  let hit (n : Nat) := 0 < n && b.covers (point n)
  match hit below, hit (below + 1) with
  | true, false => some ⟨below, e⟩
  | false, true => some ⟨below + 1, e⟩
  | false, false => none
  | true, true =>
    let down := value.distance (point below)
    let up := value.distance (point (below + 1))
    if down.lt up then some ⟨below, e⟩
    else if up.lt down then some ⟨below + 1, e⟩
    else if below % 2 = 0 then some ⟨below, e⟩ else some ⟨below + 1, e⟩

/-- Drops the zeros at the end of the digits. -/
def Number.strip : Nat → Number → Number
  | 0, d => d
  | fuel + 1, d =>
    if d.digits ≠ 0 ∧ d.digits % 10 = 0 then strip fuel ⟨d.digits / 10, d.exponent + 1⟩ else d

/-- The first of the grids with `n, n + 1, …` digits that has a decimal rounding to `b`. -/
def Binary.search (b : Binary) (lead : Int) : Nat → Nat → Number
  | 0, _ => ⟨b.mantissa, 0⟩
  | more + 1, n =>
    match b.onGrid? (lead + 1 - n) with
    | some d => d
    | none => b.search lead more (n + 1)

/-- The shortest decimal that rounds to a finite positive number. -/
def shortest (x : Float) : Number :=
  let b := Binary.ofBits (x.toBits.toNat % 0x8000000000000000)
  let lead := leadingExponent (Ratio.scaled b.mantissa 2 b.exponent) 700 310
  (b.search lead 18 1).strip 20

end TextPatch.Decimal
