/-
# How versions rank

A version is ranked by its numbers, then by its pre-release, then by its build.  Here ranks are
elements of linear orders, put together from numbers and texts:

* an identifier of digits counts as a number and is below all others, which count as texts;
* a pre-release is its identifiers in order, and having none is above all (`Version.precedence`);
* a build is its identifiers in order, and having none is below all (`Version.buildRank`); padded
  numbers of one value rank by their length;
* any string that is a version is above all that are not, which count as texts (`VersionKey.rank`).

`VersionKey.compareTo_compares` says that keys are compared by their ranks, and
`VersionKey.rank_inj` that keys of one rank are equal.  So the comparison is a linear order on keys,
although it goes through digits character by character.
-/
import TextPatch.Version
import TextPatch.Proofs.Text.Digits
import Mathlib.Data.Prod.Lex
import Mathlib.Data.String.Basic
import Mathlib.Data.Sum.Order
import Mathlib.Order.Compare
import Mathlib.Order.WithBot

namespace TextPatch

/-! ## 1. Comparisons that follow an order -/

section Compares

variable {α β : Type} {o : Ordering}

/-- An order that is linear is followed by its own comparison. -/
theorem compares_compare [LinearOrder α] (a b : α) : (compare a b).Compares a b := by
  rw [← cmp_eq_compare]
  exact cmp_compares a b

theorem compares_compareString (a b : String) : (compare a b).Compares a b := compares_compare a b

theorem compares_compareNat (a b : ℕ) : (compare a b).Compares a b := compares_compare a b

/-- A comparison of things compares what is ordered as they are. -/
theorem compares_of_compares [LT α] [LT β] {a b : α} {a' b' : β} (h : o.Compares a b)
    (hlt : a < b → a' < b') (hgt : b < a → b' < a') (heq : a = b → a' = b') :
    o.Compares a' b' := by
  cases o with
  | lt => exact hlt h
  | eq => exact heq h
  | gt => exact hgt h

/-- One comparison after another follows the order of pairs. -/
theorem compares_then [LT α] [LT β] {o' : Ordering} {a a' : α} {b b' : β} (h : o.Compares a a')
    (h' : a = a' → o'.Compares b b') : (o.then o').Compares (toLex (a, b)) (toLex (a', b')) := by
  cases o with
  | lt => exact Prod.Lex.toLex_lt_toLex.mpr (Or.inl h)
  | gt => exact Prod.Lex.toLex_lt_toLex.mpr (Or.inl h)
  | eq =>
    obtain rfl : a = a' := h
    exact compares_of_compares (h' rfl) (fun hlt => Prod.Lex.toLex_lt_toLex.mpr (Or.inr ⟨rfl, hlt⟩))
      (fun hgt => Prod.Lex.toLex_lt_toLex.mpr (Or.inr ⟨rfl, hgt⟩))
      fun heq => congrArg (fun b => toLex (a, b)) heq

/-- A list is ordered as the pair of its first element and the others. -/
theorem compares_cons [LinearOrder α] {a b : α} {as bs : List α}
    (h : o.Compares (toLex (a, as)) (toLex (b, bs))) : o.Compares (a :: as) (b :: bs) := by
  refine compares_of_compares h (fun hlt => ?_) (fun hgt => ?_) fun heq => ?_
  · exact List.cons_lt_cons_iff.mpr (Prod.Lex.toLex_lt_toLex.mp hlt)
  · exact List.cons_lt_cons_iff.mpr (Prod.Lex.toLex_lt_toLex.mp hgt)
  · obtain ⟨rfl, rfl⟩ := Prod.mk.inj (toLex_inj.mp heq)
    rfl

end Compares

namespace Version

/-- Lists are compared by their first difference. -/
theorem compares_compareLists {β : Type} [LinearOrder β] {cmp : String → String → Ordering}
    {rank : String → β} : ∀ {as bs : List String},
      (∀ a ∈ as, ∀ b ∈ bs, (cmp a b).Compares (rank a) (rank b)) →
        (compareLists cmp as bs).Compares (as.map rank) (bs.map rank)
  | [], [], _ => rfl
  | [], _ :: _, _ => List.nil_lt_cons _ _
  | _ :: _, [], _ => List.nil_lt_cons _ _
  | a :: as, b :: bs, h => by
    have hhead := h a List.mem_cons_self b List.mem_cons_self
    have htail := compares_compareLists fun x hx y hy =>
      h x (List.mem_cons_of_mem a hx) y (List.mem_cons_of_mem b hy)
    exact compares_cons (compares_then hhead fun _ => htail)

/-! ## 2. Identifiers -/

variable {a b : String}

/-- The number that an identifier of digits stands for. -/
def value (s : String) : ℕ := Text.numberIn 10 s.toList

theorem isDigit_of_isNumeric (h : isNumeric a = true) : ∀ c ∈ a.toList, c.isDigit = true :=
  List.all_eq_true.mp h

/-- Digits are compared by their value if the longer one is not padded with zeros. -/
theorem compares_compareDigits (ha : isNumeric a = true) (hb : isNumeric b = true)
    (hshorter : a.length < b.length → b.toList.head? ≠ some '0')
    (hlonger : b.length < a.length → a.toList.head? ≠ some '0') :
    (compareDigits a b).Compares (value a) (value b) := by
  have hdigits := isDigit_of_isNumeric ha
  have hdigits' := isDigit_of_isNumeric hb
  have hpair := compares_then (compares_compareNat a.length b.length) fun _ =>
    compares_compareString a b
  refine compares_of_compares hpair (fun hlt => ?_) (fun hgt => ?_) fun heq => ?_
  · rcases Prod.Lex.toLex_lt_toLex.mp hlt with hlength | ⟨hlength, htext⟩
    · exact Text.numberIn_lt_of_length_lt hdigits hdigits' hlength (hshorter hlength)
    · exact Text.numberIn_lt_of_lt hdigits hdigits' hlength (String.lt_iff_toList_lt.mp htext)
  · rcases Prod.Lex.toLex_lt_toLex.mp hgt with hlength | ⟨hlength, htext⟩
    · exact Text.numberIn_lt_of_length_lt hdigits' hdigits hlength (hlonger hlength)
    · exact Text.numberIn_lt_of_lt hdigits' hdigits hlength (String.lt_iff_toList_lt.mp htext)
  · exact congrArg value (Prod.mk.inj (toLex_inj.mp heq)).2

/-- An identifier may stand in a pre-release: it is no number with leading zeros. -/
structure IsUnpadded (s : String) : Prop where
  ne_nil : s.toList ≠ []
  unpadded : hasNoPadding s.toList = true

/-- The longer one of two unpadded numbers does not begin with a zero. -/
theorem IsUnpadded.head?_ne (ha : IsUnpadded a) (hb : IsUnpadded b) (hnumeric : isNumeric b = true)
    (hlength : a.length < b.length) : b.toList.head? ≠ some '0' := by
  intro hhead
  have hone : b.toList.length = 1 := by
    have hunpadded := hb.unpadded
    unfold hasNoPadding at hunpadded
    rw [show b.toList.all Char.isDigit = true from hnumeric, hhead] at hunpadded
    simpa using hunpadded
  have hzero : a.toList.length = 0 := Nat.lt_one_iff.mp (hlength.trans_eq hone)
  exact ha.ne_nil (List.length_eq_zero_iff.mp hzero)

/-- Numbers without leading zeros are compared by their value. -/
theorem IsUnpadded.compares (ha : IsUnpadded a) (hb : IsUnpadded b) (hnum : isNumeric a = true)
    (hnum' : isNumeric b = true) : (compareDigits a b).Compares (value a) (value b) :=
  compares_compareDigits hnum hnum' (ha.head?_ne hb hnum') (hb.head?_ne ha hnum)

theorem isNumeric_withoutZeros (h : isNumeric a = true) : isNumeric (withoutZeros a) = true := by
  unfold isNumeric withoutZeros
  rw [String.toList_ofList, List.all_eq_true]
  intro c hc
  exact isDigit_of_isNumeric h c ((List.dropWhile_sublist _).subset hc)

theorem value_withoutZeros (s : String) : value (withoutZeros s) = value s := by
  unfold value withoutZeros
  rw [String.toList_ofList]
  exact Text.numberIn_dropWhile s.toList

theorem head?_withoutZeros (s : String) : (withoutZeros s).toList.head? ≠ some '0' := by
  unfold withoutZeros
  rw [String.toList_ofList]
  exact Text.head?_dropWhile_ne s.toList

/-- Padded numbers are compared by their value, then by their length. -/
theorem compares_comparePadded (ha : isNumeric a = true) (hb : isNumeric b = true) :
    (comparePadded a b).Compares (toLex (value a, a.length)) (toLex (value b, b.length)) := by
  have hvalue := compares_compareDigits (isNumeric_withoutZeros ha) (isNumeric_withoutZeros hb)
    (fun _ => head?_withoutZeros b) fun _ => head?_withoutZeros a
  rw [value_withoutZeros, value_withoutZeros] at hvalue
  exact compares_then hvalue fun _ => compares_compareNat a.length b.length

/-- The rank of an identifier: that of a number is below that of a text. -/
def identifierRank {β : Type} (number : String → β) (s : String) : β ⊕ₗ String :=
  if isNumeric s then Sum.inlₗ (number s) else Sum.inrₗ s

/-- Identifiers are compared by their ranks if those of digits are. -/
theorem compares_compareIdentifiers {β : Type} [LT β] {numeric : String → String → Ordering}
    {number : String → β} (h : isNumeric a = true → isNumeric b = true →
      (numeric a b).Compares (number a) (number b)) :
    (compareIdentifiers numeric a b).Compares (identifierRank number a)
      (identifierRank number b) := by
  unfold compareIdentifiers identifierRank
  cases ha : isNumeric a <;> cases hb : isNumeric b
  · exact compares_of_compares (compares_compareString a b) Sum.Lex.inr_lt_inr_iff.mpr
      Sum.Lex.inr_lt_inr_iff.mpr fun heq => congrArg Sum.inrₗ heq
  · exact Sum.Lex.inl_lt_inr _ _
  · exact Sum.Lex.inl_lt_inr _ _
  · exact compares_of_compares (h ha hb) Sum.Lex.inl_lt_inl_iff.mpr Sum.Lex.inl_lt_inl_iff.mpr
      fun heq => congrArg Sum.inlₗ heq

/-! ## 3. Versions -/

variable {v w : Version}

/-- The rank of a pre-release.  To have none ranks highest. -/
def preRank : List String → WithTop (List (ℕ ⊕ₗ String))
  | [] => ⊤
  | ids => ↑(ids.map (identifierRank value))

/-- What versions are ordered by first: their numbers, then their pre-releases. -/
abbrev Precedence : Type := (ℕ ×ₗ ℕ ×ₗ ℕ) ×ₗ WithTop (List (ℕ ⊕ₗ String))

/-- The precedence of a version. -/
def precedence (v : Version) : Precedence :=
  toLex (toLex (v.major, toLex (v.minor, v.patch)), preRank v.pre)

/-- What versions of one precedence are ordered by. -/
abbrev BuildRank : Type := List ((ℕ ×ₗ ℕ) ⊕ₗ String)

/-- The rank of a build.  To have none ranks lowest. -/
def buildRank (v : Version) : BuildRank :=
  v.build.map (identifierRank fun s => toLex (value s, s.length))

/-- No number in the pre-release of a version has leading zeros. -/
def IsProper (v : Version) : Prop := ∀ s ∈ v.pre, IsUnpadded s

theorem compares_comparePre (hv : v.IsProper) (hw : w.IsProper) :
    (comparePre v.pre w.pre).Compares (preRank v.pre) (preRank w.pre) := by
  have hlists : (compareLists (compareIdentifiers compareDigits) v.pre w.pre).Compares
      (v.pre.map (identifierRank value)) (w.pre.map (identifierRank value)) :=
    compares_compareLists fun a ha b hb =>
      compares_compareIdentifiers fun hnum hnum' => (hv a ha).compares (hw b hb) hnum hnum'
  unfold comparePre preRank
  cases hpre : v.pre with
  | nil =>
    cases w.pre with
    | nil => rfl
    | cons => exact WithTop.coe_lt_top _
  | cons =>
    cases hpre' : w.pre with
    | nil => exact WithTop.coe_lt_top _
    | cons =>
      rw [hpre, hpre'] at hlists
      exact compares_of_compares hlists WithTop.coe_lt_coe.mpr WithTop.coe_lt_coe.mpr
        (congrArg WithTop.some)

theorem compares_compareBuild (v w : Version) :
    (compareBuild v.build w.build).Compares v.buildRank w.buildRank :=
  compares_compareLists fun _ _ _ _ => compares_compareIdentifiers compares_comparePadded

/-- **Versions are compared by their precedence, then by their builds.** -/
theorem compares_compareTo (hv : v.IsProper) (hw : w.IsProper) :
    (v.compareTo w).Compares (toLex (v.precedence, v.buildRank))
      (toLex (w.precedence, w.buildRank)) := by
  have hnumbers := compares_then (compares_compareNat v.major w.major) fun _ =>
    compares_then (compares_compareNat v.minor w.minor) fun _ =>
      compares_compareNat v.patch w.patch
  have hprecedence := compares_then hnumbers fun _ => compares_comparePre hv hw
  have hall := compares_then hprecedence fun _ => compares_compareBuild v w
  -- The comparison is nested to the right, while the rank has the precedence as its first part.
  simp only [Ordering.then_assoc] at hall
  exact hall

/-! ## 4. Equal versions -/

theorem eq_of_compareLists {cmp : String → String → Ordering}
    (h : ∀ {a b}, cmp a b = .eq → a = b) : ∀ {as bs : List String},
      compareLists cmp as bs = .eq → as = bs
  | [], [], _ => rfl
  | a :: as, b :: bs, heq => by
    obtain ⟨hhead, htail⟩ := Ordering.then_eq_eq.mp heq
    exact congrArg₂ List.cons (h hhead) (eq_of_compareLists h htail)

theorem eq_of_compareIdentifiers {numeric : String → String → Ordering}
    (h : ∀ {a b}, numeric a b = .eq → a = b) (heq : compareIdentifiers numeric a b = .eq) :
    a = b := by
  unfold compareIdentifiers at heq
  cases ha : isNumeric a <;> cases hb : isNumeric b <;> rw [ha, hb] at heq
  · exact compare_eq_iff_eq.mp heq
  · cases heq
  · cases heq
  · exact h heq

theorem eq_of_compareDigits (heq : compareDigits a b = .eq) : a = b :=
  compare_eq_iff_eq.mp (Ordering.then_eq_eq.mp heq).2

/-- Digits are determined by their length and what is left of them without leading zeros. -/
theorem eq_of_comparePadded (heq : comparePadded a b = .eq) : a = b := by
  obtain ⟨hdigits, hlength⟩ := Ordering.then_eq_eq.mp heq
  have hrest : a.toList.dropWhile (· == '0') = b.toList.dropWhile (· == '0') :=
    String.ofList_injective (eq_of_compareDigits hdigits)
  have hcount : a.toList.length = b.toList.length := compare_eq_iff_eq.mp hlength
  apply String.toList_injective
  rw [Text.eq_zeros_append a.toList, Text.eq_zeros_append b.toList, hrest, hcount]

theorem eq_of_comparePre {as bs : List String} (heq : comparePre as bs = .eq) : as = bs := by
  cases as with
  | nil =>
    cases bs with
    | nil => rfl
    | cons => cases heq
  | cons =>
    cases bs with
    | nil => cases heq
    | cons => exact eq_of_compareLists (eq_of_compareIdentifiers eq_of_compareDigits) heq

/-- Only equal versions compare as equal. -/
theorem eq_of_compareTo (heq : v.compareTo w = .eq) : v = w := by
  obtain ⟨hmajor, heq⟩ := Ordering.then_eq_eq.mp heq
  obtain ⟨hminor, heq⟩ := Ordering.then_eq_eq.mp heq
  obtain ⟨hpatch, heq⟩ := Ordering.then_eq_eq.mp heq
  obtain ⟨hpre, hbuild⟩ := Ordering.then_eq_eq.mp heq
  have hbuild' : v.build = w.build :=
    eq_of_compareLists (eq_of_compareIdentifiers eq_of_comparePadded) hbuild
  cases v
  cases w
  congr
  · exact compare_eq_iff_eq.mp hmajor
  · exact compare_eq_iff_eq.mp hminor
  · exact compare_eq_iff_eq.mp hpatch
  · exact eq_of_comparePre hpre

end Version

/-! ## 5. Keys -/

namespace VersionKey

variable {k l : VersionKey}

/-- What strings are ordered by: those that are no versions come first. -/
abbrev Rank : Type := String ⊕ₗ (Version.Precedence ×ₗ Version.BuildRank)

/-- The rank of a key. -/
def rank : VersionKey → Rank
  | raw s => Sum.inlₗ s
  | version v => Sum.inrₗ (toLex (v.precedence, v.buildRank))

/-- A key is one of a string: its version, if it has one, is proper. -/
def IsProper (k : VersionKey) : Prop := ∀ v, k = version v → v.IsProper

/-- **Keys are compared by their ranks.** -/
theorem compareTo_compares (hk : k.IsProper) (hl : l.IsProper) :
    (k.compareTo l).Compares k.rank l.rank := by
  cases k with
  | raw s =>
    cases l with
    | raw t =>
      exact compares_of_compares (compares_compareString s t) Sum.Lex.inl_lt_inl_iff.mpr
        Sum.Lex.inl_lt_inl_iff.mpr fun heq => congrArg Sum.inlₗ heq
    | version w => exact Sum.Lex.inl_lt_inr _ _
  | version v =>
    cases l with
    | raw t => exact Sum.Lex.inl_lt_inr _ _
    | version w =>
      exact compares_of_compares (Version.compares_compareTo (hk v rfl) (hl w rfl))
        Sum.Lex.inr_lt_inr_iff.mpr Sum.Lex.inr_lt_inr_iff.mpr fun heq => congrArg Sum.inrₗ heq

theorem eq_of_compareTo (heq : k.compareTo l = .eq) : k = l := by
  cases k with
  | raw s =>
    cases l with
    | raw t => exact congrArg raw (compare_eq_iff_eq.mp heq)
    | version w => cases heq
  | version v =>
    cases l with
    | raw t => cases heq
    | version w => exact congrArg version (Version.eq_of_compareTo heq)

/-- Keys of one rank are equal. -/
theorem rank_inj (hk : k.IsProper) (hl : l.IsProper) : k.rank = l.rank ↔ k = l := by
  refine ⟨fun heq => ?_, fun heq => congrArg rank heq⟩
  exact eq_of_compareTo ((compareTo_compares hk hl).eq_eq.mpr heq)

end VersionKey

end TextPatch
