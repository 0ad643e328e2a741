/-
# The numbers that digits stand for

Decimal digits are compared as texts, character by character, and not as numbers.  For two numbers
of the same length that is the same (`numberIn_lt_of_lt`), and a longer number is the greater one if
it is not padded with zeros (`numberIn_lt_of_length_lt`).  Zeros at the beginning do not count
(`numberIn_dropWhile`).
-/
import TextPatch.Text.Digit
import Mathlib.Data.List.Lex
import Mathlib.Tactic.Ring

namespace TextPatch.Text

variable {c d : Char} {a b t : Text}

/-! ## 1. One digit -/

/-- The value of a decimal digit. -/
def digitValue (c : Char) : Nat := c.toNat - '0'.toNat

theorem appendDigit_of_isDigit (h : c.isDigit = true) (n : Nat) :
    appendDigit 10 n c = n * 10 + digitValue c := by
  unfold appendDigit digit?
  rw [if_pos h]
  rfl

theorem digitValue_lt_ten (h : c.isDigit = true) : digitValue c < 10 := by
  have hrange := Char.isDigit_iff_toNat.mp h
  unfold digitValue
  have hzero : '0'.toNat = 48 := rfl
  have hnine : '9'.toNat = 57 := rfl
  omega

/-- Digits are ordered as characters by their values. -/
theorem digitValue_lt_digitValue (hc : c.isDigit = true) (h : c < d) :
    digitValue c < digitValue d := by
  have hlow := (Char.isDigit_iff_toNat.mp hc).1
  have hlt : c.toNat < d.toNat := h
  unfold digitValue
  have hzero : '0'.toNat = 48 := rfl
  omega

theorem one_le_digitValue (hc : c.isDigit = true) (h : c ≠ '0') : 1 ≤ digitValue c := by
  have hlow := (Char.isDigit_iff_toNat.mp hc).1
  have hne : c.toNat ≠ '0'.toNat := fun heq => h (Char.toNat_inj.mp heq)
  unfold digitValue
  have hzero : '0'.toNat = 48 := rfl
  omega

/-! ## 2. Many digits -/

theorem foldl_appendDigit : ∀ {t : Text}, (∀ c ∈ t, c.isDigit = true) → ∀ n,
    t.foldl (appendDigit 10) n = n * 10 ^ t.length + numberIn 10 t
  | [], _, n => by simp
  | c :: t, h, n => by
    have hc := h c List.mem_cons_self
    have ih := foldl_appendDigit fun d hd => h d (List.mem_cons_of_mem c hd)
    unfold numberIn
    rw [List.foldl_cons, List.foldl_cons, ih, ih, appendDigit_of_isDigit hc,
      appendDigit_of_isDigit hc, List.length_cons]
    ring

/-- The first digit counts most. -/
theorem numberIn_cons (h : ∀ x ∈ c :: t, x.isDigit = true) :
    numberIn 10 (c :: t) = digitValue c * 10 ^ t.length + numberIn 10 t := by
  have hrest : ∀ x ∈ t, x.isDigit = true := fun x hx => h x (List.mem_cons_of_mem c hx)
  unfold numberIn
  rw [List.foldl_cons, foldl_appendDigit hrest, appendDigit_of_isDigit (h c List.mem_cons_self),
    Nat.zero_mul, Nat.zero_add]
  rfl

theorem numberIn_lt_pow : ∀ {t : Text}, (∀ c ∈ t, c.isDigit = true) →
    numberIn 10 t < 10 ^ t.length
  | [], _ => by simp
  | c :: t, h => by
    have hvalue := digitValue_lt_ten (h c List.mem_cons_self)
    have ih := numberIn_lt_pow fun x hx => h x (List.mem_cons_of_mem c hx)
    rw [numberIn_cons h, List.length_cons, Nat.pow_succ]
    calc digitValue c * 10 ^ t.length + numberIn 10 t
        < digitValue c * 10 ^ t.length + 10 ^ t.length := Nat.add_lt_add_left ih _
      _ = (digitValue c + 1) * 10 ^ t.length := by ring
      _ ≤ 10 * 10 ^ t.length := Nat.mul_le_mul_right _ hvalue
      _ = 10 ^ t.length * 10 := Nat.mul_comm _ _

/-- **Numbers of one length** are ordered as texts by their values. -/
theorem numberIn_lt_of_lt : ∀ {a b : Text}, (∀ c ∈ a, c.isDigit = true) →
    (∀ c ∈ b, c.isDigit = true) → a.length = b.length → a < b → numberIn 10 a < numberIn 10 b
  | [], [], _, _, _, hlt => absurd hlt (List.lt_irrefl [])
  | c :: a, d :: b, ha, hb, hlength, hlt => by
    have hrest : a.length = b.length := Nat.succ.inj hlength
    have ha' : ∀ x ∈ a, x.isDigit = true := fun x hx => ha x (List.mem_cons_of_mem c hx)
    have hb' : ∀ x ∈ b, x.isDigit = true := fun x hx => hb x (List.mem_cons_of_mem d hx)
    rw [numberIn_cons ha, numberIn_cons hb, hrest]
    rcases List.cons_lt_cons_iff.mp hlt with hhead | ⟨rfl, htail⟩
    · -- All digits behind a smaller one together count less than the difference.
      have hvalue := digitValue_lt_digitValue (ha c List.mem_cons_self) hhead
      have hbound := numberIn_lt_pow ha'
      rw [hrest] at hbound
      calc digitValue c * 10 ^ b.length + numberIn 10 a
          < digitValue c * 10 ^ b.length + 10 ^ b.length := Nat.add_lt_add_left hbound _
        _ = (digitValue c + 1) * 10 ^ b.length := by ring
        _ ≤ digitValue d * 10 ^ b.length := Nat.mul_le_mul_right _ hvalue
        _ ≤ digitValue d * 10 ^ b.length + numberIn 10 b := Nat.le_add_right _ _
    · exact Nat.add_lt_add_left (numberIn_lt_of_lt ha' hb' hrest htail) _

/-- **A longer number that is not padded** is greater. -/
theorem numberIn_lt_of_length_lt (ha : ∀ c ∈ a, c.isDigit = true)
    (hb : ∀ c ∈ b, c.isDigit = true) (hlength : a.length < b.length)
    (hhead : b.head? ≠ some '0') : numberIn 10 a < numberIn 10 b := by
  cases b with
  | nil => exact absurd hlength (Nat.not_lt_zero _)
  | cons d b =>
    have hvalue : 1 ≤ digitValue d :=
      one_le_digitValue (hb d List.mem_cons_self) fun heq => hhead (congrArg some heq)
    rw [numberIn_cons hb]
    calc numberIn 10 a
        < 10 ^ a.length := numberIn_lt_pow ha
      _ ≤ 10 ^ b.length := Nat.pow_le_pow_right (by decide) (Nat.le_of_lt_succ hlength)
      _ = 1 * 10 ^ b.length := (Nat.one_mul _).symm
      _ ≤ digitValue d * 10 ^ b.length := Nat.mul_le_mul_right _ hvalue
      _ ≤ digitValue d * 10 ^ b.length + numberIn 10 b := Nat.le_add_right _ _

/-- Zeros at the beginning do not count. -/
theorem numberIn_dropWhile : ∀ t : Text, numberIn 10 (t.dropWhile (· == '0')) = numberIn 10 t
  | [] => rfl
  | c :: t => by
    rw [List.dropWhile_cons]
    split
    · rename_i hzero
      obtain rfl : c = '0' := eq_of_beq hzero
      exact numberIn_dropWhile t
    · rfl

theorem head?_dropWhile_ne (t : Text) : (t.dropWhile (· == '0')).head? ≠ some '0' := by
  intro hhead
  have hnot := List.head?_dropWhile_not (· == '0') t
  rw [hhead] at hnot
  cases hnot

/-- A text is determined by its length and what is left of it without leading zeros. -/
theorem eq_zeros_append (t : Text) :
    t = List.replicate (t.length - (t.dropWhile (· == '0')).length) '0' ++
      t.dropWhile (· == '0') := by
  have hsplit := List.takeWhile_append_dropWhile (p := (· == '0')) (l := t)
  have hzeros : t.takeWhile (· == '0') = List.replicate (t.takeWhile (· == '0')).length '0' :=
    List.eq_replicate_of_mem fun c hc => eq_of_beq (List.all_eq_true.mp List.all_takeWhile c hc)
  have hlength := congrArg List.length hsplit
  rw [List.length_append] at hlength
  rw [Nat.sub_eq_of_eq_add hlength.symm, ← hzeros, hsplit]

end TextPatch.Text
