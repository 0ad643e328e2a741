/-
# Numbers read back

Reading a number that has been written takes exactly what has been written (`number_rest`): the
reader may refuse the number, and it may come to another value, but if it answers then it stops
where the number ends.  Nothing is said about values, so that nothing has to be known of binary
arithmetic; the shape of the text alone decides where a number ends.

`IsNumberText` is that shape, and `numberText_shape` shows that every number is written in it.
-/
import TextPatch.Json.Number
import TextPatch.Json.Printer
import TextPatch.Proofs.Run

namespace TextPatch.Json

/-! ## 1. The shape of numbers -/

/-- A text of digits. -/
def AreDigits (t : Text) : Prop := ∀ c ∈ t, c.isDigit = true

theorem AreDigits.append {s t : Text} (hs : AreDigits s) (ht : AreDigits t) :
    AreDigits (s ++ t) := by
  intro c hc
  rcases List.mem_append.mp hc with hc | hc
  · exact hs c hc
  · exact ht c hc

theorem AreDigits.take {t : Text} (h : AreDigits t) (n : Nat) : AreDigits (t.take n) :=
  fun c hc => h c (List.mem_of_mem_take hc)

theorem AreDigits.drop {t : Text} (h : AreDigits t) (n : Nat) : AreDigits (t.drop n) :=
  fun c hc => h c (List.mem_of_mem_drop hc)

theorem areDigits_zeros (n : Nat) : AreDigits (List.replicate n '0') := by
  intro c hc
  rw [List.eq_of_mem_replicate hc]
  decide

theorem areDigits_toDigits (n : Nat) : AreDigits (Nat.toDigits 10 n) :=
  fun _ hc => Nat.isDigit_of_mem_toDigits (by decide) (by decide) hc

/-- The part of a number from its point on. -/
inductive IsFraction : Text → Prop
  | none : IsFraction []
  | some {fs : Text} (h : AreDigits fs) : IsFraction ('.' :: fs)

/-- The part of a number from its exponent on. -/
inductive IsExponent : Text → Prop
  | none : IsExponent []
  | some {sign es : Text} (hsign : sign = [] ∨ sign = ['+'] ∨ sign = ['-']) (h : AreDigits es) :
      IsExponent ('e' :: (sign ++ es))

/-- The text of a number without its sign. -/
structure IsNumberText (t : Text) : Prop where
  parts : ∃ ds fraction exponent, ds ≠ [] ∧ AreDigits ds ∧ IsFraction fraction ∧
    IsExponent exponent ∧ t = ds ++ (fraction ++ exponent)

/-- A text that no number goes on with: it is empty, or it begins with a comma or a new line. -/
def Stops (t : Text) : Prop := ∀ c t', t = c :: t' → c = ',' ∨ c = '\n'

theorem stops_nil : Stops [] := by
  intro c t' h
  cases h

theorem Stops.head_cases {t : Text} (h : Stops t) :
    t = [] ∨ ∃ t', t = ',' :: t' ∨ t = '\n' :: t' := by
  cases t with
  | nil => exact Or.inl rfl
  | cons c t' =>
    rcases h c t' rfl with rfl | rfl
    · exact Or.inr ⟨t', Or.inl rfl⟩
    · exact Or.inr ⟨t', Or.inr rfl⟩

/-! ## 2. Reading them -/

namespace Read

/-- Digits end where no digit follows. -/
theorem digits_append {ds t : Text} (hds : AreDigits ds)
    (ht : ∀ c t', t = c :: t' → c.isDigit = false) : digits (ds ++ t) = (ds, t) := by
  unfold digits
  rw [List.takeWhile_append_of_pos hds, List.dropWhile_append_of_pos hds]
  cases t with
  | nil => simp
  | cons c t' =>
    have hc := ht c t' rfl
    rw [List.takeWhile_cons, List.dropWhile_cons]
    simp [hc]

theorem Stops.not_digit {t : Text} (h : Stops t) : ∀ c t', t = c :: t' → c.isDigit = false := by
  intro c t' hct
  rcases h c t' hct with rfl | rfl
  · decide
  · decide

/-- Looking at the next character answers the first one of the text. -/
theorem peek_eq_ok {broken : Bool} {t : Text} {c : Option Char} (h : peek broken t = .ok c) :
    c = t.head? := by
  cases t with
  | nil =>
    cases broken with
    | true => cases h
    | false =>
      cases h
      rfl
  | cons d t =>
    cases h
    rfl

/-- A digit is no sign. -/
theorem head?_not_sign {es t : Text} (hes : AreDigits es) (ht : Stops t) :
    (es ++ t).head? ≠ some '-' ∧ (es ++ t).head? ≠ some '+' := by
  cases es with
  | nil =>
    rcases ht.head_cases with rfl | ⟨t', rfl | rfl⟩
    · simp
    · simp
    · simp
  | cons c es =>
    have hc := hes c (by simp)
    constructor
    · rintro heq
      obtain rfl : c = '-' := by simpa using heq
      exact absurd hc (by decide)
    · rintro heq
      obtain rfl : c = '+' := by simpa using heq
      exact absurd hc (by decide)

/-- The exponent part ends where its digits do. -/
theorem exponentPart_rest {broken negative : Bool} {s : Nat} {e : Int} {sign es t t' : Text}
    {n : JsonNumber} (hsign : sign = [] ∨ sign = ['+'] ∨ sign = ['-']) (hes : AreDigits es)
    (ht : Stops t) (h : exponentPart broken negative s e (sign ++ (es ++ t)) = .ok (n, t')) :
    t' = t := by
  unfold exponentPart at h
  obtain ⟨c, hc, h⟩ := bind_eq_ok.mp h
  have htail : (if (c == some '-') || c == some '+' then (sign ++ (es ++ t)).drop 1
      else sign ++ (es ++ t)) = es ++ t := by
    rw [peek_eq_ok hc]
    rcases hsign with rfl | rfl | rfl
    · have hhead := head?_not_sign hes ht
      simp only [List.nil_append]
      rw [if_neg (by simpa using hhead)]
    · rfl
    · rfl
  simp only [htail] at h
  rw [digits_append hes (Stops.not_digit ht)] at h
  split at h
  · cases h
  · split at h
    · cases h
    · obtain ⟨x, -, h⟩ := bind_eq_ok.mp h
      split at h
      · obtain ⟨y, -, h⟩ := bind_eq_ok.mp h
        cases h
        rfl
      · split at h
        · cases h
        · cases h
          rfl

/-- What stands behind the digits of a number is none. -/
theorem exponent_not_digit {x t : Text} (hx : IsExponent x) (ht : Stops t) :
    ∀ c t', x ++ t = c :: t' → c.isDigit = false := by
  intro c t' h
  cases hx with
  | none => exact Stops.not_digit ht c t' h
  | some hsign hes =>
    obtain ⟨rfl, -⟩ := List.cons.inj h
    decide

/-- The part behind the point ends where the exponent part does, or its own digits. -/
theorem fractionPart_rest {broken negative : Bool} {s e : Nat} {fs x t t' : Text}
    {n : JsonNumber} (hfs : AreDigits fs) (hx : IsExponent x) (ht : Stops t)
    (h : fractionPart broken negative s e (fs ++ (x ++ t)) = .ok (n, t')) : t' = t := by
  unfold fractionPart at h
  rw [digits_append hfs (exponent_not_digit hx ht)] at h
  obtain ⟨c, hc, h⟩ := bind_eq_ok.mp h
  obtain rfl := peek_eq_ok hc
  split at h
  · cases h
  · simp only at h
    cases hx with
    | none =>
      have hnext : ((([] ++ t).head? == some 'e') || ([] ++ t).head? == some 'E') = false := by
        rcases ht.head_cases with rfl | ⟨t', rfl | rfl⟩
        · rfl
        · rfl
        · rfl
      rw [hnext] at h
      obtain ⟨y, -, h⟩ := bind_eq_ok.mp h
      cases h
      rfl
    | some hsign hes =>
      rw [if_pos (by simp)] at h
      simp only [List.cons_append, List.drop_succ_cons, List.drop_zero, List.append_assoc] at h
      exact exponentPart_rest hsign hes ht h

/-- **A number is read up to its end**, if it is read at all. -/
theorem number_rest {broken negative : Bool} {u t t' : Text} {n : JsonNumber}
    (hu : IsNumberText u) (ht : Stops t) (h : number broken negative (u ++ t) = .ok (n, t')) :
    t' = t := by
  obtain ⟨ds, f, x, hne, hds, hf, hx, rfl⟩ := hu.parts
  obtain ⟨c, cs, rfl⟩ := List.exists_cons_of_ne_nil hne
  have hc : c.isDigit = true := hds c (by simp)
  -- behind the digits before the point comes none
  have hbehind : ∀ d v, f ++ (x ++ t) = d :: v → d.isDigit = false := by
    intro d v hdv
    cases hf with
    | none => exact exponent_not_digit hx ht d v hdv
    | some hfs =>
      obtain ⟨rfl, -⟩ := List.cons.inj hdv
      decide
  have hhead : (f ++ (x ++ t)).head?.any Char.isDigit = false := by
    cases hr : f ++ (x ++ t) with
    | nil => rfl
    | cons d v => exact hbehind d v hr
  unfold number at h
  simp only [List.cons_append, List.append_assoc, hc, Bool.not_true, Bool.false_eq_true,
    if_false] at h
  by_cases hzero : c = '0' ∧ cs ≠ []
  · -- a zero before other digits is refused
    obtain ⟨rfl, hcs⟩ := hzero
    obtain ⟨d, cs', rfl⟩ := List.exists_cons_of_ne_nil hcs
    have hd : d.isDigit = true := hds d (by simp)
    rw [if_pos rfl] at h
    obtain ⟨next, hnext, h⟩ := bind_eq_ok.mp h
    obtain rfl := peek_eq_ok hnext
    simp only at h
    rw [if_pos (by simp [hd])] at h
    cases h
  · have hread : ∃ before, (if c = '0' then (['0'], cs ++ (f ++ (x ++ t)))
        else digits (c :: (cs ++ (f ++ (x ++ t))))) = (before, f ++ (x ++ t)) := by
      by_cases hc0 : c = '0'
      · rw [if_pos hc0]
        cases cs with
        | nil => exact ⟨_, rfl⟩
        | cons d cs => exact absurd ⟨hc0, by simp⟩ hzero
      · rw [if_neg hc0, ← List.cons_append]
        exact ⟨_, digits_append hds hbehind⟩
    obtain ⟨before, hread⟩ := hread
    rw [hread] at h
    obtain ⟨next, hnext, h⟩ := bind_eq_ok.mp h
    obtain rfl := peek_eq_ok hnext
    rw [hhead, Bool.and_false, if_neg (by simp)] at h
    cases hf with
    | some hfs =>
      rw [if_pos (by simp)] at h
      exact fractionPart_rest hfs hx ht h
    | none =>
      cases hx with
      | some hsign hes =>
        rw [if_neg (by simp), if_pos (by simp)] at h
        simp only [List.nil_append, List.cons_append, List.drop_succ_cons, List.drop_zero,
          List.append_assoc] at h
        exact exponentPart_rest hsign hes ht h
      | none =>
        have hdot : (([] ++ ([] ++ t)).head? == some '.') = false := by
          rcases ht.head_cases with rfl | ⟨v, rfl | rfl⟩ <;> rfl
        have he : ((([] ++ ([] ++ t)).head? == some 'e') ||
            ([] ++ ([] ++ t)).head? == some 'E') = false := by
          rcases ht.head_cases with rfl | ⟨v, rfl | rfl⟩ <;> rfl
        rw [hdot, if_neg (by simp), he, if_neg (by simp)] at h
        split at h
        · cases h
          rfl
        · obtain ⟨y, -, h⟩ := bind_eq_ok.mp h
          cases h
          rfl

end Read

/-! ## 3. How numbers are written -/

/-- The text of a natural number is one of a number. -/
theorem isNumberText_of_digits {ds : Text} (hne : ds ≠ []) (hds : AreDigits ds) :
    IsNumberText ds :=
  ⟨ds, [], [], hne, hds, .none, .none, by simp⟩

theorem toList_toString_ofNat (n : Nat) :
    (toString (Int.ofNat n)).toList = Nat.toDigits 10 n := Nat.toList_repr

theorem toList_toString_negSucc (n : Nat) :
    (toString (Int.negSucc n)).toList = '-' :: Nat.toDigits 10 (n + 1) := by
  have hrepr : toString (Int.negSucc n) = "-" ++ (n + 1).repr := rfl
  rw [hrepr, String.toList_append, Nat.toList_repr]
  rfl

/-- The text of an integer is digits, or a minus before digits. -/
theorem toList_toString_int (e : Int) :
    ∃ sign es : Text, (toString e).toList = sign ++ es ∧ es ≠ [] ∧ AreDigits es ∧
      (0 ≤ e ∧ sign = [] ∨ e < 0 ∧ sign = ['-']) := by
  cases e with
  | ofNat n =>
    exact ⟨[], _, toList_toString_ofNat n, Nat.toDigits_ne_nil, areDigits_toDigits n,
      Or.inl ⟨by simp, rfl⟩⟩
  | negSucc n =>
    exact ⟨['-'], _, toList_toString_negSucc n, Nat.toDigits_ne_nil, areDigits_toDigits (n + 1),
      Or.inr ⟨Int.negSucc_lt_zero n, rfl⟩⟩

/-- A decimal is written as a number. -/
theorem isNumberText_decimalText (d : Decimal.Number) : IsNumberText (decimalText d) := by
  have hds := areDigits_toDigits d.digits
  have hne : Nat.toDigits 10 d.digits ≠ [] := Nat.toDigits_ne_nil
  unfold decimalText
  simp only
  split
  · -- all digits, zeros, and a zero behind the point
    refine ⟨Nat.toDigits 10 d.digits ++ List.replicate d.exponent.toNat '0', ['.', '0'], [],
      by simp [hne], hds.append (areDigits_zeros _), .some ?_, .none, by simp⟩
    exact areDigits_zeros 1
  · split
    · -- the point among the digits
      refine ⟨_, _, [], ?_, hds.take _, .some (hds.drop _), .none, by rw [List.append_nil]⟩
      rw [ne_eq, List.take_eq_nil_iff, not_or]
      exact ⟨by omega, hne⟩
    · split
      · -- zeros before the digits
        exact ⟨['0'], _, [], by simp, areDigits_zeros 1,
          .some ((areDigits_zeros _).append hds), .none, by rw [List.append_nil]; rfl⟩
      · -- an exponent
        obtain ⟨sign, es, htext, -, hes, hsign⟩ :=
          toList_toString_int (((Nat.toDigits 10 d.digits).length : Int) + d.exponent - 1)
        have hexponent : IsExponent ('e' :: ((if 0 ≤ ((Nat.toDigits 10 d.digits).length : Int) +
            d.exponent - 1 then ['+'] else []) ++ (sign ++ es))) := by
          rcases hsign with ⟨hle, rfl⟩ | ⟨hlt, rfl⟩
          · rw [if_pos hle]
            exact .some (Or.inr (Or.inl rfl)) hes
          · rw [if_neg (by omega), List.nil_append]
            exact .some (Or.inr (Or.inr rfl)) hes
        rw [htext]
        obtain ⟨c, cs, hcs⟩ := List.exists_cons_of_ne_nil hne
        rw [hcs] at hds hexponent ⊢
        have hc : AreDigits [c] := fun x hx => hds x (by simp at hx; simp [hx])
        cases cs with
        | nil => exact ⟨[c], [], _, by simp, hc, .none, hexponent, by simp⟩
        | cons c' cs =>
          have hrest : AreDigits (c' :: cs) := fun x hx => hds x (by simp [hx])
          exact ⟨[c], '.' :: c' :: cs, _, by simp, hc, .some hrest, hexponent, by simp⟩

/-- **Every number is written with a minus or without one**, and otherwise in the shape of
numbers. -/
theorem numberText_shape (n : JsonNumber) :
    ∃ sign u : Text, numberText n = sign ++ u ∧ IsNumberText u ∧ (sign = [] ∨ sign = ['-']) := by
  cases n with
  | integer n =>
    obtain ⟨sign, es, htext, hne, hes, hsign⟩ := toList_toString_int n
    refine ⟨sign, es, htext, isNumberText_of_digits hne hes, ?_⟩
    rcases hsign with ⟨-, rfl⟩ | ⟨-, rfl⟩
    · exact Or.inl rfl
    · exact Or.inr rfl
  | real x =>
    refine ⟨if x.toBits < 0x8000000000000000 then [] else ['-'], _, rfl, ?_, ?_⟩
    · split
      · exact ⟨['0'], ['.', '0'], [], by simp, areDigits_zeros 1, .some (areDigits_zeros 1), .none,
          rfl⟩
      · exact isNumberText_decimalText _
    · split
      · exact Or.inl rfl
      · exact Or.inr rfl

end TextPatch.Json
