/-
# Compact documents read back

A document that is written without blanks is read back as it was (`parse_compact`), provided that it
holds no binary numbers, that its integers are in range, that no object has a key twice, and that it
does not nest too deep (`Exact`).

The proof follows the document.  A scalar is read in one step; the items of an array and the members
of an object are read one after the other, each with the fuel that its own text is long enough to
pay for.
-/
import TextPatch.Proofs.Json.Rewriting

namespace TextPatch.Json

open Read

/-! ## 1. Integers -/

/-- Digits that have been read in make room for one more. -/
theorem extend_append {limit m : Nat} {d : Char} : ∀ {ds : Text} {s : Nat},
    extend limit s ds = (m, []) → m * 10 + digitValue d ≤ limit →
      extend limit s (ds ++ [d]) = (m * 10 + digitValue d, []) := by
  intro ds
  induction ds with
  | nil =>
    intro s h hle
    obtain ⟨rfl, -⟩ := Prod.mk.inj h
    rw [List.nil_append, extend, if_pos hle, extend]
  | cons c ds ih =>
    intro s h hle
    rw [extend] at h
    split at h
    · rename_i hfits
      rw [List.cons_append, extend, if_pos hfits]
      exact ih h hle
    · cases (Prod.mk.inj h).2

theorem digitValue_digitChar {n : Nat} (hn : n < 10) : digitValue n.digitChar = n := by
  rw [digitValue, Nat.toNat_digitChar_of_lt_ten hn]
  change 48 + n - 48 = n
  omega

/-- **The digits of a number that fits are read as the number.** -/
theorem extend_toDigits {limit n : Nat} (hn : n ≤ limit) :
    extend limit 0 (Nat.toDigits 10 n) = (n, []) := by
  induction n using Nat.strongRecOn with
  | _ n ih =>
    by_cases hlt : n < 10
    · have hdigit : 0 * 10 + digitValue n.digitChar = n := by
        rw [digitValue_digitChar hlt]
        omega
      rw [Nat.toDigits_of_lt_base hlt, extend, hdigit, if_pos hn, extend]
    · have hlast : n / 10 * 10 + digitValue (n % 10).digitChar = n := by
        rw [digitValue_digitChar (Nat.mod_lt n (by decide))]
        omega
      have hrest := ih (n / 10) (by omega) (by omega)
      rw [Nat.toDigits_of_base_le (by decide) (by omega)]
      have happend := extend_append hrest (by rw [hlast]; exact hn)
      rwa [hlast] at happend

/-- No number but zero begins with a zero. -/
theorem toDigits_head {n : Nat} (hn : 0 < n) {c : Char} {cs : Text}
    (h : Nat.toDigits 10 n = c :: cs) : c ≠ '0' := by
  induction n using Nat.strongRecOn generalizing c cs with
  | _ n ih =>
    by_cases hlt : n < 10
    · rw [Nat.toDigits_of_lt_base hlt] at h
      obtain ⟨rfl, -⟩ := List.cons.inj h
      intro hzero
      have hvalue := digitValue_digitChar hlt
      rw [hzero] at hvalue
      have hnone : digitValue '0' = 0 := by decide
      omega
    · rw [Nat.toDigits_of_base_le (by decide) (by omega)] at h
      obtain ⟨d, ds, hds⟩ := List.exists_cons_of_ne_nil (Nat.toDigits_ne_nil (n := n / 10) (b := 10))
      rw [hds, List.cons_append] at h
      obtain ⟨rfl, -⟩ := List.cons.inj h
      exact ih (n / 10) (by omega) (by omega) hds

/-- A text behind a value of a compact document: it is empty, or it begins with a comma or a closing
bracket. -/
def Ends (t : Text) : Prop := ∀ c t', t = c :: t' → c = ',' ∨ c = ']' ∨ c = '\x7d'

theorem ends_nil : Ends [] := by
  intro c t' h
  cases h

theorem ends_comma (t : Text) : Ends (',' :: t) := by
  intro c t' h
  exact Or.inl (List.cons.inj h).1.symm

theorem ends_bracket (t : Text) : Ends (']' :: t) := by
  intro c t' h
  exact Or.inr (Or.inl (List.cons.inj h).1.symm)

theorem ends_brace (t : Text) : Ends ('\x7d' :: t) := by
  intro c t' h
  exact Or.inr (Or.inr (List.cons.inj h).1.symm)

theorem Ends.not_digit {t : Text} (h : Ends t) : ∀ c t', t = c :: t' → c.isDigit = false := by
  intro c t' hct
  rcases h c t' hct with rfl | rfl | rfl
  · decide
  · decide
  · decide

/-- Behind a value no number goes on. -/
theorem Ends.peek {t : Text} (h : Ends t) :
    ∃ next, Read.peek false t = .ok next ∧ next.any Char.isDigit = false ∧ (next == some '.') = false ∧
      (next == some 'e' || next == some 'E') = false := by
  cases t with
  | nil => exact ⟨none, rfl, rfl, rfl, rfl⟩
  | cons c t' =>
    refine ⟨some c, rfl, h.not_digit c t' rfl, ?_⟩
    rcases h c t' rfl with rfl | rfl | rfl
    · decide
    · decide
    · decide

/-- **A number that fits is read from its digits.** -/
theorem number_toDigits {negative : Bool} {n : Nat} {t : Text} (hn : n ≤ largestSignificand)
    (ht : Ends t) :
    Read.number false negative (Nat.toDigits 10 n ++ t) = .ok (wholeNumber negative n, t) := by
  obtain ⟨c, cs, hdigits⟩ := List.exists_cons_of_ne_nil (Nat.toDigits_ne_nil (n := n) (b := 10))
  have hare := areDigits_toDigits n
  have hc : c.isDigit = true := hare c (by rw [hdigits]; exact List.mem_cons_self)
  have hsplit : (if c = '0' then (['0'], cs ++ t) else digits (c :: (cs ++ t))) =
      (Nat.toDigits 10 n, t) := by
    by_cases hzero : c = '0'
    · -- the only number that begins with a zero is zero
      obtain rfl : n = 0 := by
        refine Nat.eq_zero_of_not_pos fun hpos => ?_
        exact toDigits_head hpos hdigits hzero
      rw [Nat.toDigits_zero] at hdigits
      obtain ⟨-, rfl⟩ := List.cons.inj hdigits
      rw [if_pos hzero, Nat.toDigits_zero, List.nil_append]
    · rw [if_neg hzero, ← List.cons_append, ← hdigits]
      exact digits_append hare ht.not_digit
  obtain ⟨next, hnext, hdigit, hpoint, hexponent⟩ := ht.peek
  have hextend := extend_toDigits hn
  rw [hdigits, List.cons_append]
  unfold Read.number
  simp only [hc, hsplit, Bool.not_true, Bool.false_eq_true, if_false, bind, Except.bind, hnext,
    hextend, hdigit, Bool.and_false, hpoint, hexponent, List.isEmpty_nil, if_true, pure, Except.pure]

/-! ## 2. Scalars -/

/-- Documents that are read back exactly from `depth` levels of nesting: their integers are in range
and there are no other numbers, and no object has a key twice. -/
inductive Exact : (depth : Nat) → Json → Prop
  | null {depth : Nat} : Exact depth .null
  | bool {depth : Nat} (b : Bool) : Exact depth (.bool b)
  | integer {depth : Nat} {n : Int} (hlow : -0x8000000000000000 ≤ n)
      (hhigh : n ≤ 0xFFFFFFFFFFFFFFFF) : Exact depth (.number (.integer n))
  | string {depth : Nat} (s : String) : Exact depth (.string s)
  | array {depth : Nat} {vs : List Json} (h : ∀ v ∈ vs, Exact depth v) :
      Exact (depth + 1) (.array vs)
  | object {depth : Nat} {ms : Members} (hkeys : ms.keys.Nodup) (h : ∀ m ∈ ms, Exact depth m.2) :
      Exact (depth + 1) (.object ms)

/-- More levels do no harm. -/
theorem Exact.mono {depth depth' : Nat} {v : Json} (h : Exact depth v) (hle : depth ≤ depth') :
    Exact depth' v := by
  induction h generalizing depth' with
  | null => exact .null
  | bool b => exact .bool b
  | integer hlow hhigh => exact .integer hlow hhigh
  | string s => exact .string s
  | @array depth vs _ ih =>
    obtain ⟨d, rfl⟩ := Nat.exists_eq_add_of_le' (Nat.lt_of_lt_of_le (Nat.succ_pos depth) hle)
    exact .array fun v hv => ih v hv (by omega)
  | @object depth ms hkeys _ ih =>
    obtain ⟨d, rfl⟩ := Nat.exists_eq_add_of_le' (Nat.lt_of_lt_of_le (Nat.succ_pos depth) hle)
    exact .object hkeys fun m hm => ih m hm (by omega)

/-- An integer in range is read from its text. -/
theorem value_integer {n : Int} {t : Text} (hlow : -0x8000000000000000 ≤ n)
    (hhigh : n ≤ 0xFFFFFFFFFFFFFFFF) (ht : Ends t) (fuel depth : Nat) :
    value false (fuel + 1) depth ((toString n).toList ++ t) = .ok (.number (.integer n), t) := by
  cases n with
  | ofNat n =>
    have hfits : n ≤ largestSignificand := Int.ofNat_le.mp hhigh
    obtain ⟨c, cs, hdigits⟩ := List.exists_cons_of_ne_nil (Nat.toDigits_ne_nil (n := n) (b := 10))
    have hc : c.isDigit = true :=
      areDigits_toDigits n c (by rw [hdigits]; exact List.mem_cons_self)
    rw [toList_toString_ofNat, hdigits, List.cons_append, value_digit hc, ← List.cons_append,
      ← hdigits, number_toDigits hfits ht]
    rfl
  | negSucc n =>
    have hrange : 0 < n + 1 ∧ n + 1 ≤ 0x8000000000000000 := by omega
    have hfits : n + 1 ≤ largestSignificand := Nat.le_trans hrange.2 (by decide)
    have hwhole : wholeNumber true (n + 1) = .integer (Int.negSucc n) := by
      rw [wholeNumber, if_pos rfl, if_pos hrange]
      rfl
    rw [toList_toString_negSucc, List.cons_append, value, skipBlanks_cons (by decide)]
    simp only [number_toDigits hfits ht, hwhole, bind, Except.bind, pure, Except.pure]

/-- **A scalar is read back in one step**, at any depth. -/
theorem Exact.value_scalar {v : Json} {t : Text} (h : Exact 0 v) (ht : Ends t) (fuel depth : Nat) :
    value false (fuel + 1) depth (v.compact ++ t) = .ok (v, t) := by
  cases h with
  | null =>
    rw [compact, List.cons_append, value, skipBlanks_cons (by decide)]
    simp only [word_append false t ['u', 'l', 'l'], bind, Except.bind, pure, Except.pure]
  | bool b =>
    cases b with
    | true =>
      rw [compact, List.cons_append, value, skipBlanks_cons (by decide)]
      simp only [word_append false t ['r', 'u', 'e'], bind, Except.bind, pure, Except.pure]
    | false =>
      rw [compact, List.cons_append, value, skipBlanks_cons (by decide)]
      simp only [word_append false t ['a', 'l', 's', 'e'], bind, Except.bind, pure, Except.pure]
  | integer hlow hhigh =>
    rw [compact]
    exact value_integer hlow hhigh ht fuel depth
  | string s =>
    rw [compact, quote, List.cons_append, value, skipBlanks_cons (by decide), List.append_assoc]
    simp only [List.singleton_append, string_quote, bind, Except.bind, pure, Except.pure]

/-! ## 3. Containers -/

/-- What the reader makes of a document: it is read back, and what follows it is left, if there are
three steps for each of its characters. -/
def ReadBack (depth : Nat) (v : Json) : Prop :=
  ∀ fuel t, 3 * v.compact.length ≤ fuel → Ends t →
    value false fuel depth (v.compact ++ t) = .ok (v, t)

/-- The first character of a document: it is neither a blank nor a closing bracket. -/
theorem compact_head (v : Json) :
    ∃ c t, v.compact = c :: t ∧ isBlank c = false ∧ c ≠ ']' := by
  cases v with
  | null => exact ⟨_, _, rfl, by decide, by decide⟩
  | bool b =>
    cases b with
    | true => exact ⟨_, _, rfl, by decide, by decide⟩
    | false => exact ⟨_, _, rfl, by decide, by decide⟩
  | number n =>
    obtain ⟨c, t, hpretty, hblank, hclose⟩ := prettyAt_head 0 (.number n)
    rw [prettyAt] at hpretty
    exact ⟨c, t, by rw [compact, hpretty], hblank, hclose⟩
  | string s => exact ⟨_, _, rfl, by decide, by decide⟩
  | array vs =>
    cases vs with
    | nil => exact ⟨_, _, rfl, by decide, by decide⟩
    | cons v vs => exact ⟨_, _, rfl, by decide, by decide⟩
  | object ms =>
    cases ms with
    | nil => exact ⟨_, _, rfl, by decide, by decide⟩
    | cons m ms => exact ⟨_, _, rfl, by decide, by decide⟩

theorem ends_compactItems (vs : List Json) (t : Text) : Ends (compactItems vs ++ t) := by
  cases vs with
  | nil => exact ends_bracket t
  | cons v vs => exact ends_comma _

theorem ends_compactMembers (ms : Members) (t : Text) : Ends (compactMembers ms ++ t) := by
  cases ms with
  | nil => exact ends_brace t
  | cons m ms => exact ends_comma _

/-- The items behind the first one are read back. -/
theorem moreItems_compactItems {depth : Nat} {vs : List Json} (h : ∀ v ∈ vs, ReadBack depth v)
    (t : Text) (fuel : Nat) (hfuel : 3 * (compactItems vs).length ≤ fuel) :
    moreItems false fuel depth (compactItems vs ++ t) = .ok (vs, t) := by
  induction vs generalizing fuel with
  | nil =>
    rw [compactItems, List.length_singleton] at hfuel
    obtain ⟨fuel, rfl⟩ : ∃ n, fuel = n + 1 := ⟨fuel - 1, by omega⟩
    rw [compactItems, List.singleton_append, moreItems, skipBlanks_cons (by decide)]
    rfl
  | cons v vs ih =>
    rw [compactItems, List.length_cons, List.length_append] at hfuel
    obtain ⟨fuel, rfl⟩ : ∃ n, fuel = n + 1 := ⟨fuel - 1, by omega⟩
    obtain ⟨c, x, hv, hblank, hclose⟩ := compact_head v
    have hhead := h v List.mem_cons_self fuel _ (by omega) (ends_compactItems vs t)
    have hrest := ih (fun w hw => h w (List.mem_cons_of_mem v hw)) fuel (by omega)
    rw [compactItems, List.cons_append, List.append_assoc, moreItems, skipBlanks_cons (by decide)]
    rw [hv, List.cons_append] at hhead ⊢
    simp only [skipBlanks_cons hblank]
    split
    · rename_i heq
      cases heq
    · rename_i heq
      exact absurd (List.cons.inj heq).1 hclose
    · simp only [hhead, hrest, bind, Except.bind, pure, Except.pure]

/-- A written member, from behind the quote of its key, up to the value. -/
def memberStart (k : String) (t : Text) : Text := k.toList.flatMap escape ++ '"' :: ':' :: t

theorem quote_append (k : String) (t : Text) : quote k ++ ':' :: t = '"' :: memberStart k t := by
  simp [quote, memberStart]

/-- A member with a new key is read back, and put behind the others. -/
theorem member_memberStart {depth : Nat} (done : Members) {k : String} {v : Json} {t : Text}
    (hk : k ∉ done.keys) (hv : ReadBack depth v) (ht : Ends t) (fuel : Nat)
    (hfuel : 3 * v.compact.length ≤ fuel) : member false (fuel + 1) depth done (memberStart k (v.compact ++ t)) =
      moreMembers false fuel depth (done ++ [(k, v)]) t := by
  rw [member, memberStart, string_quote]
  simp only [bind, Except.bind, skipBlanks_cons (show isBlank ':' = false by decide),
    hv fuel t hfuel ht, insert_of_not_mem v hk]

/-- The members behind some of them are read back. -/
theorem moreMembers_compactMembers {depth : Nat} {ms : Members}
    (h : ∀ m ∈ ms, ReadBack depth m.2) (t : Text) (done : Members)
    (hkeys : (Members.keys (done ++ ms)).Nodup) (fuel : Nat)
    (hfuel : 3 * (compactMembers ms).length ≤ fuel) :
    moreMembers false fuel depth done (compactMembers ms ++ t) = .ok (done ++ ms, t) := by
  induction ms generalizing fuel done with
  | nil =>
    rw [compactMembers, List.length_singleton] at hfuel
    obtain ⟨fuel, rfl⟩ : ∃ n, fuel = n + 1 := ⟨fuel - 1, by omega⟩
    rw [compactMembers, List.singleton_append, moreMembers, skipBlanks_cons (by decide),
      List.append_nil]
    rfl
  | cons m ms ih =>
    obtain ⟨k, v⟩ := m
    simp only [compactMembers, List.length_cons, List.length_append] at hfuel
    obtain ⟨fuel, rfl⟩ : ∃ n, fuel = n + 2 := ⟨fuel - 2, by omega⟩
    have hk : k ∉ done.keys := by
      rw [Members.keys, List.map_append, List.map_cons, List.nodup_append] at hkeys
      intro hmem
      exact hkeys.2.2 k hmem k List.mem_cons_self rfl
    have hkeys' : (Members.keys (done ++ [(k, v)] ++ ms)).Nodup := by
      rwa [List.append_assoc, List.singleton_append]
    have hv : ReadBack depth v := h (k, v) List.mem_cons_self
    have hhead := member_memberStart done hk hv (ends_compactMembers ms t) fuel (by omega)
    have hrest := ih (fun m hm => h m (List.mem_cons_of_mem (k, v) hm)) _ hkeys' fuel (by omega)
    rw [compactMembers, List.cons_append, List.append_assoc, List.cons_append, List.append_assoc,
      quote_append, moreMembers, skipBlanks_cons (by decide)]
    simp only [skipBlanks_cons (show isBlank '"' = false by decide), hhead, hrest]
    rw [List.append_assoc, List.singleton_append]

theorem readBack_array {depth : Nat} {vs : List Json} (h : ∀ v ∈ vs, ReadBack depth v) :
    ReadBack (depth + 1) (.array vs) := by
  intro fuel t hfuel ht
  cases vs with
  | nil =>
    obtain ⟨fuel, rfl⟩ : ∃ n, fuel = n + 2 := ⟨fuel - 2, by
      simp only [compact, List.length_cons] at hfuel
      omega⟩
    rw [compact, List.cons_append, value, skipBlanks_cons (by decide)]
    simp only [List.singleton_append, items, skipBlanks_cons (show isBlank ']' = false by decide),
      bind, Except.bind, pure, Except.pure]
  | cons v vs =>
    simp only [compact, List.length_cons, List.length_append] at hfuel
    obtain ⟨fuel, rfl⟩ : ∃ n, fuel = n + 2 := ⟨fuel - 2, by omega⟩
    obtain ⟨c, x, hv, hblank, hclose⟩ := compact_head v
    have hhead := h v List.mem_cons_self fuel _ (by omega) (ends_compactItems vs t)
    have hrest := moreItems_compactItems (fun w hw => h w (List.mem_cons_of_mem v hw)) t fuel
      (by omega)
    rw [compact, List.cons_append, List.append_assoc, value, skipBlanks_cons (by decide)]
    simp only
    rw [hv, List.cons_append] at hhead ⊢
    rw [items, skipBlanks_cons hblank]
    split
    · rename_i heq
      cases heq
    · rename_i heq
      exact absurd (List.cons.inj heq).1 hclose
    · simp only [hhead, hrest, bind, Except.bind, pure, Except.pure]

theorem readBack_object {depth : Nat} {ms : Members} (hkeys : ms.keys.Nodup)
    (h : ∀ m ∈ ms, ReadBack depth m.2) : ReadBack (depth + 1) (.object ms) := by
  intro fuel t hfuel ht
  cases ms with
  | nil =>
    obtain ⟨fuel, rfl⟩ : ∃ n, fuel = n + 2 := ⟨fuel - 2, by
      simp only [compact, List.length_cons] at hfuel
      omega⟩
    rw [compact, List.cons_append, value, skipBlanks_cons (by decide)]
    simp only [List.singleton_append, members,
      skipBlanks_cons (show isBlank '\x7d' = false by decide), bind, Except.bind, pure,
      Except.pure]
  | cons m ms =>
    obtain ⟨k, v⟩ := m
    simp only [compact, List.length_cons, List.length_append] at hfuel
    obtain ⟨fuel, rfl⟩ : ∃ n, fuel = n + 3 := ⟨fuel - 3, by omega⟩
    have hv : ReadBack depth v := h (k, v) List.mem_cons_self
    have hhead := member_memberStart [] (k := k) List.not_mem_nil hv (ends_compactMembers ms t)
      fuel (by omega)
    have hrest := moreMembers_compactMembers
      (fun m hm => h m (List.mem_cons_of_mem (k, v) hm)) t [(k, v)] hkeys fuel (by omega)
    rw [compact, List.cons_append, List.append_assoc, List.cons_append, List.append_assoc,
      quote_append, value, skipBlanks_cons (by decide)]
    simp only [members, skipBlanks_cons (show isBlank '"' = false by decide), hhead,
      List.nil_append, hrest, List.singleton_append, bind, Except.bind, pure, Except.pure]

/-- **Documents that can be read back exactly are.** -/
theorem Exact.readBack {depth : Nat} {v : Json} (h : Exact depth v) : ReadBack depth v := by
  have hscalar : ∀ {w : Json} {depth : Nat}, Exact 0 w → ReadBack depth w := by
    intro w depth hw fuel t hfuel ht
    obtain ⟨c, x, hhead, -⟩ := compact_head w
    rw [hhead, List.length_cons] at hfuel
    obtain ⟨fuel, rfl⟩ : ∃ n, fuel = n + 1 := ⟨fuel - 1, by omega⟩
    exact hw.value_scalar ht fuel depth
  induction h with
  | null => exact hscalar .null
  | bool b => exact hscalar (.bool b)
  | integer hlow hhigh => exact hscalar (.integer hlow hhigh)
  | string s => exact hscalar (.string s)
  | array _ ih => exact readBack_array ih
  | object hkeys _ ih => exact readBack_object hkeys ih

/-- **A document that is written without blanks is read back.** -/
theorem parse_compact {v : Json} (h : Exact deepest v) : parse v.compact = .ok v := by
  have hread := h.readBack (fuelFor v.compact) [] (Nat.le_add_right _ 3) ends_nil
  rw [List.append_nil] at hread
  unfold parse parseStream
  simp only [hread, bind, Except.bind, skipBlanks, List.dropWhile_nil, Bool.false_eq_true, if_false]

end TextPatch.Json
