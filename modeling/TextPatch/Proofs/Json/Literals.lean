/-
# What string literals stand for

`Denotes` says what a string literal stands for, from the characters between its quotes alone.  Most
characters stand for themselves, a backslash and a letter for one character, and a unit of four
digits for a character or, together with a second one, for a character beyond the first plane
(`Stands`).

The reader answers exactly that (`string_eq_ok_iff`).
-/
import TextPatch.Proofs.Json.Strings
import TextPatch.Proofs.Json.Tokens

namespace TextPatch.Json

open Read

/-! ## 1. What literals stand for -/

/-- Four digits in base sixteen, and their value. -/
structure IsUnit (ds : Text) (n : Nat) : Prop where
  length : ds.length = 4
  digits : ∀ c ∈ ds, Text.isHexDigit c = true
  value : Text.numberIn 16 ds = n

/-- The character that two surrogates stand for. -/
def paired (high low : Nat) : Char :=
  Char.ofNat (0x10000 + (high - 0xD800) * 0x400 + (low - 0xDC00))

/-- How a character can be written in a literal. -/
inductive Stands : Text → Char → Prop
  | plain {c : Char} (hquote : c ≠ '"') (hbackslash : c ≠ '\\') (hcontrol : ¬ c.toNat < 0x20) :
      Stands [c] c
  | letter {c e : Char} (he : escapeOf? c = some e) : Stands ['\\', c] e
  | unit {ds : Text} {n : Nat} (hds : IsUnit ds n) (hn : ¬ (0xD800 ≤ n ∧ n ≤ 0xDFFF)) :
      Stands ('\\' :: 'u' :: ds) (Char.ofNat n)
  | pair {ds es : Text} {high low : Nat} (hds : IsUnit ds high) (hes : IsUnit es low)
      (hhigh : 0xD800 ≤ high ∧ high ≤ 0xDBFF) (hlow : 0xDC00 ≤ low ∧ low ≤ 0xDFFF) :
      Stands ('\\' :: 'u' :: (ds ++ '\\' :: 'u' :: es)) (paired high low)

/-- What the characters between the quotes of a literal stand for. -/
inductive Denotes : Text → Text → Prop
  | nil : Denotes [] []
  | cons {w body s : Text} {c : Char} (hc : Stands w c) (h : Denotes body s) :
      Denotes (w ++ body) (c :: s)

theorem IsLiteral.append {ds body : Text} (hds : ∀ c ∈ ds, Text.isHexDigit c = true)
    (h : IsLiteral body) : IsLiteral (ds ++ body) := by
  induction ds with
  | nil => exact h
  | cons c ds ih =>
    have hc := hds c List.mem_cons_self
    have hne : ∀ d : Char, Text.isHexDigit d = false → c ≠ d := by
      rintro d hd rfl
      rw [hd] at hc
      cases hc
    exact .plain (hne _ (by decide)) (hne _ (by decide))
      (ih fun d hd => hds d (List.mem_cons_of_mem c hd))

/-- What stands for something is the inside of a literal. -/
theorem Denotes.isLiteral {body s : Text} (h : Denotes body s) : IsLiteral body := by
  induction h with
  | nil => exact .nil
  | cons hc _ ih =>
    cases hc with
    | plain hquote hbackslash _ => exact .plain hquote hbackslash ih
    | letter _ => exact .escape _ ih
    | unit hds _ => exact .escape _ (ih.append hds.digits)
    | pair hds hes _ _ =>
      rw [List.cons_append, List.cons_append, List.append_assoc]
      exact .escape _ (.append hds.digits (.escape _ (ih.append hes.digits)))

/-- **A literal ends at one place only.** -/
theorem IsLiteral.unique {a b t u : Text} (ha : IsLiteral a) (hb : IsLiteral b)
    (h : a ++ '"' :: t = b ++ '"' :: u) : a = b ∧ t = u := by
  induction ha generalizing b with
  | nil =>
    cases hb with
    | nil => exact ⟨rfl, (List.cons.inj h).2⟩
    | plain hquote _ _ => exact absurd (List.cons.inj h).1.symm hquote
    | escape c _ => exact absurd (List.cons.inj h).1 (by decide)
  | plain hquote hbackslash _ ih =>
    cases hb with
    | nil => exact absurd (List.cons.inj h).1 hquote
    | plain _ _ hb =>
      obtain ⟨rfl, hrest⟩ := List.cons.inj h
      obtain ⟨rfl, htext⟩ := ih hb hrest
      exact ⟨rfl, htext⟩
    | escape c _ => exact absurd (List.cons.inj h).1 hbackslash
  | escape c _ ih =>
    cases hb with
    | nil => exact absurd (List.cons.inj h).1 (by decide)
    | plain _ hbackslash _ => exact absurd (List.cons.inj h).1.symm hbackslash
    | escape d hb =>
      obtain ⟨rfl, hrest⟩ := List.cons.inj (List.cons.inj h).2
      obtain ⟨rfl, htext⟩ := ih hb hrest
      exact ⟨rfl, htext⟩

/-! ## 2. Units -/

/-- What the reader does behind the last digit of a unit. -/
def afterUnit (broken : Bool) (value : Nat) (leading : Option Nat) (done t : Text) :
    Except Fault (Text × Text) :=
  match leading with
  | none =>
    if 0xDC00 ≤ value ∧ value ≤ 0xDFFF then .error .malformed
    else if 0xD800 ≤ value ∧ value ≤ 0xDBFF then stringRest broken (.backslash value) done t
    else stringRest broken .plain (Char.ofNat value :: done) t
  | some high =>
    if 0xDC00 ≤ value ∧ value ≤ 0xDFFF then
      stringRest broken .plain (paired high value :: done) t
    else .error .malformed

/-- A unit is read digit by digit. -/
theorem stringRest_digits (broken : Bool) (leading : Option Nat) (done t : Text) :
    ∀ {ds : Text} {missing value : Nat}, ds.length = missing + 1 →
      (∀ c ∈ ds, Text.isHexDigit c = true) →
        stringRest broken (.unit (missing + 1) value leading) done (ds ++ t) =
          afterUnit broken (ds.foldl (Text.appendDigit 16) value) leading done t
  | c :: ds, missing, value, hlength, hds => by
    obtain ⟨n, hn⟩ := Option.isSome_iff_exists.mp (hds c List.mem_cons_self)
    have happend : Text.appendDigit 16 value c = value * 16 + n := by
      rw [Text.appendDigit, hn]
    rw [List.cons_append, stringRest, hn]
    cases missing with
    | zero =>
      obtain rfl : ds = [] := List.length_eq_zero_iff.mp (Nat.succ.inj hlength)
      rw [List.foldl_cons, happend]
      rfl
    | succ missing =>
      simp only [List.foldl_cons, happend]
      rw [if_pos (by omega)]
      exact stringRest_digits broken leading done t (Nat.succ.inj hlength)
        fun d hd => hds d (List.mem_cons_of_mem c hd)

/-- The reader takes no unit but one of four digits. -/
theorem digits_of_stringRest {broken : Bool} {leading : Option Nat} {done : Text}
    {r : Text × Text} : ∀ {t : Text} {missing value : Nat},
      stringRest broken (.unit (missing + 1) value leading) done t = .ok r →
        ∃ ds t', t = ds ++ t' ∧ ds.length = missing + 1 ∧ ∀ c ∈ ds, Text.isHexDigit c = true
  | [], _, _, h => by
    rw [stringRest] at h
    cases h
  | c :: t, missing, value, h => by
    rw [stringRest] at h
    split at h
    · cases h
    · rename_i n hn
      have hc : Text.isHexDigit c = true := by rw [Text.isHexDigit, hn]; rfl
      cases missing with
      | zero => exact ⟨[c], t, rfl, rfl, by simpa using hc⟩
      | succ missing =>
        simp only at h
        rw [if_pos (by omega)] at h
        obtain ⟨ds, t', rfl, hlength, hds⟩ := digits_of_stringRest h
        refine ⟨c :: ds, t', rfl, by rw [List.length_cons, hlength], ?_⟩
        intro d hd
        rcases List.mem_cons.mp hd with rfl | hd
        · exact hc
        · exact hds d hd

/-- A unit leads to what comes behind it. -/
theorem stringRest_unit {ds : Text} {n : Nat} (h : IsUnit ds n) (broken : Bool)
    (leading : Option Nat) (done t : Text) :
    stringRest broken (.unit 4 0 leading) done (ds ++ t) = afterUnit broken n leading done t := by
  rw [stringRest_digits broken leading done t h.length h.digits, ← h.value]
  rfl

theorem unit_of_stringRest {broken : Bool} {leading : Option Nat} {done t : Text}
    {r : Text × Text} (h : stringRest broken (.unit 4 0 leading) done t = .ok r) :
    ∃ ds t' n, t = ds ++ t' ∧ IsUnit ds n ∧ afterUnit broken n leading done t' = .ok r := by
  obtain ⟨ds, t', rfl, hlength, hds⟩ := digits_of_stringRest h
  have hunit : IsUnit ds (Text.numberIn 16 ds) := ⟨hlength, hds, rfl⟩
  rw [stringRest_unit hunit] at h
  exact ⟨ds, t', _, rfl, hunit, h⟩

/-- Behind a leading surrogate comes a second unit. -/
theorem unit_of_backslash {broken : Bool} {high : Nat} {done t : Text} {r : Text × Text}
    (h : stringRest broken (.backslash high) done t = .ok r) :
    ∃ t', t = '\\' :: 'u' :: t' ∧
      stringRest broken (.unit 4 0 (some high)) done t' = .ok r := by
  cases t with
  | nil => cases h
  | cons c t =>
    rw [stringRest] at h
    split at h
    · rename_i hc
      cases t with
      | nil => cases h
      | cons d t =>
        rw [stringRest] at h
        split at h
        · rename_i hd
          exact ⟨t, by rw [hc, hd], h⟩
        · cases h
    · cases h

/-! ## 3. Literals -/

/-- A character is read from what it is written as. -/
theorem Stands.stringRest {w : Text} {c : Char} (h : Stands w c) (broken : Bool) (done t : Text) :
    stringRest broken .plain done (w ++ t) = Read.stringRest broken .plain (c :: done) t := by
  cases h with
  | plain hquote hbackslash hcontrol =>
    rw [List.singleton_append, Read.stringRest, if_neg hquote, if_neg hbackslash,
      if_neg hcontrol]
  | @letter c e he =>
    have hu : c ≠ 'u' := by
      rintro rfl
      cases he
    exact stringRest_letter hu he broken done t
  | unit hds hn =>
    rw [List.cons_append, List.cons_append, Read.stringRest, if_neg (by decide), if_pos rfl,
      Read.stringRest, if_pos rfl, stringRest_unit hds]
    simp only [afterUnit]
    rw [if_neg (by omega), if_neg (by omega)]
  | pair hds hes hhigh hlow =>
    simp only [List.cons_append, List.append_assoc]
    rw [Read.stringRest, if_neg (by decide), if_pos rfl, Read.stringRest, if_pos rfl,
      stringRest_unit hds]
    simp only [afterUnit]
    rw [if_neg (by omega), if_pos hhigh, Read.stringRest, if_pos rfl, Read.stringRest, if_pos rfl,
      stringRest_unit hes]
    simp only [afterUnit]
    rw [if_pos hlow]

/-- **A literal is read as what it stands for.** -/
theorem Denotes.stringRest {body s : Text} (h : Denotes body s) (broken : Bool) (t : Text) :
    ∀ done, Read.stringRest broken .plain done (body ++ '"' :: t) =
      .ok (done.reverse ++ s, t) := by
  induction h with
  | nil =>
    intro done
    rw [List.nil_append, Read.stringRest, if_pos rfl, List.append_nil]
  | cons hc _ ih =>
    intro done
    rw [List.append_assoc, hc.stringRest, ih, List.reverse_cons, List.append_assoc,
      List.singleton_append]

/-- Behind a backslash the reader takes one character. -/
theorem stands_of_escaped {broken : Bool} {done t : Text} {r : Text × Text}
    (h : stringRest broken .escaped done t = .ok r) :
    ∃ w c t', t = w ++ t' ∧ Stands ('\\' :: w) c ∧
      stringRest broken .plain (c :: done) t' = .ok r := by
  cases t with
  | nil => cases h
  | cons d t =>
    rw [stringRest] at h
    by_cases hu : d = 'u'
    · subst hu
      rw [if_pos rfl] at h
      obtain ⟨ds, t, high, rfl, hds, h⟩ := unit_of_stringRest h
      simp only [afterUnit] at h
      split at h
      · cases h
      · rename_i hlow
        split at h
        · -- a leading surrogate wants a second unit
          rename_i hhigh
          obtain ⟨u, rfl, h⟩ := unit_of_backslash h
          obtain ⟨es, t, low, rfl, hes, h⟩ := unit_of_stringRest h
          simp only [afterUnit] at h
          split at h
          · rename_i hrange
            exact ⟨'u' :: (ds ++ '\\' :: 'u' :: es), _, t, by simp, .pair hds hes hhigh hrange, h⟩
          · cases h
        · exact ⟨'u' :: ds, _, t, rfl, .unit hds (by omega), h⟩
    · rw [if_neg hu] at h
      split at h
      · rename_i e he
        exact ⟨[d], e, t, rfl, .letter he, h⟩
      · cases h

/-- The reader is at the end of a literal, or takes one character. -/
theorem stands_of_stringRest {broken : Bool} {done t : Text} {r : Text × Text}
    (h : stringRest broken .plain done t = .ok r) :
    (∃ t', t = '"' :: t' ∧ r = (done.reverse, t')) ∨ ∃ w c t', t = w ++ t' ∧ w ≠ [] ∧
      Stands w c ∧ stringRest broken .plain (c :: done) t' = .ok r := by
  cases t with
  | nil => cases h
  | cons c t =>
    rw [stringRest] at h
    by_cases hquote : c = '"'
    · subst hquote
      rw [if_pos rfl] at h
      cases h
      exact Or.inl ⟨t, rfl, rfl⟩
    rw [if_neg hquote] at h
    by_cases hbackslash : c = '\\'
    · subst hbackslash
      rw [if_pos rfl] at h
      obtain ⟨w, c, t', rfl, hc, h⟩ := stands_of_escaped h
      exact Or.inr ⟨'\\' :: w, c, t', rfl, List.cons_ne_nil _ _, hc, h⟩
    rw [if_neg hbackslash] at h
    split at h
    · cases h
    · rename_i hcontrol
      exact Or.inr ⟨[c], c, t, rfl, List.cons_ne_nil _ _, .plain hquote hbackslash hcontrol, h⟩

/-- **Whatever is read as a literal stands for the answer.** -/
theorem denotes_of_stringRest {broken : Bool} {t done x t' : Text}
    (h : stringRest broken .plain done t = .ok (x, t')) :
    ∃ body s, t = body ++ '"' :: t' ∧ x = done.reverse ++ s ∧ Denotes body s := by
  induction hn : t.length using Nat.strongRecOn generalizing t done with
  | _ n ih =>
    rcases stands_of_stringRest h with ⟨u, rfl, hr⟩ | ⟨w, c, u, rfl, hne, hc, hu⟩
    · cases hr
      exact ⟨[], [], rfl, by rw [List.append_nil], .nil⟩
    · have hpos := List.length_pos_iff.mpr hne
      rw [List.length_append] at hn
      obtain ⟨body, s, rfl, rfl, hs⟩ := ih u.length (by omega) hu rfl
      exact ⟨w ++ body, c :: s, by simp, by simp, .cons hc hs⟩

/-- **The reader answers what a literal stands for**, and goes on behind it. -/
theorem string_eq_ok_iff {body t t' : Text} {s : String} (hbody : IsLiteral body)
    (broken : Bool) :
    Read.string broken (body ++ '"' :: t) = .ok (s, t') ↔ t' = t ∧ Denotes body s.toList := by
  unfold Read.string
  constructor
  · intro h
    obtain ⟨⟨x, u⟩, hread, h⟩ := bind_eq_ok.mp h
    cases h
    obtain ⟨body', x', htext, rfl, hx⟩ := denotes_of_stringRest hread
    obtain ⟨rfl, rfl⟩ := hbody.unique hx.isLiteral htext
    exact ⟨rfl, by simpa using hx⟩
  · rintro ⟨rfl, hs⟩
    rw [hs.stringRest broken t' []]
    simp [bind, Except.bind, pure, Except.pure]

end TextPatch.Json
