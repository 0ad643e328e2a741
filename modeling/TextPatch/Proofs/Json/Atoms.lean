/-
# Atoms are read alone

What the reader makes of a number or a word depends on its characters alone, and not on the text
behind it, provided that it goes on as far as it can (`value_atom`): nothing behind it is looked at
but for the first character, which is none that a number or a word can go on with.
-/
import TextPatch.Proofs.Json.Tokens

namespace TextPatch.Json

open Read

/-! ## 1. Reading a part of a text -/

/-- A text begins with no character that a number or a word goes on with. -/
def Ended (t : Text) : Prop := ∀ c, t.head? = some c → isAtomChar c = false

/-- Two answers of a reader, one to the text `w` and one to `w` with `t` behind it, are the same,
and what is left of the one text is left of the other. -/
inductive SameAnswer {α : Type} (w t : Text) :
    Except Fault (α × Text) → Except Fault (α × Text) → Prop
  | ok (a : α) {rest : Text} (h : rest <:+ w) : SameAnswer w t (.ok (a, rest)) (.ok (a, rest ++ t))
  | error (e e' : Fault) : SameAnswer w t (.error e) (.error e')

/-- Nothing is left but a part of the text. -/
theorem SameAnswer.mono {α : Type} {w w' t : Text} {r r' : Except Fault (α × Text)}
    (h : SameAnswer w t r r') (hle : w <:+ w') : SameAnswer w' t r r' := by
  cases h with
  | ok a h => exact .ok a (h.trans hle)
  | error e e' => exact .error e e'

/-- A further step that looks at the value only keeps answers the same. -/
theorem SameAnswer.bind {α β : Type} {w t : Text} {r r' : Except Fault (α × Text)}
    (h : SameAnswer w t r r') (f : α → β) :
    SameAnswer w t (r >>= fun p => pure (f p.1, p.2)) (r' >>= fun p => pure (f p.1, p.2)) := by
  cases h with
  | ok a h => exact .ok (f a) h
  | error e e' => exact .error e e'

/-- A value that may be refused, and what is left. -/
theorem SameAnswer.of_bind {α : Type} {w t rest : Text} (r : Except Fault α) (h : rest <:+ w) :
    SameAnswer w t (r >>= fun a => pure (a, rest)) (r >>= fun a => pure (a, rest ++ t)) := by
  cases r with
  | ok a => exact .ok a h
  | error e => exact .error e e

/-! ## 2. Characters -/

theorem isAtomChar_of_isDigit {c : Char} (h : c.isDigit = true) : isAtomChar c = true := by
  simp [isAtomChar, Char.isAlphanum, h]

section

variable {t : Text} (ht : Ended t)

include ht

theorem Ended.not_digit {c : Char} {t' : Text} (h : t = c :: t') : c.isDigit = false := by
  cases hc : c.isDigit with
  | false => rfl
  | true =>
    have hnot := ht c (by rw [h, List.head?_cons])
    rw [isAtomChar_of_isDigit hc] at hnot
    cases hnot

/-- Digits are looked for before the end. -/
theorem digits_behind (w : Text) : digits (w ++ t) = ((digits w).1, (digits w).2 ++ t) := by
  unfold digits
  induction w with
  | nil =>
    cases t with
    | nil => rfl
    | cons c t =>
      rw [List.nil_append, List.takeWhile_cons, List.dropWhile_cons, ht.not_digit rfl]
      rfl
  | cons c w ih =>
    obtain ⟨htake, hdrop⟩ := Prod.mk.inj ih
    rw [List.cons_append, List.takeWhile_cons, List.dropWhile_cons, List.takeWhile_cons,
      List.dropWhile_cons]
    split
    · rw [htake, hdrop]
    · rfl

/-- The next character is one to go on with only if it is before the end. -/
theorem head?_behind (w : Text) {c : Char} (hc : isAtomChar c = true) :
    ((w ++ t).head? == some c) = (w.head? == some c) := by
  cases w with
  | cons d w => rfl
  | nil =>
    cases hhead : t.head? with
    | none => rw [List.nil_append, hhead]; rfl
    | some d =>
      have hne : d ≠ c := by
        rintro rfl
        rw [ht d hhead] at hc
        cases hc
      rw [List.nil_append, hhead]
      simpa using hne

theorem any_head?_behind (w : Text) :
    (w ++ t).head?.any Char.isDigit = w.head?.any Char.isDigit := by
  cases w with
  | cons d w => rfl
  | nil =>
    cases t with
    | nil => rfl
    | cons d t => exact ht.not_digit rfl

end

theorem peek_false (t : Text) : peek false t = .ok t.head? := by
  cases t <;> rfl

theorem digits_suffix (w : Text) : (digits w).2 <:+ w := List.dropWhile_suffix _

theorem drop_append_of_head? {w : Text} {c : Char} (h : (w.head? == some c) = true) (t : Text) :
    (w ++ t).drop 1 = w.drop 1 ++ t := by
  cases w with
  | nil => cases h
  | cons d w => rfl

/-! ## 3. Numbers -/

section

variable {t : Text} (ht : Ended t) (negative : Bool)

include ht

/-- The exponent part is read alone. -/
theorem exponentPart_behind (s : Nat) (e : Int) (w : Text) :
    SameAnswer w t (exponentPart false negative s e w)
      (exponentPart false negative s e (w ++ t)) := by
  have hminus := head?_behind ht w (c := '-') (by decide)
  have hplus := head?_behind ht w (c := '+') (by decide)
  obtain ⟨u, hu, hleft, hright⟩ : ∃ u, u <:+ w ∧
      (if w.head? == some '-' || w.head? == some '+' then w.drop 1 else w) = u ∧
      (if w.head? == some '-' || w.head? == some '+' then (w ++ t).drop 1 else w ++ t) =
        u ++ t := by
    split
    · rename_i hsign
      refine ⟨w.drop 1, List.drop_suffix 1 w, rfl, ?_⟩
      rcases Bool.or_eq_true_iff.mp hsign with h | h
      · exact drop_append_of_head? h t
      · exact drop_append_of_head? h t
    · exact ⟨w, List.suffix_rfl, rfl, rfl⟩
  unfold exponentPart
  simp only [peek_false, bind, Except.bind, hminus, hplus, hleft, hright]
  cases u with
  | nil =>
    cases t with
    | nil => exact .error _ _
    | cons c t =>
      simp only [List.nil_append, ht.not_digit rfl, Bool.not_false, if_true]
      exact .error _ _
  | cons c u =>
    rw [List.cons_append]
    simp only
    rw [← List.cons_append, digits_behind ht]
    have hrest : (digits (c :: u)).2 <:+ w := (digits_suffix _).trans hu
    split
    · exact .error _ _
    · simp only
      split
      · exact SameAnswer.of_bind _ hrest
      · split
        · exact .error _ _
        · exact .ok _ hrest

/-- The part behind the point is read alone. -/
theorem fractionPart_behind (s e : Nat) (w : Text) :
    SameAnswer w t (fractionPart false negative s e w)
      (fractionPart false negative s e (w ++ t)) := by
  unfold fractionPart
  rw [digits_behind ht]
  have hsmall := head?_behind ht (digits w).2 (c := 'e') (by decide)
  have hcapital := head?_behind ht (digits w).2 (c := 'E') (by decide)
  have hrest := digits_suffix w
  simp only [peek_false, bind, Except.bind, hsmall, hcapital]
  split
  · exact .error _ _
  · split
    · rename_i hexponent
      have hdrop : ((digits w).2 ++ t).drop 1 = (digits w).2.drop 1 ++ t := by
        rcases Bool.or_eq_true_iff.mp hexponent with h | h
        · exact drop_append_of_head? h t
        · exact drop_append_of_head? h t
      rw [hdrop]
      exact (exponentPart_behind ht negative _ _ _).mono ((List.drop_suffix 1 _).trans hrest)
    · exact SameAnswer.of_bind _ hrest

/-- **A number is read alone.** -/
theorem number_behind (w : Text) :
    SameAnswer w t (Read.number false negative w) (Read.number false negative (w ++ t)) := by
  cases w with
  | nil =>
    cases t with
    | nil => exact .error _ _
    | cons c t =>
      simp only [List.nil_append, Read.number, ht.not_digit rfl, Bool.not_false, if_true]
      exact .error _ _
  | cons c w =>
    have hsplit : (if c = '0' then (['0'], w ++ t) else digits (c :: (w ++ t))) =
        ((if c = '0' then (['0'], w) else digits (c :: w)).1,
          (if c = '0' then (['0'], w) else digits (c :: w)).2 ++ t) := by
      split
      · rfl
      · rw [← List.cons_append, digits_behind ht]
    have hrest : (if c = '0' then (['0'], w) else digits (c :: w)).2 <:+ c :: w := by
      split
      · exact List.suffix_cons c w
      · exact digits_suffix _
    unfold Read.number
    simp only [List.cons_append, hsplit, peek_false]
    generalize (if c = '0' then (['0'], w) else digits (c :: w)) = p at hrest ⊢
    have hpoint := head?_behind ht p.2 (c := '.') (by decide)
    have hsmall := head?_behind ht p.2 (c := 'e') (by decide)
    have hcapital := head?_behind ht p.2 (c := 'E') (by decide)
    have hdigit := any_head?_behind ht p.2
    have hdrop := (List.drop_suffix 1 p.2).trans hrest
    simp only [bind, Except.bind, hpoint, hsmall, hcapital, hdigit]
    split
    · exact .error _ _
    · split
      · exact .error _ _
      · split
        · rename_i h
          rw [drop_append_of_head? h]
          exact (fractionPart_behind ht negative _ _ _).mono hdrop
        · split
          · rename_i hexponent
            have hdrop' : (p.2 ++ t).drop 1 = p.2.drop 1 ++ t := by
              rcases Bool.or_eq_true_iff.mp hexponent with h | h
              · exact drop_append_of_head? h t
              · exact drop_append_of_head? h t
            rw [hdrop']
            exact (exponentPart_behind ht negative _ _ _).mono hdrop
          · split
            · exact .ok _ hrest
            · exact SameAnswer.of_bind _ hrest

/-! ## 4. Words -/

/-- **A word is read alone.** -/
theorem word_behind {α : Type} (a : α) : ∀ {u : Text} (w : Text),
    (∀ c ∈ u, isAtomChar c = true) →
      SameAnswer w t (word false u w >>= fun rest => pure (a, rest))
        (word false u (w ++ t) >>= fun rest => pure (a, rest))
  | [], w, _ => .ok a List.suffix_rfl
  | c :: u, [], hu => by
    cases t with
    | nil => exact .error _ _
    | cons d t =>
      have hne : c ≠ d := by
        rintro rfl
        have hc := hu c List.mem_cons_self
        rw [ht c rfl] at hc
        cases hc
      rw [List.nil_append, word, word, if_neg hne]
      exact .error _ _
  | c :: u, d :: w, hu => by
    rw [List.cons_append, word, word]
    split
    · exact (word_behind a w fun c' hc' => hu c' (List.mem_cons_of_mem c hc')).mono
        (List.suffix_cons d w)
    · exact .error _ _

/-! ## 5. Atoms -/

/-- **An atom is read alone**, and at any depth. -/
theorem value_atom {w : Text} (hw : (Token.atom w).Proper) (fuel depth : Nat) :
    SameAnswer w t (value false 1 0 w) (value false (fuel + 1) depth (w ++ t)) := by
  obtain ⟨c, w, rfl⟩ := List.exists_cons_of_ne_nil hw.1
  have hc := hw.2 c List.mem_cons_self
  have hblank := (not_isBlank_of_isAtomChar hc).1
  have hle := List.suffix_cons c w
  rw [List.cons_append, value, value, skipBlanks_cons hblank, skipBlanks_cons hblank]
  by_cases hn : c = 'n'
  · subst hn
    exact (word_behind ht _ w (List.all_eq_true.mp rfl)).mono hle
  by_cases htrue : c = 't'
  · subst htrue
    exact (word_behind ht _ w (List.all_eq_true.mp rfl)).mono hle
  by_cases hf : c = 'f'
  · subst hf
    exact (word_behind ht _ w (List.all_eq_true.mp rfl)).mono hle
  by_cases hminus : c = '-'
  · subst hminus
    exact ((number_behind ht true w).bind Json.number).mono hle
  have hquote : c ≠ '"' := (not_isBlank_of_isAtomChar hc).2.1
  have hbracket : c ≠ '[' := by
    rintro rfl
    cases hc
  have hbrace : c ≠ '\x7b' := by
    rintro rfl
    cases hc
  simp only
  split
  · exact ((number_behind ht false (c :: w)).bind Json.number)
  · exact .error _ _

end

end TextPatch.Json
