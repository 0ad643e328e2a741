/-
# Strings read back

A string that is written between quotes is read back as it was, and nothing behind its closing quote
is touched (`string_quote`).  The proof goes character by character: what a character is written as
takes the reader from one plain state to the next (`stringRest_escape`).
-/
import TextPatch.Json.Parser
import TextPatch.Json.Printer
import TextPatch.Proofs.Run

namespace TextPatch.Json.Read

/-- The escapes of one letter lead back to their characters. -/
theorem stringRest_letter {c e : Char} (hc : c ≠ 'u') (he : escapeOf? c = some e)
    (broken : Bool) (done t : Text) :
    stringRest broken .plain done ('\\' :: c :: t) = stringRest broken .plain (e :: done) t := by
  rw [stringRest, if_neg (by decide), if_pos rfl, stringRest, if_neg hc, he]

/-- A digit in base sixteen leads back to its value. -/
theorem digit?_digitChar {n : Nat} (hn : n < 16) : Text.digit? n.digitChar = some n := by
  have hall : ∀ n : Fin 16, Text.digit? (n : Nat).digitChar = some (n : Nat) := by decide
  exact hall ⟨n, hn⟩

/-- A control character leads back to itself through its four digits. -/
theorem stringRest_hexQuad {n : Nat} (hn : n < 0x20) (broken : Bool) (done t : Text) :
    stringRest broken .plain done ('\\' :: 'u' :: (hexQuad n ++ t)) =
      stringRest broken .plain (Char.ofNat n :: done) t := by
  have h₁ : n / 4096 % 16 = 0 := by omega
  have h₂ : n / 256 % 16 = 0 := by omega
  have h₃ : n / 16 % 16 < 16 := by omega
  have h₄ : n % 16 < 16 := by omega
  have hvalue : (n / 16 % 16) * 16 + n % 16 = n := by omega
  have hlow : ¬ (0xDC00 ≤ n ∧ n ≤ 0xDFFF) := by omega
  have hhigh : ¬ (0xD800 ≤ n ∧ n ≤ 0xDBFF) := by omega
  have hzero : Text.digit? (Nat.digitChar 0) = some 0 := by decide
  unfold hexQuad
  rw [h₁, h₂]
  simp only [List.map_cons, List.map_nil, List.cons_append, List.nil_append]
  rw [stringRest, if_neg (by decide), if_pos rfl, stringRest, if_pos rfl]
  simp only [stringRest, hzero, digit?_digitChar h₃, digit?_digitChar h₄]
  simp [hvalue, hlow, hhigh]

/-- **What a character is written as leads back to it.** -/
theorem stringRest_escape (c : Char) (broken : Bool) (done t : Text) :
    stringRest broken .plain done (escape c ++ t) = stringRest broken .plain (c :: done) t := by
  unfold escape
  split
  · exact stringRest_letter (by decide) rfl broken done t
  · exact stringRest_letter (by decide) rfl broken done t
  · exact stringRest_letter (by decide) rfl broken done t
  · exact stringRest_letter (by decide) rfl broken done t
  · exact stringRest_letter (by decide) rfl broken done t
  · exact stringRest_letter (by decide) rfl broken done t
  · exact stringRest_letter (by decide) rfl broken done t
  · rename_i hquote hbackslash _ _ _ _ _
    by_cases hc : c.toNat < 0x20
    · rw [if_pos hc]
      have hchar : Char.ofNat c.toNat = c := Char.ofNat_toNat c
      rw [List.cons_append, List.cons_append, stringRest_hexQuad hc, hchar]
    · rw [if_neg hc, List.singleton_append, stringRest, if_neg hquote, if_neg hbackslash,
        if_neg hc]

theorem stringRest_flatMap_escape (broken : Bool) (t : Text) : ∀ (s done : Text),
    stringRest broken .plain done (s.flatMap escape ++ '"' :: t) = .ok (done.reverse ++ s, t)
  | [], done => by
    rw [List.flatMap_nil, List.nil_append, stringRest, if_pos rfl, List.append_nil]
  | c :: s, done => by
    rw [List.flatMap_cons, List.append_assoc, stringRest_escape,
      stringRest_flatMap_escape broken t s (c :: done)]
    simp

/-- **A string that has been written is read back**, and what follows it is left. -/
theorem string_quote (broken : Bool) (s : String) (t : Text) :
    string broken (s.toList.flatMap escape ++ '"' :: t) = .ok (s, t) := by
  unfold string
  rw [stringRest_flatMap_escape]
  simp [bind, Except.bind, pure, Except.pure]

end TextPatch.Json.Read
