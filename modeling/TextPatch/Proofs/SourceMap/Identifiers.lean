/-
# What a lookup depends on

A lookup goes from needles to a place of the source and on to a line and a column of the generated
text; the text itself is looked at only in the last step, to find the byte of that position and to
read the name that starts there.  So one successful lookup fixes the position for every other text
(`exists_place`), and in a text that is cut around an identifier the lookup finds it exactly when
the cut is at that position and the identifier ends where it should (`place_finds_iff`).
-/
import TextPatch.SourceMap.Lookup
import TextPatch.Proofs.Text.Cuts
import TextPatch.Proofs.Text.Positions

namespace TextPatch.SourceMap.Document

/-- The identifier at a position of a generated text. -/
def identifierAtPosition (generated : Text) (p : Position) : Except SourceMapError Identifier :=
  match Position.offset? generated p with
  | none => .error (.generatedOutOfRange p.line p.column)
  | some offset => readIdentifier generated offset

/-- **The position that needles lead to does not depend on the generated text.** -/
theorem exists_place {d : Document} {hint : String} {t : Text} {needles : List String}
    {i : Identifier} (h : d.identifierAt hint t needles = .ok i) :
    ∃ p, ∀ t', d.identifierAt hint t' needles = identifierAtPosition t' p := by
  unfold identifierAt trace at h ⊢
  cases hsource : d.find hint with
  | error e =>
    rw [hsource] at h
    cases h
  | ok source =>
    rw [hsource] at h
    cases hbyte : (SourcePlace.needles needles).byte source with
    | error e =>
      simp only [bind, Except.bind, hbyte] at h
      cases h
    | ok byte =>
      simp only [bind, Except.bind, hbyte] at h ⊢
      cases hm : d.mappings.reverse.find? fun m =>
          m.isAbout source.index (Position.ofOffset source.content.toList byte) with
      | none =>
        rw [hm] at h
        cases h
      | some m =>
        refine ⟨m.generated, fun t' => ?_⟩
        unfold identifierAtPosition
        dsimp only
        cases Position.offset? t' m.generated <;> rfl

/-- An identifier that is read starts where it was looked for, is the longest run of identifier
characters there, and is not empty. -/
theorem readIdentifier_eq_ok_iff {t : Text} {n : Nat} {i : Identifier} :
    readIdentifier t n = .ok i ↔
      i.offset = n ∧ ∃ u v, t = u ++ v ∧ Text.byteLength u = n ∧
        i.name = String.ofList (v.takeWhile isIdentifierChar) ∧
        v.takeWhile isIdentifierChar ≠ [] := by
  unfold readIdentifier
  cases hcut : t.splitAt? n with
  | none =>
    constructor
    · intro h
      cases h
    · rintro ⟨-, u, v, ht, hu, -⟩
      rw [Text.splitAt?_eq_some_iff.mpr ⟨ht, hu⟩] at hcut
      cases hcut
  | some parts =>
    obtain ⟨u, v⟩ := parts
    have huv := Text.splitAt?_eq_some_iff.mp hcut
    simp only
    constructor
    · intro h
      split at h
      · cases h
      · rename_i hne
        cases h
        exact ⟨rfl, u, v, huv.1, huv.2, rfl, by simpa using hne⟩
    · rintro ⟨hi, u', v', ht, hu, hname, hne⟩
      have hcut' := Text.splitAt?_eq_some_iff.mpr ⟨ht, hu⟩
      rw [hcut] at hcut'
      obtain ⟨rfl, rfl⟩ : u = u' ∧ v = v' := by simpa using hcut'
      rw [if_neg (by simpa using hne)]
      cases i
      simp only at hi hname
      rw [hi, hname]

/-- A text that goes on with identifier characters ends its first run where it does. -/
theorem takeWhile_append_eq_iff {w v : Text} (hw : ∀ c ∈ w, isIdentifierChar c = true) :
    (w ++ v).takeWhile isIdentifierChar = w ↔
      ∀ c v', v = c :: v' → isIdentifierChar c = false := by
  rw [List.takeWhile_append_of_pos hw, List.append_right_eq_self]
  cases v with
  | nil => simp
  | cons c v =>
    rw [List.takeWhile_cons]
    cases hc : isIdentifierChar c with
    | true => simp [hc]
    | false => simp [hc]

/-- **A lookup finds an identifier exactly when it stands at the position and ends there.**  The
text is cut around a name made of identifier characters. -/
theorem place_finds_iff {u w v : Text} {p : Position} (hw : w ≠ [])
    (hchars : ∀ c ∈ w, isIdentifierChar c = true) :
    identifierAtPosition (u ++ w ++ v) p = .ok ⟨u.byteLength, String.ofList w⟩ ↔
      Position.endOf Position.start u = p ∧
        ∀ c v', v = c :: v' → isIdentifierChar c = false := by
  have hread : readIdentifier (u ++ w ++ v) u.byteLength = .ok ⟨u.byteLength, String.ofList w⟩ ↔
      ∀ c v', v = c :: v' → isIdentifierChar c = false := by
    rw [readIdentifier_eq_ok_iff, ← takeWhile_append_eq_iff hchars]
    constructor
    · rintro ⟨-, u', v', ht, hu', hname, -⟩
      rw [List.append_assoc] at ht
      obtain ⟨e, hu, hv⟩ := Text.exists_of_append_eq ht (by omega)
      have he : e = [] := by
        have hlen : Text.byteLength u' = Text.byteLength u + Text.byteLength e := by
          rw [hu, Text.byteLength_append]
        exact Text.byteLength_eq_zero.mp (by omega)
      rw [hv, he, List.nil_append]
      exact (String.ofList_injective hname).symm
    · intro hrun
      refine ⟨rfl, u, w ++ v, by rw [List.append_assoc], rfl, ?_, ?_⟩
      · rw [hrun]
      · rw [hrun]
        exact hw
  unfold identifierAtPosition
  constructor
  · intro h
    split at h
    · cases h
    · rename_i n hn
      have hoff : n = u.byteLength := (readIdentifier_eq_ok_iff.mp h).1.symm
      subst hoff
      refine ⟨?_, hread.mp h⟩
      have := Position.ofOffset_of_offset? hn
      rwa [List.append_assoc, Position.ofOffset_append] at this
  · rintro ⟨hp, hv⟩
    obtain ⟨c, w', rfl⟩ := List.exists_cons_of_ne_nil hw
    have hoff : Position.offset? (u ++ (c :: w') ++ v) p = some u.byteLength :=
      Position.offset?_eq_some_iff.mpr ⟨u, c, w' ++ v, by simp, rfl, hp⟩
    rw [hoff]
    exact hread.mpr hv

end TextPatch.SourceMap.Document
