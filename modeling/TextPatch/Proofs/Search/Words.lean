/-
# Where words stand

A word stands at a byte of a text if the text can be cut there so that the second part begins with
it (`Text.HasAt`).  That is where the literal needle for the word occurs
(`Needle.occurs_literal_iff`), and `Text.findWord?` answers the first such place from some byte on
(`Text.findWord?_eq_some_iff`, `Text.findWord?_eq_none_iff`).
-/
import TextPatch.Proofs.Search.Occurrences

namespace TextPatch

/-- Whether a word stands at byte `n` of a text. -/
def Text.HasAt (t w : Text) (n : Nat) : Prop :=
  ∃ u v : Text, t = u ++ w ++ v ∧ u.byteLength = n

/-- A literal needle occurs where the word stands, with the length of the word. -/
theorem Needle.occurs_literal_iff {w : Text} {m : Match} :
    (Needle.literal w).Occurs text m ↔ text.HasAt w m.start ∧ m.length = w.byteLength := by
  constructor
  · rintro ⟨u, after, rfl, hu, hword⟩
    simp only [occurrence?] at hword
    split at hword
    · rename_i hprefix
      obtain ⟨v, rfl⟩ := List.isPrefixOf_iff_prefix.mp hprefix
      exact ⟨⟨u, v, by rw [List.append_assoc], hu⟩, (Option.some.inj hword).symm⟩
    · cases hword
  · rintro ⟨⟨u, v, rfl, hu⟩, hlength⟩
    refine ⟨u, w ++ v, by rw [List.append_assoc], hu, ?_⟩
    have hprefix : w.isPrefixOf (w ++ v) = true :=
      List.isPrefixOf_iff_prefix.mpr (List.prefix_append w v)
    simp only [occurrence?, hprefix, if_true, hlength]

/-- Of the places at which a word stands, one is the first. -/
theorem Text.exists_first_hasAt {t w : Text} (h : ∃ n, t.HasAt w n) :
    ∃ u v : Text, t = u ++ w ++ v ∧ ∀ n, t.HasAt w n → u.byteLength ≤ n := by
  obtain ⟨n, hn⟩ := h
  have hoccurs : (Needle.literal w).Occurs t ⟨n, w.byteLength⟩ :=
    Needle.occurs_literal_iff.mpr ⟨hn, rfl⟩
  obtain ⟨m, hfind⟩ := Needle.exists_find? hoccurs (Nat.zero_le n)
  obtain ⟨hm, -, hleast⟩ := Needle.occurs_of_find? hfind
  obtain ⟨⟨u, v, ht, hu⟩, -⟩ := Needle.occurs_literal_iff.mp hm
  refine ⟨u, v, ht, fun n hn => ?_⟩
  rw [hu]
  exact hleast ⟨n, w.byteLength⟩ (Needle.occurs_literal_iff.mpr ⟨hn, rfl⟩) (Nat.zero_le n)

namespace Text

variable {t w : Text} {start n : Nat}

/-- Looking for a word is looking for the literal needle. -/
theorem findWord?_eq (w : Text) (start : Nat) (t : Text) :
    findWord? w start t = ((Needle.literal w).find? t start).map Match.start := by
  have hseek : ∀ (t before : Text) (offset : Nat),
      (seek? (fun _ after => if w.isPrefixOf after then some () else none) start before offset
          t).map Prod.fst =
        (seek? (Needle.literal w).occurrence? start before offset t).map Prod.fst := by
    intro t
    induction t with
    | nil =>
      intro before offset
      simp only [seek?, Needle.occurrence?]
      split
      · split
        · rfl
        · rfl
      · rfl
    | cons c t ih =>
      intro before offset
      simp only [seek?, Needle.occurrence?]
      by_cases hoffset : start ≤ offset
      · cases hword : w.isPrefixOf (c :: t) with
        | true => simp [hoffset]
        | false => simpa [hoffset] using ih (c :: before) (offset + c.utf8Size)
      · simpa [hoffset] using ih (c :: before) (offset + c.utf8Size)
  rw [findWord?, hseek, Needle.find?, Option.map_map]
  rfl

/-- **The place that is found for a word is the first one at or behind the given byte.** -/
theorem findWord?_eq_some_iff : findWord? w start t = some n ↔
    t.HasAt w n ∧ start ≤ n ∧ ∀ n', t.HasAt w n' → start ≤ n' → n ≤ n' := by
  have hoccurs : ∀ k, (Needle.literal w).Occurs t ⟨k, w.byteLength⟩ ↔ t.HasAt w k := by
    intro k
    rw [Needle.occurs_literal_iff]
    exact and_iff_left rfl
  rw [findWord?_eq, Option.map_eq_some_iff]
  constructor
  · rintro ⟨m, hm, rfl⟩
    obtain ⟨hm, hstart, hleast⟩ := Needle.occurs_of_find? hm
    refine ⟨(Needle.occurs_literal_iff.mp hm).1, hstart, fun n' hn' hle => ?_⟩
    exact hleast ⟨n', w.byteLength⟩ ((hoccurs n').mpr hn') hle
  · rintro ⟨hn, hstart, hleast⟩
    refine ⟨⟨n, w.byteLength⟩, Needle.find?_eq_some_iff.mpr ⟨(hoccurs n).mpr hn, hstart, ?_⟩, rfl⟩
    intro m hm hle
    exact hleast m.start (Needle.occurs_literal_iff.mp hm).1 hle

/-- **A word is not found exactly when it stands nowhere at or behind the given byte.** -/
theorem findWord?_eq_none_iff :
    findWord? w start t = none ↔ ∀ n, t.HasAt w n → n < start := by
  rw [findWord?_eq, Option.map_eq_none_iff, Needle.find?_eq_none_iff]
  constructor
  · intro h n hn
    exact h ⟨n, w.byteLength⟩ (Needle.occurs_literal_iff.mpr ⟨hn, rfl⟩)
  · intro h m hm
    exact h m.start (Needle.occurs_literal_iff.mp hm).1

end Text

end TextPatch
