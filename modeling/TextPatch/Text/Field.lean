/-
# Fields

The fields of a text are its parts between the occurrences of a separator.  There is always one
field at least, no field holds the separator, and the fields joined by the separator are the text
again (`intercalate_fields`).  The other way round, texts without the separator are the fields of
what they are joined to (`fields_intercalate`).
-/
import TextPatch.Text

namespace TextPatch.Text

/-- The parts of a text between separators. -/
def fields (sep : Char) : Text → List Text
  | [] => [[]]
  | c :: t =>
    if c = sep then [] :: fields sep t
    else match fields sep t with
      | [] => [[c]]
      | f :: fs => (c :: f) :: fs

theorem fields_ne_nil (sep : Char) : ∀ t : Text, fields sep t ≠ []
  | [] => by simp [fields]
  | c :: t => by
    unfold fields
    split
    · simp
    · split <;> simp

/-- No field holds the separator. -/
theorem not_mem_of_mem_fields {sep : Char} :
    ∀ {t f : Text}, f ∈ fields sep t → sep ∉ f
  | [], f, h => by
    obtain rfl : f = [] := by simpa [fields] using h
    simp
  | c :: t, f, h => by
    have ih : ∀ f ∈ fields sep t, sep ∉ f := fun _ h => not_mem_of_mem_fields h
    have hne := fields_ne_nil sep t
    unfold fields at h
    split at h
    · rcases List.mem_cons.1 h with rfl | h
      · simp
      · exact ih f h
    · rename_i hc
      cases hfs : fields sep t with
      | nil => exact absurd hfs hne
      | cons g gs =>
        rw [hfs] at h ih
        rcases List.mem_cons.1 h with rfl | h
        · exact List.not_mem_cons_of_ne_of_not_mem (fun e => hc e.symm) (ih g (by simp))
        · exact ih f (by simp [h])

/-- The fields joined by the separator are the text. -/
theorem intercalate_fields (sep : Char) : ∀ t : Text, [sep].intercalate (fields sep t) = t
  | [] => by simp [fields, List.intercalate]
  | c :: t => by
    have ih := intercalate_fields sep t
    have hne := fields_ne_nil sep t
    unfold fields
    cases hfs : fields sep t with
    | nil => exact absurd hfs hne
    | cons f fs =>
      rw [hfs] at ih
      split
      · rename_i hc
        simp only [List.intercalate] at ih ⊢
        simp [ih, hc]
      · cases fs with
        | nil => simpa [List.intercalate] using ih
        | cons g gs =>
          simp only [List.intercalate] at ih ⊢
          simpa using ih

/-- A character of joined texts stands in one of them or is the separator. -/
theorem mem_intercalate {sep c : Char} : ∀ {fs : List Text}, c ∈ [sep].intercalate fs →
    c = sep ∨ ∃ f ∈ fs, c ∈ f
  | [], h => by simp at h
  | [f], h => by
    rw [List.intercalate_singleton] at h
    exact Or.inr ⟨f, List.mem_singleton_self f, h⟩
  | f :: g :: fs, h => by
    rw [List.intercalate_cons_cons, List.mem_append, List.mem_append, List.mem_singleton] at h
    rcases h with (h | rfl) | h
    · exact Or.inr ⟨f, List.mem_cons_self, h⟩
    · exact Or.inl rfl
    · rcases mem_intercalate h with rfl | ⟨f', hf', hc⟩
      · exact Or.inl rfl
      · exact Or.inr ⟨f', List.mem_cons_of_mem f hf', hc⟩

/-- The characters of each of the joined texts are among those of the whole. -/
theorem mem_intercalate_of_mem {sep c : Char} : ∀ {fs : List Text} {f : Text}, f ∈ fs → c ∈ f →
    c ∈ [sep].intercalate fs
  | [f], f', hf, hc => by
    obtain rfl := List.mem_singleton.mp hf
    rwa [List.intercalate_singleton]
  | f :: g :: fs, f', hf, hc => by
    rw [List.intercalate_cons_cons, List.append_assoc, List.mem_append, List.mem_append]
    rcases List.mem_cons.mp hf with rfl | hf
    · exact Or.inl hc
    · exact Or.inr (Or.inr (mem_intercalate_of_mem hf hc))

/-- A field ends at the first separator. -/
theorem fields_append_cons {sep : Char} {u : Text} (hu : sep ∉ u) (v : Text) :
    fields sep (u ++ sep :: v) = u :: fields sep v := by
  induction u with
  | nil => simp [fields]
  | cons c u ih =>
    have hc : c ≠ sep := fun e => hu (by simp [e])
    have hu' : sep ∉ u := fun e => hu (by simp [e])
    rw [List.cons_append, fields, if_neg hc, ih hu']

/-- A text without a separator is its only field. -/
theorem fields_of_not_mem {sep : Char} {u : Text} (hu : sep ∉ u) : fields sep u = [u] := by
  induction u with
  | nil => rfl
  | cons c u ih =>
    have hc : c ≠ sep := fun e => hu (by simp [e])
    have hu' : sep ∉ u := fun e => hu (by simp [e])
    rw [fields, if_neg hc, ih hu']

/-- Texts without the separator are the fields of what they are joined to. -/
theorem fields_intercalate {sep : Char} : ∀ {fs : List Text}, fs ≠ [] → (∀ f ∈ fs, sep ∉ f) →
    fields sep ([sep].intercalate fs) = fs
  | [], hne, _ => absurd rfl hne
  | [f], _, h => by
    rw [List.intercalate_singleton, fields_of_not_mem (h f List.mem_cons_self)]
  | f :: g :: fs, _, h => by
    rw [List.intercalate_cons_cons, List.append_assoc, List.singleton_append,
      fields_append_cons (h f List.mem_cons_self), fields_intercalate (List.cons_ne_nil g fs)
        fun f' hf' => h f' (List.mem_cons_of_mem f hf')]

end TextPatch.Text
