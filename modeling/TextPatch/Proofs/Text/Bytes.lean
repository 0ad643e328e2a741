/-
# Texts as bytes

The bytes of a text are those of its characters in UTF-8, one character behind the other
(`bytes_append`).  Where a text can be cut can be seen from its bytes alone: at the end, and at
every byte that begins a character (`isCut_bytes_iff`).
-/
import TextPatch.Proofs.Text.Cuts

namespace TextPatch.Text

variable {t before after : Text} {n : Nat}

/-- The bytes of a text in UTF-8. -/
def bytes (t : Text) : ByteArray := (String.ofList t).toUTF8

@[simp] theorem bytes_append (s t : Text) : bytes (s ++ t) = bytes s ++ bytes t := by
  unfold bytes
  rw [String.ofList_append]
  exact String.toByteArray_append

@[simp] theorem bytes_nil : bytes [] = ByteArray.empty := rfl

@[simp] theorem size_bytes (t : Text) : (bytes t).size = t.byteLength :=
  utf8ByteSize_ofList t

theorem isValidUTF8_bytes (t : Text) : (bytes t).IsValidUTF8 := (String.ofList t).isValidUTF8

/-- No two texts have the same bytes. -/
theorem bytes_injective {s t : Text} (h : bytes s = bytes t) : s = t :=
  String.ofList_injective (String.toByteArray_inj.mp h)

/-- Bytes can be cut in front of a byte that begins a character, and at their end. -/
def IsCut (b : ByteArray) (n : Nat) : Prop :=
  n = b.size ∨ ∃ h : n < b.size, b[n].IsUTF8FirstByte

/-- **A text can be cut where its bytes can.** -/
theorem isCut_bytes_iff :
    IsCut (bytes t) n ↔ ∃ before after, t = before ++ after ∧ byteLength before = n := by
  have hcut : IsCut (bytes t) n ↔ String.Pos.Raw.IsValid (String.ofList t) ⟨n⟩ := by
    rw [String.Pos.Raw.isValid_iff_isUTF8FirstByte, String.Pos.Raw.ext_iff]
    exact Iff.rfl
  rw [hcut, String.Pos.Raw.isValid_iff_exists_append]
  constructor
  · rintro ⟨s₁, s₂, ht, hn⟩
    refine ⟨s₁.toList, s₂.toList, ?_, ?_⟩
    · rw [← String.toList_append, ← ht, String.toList_ofList]
    · rw [← utf8ByteSize_eq]
      exact (congrArg String.Pos.Raw.byteIdx hn).symm
  · rintro ⟨before, after, rfl, rfl⟩
    refine ⟨String.ofList before, String.ofList after, String.ofList_append, ?_⟩
    rw [String.Pos.Raw.ext_iff]
    exact (utf8ByteSize_ofList before).symm

end TextPatch.Text
