/-
# Comparing two cuts of one text

Two ways to cut a text in two are comparable: the one whose first part has fewer bytes lies inside
the first part of the other (`exists_of_append_eq`).  This is how statements about offsets turn into
statements about what stands where; what is copied between two offsets is the part that begins and
ends there (`between_append`).
-/
import TextPatch.Text

namespace TextPatch.Text

/-- Of two cuts of a text, the one with the shorter first part comes first. -/
theorem exists_of_append_eq {a b c d : Text} (h : a ++ b = c ++ d)
    (hle : a.byteLength ≤ c.byteLength) : ∃ e, c = a ++ e ∧ b = e ++ d := by
  rcases List.append_eq_append_iff.mp h with ⟨e, hc, hb⟩ | ⟨e, ha, hd⟩
  · exact ⟨e, hc, hb⟩
  · -- the other way round, the parts can only differ by nothing
    have hlen : byteLength a = byteLength c + byteLength e := by rw [ha, byteLength_append]
    have he : e = [] := byteLength_eq_zero.mp (by omega)
    subst he
    exact ⟨[], by simpa using ha.symm, by simpa using hd.symm⟩

/-- A text that is not empty has a byte. -/
theorem byteLength_pos {t : Text} (h : t ≠ []) : 0 < t.byteLength :=
  Nat.pos_of_ne_zero fun h0 => h (byteLength_eq_zero.mp h0)

/-- Nothing is copied between a byte and itself. -/
theorem between_self (t : Text) (n : Nat) : t.between n n = [] := by
  induction t generalizing n with
  | nil => rfl
  | cons c t ih =>
    rw [between]
    by_cases hn : n = 0
    · rw [if_pos hn]
    · rw [if_neg hn, if_neg hn, ih, List.nil_append]

/-- What is copied up to the end of a first part is that part. -/
theorem between_prefix (w v : Text) : (w ++ v).between 0 w.byteLength = w := by
  induction w with
  | nil => exact between_self v 0
  | cons c w ih =>
    have hc := c.utf8Size_pos
    rw [List.cons_append, between, byteLength_cons, if_neg (by omega), if_pos rfl, Nat.zero_sub,
      Nat.add_sub_cancel_left, ih, List.singleton_append]

/-- What is copied between the ends of a part is the part. -/
theorem between_append (u w v : Text) :
    (u ++ w ++ v).between u.byteLength (u.byteLength + w.byteLength) = w := by
  induction u with
  | nil => simpa using between_prefix w v
  | cons c u ih =>
    have hc := c.utf8Size_pos
    rw [List.cons_append, List.cons_append, between, byteLength_cons, if_neg (by omega),
      if_neg (by omega), Nat.add_sub_cancel_left, Nat.add_assoc, Nat.add_sub_cancel_left, ih,
      List.nil_append]

/-- The bytes of a text are those of its string. -/
theorem utf8ByteSize_ofList : ∀ t : Text, (String.ofList t).utf8ByteSize = t.byteLength
  | [] => by simp
  | c :: t => by
    rw [String.ofList_cons, String.utf8ByteSize_append, utf8ByteSize_ofList t]
    simp

theorem utf8ByteSize_eq (s : String) : s.utf8ByteSize = byteLength s.toList := by
  rw [← utf8ByteSize_ofList, String.ofList_toList]

end TextPatch.Text
