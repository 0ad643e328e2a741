/-
# Where needles occur

An occurrence of a needle is a match at which the text can be cut, so that the needle is found
between the two parts with the length of the match (`Needle.Occurs`).  Its start fixes its length
(`Occurs.unique`), and it covers whole characters of the text (`Occurs.liesIn`).

The main statements are about `Needle.find?`: what it answers is the occurrence with the least start
at or behind the byte that it is given (`find?_eq_some_iff`), and it answers nothing exactly when no
occurrence starts there (`find?_eq_none_iff`).  Found one behind the start of the other, occurrences
make up a `Listing` of all that there are.
-/
import TextPatch.Search
import TextPatch.Proofs.Text.Cuts

namespace TextPatch

/-! ## 1. The place that a search through a text answers -/

/-- The place that is answered is a cut at which the test succeeds, and it is the first one from
`start` on. -/
theorem Text.exists_cut_of_seek? {test : Text → Text → Option α} {start : Nat} :
    ∀ {t before : Text} {offset n : Nat} {a : α}, seek? test start before offset t = some (n, a) →
      ∃ u v, t = u ++ v ∧ offset + u.byteLength = n ∧ test (u.reverse ++ before) v = some a ∧
        ∀ u' v', t = u' ++ v' → start ≤ offset + u'.byteLength → u'.byteLength < u.byteLength →
          test (u'.reverse ++ before) v' = none
  | [], before, offset, n, a, h => by
    simp only [seek?] at h
    split at h
    · obtain ⟨b, hb, hn⟩ := Option.map_eq_some_iff.mp h
      obtain ⟨rfl, rfl⟩ := Prod.mk.inj hn
      refine ⟨[], [], rfl, rfl, hb, fun u' v' _ _ hlt => ?_⟩
      exact absurd hlt (Nat.not_lt_zero _)
    · cases h
  | c :: t, before, offset, n, a, h => by
    simp only [seek?] at h
    split at h
    · -- the test succeeds here
      rename_i b hb
      obtain ⟨rfl, rfl⟩ := Prod.mk.inj (Option.some.inj h)
      split at hb
      · refine ⟨[], c :: t, rfl, rfl, hb, fun u' v' _ _ hlt => ?_⟩
        exact absurd hlt (Nat.not_lt_zero _)
      · cases hb
    · -- it fails here, or the place is not looked at
      rename_i hnone
      obtain ⟨u, v, rfl, hn, hv, hfirst⟩ := exists_cut_of_seek? h
      refine ⟨c :: u, v, rfl, by rw [byteLength_cons]; omega, by simpa using hv, ?_⟩
      intro u' v' ht hle hlt
      cases u' with
      | nil =>
        obtain rfl : v' = c :: (u ++ v) := by simpa using ht.symm
        simpa [show start ≤ offset by simpa using hle] using hnone
      | cons d u' =>
        obtain ⟨rfl, htail⟩ : c = d ∧ u ++ v = u' ++ v' := by simpa using ht
        simp only [byteLength_cons] at hle hlt
        have := hfirst u' v' htail (by omega) (by omega)
        simpa using this

/-! ## 2. Occurrences -/

/-- A match that covers a part of a text. -/
def Match.LiesIn (m : Match) (text : Text) : Prop :=
  ∃ u w v : Text, text = u ++ w ++ v ∧ u.byteLength = m.start ∧ w.byteLength = m.length

/-- A match that covers a part of a text ends in it. -/
theorem Match.LiesIn.stop_le {m : Match} {text : Text} (h : m.LiesIn text) :
    m.start + m.length ≤ text.byteLength := by
  obtain ⟨u, w, v, rfl, hu, hw⟩ := h
  simp only [Text.byteLength_append]
  omega

namespace Needle

/-- A match at which a needle occurs: the text can be cut at its start, and between the parts the
needle is found with its length. -/
def Occurs (n : Needle) (text : Text) (m : Match) : Prop :=
  ∃ before after, text = before ++ after ∧ before.byteLength = m.start ∧
    n.occurrence? before.reverse after = some m.length

/-- Whether a needle occurs at byte `p`. -/
def OccursAt (n : Needle) (text : Text) (p : Nat) : Prop := ∃ length, n.Occurs text ⟨p, length⟩

theorem Occurs.occursAt {n : Needle} {text : Text} {m : Match} (h : n.Occurs text m) :
    n.OccursAt text m.start := ⟨m.length, h⟩

/-- Where a needle occurs decides how long the occurrence is. -/
theorem Occurs.unique {n : Needle} {text : Text} {m m' : Match} (h : n.Occurs text m)
    (h' : n.Occurs text m') (hstart : m.start = m'.start) : m = m' := by
  obtain ⟨u, v, rfl, hu, hv⟩ := h
  obtain ⟨u', v', ht, hu', hv'⟩ := h'
  obtain ⟨e, rfl, rfl⟩ := Text.exists_of_append_eq ht (by omega)
  have he : e = [] := Text.byteLength_eq_zero.mp (by
    rw [Text.byteLength_append] at hu'
    omega)
  subst he
  rw [List.nil_append] at hv
  rw [List.append_nil] at hv'
  have hlength : m.length = m'.length := Option.some.inj (hv.symm.trans hv')
  cases m
  cases m'
  simp_all

/-- What a needle finds between two parts of a text is a beginning of the second. -/
theorem exists_word_of_occurrence? {n : Needle} {before after : Text} {length : Nat}
    (h : n.occurrence? before after = some length) :
    ∃ w v, after = w ++ v ∧ w.byteLength = length := by
  cases n with
  | literal word =>
    simp only [occurrence?] at h
    split at h
    · rename_i hword
      obtain ⟨v, rfl⟩ := List.isPrefixOf_iff_prefix.mp hword
      exact ⟨word, v, rfl, Option.some.inj h⟩
    · cases h
  | pattern token regex _ =>
    obtain ⟨k, -, hk⟩ := Option.map_eq_some_iff.mp h
    exact ⟨after.take k, after.drop k, (List.take_append_drop k after).symm, hk⟩

/-- An occurrence covers a part of the text. -/
theorem Occurs.liesIn {n : Needle} {text : Text} {m : Match} (h : n.Occurs text m) :
    m.LiesIn text := by
  obtain ⟨u, after, rfl, hu, hlength⟩ := h
  obtain ⟨w, v, rfl, hw⟩ := exists_word_of_occurrence? hlength
  exact ⟨u, w, v, by rw [List.append_assoc], hu, hw⟩

/-! ## 3. Finding a needle -/

/-- **Nothing is found exactly when no occurrence starts at or behind the given byte.** -/
theorem find?_eq_none_iff {n : Needle} {text : Text} {start : Nat} :
    n.find? text start = none ↔ ∀ m, n.Occurs text m → m.start < start := by
  unfold find?
  rw [Option.map_eq_none_iff, Text.seek?_eq_none_iff]
  constructor
  · rintro h m ⟨u, v, rfl, hu, hv⟩
    refine Nat.lt_of_not_le fun hle => ?_
    have := h u v rfl (by omega)
    rw [List.append_nil, hv] at this
    cases this
  · intro h u v ht hle
    rw [List.append_nil]
    refine Option.eq_none_iff_forall_ne_some.mpr fun length hlength => ?_
    have := h ⟨u.byteLength, length⟩ ⟨u, v, ht, rfl, hlength⟩
    simp only at this
    omega

/-- Nothing is found behind the end of the text. -/
theorem find?_eq_none_of_lt {n : Needle} {text : Text} {start : Nat} (h : text.byteLength < start) :
    n.find? text start = none := by
  refine find?_eq_none_iff.mpr fun m hm => ?_
  have := hm.liesIn.stop_le
  omega

/-- What is found is an occurrence, and the first one. -/
theorem occurs_of_find? {n : Needle} {text : Text} {start : Nat} {m : Match}
    (h : n.find? text start = some m) :
    n.Occurs text m ∧ start ≤ m.start ∧
      ∀ m', n.Occurs text m' → start ≤ m'.start → m.start ≤ m'.start := by
  obtain ⟨⟨offset, length⟩, hseek, rfl⟩ := Option.map_eq_some_iff.mp h
  have hstart := (Text.seek?_start_le hseek).1
  obtain ⟨u, v, ht, hu, hv, hfirst⟩ := Text.exists_cut_of_seek? hseek
  rw [List.append_nil] at hv
  refine ⟨⟨u, v, ht, by simpa using hu, hv⟩, hstart, ?_⟩
  rintro m' ⟨u', v', ht', hu', hv'⟩ hle
  refine Nat.le_of_not_lt fun hlt => ?_
  have hnone := hfirst u' v' ht' (by omega) (by simp only at hlt; omega)
  rw [List.append_nil, hv'] at hnone
  cases hnone

/-- **What is found is the occurrence with the least start at or behind the given byte.** -/
theorem find?_eq_some_iff {n : Needle} {text : Text} {start : Nat} {m : Match} :
    n.find? text start = some m ↔ n.Occurs text m ∧ start ≤ m.start ∧
      ∀ m', n.Occurs text m' → start ≤ m'.start → m.start ≤ m'.start := by
  refine ⟨occurs_of_find?, fun ⟨hm, hstart, hleast⟩ => ?_⟩
  cases hfound : n.find? text start with
  | none =>
    have := find?_eq_none_iff.mp hfound m hm
    omega
  | some m' =>
    obtain ⟨hm', hstart', hleast'⟩ := occurs_of_find? hfound
    have hle := hleast m' hm' hstart'
    have hle' := hleast' m hm hstart
    rw [hm'.unique hm (by omega)]

/-- A needle that occurs at or behind a byte is found from there. -/
theorem exists_find? {n : Needle} {text : Text} {start : Nat} {m : Match} (h : n.Occurs text m)
    (hle : start ≤ m.start) : ∃ m', n.find? text start = some m' := by
  cases hfound : n.find? text start with
  | none =>
    have := find?_eq_none_iff.mp hfound m h
    omega
  | some m' => exact ⟨m', rfl⟩

/-! ## 4. All occurrences -/

variable {n : Needle} {text : Text} {start : Nat} {m : Match} {ms : List Match}

/-- All occurrences at or behind byte `start`, in their order. -/
structure Listing (n : Needle) (text : Text) (start : Nat) (ms : List Match) : Prop where
  sorted : ms.Pairwise (·.start < ·.start)
  mem_iff : ∀ m, m ∈ ms ↔ n.Occurs text m ∧ start ≤ m.start

/-- Where nothing is found, nothing is listed. -/
theorem Listing.nil (hfind : n.find? text start = none) : Listing n text start [] := by
  refine ⟨List.Pairwise.nil, fun m => ⟨fun hm => absurd hm List.not_mem_nil, fun ⟨hm, hle⟩ => ?_⟩⟩
  have := find?_eq_none_iff.mp hfind m hm
  omega

/-- What is found comes first, and before what is listed behind it. -/
theorem Listing.cons (hfind : n.find? text start = some m)
    (h : Listing n text (m.start + 1) ms) : Listing n text start (m :: ms) := by
  obtain ⟨hm, hle, hleast⟩ := occurs_of_find? hfind
  refine ⟨List.pairwise_cons.mpr ⟨fun m' hm' => ((h.mem_iff m').mp hm').2, h.sorted⟩, fun m' => ?_⟩
  rw [List.mem_cons, h.mem_iff]
  constructor
  · rintro (rfl | ⟨hm', hlt⟩)
    · exact ⟨hm, hle⟩
    · exact ⟨hm', by omega⟩
  · rintro ⟨hm', hle'⟩
    rcases Nat.eq_or_lt_of_le (hleast m' hm' hle') with heq | hlt
    · exact Or.inl (hm'.unique hm heq.symm)
    · exact Or.inr ⟨hm', hlt⟩

/-- Where nothing is found, there is nothing to list. -/
theorem Listing.eq_nil (h : Listing n text start ms) (hfind : n.find? text start = none) :
    ms = [] := by
  refine List.eq_nil_iff_forall_not_mem.mpr fun m hm => ?_
  obtain ⟨hoccurs, hle⟩ := (h.mem_iff m).mp hm
  have := find?_eq_none_iff.mp hfind m hoccurs
  omega

/-- What is found first comes first in the listing. -/
theorem Listing.exists_cons (h : Listing n text start ms) (hfind : n.find? text start = some m) :
    ∃ rest, ms = m :: rest ∧ Listing n text (m.start + 1) rest := by
  obtain ⟨hm, hle, hleast⟩ := occurs_of_find? hfind
  cases ms with
  | nil => exact absurd ((h.mem_iff m).mpr ⟨hm, hle⟩) List.not_mem_nil
  | cons first rest =>
    obtain ⟨hfirst, hrest⟩ := List.pairwise_cons.mp h.sorted
    have hm_mem := (h.mem_iff m).mpr ⟨hm, hle⟩
    obtain ⟨hoccurs, hstart⟩ := (h.mem_iff first).mp List.mem_cons_self
    have hmle := hleast first hoccurs hstart
    obtain rfl : m = first := by
      rcases List.mem_cons.mp hm_mem with rfl | hmem
      · rfl
      · have := hfirst m hmem
        omega
    refine ⟨rest, rfl, hrest, fun m' => ⟨fun hm' => ?_, fun ⟨hm', hlt⟩ => ?_⟩⟩
    · exact ⟨((h.mem_iff m').mp (List.mem_cons_of_mem _ hm')).1, hfirst m' hm'⟩
    · rcases List.mem_cons.mp ((h.mem_iff m').mpr ⟨hm', by omega⟩) with rfl | hmem
      · omega
      · exact hmem

/-- What is listed from a later byte on. -/
theorem Listing.filter (h : Listing n text start ms) {later : Nat} (hle : start ≤ later) :
    Listing n text later (ms.filter fun m => decide (later ≤ m.start)) := by
  refine ⟨h.sorted.filter _, fun m => ?_⟩
  rw [List.mem_filter, h.mem_iff, decide_eq_true_iff]
  constructor
  · rintro ⟨⟨hm, -⟩, hlater⟩
    exact ⟨hm, hlater⟩
  · rintro ⟨hm, hlater⟩
    exact ⟨⟨hm, by omega⟩, hlater⟩

end Needle

end TextPatch
