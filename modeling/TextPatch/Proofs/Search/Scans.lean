/-
# Scans

A scan finds a needle from left to right and goes on at the end of each match (`Needle.Scan`).  An
exhaustive search goes on behind the start of each match, so it lists all occurrences, those that
begin inside a match of the scan included.

A scan is a part of the listing (`Scan.sublist`), and it is all of it exactly if no occurrence
begins inside one of its matches (`Scan.length_eq_iff`).
-/
import TextPatch.Proofs.Search.Exhaustive

namespace TextPatch.Needle

variable {n : Needle} {text : Text} {start : Nat} {m m' : Match} {ms scan : List Match}

/-! ## 1. Scans -/

/-- The matches of a scan from byte `start` on. -/
inductive Scan (n : Needle) (text : Text) : (start : Nat) → List Match → Prop
  | done {start : Nat} (missing : n.find? text start = none) : Scan n text start []
  | step {start : Nat} {m : Match} {ms : List Match} (found : n.find? text start = some m)
      (rest : Scan n text (m.start + m.length) ms) : Scan n text start (m :: ms)

/-- There is one scan at most. -/
theorem Scan.unique (h : Scan n text start ms) (h' : Scan n text start scan) : ms = scan := by
  induction h generalizing scan with
  | done hmissing =>
    cases h' with
    | done _ => rfl
    | step hfound _ =>
      rw [hmissing] at hfound
      cases hfound
  | step hfound _ ih =>
    cases h' with
    | done hmissing =>
      rw [hfound] at hmissing
      cases hmissing
    | step hfound' hrest =>
      obtain rfl := Option.some.inj (hfound.symm.trans hfound')
      rw [ih hrest]

/-- If no occurrence is empty, a scan comes to its end: each step leaves less of the text. -/
theorem exists_scan (hpos : ∀ m, n.Occurs text m → 0 < m.length) : ∀ (fuel start : Nat),
    text.byteLength < start + fuel → ∃ scan, Scan n text start scan
  | 0, start, hfuel => ⟨[], .done (find?_eq_none_of_lt hfuel)⟩
  | fuel + 1, start, hfuel => by
    cases hfind : n.find? text start with
    | none => exact ⟨[], .done hfind⟩
    | some m =>
      obtain ⟨hm, hle, -⟩ := occurs_of_find? hfind
      have := hpos m hm
      obtain ⟨ms, hms⟩ := exists_scan hpos fuel (m.start + m.length) (by omega)
      exact ⟨m :: ms, .step hfind hms⟩

/-- All matches of a scan are occurrences at or behind its start. -/
theorem Scan.occurs (h : Scan n text start scan) (hm : m ∈ scan) :
    n.Occurs text m ∧ start ≤ m.start := by
  induction h with
  | done => cases hm
  | step hfound _ ih =>
    obtain ⟨hoccurs, hle, -⟩ := occurs_of_find? hfound
    rcases List.mem_cons.mp hm with rfl | hm
    · exact ⟨hoccurs, hle⟩
    · obtain ⟨hm, hstop⟩ := ih hm
      exact ⟨hm, by omega⟩

/-- No match of a scan reaches into a later one. -/
theorem Scan.stop_le (h : Scan n text start scan) (hm : m ∈ scan) (hm' : m' ∈ scan)
    (hlt : m.start < m'.start) : m.start + m.length ≤ m'.start := by
  induction h with
  | done => cases hm
  | step _ hrest ih =>
    rcases List.mem_cons.mp hm with rfl | hmem
    · rcases List.mem_cons.mp hm' with rfl | hmem'
      · omega
      · exact (hrest.occurs hmem').2
    · have := (hrest.occurs hmem).2
      rcases List.mem_cons.mp hm' with rfl | hmem'
      · omega
      · exact ih hmem hmem'

/-! ## 2. Scans and exhaustive searches -/

/-- **An exhaustive search finds what a scan finds.** -/
theorem Scan.sublist (h : Scan n text start scan) (hms : Listing n text start ms)
    (hpos : ∀ m, n.Occurs text m → 0 < m.length) : scan.Sublist ms := by
  induction h generalizing ms with
  | done _ => exact List.nil_sublist ms
  | @step start m scan hfound _ ih =>
    obtain ⟨rest, rfl, hrest⟩ := hms.exists_cons hfound
    have hlater : m.start + 1 ≤ m.start + m.length := by
      have := hpos m (occurs_of_find? hfound).1
      omega
    exact ((ih (hrest.filter hlater)).trans List.filter_sublist).cons_cons m

/-- If no occurrence begins inside a match of the scan, there is nothing else to be found. -/
theorem Scan.eq_of_listing (h : Scan n text start scan) (hms : Listing n text start ms)
    (hpos : ∀ m, n.Occurs text m → 0 < m.length)
    (hinside : ∀ m ∈ scan, ∀ m', n.Occurs text m' →
      ¬ (m.start < m'.start ∧ m'.start < m.start + m.length)) : ms = scan := by
  induction h generalizing ms with
  | done hmissing => exact hms.eq_nil hmissing
  | @step start m scan hfound _ ih =>
    obtain ⟨rest, rfl, hrest⟩ := hms.exists_cons hfound
    have hlater : Listing n text (m.start + m.length) rest := by
      refine ⟨hrest.sorted, fun m' => ?_⟩
      rw [hrest.mem_iff]
      refine and_congr_right fun hm' => ?_
      have := hinside m List.mem_cons_self m' hm'
      have := hpos m (occurs_of_find? hfound).1
      omega
    rw [ih hlater fun m hm => hinside m (List.mem_cons_of_mem _ hm)]

/-- **An exhaustive search finds as many matches as a scan exactly if no occurrence begins inside a
match of the scan.** -/
theorem Scan.length_eq_iff (h : Scan n text start scan) (hms : Listing n text start ms)
    (hpos : ∀ m, n.Occurs text m → 0 < m.length) :
    ms.length = scan.length ↔ ∀ m ∈ scan, ∀ m', n.Occurs text m' →
      ¬ (m.start < m'.start ∧ m'.start < m.start + m.length) := by
  refine ⟨fun hlength m hm m' hm' ⟨hlt, hstop⟩ => ?_, fun hinside => ?_⟩
  · have heq : scan = ms := (h.sublist hms hpos).eq_of_length hlength.symm
    have hstart := (h.occurs hm).2
    have hmem : m' ∈ scan := heq ▸ (hms.mem_iff m').mpr ⟨hm', by omega⟩
    have := h.stop_le hm hmem hlt
    omega
  · rw [h.eq_of_listing hms hpos hinside]

end TextPatch.Needle
