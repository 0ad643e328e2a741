/-
# What the reader answers

What the reader answers can be read: it nests no deeper than the reader goes, its integers are in
range, and each key of an object comes once (`readable_of_parse`).  The proof is one induction on
the fuel of the reader for its six parts together.
-/
import TextPatch.Proofs.Json.Rewriting

namespace TextPatch.Json

open Read

/-! ## 1. Numbers -/

/-- Integers that are read exactly. -/
def JsonNumber.InRange : JsonNumber → Prop
  | .integer n => -0x8000000000000000 ≤ n ∧ n ≤ 0xFFFFFFFFFFFFFFFF
  | .real _ => True

/-- Digits are collected up to a limit. -/
theorem extend_le {limit : Nat} :
    ∀ {ds : Text} {s : Nat}, s ≤ limit → (extend limit s ds).1 ≤ limit
  | [], s, h => h
  | d :: ds, s, h => by
    rw [extend]
    split
    · rename_i hfits
      exact extend_le hfits
    · exact h

theorem wholeNumber_inRange {negative : Bool} {s : Nat} (h : s ≤ largestSignificand) :
    JsonNumber.InRange (wholeNumber negative s) := by
  have hlimit : s ≤ 0xFFFFFFFFFFFFFFFF := h
  unfold wholeNumber
  split
  · split
    · exact ⟨by omega, by omega⟩
    · trivial
  · exact ⟨by omega, by omega⟩

theorem signed_inRange {negative : Bool} {s : Nat} {e : Int} {n : JsonNumber}
    (h : signed negative s e = .ok n) : JsonNumber.InRange n := by
  unfold signed at h
  split at h
  · cases h
    trivial
  · cases h

theorem exponentPart_inRange {broken negative : Bool} {s : Nat} {e : Int} {t t' : Text}
    {n : JsonNumber} (h : exponentPart broken negative s e t = .ok (n, t')) :
    JsonNumber.InRange n := by
  unfold exponentPart at h
  obtain ⟨c, -, h⟩ := bind_eq_ok.mp h
  simp only at h
  split at h
  · cases h
  · split at h
    · cases h
    · obtain ⟨x, -, h⟩ := bind_eq_ok.mp h
      split at h
      · obtain ⟨y, hy, h⟩ := bind_eq_ok.mp h
        cases h
        exact signed_inRange hy
      · split at h
        · cases h
        · cases h
          trivial

theorem fractionPart_inRange {broken negative : Bool} {s e : Nat} {t t' : Text} {n : JsonNumber}
    (h : fractionPart broken negative s e t = .ok (n, t')) : JsonNumber.InRange n := by
  unfold fractionPart at h
  obtain ⟨c, -, h⟩ := bind_eq_ok.mp h
  split at h
  · cases h
  · simp only at h
    split at h
    · exact exponentPart_inRange h
    · obtain ⟨y, hy, h⟩ := bind_eq_ok.mp h
      cases h
      exact signed_inRange hy

/-- **Integers are read in range**; every other number is a binary one. -/
theorem number_inRange {broken negative : Bool} {t t' : Text} {n : JsonNumber}
    (h : Read.number broken negative t = .ok (n, t')) : JsonNumber.InRange n := by
  unfold Read.number at h
  split at h
  · cases h
  · split at h
    · cases h
    · obtain ⟨c, -, h⟩ := bind_eq_ok.mp h
      have hle : ∀ ds, (extend largestSignificand 0 ds).1 ≤ largestSignificand :=
        fun ds => extend_le (Nat.zero_le _)
      simp only at h
      split at h
      · cases h
      · split at h
        · exact fractionPart_inRange h
        · split at h
          · exact exponentPart_inRange h
          · split at h
            · cases h
              exact wholeNumber_inRange (hle _)
            · obtain ⟨y, hy, h⟩ := bind_eq_ok.mp h
              cases h
              exact signed_inRange hy

/-! ## 2. Documents -/

/-- Documents that are read from a text with `depth` levels of nesting. -/
inductive Readable : (depth : Nat) → Json → Prop
  | null {depth : Nat} : Readable depth .null
  | bool {depth : Nat} (b : Bool) : Readable depth (.bool b)
  | number {depth : Nat} {n : JsonNumber} (h : JsonNumber.InRange n) : Readable depth (.number n)
  | string {depth : Nat} (s : String) : Readable depth (.string s)
  | array {depth : Nat} {vs : List Json} (h : ∀ v ∈ vs, Readable depth v) :
      Readable (depth + 1) (.array vs)
  | object {depth : Nat} {ms : Members} (hkeys : ms.keys.Nodup)
      (h : ∀ m ∈ ms, Readable depth m.2) : Readable (depth + 1) (.object ms)

/-- Members with each key once, and with values that can be read. -/
def ReadableMembers (depth : Nat) (ms : Members) : Prop :=
  ms.keys.Nodup ∧ ∀ m ∈ ms, Readable depth m.2

theorem ReadableMembers.insert {depth : Nat} {ms : Members} (h : ReadableMembers depth ms)
    (key : String) {v : Json} (hv : Readable depth v) :
    ReadableMembers depth (ms.insert key v) := by
  refine ⟨nodup_keys_insert key v h.1, fun m hm => ?_⟩
  rcases mem_insert hm with rfl | hm
  · exact hv
  · exact h.2 m hm

/-- What the parts of the reader answer with some fuel can be read. -/
structure ReadsReadable (broken : Bool) (fuel : Nat) : Prop where
  value : ∀ {depth t v t'}, value broken fuel depth t = .ok (v, t') → Readable depth v
  items : ∀ {depth t vs t'}, items broken fuel depth t = .ok (vs, t') →
    ∀ v ∈ vs, Readable depth v
  moreItems : ∀ {depth t vs t'}, moreItems broken fuel depth t = .ok (vs, t') →
    ∀ v ∈ vs, Readable depth v
  members : ∀ {depth t ms t'}, members broken fuel depth t = .ok (ms, t') →
    ReadableMembers depth ms
  member : ∀ {depth done t ms t'}, ReadableMembers depth done →
    member broken fuel depth done t = .ok (ms, t') → ReadableMembers depth ms
  moreMembers : ∀ {depth done t ms t'}, ReadableMembers depth done →
    moreMembers broken fuel depth done t = .ok (ms, t') → ReadableMembers depth ms

/-- One step of the reader of documents. -/
theorem readable_of_value {broken : Bool} {fuel depth : Nat} (ih : ReadsReadable broken fuel)
    {t t' : Text} {v : Json} (h : value broken (fuel + 1) depth t = .ok (v, t')) :
    Readable depth v := by
  rw [value] at h
  split at h
  · cases h
  · obtain ⟨x, -, h⟩ := bind_eq_ok.mp h
    cases h
    exact .null
  · obtain ⟨x, -, h⟩ := bind_eq_ok.mp h
    cases h
    exact .bool true
  · obtain ⟨x, -, h⟩ := bind_eq_ok.mp h
    cases h
    exact .bool false
  · obtain ⟨x, -, h⟩ := bind_eq_ok.mp h
    cases h
    exact .string _
  · split at h
    · cases h
    · obtain ⟨⟨vs, x⟩, hvs, h⟩ := bind_eq_ok.mp h
      cases h
      exact .array (ih.items hvs)
  · split at h
    · cases h
    · obtain ⟨⟨ms, x⟩, hms, h⟩ := bind_eq_ok.mp h
      cases h
      exact .object (ih.members hms).1 (ih.members hms).2
  · obtain ⟨⟨n, x⟩, hn, h⟩ := bind_eq_ok.mp h
    cases h
    exact .number (number_inRange hn)
  · split at h
    · obtain ⟨⟨n, x⟩, hn, h⟩ := bind_eq_ok.mp h
      cases h
      exact .number (number_inRange hn)
    · cases h

theorem readsReadable_succ {broken : Bool} {fuel : Nat} (ih : ReadsReadable broken fuel) :
    ReadsReadable broken (fuel + 1) where
  value := readable_of_value ih
  items := by
    intro depth t vs t' h
    rw [Read.items] at h
    split at h
    · cases h
    · cases h
      exact fun v hv => absurd hv List.not_mem_nil
    · obtain ⟨⟨v, x⟩, hv, h⟩ := bind_eq_ok.mp h
      obtain ⟨⟨ws, y⟩, hws, h⟩ := bind_eq_ok.mp h
      cases h
      exact List.forall_mem_cons.mpr ⟨ih.value hv, ih.moreItems hws⟩
  moreItems := by
    intro depth t vs t' h
    rw [Read.moreItems] at h
    split at h
    · cases h
    · cases h
      exact fun v hv => absurd hv List.not_mem_nil
    · split at h
      · cases h
      · cases h
      · obtain ⟨⟨v, x⟩, hv, h⟩ := bind_eq_ok.mp h
        obtain ⟨⟨ws, y⟩, hws, h⟩ := bind_eq_ok.mp h
        cases h
        exact List.forall_mem_cons.mpr ⟨ih.value hv, ih.moreItems hws⟩
    · cases h
  members := by
    intro depth t ms t' h
    have hnil : ReadableMembers depth [] :=
      ⟨List.nodup_nil, fun m hm => absurd hm List.not_mem_nil⟩
    rw [Read.members] at h
    split at h
    · cases h
    · cases h
      exact hnil
    · exact ih.member hnil h
    · cases h
  member := by
    intro depth done t ms t' hdone h
    rw [Read.member] at h
    obtain ⟨⟨key, x⟩, -, h⟩ := bind_eq_ok.mp h
    simp only at h
    split at h
    · cases h
    · obtain ⟨⟨v, y⟩, hv, h⟩ := bind_eq_ok.mp h
      exact ih.moreMembers (hdone.insert key (ih.value hv)) h
    · cases h
  moreMembers := by
    intro depth done t ms t' hdone h
    rw [Read.moreMembers] at h
    split at h
    · cases h
    · cases h
      exact hdone
    · split at h
      · cases h
      · exact ih.member hdone h
      · cases h
    · cases h

theorem readsReadable (broken : Bool) : ∀ fuel, ReadsReadable broken fuel
  | 0 => by
    constructor
    · intro depth t v t' h
      rw [value] at h
      cases h
    · intro depth t vs t' h
      rw [items] at h
      cases h
    · intro depth t vs t' h
      rw [moreItems] at h
      cases h
    · intro depth t ms t' h
      rw [members] at h
      cases h
    · intro depth done t ms t' _ h
      rw [member] at h
      cases h
    · intro depth done t ms t' _ h
      rw [moreMembers] at h
      cases h
  | fuel + 1 => readsReadable_succ (readsReadable broken fuel)

/-- **What the reader answers can be read.** -/
theorem readable_of_parse {t : Text} {v : Json} (h : parse t = .ok v) : Readable deepest v := by
  unfold parse parseStream at h
  obtain ⟨⟨w, rest⟩, hw, h⟩ := bind_eq_ok.mp h
  simp only at h
  split at h
  · cases h
    exact (readsReadable false _).value hw
  · cases h

/-! ## 3. Each key once -/

theorem distinctItems_of_forall : ∀ {vs : List Json}, (∀ v ∈ vs, Distinct v) → DistinctItems vs
  | [], _ => trivial
  | _ :: _, h => ⟨h _ List.mem_cons_self,
      distinctItems_of_forall fun v hv => h v (List.mem_cons_of_mem _ hv)⟩

theorem distinctValues_of_forall : ∀ {ms : Members}, (∀ m ∈ ms, Distinct m.2) → DistinctValues ms
  | [], _ => trivial
  | _ :: _, h => ⟨h _ List.mem_cons_self,
      distinctValues_of_forall fun m hm => h m (List.mem_cons_of_mem _ hm)⟩

theorem Readable.distinct {depth : Nat} {v : Json} (h : Readable depth v) : Distinct v := by
  induction h with
  | null => exact trivial
  | bool b => exact trivial
  | number _ => exact trivial
  | string s => exact trivial
  | array _ ih => exact distinctItems_of_forall ih
  | object hkeys _ ih => exact ⟨hkeys, distinctValues_of_forall ih⟩

/-- **A document that has been read has each key once.** -/
theorem distinct_of_parse {t : Text} {v : Json} (h : parse t = .ok v) : Distinct v :=
  (readable_of_parse h).distinct

end TextPatch.Json
