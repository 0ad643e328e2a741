/-
# Chains of needles

A chain is a list of places, one for each needle, at which the needles occur in turn, every place
strictly behind the one before it and the first one behind a seed (`Chained`).  A search looks for
one chain only: it takes the first place for every needle.  That choice leaves the most room for
what follows, because a chain behind a later place is also one behind an earlier place
(`Chained.of_le`); so putting the first place in front of the others keeps every end that a chain
can have (`canEndAt_cons_iff`).  Hence

* the search finds the least end of all chains (`canEndAt_of_chain`);
* it gives up at the first needle that no chain reaches (`chained_take_iff_of_chain`).

`resolve_earliest` says this of whole searches.
-/
import TextPatch.Proofs.Search.Occurrences

namespace TextPatch

/-! ## 1. Chains -/

/-- Places at which needles occur in turn, strictly increasing, and behind the seed if there is
one. -/
structure Chained (text : Text) (seed : Option Nat) (needles : List Needle) (places : List Nat) :
    Prop where
  length_eq : places.length = needles.length
  occurs : ∀ q ∈ needles.zip places, q.1.OccursAt text q.2
  increasing : places.Pairwise (· < ·)
  behind : ∀ p ∈ places, ∀ s ∈ seed, s < p

/-- Whether some chain of needles has its last place at byte `p`. -/
def CanEndAt (text : Text) (seed : Option Nat) (needles : List Needle) (p : Nat) : Prop :=
  ∃ places, Chained text seed needles places ∧ places.getLast? = some p

variable {text : Text} {seed : Option Nat} {n : Needle} {ns : List Needle}

theorem chained_nil (text : Text) (seed : Option Nat) : Chained text seed [] [] :=
  ⟨rfl, by simp, List.Pairwise.nil, by simp⟩

/-- A chain begins with an occurrence behind the seed, and goes on behind that. -/
theorem chained_cons_iff {p : Nat} {ps : List Nat} :
    Chained text seed (n :: ns) (p :: ps) ↔
      n.OccursAt text p ∧ (∀ s ∈ seed, s < p) ∧ Chained text (some p) ns ps := by
  constructor
  · rintro ⟨hlength, hoccurs, hincreasing, hbehind⟩
    obtain ⟨hp, hps⟩ := List.pairwise_cons.mp hincreasing
    refine ⟨hoccurs (n, p) (by simp), hbehind p List.mem_cons_self, ?_⟩
    refine ⟨Nat.succ.inj hlength, fun q hq => hoccurs q (by simp [hq]), hps, ?_⟩
    rintro q hq s ⟨⟩
    exact hp q hq
  · rintro ⟨hp, hseed, hlength, hoccurs, hincreasing, hbehind⟩
    refine ⟨congrArg (· + 1) hlength, ?_, ?_, ?_⟩
    · intro q hq
      rcases List.mem_cons.mp hq with rfl | hq
      · exact hp
      · exact hoccurs q hq
    · exact List.pairwise_cons.mpr ⟨fun q hq => hbehind q hq p rfl, hincreasing⟩
    · intro q hq s hs
      rcases List.mem_cons.mp hq with rfl | hq
      · exact hseed s hs
      · exact Nat.lt_trans (hseed s hs) (hbehind q hq p rfl)

/-- A chain for a first needle and others has a first place and others. -/
theorem Chained.exists_cons {ps : List Nat} (h : Chained text seed (n :: ns) ps) :
    ∃ p qs, ps = p :: qs := by
  cases ps with
  | nil => cases h.length_eq
  | cons p qs => exact ⟨p, qs, rfl⟩

/-- **A chain behind a later place is one behind an earlier place.** -/
theorem Chained.of_le {p q : Nat} {ps : List Nat} (h : Chained text (some q) ns ps)
    (hle : p ≤ q) : Chained text (some p) ns ps := by
  refine ⟨h.length_eq, h.occurs, h.increasing, ?_⟩
  rintro r hr s ⟨⟩
  exact Nat.lt_of_le_of_lt hle (h.behind r hr q rfl)

/-! ## 2. The first place leaves the most room -/

/-- The byte from which a needle behind a seed is looked for. -/
def firstByte : Option Nat → Nat
  | some s => s + 1
  | none => 0

theorem firstByte_le_iff {p : Nat} : firstByte seed ≤ p ↔ ∀ s ∈ seed, s < p := by
  cases seed with
  | none => simp [firstByte]
  | some s =>
    constructor
    · rintro h _ ⟨⟩
      exact h
    · intro h
      exact h s rfl

/-- No chain begins before the place that is found. -/
theorem Chained.behind_found {m : Match} {p : Nat} {ps : List Nat}
    (h : Chained text seed (n :: ns) (p :: ps)) (hm : n.find? text (firstByte seed) = some m) :
    Chained text (some m.start) ns ps := by
  obtain ⟨⟨length, hp⟩, hseed, hrest⟩ := chained_cons_iff.mp h
  obtain ⟨-, -, hleast⟩ := Needle.occurs_of_find? hm
  exact hrest.of_le (hleast ⟨p, length⟩ hp (firstByte_le_iff.mpr hseed))

/-- The place that is found can stand in front of every chain behind it. -/
theorem Chained.cons_found {m : Match} {ps : List Nat} (h : Chained text (some m.start) ns ps)
    (hm : n.find? text (firstByte seed) = some m) :
    Chained text seed (n :: ns) (m.start :: ps) := by
  obtain ⟨hoccurs, hstart, -⟩ := Needle.occurs_of_find? hm
  exact chained_cons_iff.mpr ⟨hoccurs.occursAt, firstByte_le_iff.mp hstart, h⟩

theorem exists_chained_cons_iff {m : Match} (hm : n.find? text (firstByte seed) = some m) :
    (∃ ps, Chained text seed (n :: ns) ps) ↔ ∃ ps, Chained text (some m.start) ns ps := by
  constructor
  · rintro ⟨ps, h⟩
    obtain ⟨p, qs, rfl⟩ := h.exists_cons
    exact ⟨qs, h.behind_found hm⟩
  · rintro ⟨ps, h⟩
    exact ⟨m.start :: ps, h.cons_found hm⟩

/-- A needle that is not found has no chain. -/
theorem not_chained_of_find?_eq_none {ps : List Nat}
    (hnone : n.find? text (firstByte seed) = none) : ¬ Chained text seed (n :: ns) ps := by
  intro h
  obtain ⟨p, qs, rfl⟩ := h.exists_cons
  obtain ⟨⟨length, hp⟩, hseed, -⟩ := chained_cons_iff.mp h
  have hlt := Needle.find?_eq_none_iff.mp hnone ⟨p, length⟩ hp
  have hle := firstByte_le_iff.mpr hseed
  exact Nat.not_le_of_lt hlt hle

/-- A chain of one needle ends where the needle occurs. -/
theorem canEndAt_singleton_iff {p : Nat} :
    CanEndAt text seed [n] p ↔ n.OccursAt text p ∧ ∀ s ∈ seed, s < p := by
  constructor
  · rintro ⟨ps, h, hlast⟩
    obtain ⟨q, qs, rfl⟩ := h.exists_cons
    obtain ⟨hq, hseed, hqs⟩ := chained_cons_iff.mp h
    obtain rfl : qs = [] := List.length_eq_zero_iff.mp hqs.length_eq
    obtain rfl : q = p := by simpa using hlast
    exact ⟨hq, hseed⟩
  · rintro ⟨hp, hseed⟩
    exact ⟨[p], chained_cons_iff.mpr ⟨hp, hseed, chained_nil text (some p)⟩, rfl⟩

/-- **The first place for a needle keeps every end that a chain can have.** -/
theorem canEndAt_cons_iff {m : Match} {p : Nat} (hne : ns ≠ [])
    (hm : n.find? text (firstByte seed) = some m) :
    CanEndAt text seed (n :: ns) p ↔ CanEndAt text (some m.start) ns p := by
  have hlast : ∀ {s : Option Nat} {q : Nat} {ps : List Nat}, Chained text s ns ps →
      (q :: ps).getLast? = ps.getLast? := by
    intro s q ps h
    have hps : ps ≠ [] := by
      rintro rfl
      exact hne (List.length_eq_zero_iff.mp h.length_eq.symm)
    rw [List.getLast?_cons, List.getLast?_eq_some_getLast hps, Option.getD_some]
  constructor
  · rintro ⟨ps, h, hp⟩
    obtain ⟨q, qs, rfl⟩ := h.exists_cons
    exact ⟨qs, h.behind_found hm, by rw [← hlast (h.behind_found hm), hp]⟩
  · rintro ⟨ps, h, hp⟩
    exact ⟨m.start :: ps, h.cons_found hm, by rw [hlast h, hp]⟩

/-! ## 3. What the search for a chain answers -/

namespace SearchSpec

theorem chain_cons_of_find?_eq_some {last m : Match}
    (hm : n.find? text (firstByte seed) = some m) :
    chain text (firstByte seed) last (n :: ns) = chain text (firstByte (some m.start)) m ns := by
  rw [chain, hm]
  rfl

/-- **The match of a chain is an occurrence of its last needle, at the least end of all chains.** -/
theorem canEndAt_of_chain : ∀ {ns : List Needle} {seed : Option Nat} {last m : Match}, ns ≠ [] →
    chain text (firstByte seed) last ns = .ok m →
      (∃ n, ns.getLast? = some n ∧ n.Occurs text m) ∧ CanEndAt text seed ns m.start ∧
        ∀ p, CanEndAt text seed ns p → m.start ≤ p
  | [], _, _, _, hne, _ => absurd rfl hne
  | n :: ns, seed, last, m, _, h => by
    cases hfind : n.find? text (firstByte seed) with
    | none =>
      rw [chain, hfind] at h
      cases h
    | some found =>
      rw [chain_cons_of_find?_eq_some hfind] at h
      cases hns : ns with
      | nil =>
        -- the last needle: its first occurrence is the match
        rw [hns] at h
        cases h
        obtain ⟨hoccurs, hstart, hleast⟩ := Needle.occurs_of_find? hfind
        refine ⟨⟨n, rfl, hoccurs⟩, ?_, ?_⟩
        · exact canEndAt_singleton_iff.mpr ⟨hoccurs.occursAt, firstByte_le_iff.mp hstart⟩
        · intro p hp
          obtain ⟨⟨length, hp⟩, hseed⟩ := canEndAt_singleton_iff.mp hp
          exact hleast ⟨p, length⟩ hp (firstByte_le_iff.mpr hseed)
      | cons n' ns' =>
        have hne : ns ≠ [] := by simp [hns]
        obtain ⟨⟨l, hl, hoccurs⟩, hend, hleast⟩ := canEndAt_of_chain hne h
        rw [← hns]
        refine ⟨⟨l, by rw [List.getLast?_cons, hl, Option.getD_some], hoccurs⟩, ?_, ?_⟩
        · exact (canEndAt_cons_iff hne hfind).mpr hend
        · exact fun p hp => hleast p ((canEndAt_cons_iff hne hfind).mp hp)

/-- **The search gives up at the first needle that no chain reaches.** -/
theorem chained_take_iff_of_chain : ∀ {ns : List Needle} {seed : Option Nat} {last : Match}
    {n : Needle}, chain text (firstByte seed) last ns = .error n →
      ∃ j, ns[j]? = some n ∧ ∀ k, (∃ ps, Chained text seed (ns.take k) ps) ↔ k ≤ j
  | [], _, _, _, h => by cases h
  | n' :: ns, seed, last, n, h => by
    cases hfind : n'.find? text (firstByte seed) with
    | none =>
      rw [chain, hfind] at h
      cases h
      refine ⟨0, rfl, fun k => ?_⟩
      cases k with
      | zero => exact ⟨fun _ => Nat.le_refl 0, fun _ => ⟨[], chained_nil text seed⟩⟩
      | succ k =>
        rw [List.take_succ_cons]
        constructor
        · rintro ⟨ps, hps⟩
          exact absurd hps (not_chained_of_find?_eq_none hfind)
        · intro hle
          omega
    | some found =>
      rw [chain_cons_of_find?_eq_some hfind] at h
      obtain ⟨j, hj, hreach⟩ := chained_take_iff_of_chain h
      refine ⟨j + 1, by simpa using hj, fun k => ?_⟩
      cases k with
      | zero => exact ⟨fun _ => Nat.zero_le _, fun _ => ⟨[], chained_nil text seed⟩⟩
      | succ k =>
        rw [List.take_succ_cons, exists_chained_cons_iff hfind, hreach k]
        omega

/-! ## 4. Whole searches -/

/-- A search with needles of its own goes by what is found for the first match. -/
theorem resolve_of_identifier {s : SearchSpec} {file : String} {lookup : Option Lookup}
    {i : Option Identifier} (hs : s.needles ≠ []) (hi : s.identifier text lookup = .ok i) :
    s.resolve file text lookup =
      match chain text (firstByte (i.map Identifier.offset)) ⟨0, 0⟩ s.needles with
      | .error needle =>
        if s.isOptional then .ok ⟨[], i⟩ else .error (.notFound needle.written s.label file)
      | .ok m => .ok ⟨m :: if s.exhaustive then s.following text (text.byteLength + 1) m.start
          else [], i⟩ := by
  have hempty : s.needles.isEmpty = false := by simpa using hs
  simp only [resolve, hi, bind, Except.bind, pure, Except.pure, hempty]
  rfl

/-- **A search finds the earliest match that its needles can have.**  If there is a chain for the
needles behind the seed, the first match is the least end of such chains; if there is none, the
search names the first needle that no chain reaches, or finds nothing if it is optional. -/
theorem resolve_earliest {s : SearchSpec} {file : String} {text : Text} {lookup : Option Lookup}
    {i : Option Identifier} (hs : s.needles ≠ []) (hi : s.identifier text lookup = .ok i) :
    ((∃ ps, Chained text (i.map Identifier.offset) s.needles ps) →
      ∃ m ms, s.resolve file text lookup = .ok ⟨m :: ms, i⟩ ∧
        (∃ n, s.needles.getLast? = some n ∧ n.Occurs text m) ∧
        CanEndAt text (i.map Identifier.offset) s.needles m.start ∧
        ∀ p, CanEndAt text (i.map Identifier.offset) s.needles p → m.start ≤ p) ∧
    ((¬ ∃ ps, Chained text (i.map Identifier.offset) s.needles ps) →
      ∃ j n, s.needles[j]? = some n ∧
        (∀ k, (∃ ps, Chained text (i.map Identifier.offset) (s.needles.take k) ps) ↔ k ≤ j) ∧
        s.resolve file text lookup =
          if s.isOptional then .ok ⟨[], i⟩ else .error (.notFound n.written s.label file)) := by
  rw [resolve_of_identifier hs hi]
  cases hchain : chain text (firstByte (i.map Identifier.offset)) ⟨0, 0⟩ s.needles with
  | error n =>
    obtain ⟨j, hj, hreach⟩ := chained_take_iff_of_chain hchain
    refine ⟨fun hexists => ?_, fun _ => ⟨j, n, hj, hreach, rfl⟩⟩
    -- a chain for all needles would reach the one that the search has given up at
    have hlt := (List.getElem?_eq_some_iff.mp hj).1
    have hle := (hreach s.needles.length).mp (by rwa [List.take_length])
    omega
  | ok m =>
    obtain ⟨hoccurs, hend, hleast⟩ := canEndAt_of_chain hs hchain
    refine ⟨fun _ => ⟨m, _, rfl, hoccurs, hend, hleast⟩, fun hnone => ?_⟩
    obtain ⟨ps, hps, -⟩ := hend
    exact absurd ⟨ps, hps⟩ hnone

/-- A search for `é` and behind it for `éa`. -/
def twoNeedles : SearchSpec where
  sourceNeedles := []
  needles := [.literal ['é'], .literal ['é', 'a']]
  exhaustive := false
  isOptional := false
  sourceMapped := false
  label := "[\"é\",\"éa\"]"

theorem twoNeedles_earliest : twoNeedles.needles ≠ [] ∧
    twoNeedles.identifier ['é', 'é', 'a'] none = .ok none ∧
    ∃ m ms, twoNeedles.resolve "f" ['é', 'é', 'a'] none = .ok ⟨m :: ms, none⟩ ∧
      CanEndAt ['é', 'é', 'a'] none twoNeedles.needles m.start ∧
      ∀ p, CanEndAt ['é', 'é', 'a'] none twoNeedles.needles p → m.start ≤ p := by
  have hneedles : twoNeedles.needles ≠ [] := by decide
  have hidentifier : twoNeedles.identifier ['é', 'é', 'a'] none = .ok none := rfl
  have hfirst : (Needle.literal ['é']).OccursAt ['é', 'é', 'a'] 0 :=
    ⟨2, [], ['é', 'é', 'a'], rfl, rfl, by decide⟩
  have hsecond : (Needle.literal ['é', 'a']).OccursAt ['é', 'é', 'a'] 2 :=
    ⟨3, ['é'], ['é', 'a'], rfl, rfl, by decide⟩
  have hchain : Chained ['é', 'é', 'a'] none twoNeedles.needles [0, 2] :=
    chained_cons_iff.mpr ⟨hfirst, by simp,
      chained_cons_iff.mpr ⟨hsecond, by simp, chained_nil ['é', 'é', 'a'] (some 2)⟩⟩
  obtain ⟨m, ms, hresolve, -, hend, hleast⟩ :=
    (resolve_earliest hneedles hidentifier).1 ⟨[0, 2], hchain⟩
  exact ⟨hneedles, hidentifier, m, ms, hresolve, hend, hleast⟩

end SearchSpec

end TextPatch
