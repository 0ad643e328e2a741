/-
# Searches for one needle

A search that goes on looks for each match strictly behind the start of the one before it, not
behind its end.  So an exhaustive search for one needle finds every place behind the seed at which
the needle occurs, overlapping occurrences included, each once and in order
(`resolve_exhaustive`); a search that is not exhaustive finds the first of these places
(`resolve_single`), and there is nothing to be found exactly when there are none
(`resolve_missing`).
-/
import TextPatch.Proofs.Search.Chains

namespace TextPatch.SearchSpec

variable {s : SearchSpec} {n : Needle} {text : Text} {file : String} {lookup : Option Lookup}
  {i : Option Identifier}

/-! ## 1. The matches that follow one another -/

/-- A chain of one needle ends where the needle is found. -/
theorem chain_singleton (last : Match) (start : Nat) :
    chain text start last [n] =
      match n.find? text start with
      | some m => .ok m
      | none => .error n := by
  rw [chain]
  cases n.find? text start with
  | none => rfl
  | some m => rfl

/-- What follows byte `start` is the next occurrence, and what follows that. -/
theorem following_succ (hs : s.needles = [n]) (fuel start : Nat) :
    s.following text (fuel + 1) start =
      match n.find? text (start + 1) with
      | some m => m :: s.following text fuel m.start
      | none => [] := by
  rw [following, first, hs, chain_singleton]
  cases n.find? text (start + 1) with
  | none => rfl
  | some m => rfl

/-- **What follows is a listing of all occurrences behind the start**, if there is a step for every
byte that is left. -/
theorem listing_following (hs : s.needles = [n]) : ∀ {fuel start : Nat},
    text.byteLength < start + fuel → n.Listing text (start + 1) (s.following text fuel start)
  | 0, start, hfuel => .nil (Needle.find?_eq_none_of_lt (Nat.lt_succ_of_lt hfuel))
  | fuel + 1, start, hfuel => by
    rw [following_succ hs]
    cases hfind : n.find? text (start + 1) with
    | none => exact .nil hfind
    | some m =>
      have hstart := (Needle.occurs_of_find? hfind).2.1
      exact .cons hfind (listing_following hs (by omega))

/-! ## 2. Whole searches -/

/-- A search without source needles has no seed. -/
theorem identifier_eq_none (hs : s.sourceNeedles = []) : s.identifier text lookup = .ok none := by
  simp [identifier, hs]

/-- An occurrence behind the seed is one that can be found. -/
theorem exists_find?_of_behind {seed : Option Nat} {m : Match} (hm : n.Occurs text m)
    (hbehind : ∀ o ∈ seed, o < m.start) :
    ∃ found, n.find? text (firstByte seed) = some found :=
  Needle.exists_find? hm (firstByte_le_iff.mpr hbehind)

/-- **A search for one needle finds its first occurrence behind the seed.** -/
theorem resolve_single {m : Match} (hs : s.needles = [n])
    (hi : s.identifier text lookup = .ok i) (he : s.exhaustive = false) (hm : n.Occurs text m)
    (hbehind : ∀ o ∈ i.map Identifier.offset, o < m.start)
    (hleast : ∀ m', n.Occurs text m' → (∀ o ∈ i.map Identifier.offset, o < m'.start) →
      m.start ≤ m'.start) :
    s.resolve file text lookup = .ok ⟨[m], i⟩ := by
  have hfind : n.find? text (firstByte (i.map Identifier.offset)) = some m :=
    Needle.find?_eq_some_iff.mpr ⟨hm, firstByte_le_iff.mpr hbehind,
      fun m' hm' hle => hleast m' hm' (firstByte_le_iff.mp hle)⟩
  rw [resolve_of_identifier (by simp [hs]) hi, hs, chain_singleton, hfind, he]
  rfl

/-- **An exhaustive search for one needle lists all its occurrences behind the seed**, if there is
one. -/
theorem resolve_exhaustive {m : Match} (hs : s.needles = [n])
    (hi : s.identifier text lookup = .ok i) (he : s.exhaustive = true) (hm : n.Occurs text m)
    (hbehind : ∀ o ∈ i.map Identifier.offset, o < m.start) :
    ∃ ms, s.resolve file text lookup = .ok ⟨ms, i⟩ ∧
      n.Listing text (firstByte (i.map Identifier.offset)) ms := by
  obtain ⟨found, hfind⟩ := exists_find?_of_behind hm hbehind
  refine ⟨found :: s.following text (text.byteLength + 1) found.start, ?_,
    .cons hfind (listing_following hs (by omega))⟩
  rw [resolve_of_identifier (by simp [hs]) hi, hs, chain_singleton, hfind, he]
  rfl

/-- **A needle that does not occur behind the seed is not found.** -/
theorem resolve_missing (hs : s.needles = [n]) (hi : s.identifier text lookup = .ok i)
    (hmissing : ∀ m, n.Occurs text m → ¬ ∀ o ∈ i.map Identifier.offset, o < m.start) :
    s.resolve file text lookup =
      if s.isOptional then .ok ⟨[], i⟩ else .error (.notFound n.written s.label file) := by
  have hfind : n.find? text (firstByte (i.map Identifier.offset)) = none :=
    Needle.find?_eq_none_iff.mpr fun m hm =>
      Nat.lt_of_not_le fun hle => hmissing m hm (firstByte_le_iff.mp hle)
  rw [resolve_of_identifier (by simp [hs]) hi, hs, chain_singleton, hfind]

end TextPatch.SearchSpec
