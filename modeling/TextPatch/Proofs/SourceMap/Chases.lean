/-
# Following words through a source

A place of a source is given by words that stand in it in turn, none before the one before it
(`Followed`); the last of them stands at the place.  The library takes for each word the first place
that it can have.  That choice leaves the most room for the words behind it, because what follows a
later place also follows an earlier one (`Followed.of_le`).  Hence

* the place that is answered is the least one that the words can lead to (`chase_eq_ok_iff`);
* if they lead nowhere, the word that is named is the first one that cannot be reached
  (`chase_eq_error_iff`).
-/
import TextPatch.Proofs.Search.Words

namespace TextPatch.SourceMap

/-! ## 1. Words that are followed -/

/-- Places in a text at which words stand in turn, none of them before the one before it, and none
before byte `start`. -/
structure Followed (text : Text) (start : Nat) (words : List String) (places : List Nat) : Prop where
  length_eq : places.length = words.length
  hasAt : ∀ q ∈ words.zip places, text.HasAt q.1.toList q.2
  ordered : places.Pairwise (· ≤ ·)
  start_le : ∀ p ∈ places, start ≤ p

/-- Whether words can be followed so that the last one stands at byte `p`.  No words lead to the
start itself. -/
def LeadTo (text : Text) (start : Nat) (words : List String) (p : Nat) : Prop :=
  ∃ places, Followed text start words places ∧ places.getLast?.getD start = p

/-- The least place that words lead to. -/
structure LeastPlace (text : Text) (start : Nat) (words : List String) (p : Nat) : Prop where
  leadTo : LeadTo text start words p
  le_of_leadTo : ∀ p', LeadTo text start words p' → p ≤ p'

variable {text : Text} {start p : Nat} {word : String} {words : List String} {places : List Nat}

theorem followed_nil (text : Text) (start : Nat) : Followed text start [] [] :=
  ⟨rfl, by simp, List.Pairwise.nil, by simp⟩

/-- Following words begins with a place for the first one, and goes on from there. -/
theorem followed_cons_iff : Followed text start (word :: words) (p :: places) ↔
    text.HasAt word.toList p ∧ start ≤ p ∧ Followed text p words places := by
  constructor
  · rintro ⟨hlength, hhas, hordered, hstart⟩
    obtain ⟨hp, hordered⟩ := List.pairwise_cons.mp hordered
    refine ⟨hhas (word, p) (by simp), hstart p List.mem_cons_self, ?_⟩
    exact ⟨Nat.succ.inj hlength, fun q hq => hhas q (by simp [hq]), hordered, hp⟩
  · rintro ⟨hp, hstart, hlength, hhas, hordered, hrest⟩
    refine ⟨congrArg (· + 1) hlength, ?_, List.pairwise_cons.mpr ⟨hrest, hordered⟩, ?_⟩
    · intro q hq
      rcases List.mem_cons.mp hq with rfl | hq
      · exact hp
      · exact hhas q hq
    · intro q hq
      rcases List.mem_cons.mp hq with rfl | hq
      · exact hstart
      · exact Nat.le_trans hstart (hrest q hq)

theorem Followed.exists_cons (h : Followed text start (word :: words) places) :
    ∃ p rest, places = p :: rest := by
  cases places with
  | nil => cases h.length_eq
  | cons p rest => exact ⟨p, rest, rfl⟩

/-- **What follows a later place also follows an earlier one.** -/
theorem Followed.of_le {earlier : Nat} (h : Followed text start words places)
    (hle : earlier ≤ start) : Followed text earlier words places :=
  ⟨h.length_eq, h.hasAt, h.ordered, fun p hp => Nat.le_trans hle (h.start_le p hp)⟩

/-! ## 2. The first place leaves the most room -/

section

variable {found : Nat} (hfound : Text.findWord? word.toList start text = some found)
include hfound

/-- What follows the place that is found for a word follows the start as well. -/
theorem Followed.cons_found (h : Followed text found words places) :
    Followed text start (word :: words) (found :: places) := by
  obtain ⟨hhas, hstart, -⟩ := Text.findWord?_eq_some_iff.mp hfound
  exact followed_cons_iff.mpr ⟨hhas, hstart, h⟩

/-- Whatever follows the start begins at or behind the place that is found. -/
theorem Followed.behind_found (h : Followed text start (word :: words) (p :: places)) :
    found ≤ p ∧ Followed text found words places := by
  obtain ⟨-, -, hleast⟩ := Text.findWord?_eq_some_iff.mp hfound
  obtain ⟨hhas, hstart, hrest⟩ := followed_cons_iff.mp h
  have hle := hleast p hhas hstart
  exact ⟨hle, hrest.of_le hle⟩

theorem exists_followed_cons_iff :
    (∃ ps, Followed text start (word :: words) ps) ↔ ∃ ps, Followed text found words ps := by
  constructor
  · rintro ⟨ps, h⟩
    obtain ⟨p, rest, rfl⟩ := h.exists_cons
    exact ⟨rest, (h.behind_found hfound).2⟩
  · rintro ⟨ps, h⟩
    exact ⟨found :: ps, h.cons_found hfound⟩

/-- **The least place behind the first one is the least of all.** -/
theorem LeastPlace.cons_found (h : LeastPlace text found words p) :
    LeastPlace text start (word :: words) p := by
  obtain ⟨⟨places, hfollowed, hlast⟩, hleast⟩ := h
  refine ⟨⟨found :: places, hfollowed.cons_found hfound, ?_⟩, ?_⟩
  · rw [List.getLast?_cons, Option.getD_some, hlast]
  · rintro p' ⟨ps, hps, rfl⟩
    obtain ⟨q, rest, rfl⟩ := hps.exists_cons
    obtain ⟨hle, hrest⟩ := hps.behind_found hfound
    have hp := hleast _ ⟨rest, hrest, rfl⟩
    rw [List.getLast?_cons, Option.getD_some]
    -- without further words, the place that is found is at or before any other for this one
    cases hlast : rest.getLast? with
    | none =>
      rw [hlast, Option.getD_none] at hp
      rw [Option.getD_none]
      exact Nat.le_trans hp hle
    | some r =>
      rw [hlast, Option.getD_some] at hp
      rw [Option.getD_some]
      exact hp

end

/-- A word that stands nowhere behind the start is not reached. -/
theorem not_followed_of_findWord? (hnone : Text.findWord? word.toList start text = none) :
    ¬ ∃ ps, Followed text start (word :: words) ps := by
  rintro ⟨ps, h⟩
  obtain ⟨p, rest, rfl⟩ := h.exists_cons
  obtain ⟨hhas, hstart, -⟩ := followed_cons_iff.mp h
  have hlt := Text.findWord?_eq_none_iff.mp hnone p hhas
  omega

theorem LeastPlace.unique {p' : Nat} (h : LeastPlace text start words p)
    (h' : LeastPlace text start words p') : p = p' :=
  Nat.le_antisymm (h.le_of_leadTo p' h'.leadTo) (h'.le_of_leadTo p h.leadTo)

/-! ## 3. What following words comes to -/

variable {source : SourceFile}

/-- The place that is answered is the least one. -/
theorem leastPlace_of_chase : ∀ {words : List String} {start : Nat},
    chase source start words = .ok p → LeastPlace source.content.toList start words p := by
  intro words
  induction words with
  | nil =>
    intro start h
    obtain rfl : start = p := Except.ok.inj h
    refine ⟨⟨[], followed_nil _ start, rfl⟩, ?_⟩
    rintro p' ⟨ps, hps, rfl⟩
    obtain rfl : ps = [] := List.length_eq_zero_iff.mp hps.length_eq
    exact Nat.le_refl start
  | cons word words ih =>
    intro start h
    rw [chase] at h
    cases hfind : Text.findWord? word.toList start source.content.toList with
    | none =>
      rw [hfind] at h
      cases h
    | some found =>
      rw [hfind] at h
      exact (ih h).cons_found hfind

/-- A word that cannot be reached from a start, though those before it can. -/
def FirstMissing (text : Text) (start : Nat) (words : List String) (word : String) : Prop :=
  ∃ j, words[j]? = some word ∧ ∀ k, (∃ ps, Followed text start (words.take k) ps) ↔ k ≤ j

/-- The word that is named is the first one that cannot be reached. -/
theorem firstMissing_of_chase {e : SourceMapError} : ∀ {words : List String} {start : Nat},
    chase source start words = .error e → ∃ word,
      e = .needleNotFound word source.path ∧
        FirstMissing source.content.toList start words word := by
  intro words
  induction words with
  | nil =>
    intro start h
    cases h
  | cons word words ih =>
    intro start h
    have hnothing : ∃ ps, Followed source.content.toList start [] ps := ⟨[], followed_nil _ start⟩
    rw [chase] at h
    cases hfind : Text.findWord? word.toList start source.content.toList with
    | none =>
      rw [hfind] at h
      cases h
      refine ⟨word, rfl, 0, rfl, fun k => ?_⟩
      cases k with
      | zero => simpa using hnothing
      | succ k =>
        rw [List.take_succ_cons]
        exact iff_of_false (not_followed_of_findWord? hfind) (Nat.not_succ_le_zero k)
    | some found =>
      rw [hfind] at h
      obtain ⟨missing, he, j, hj, hreach⟩ := ih h
      refine ⟨missing, he, j + 1, by simpa using hj, fun k => ?_⟩
      cases k with
      | zero => simpa using hnothing
      | succ k =>
        rw [List.take_succ_cons, exists_followed_cons_iff hfind, hreach k]
        omega

theorem FirstMissing.unique {word' : String} (h : FirstMissing text start words word)
    (h' : FirstMissing text start words word') : word = word' := by
  obtain ⟨j, hj, hreach⟩ := h
  obtain ⟨j', hj', hreach'⟩ := h'
  have hle := (hreach' j).mp ((hreach j).mpr (Nat.le_refl j))
  have hle' := (hreach j').mp ((hreach' j').mpr (Nat.le_refl j'))
  obtain rfl : j = j' := Nat.le_antisymm hle hle'
  exact Option.some.inj (hj.symm.trans hj')

/-- Words that lead somewhere have no first one that is missing. -/
theorem FirstMissing.not_leadTo (h : FirstMissing text start words word) :
    ¬ LeadTo text start words p := by
  obtain ⟨j, hj, hreach⟩ := h
  rintro ⟨ps, hps, -⟩
  have hlt := (List.getElem?_eq_some_iff.mp hj).1
  have hle := (hreach words.length).mp ⟨ps, by rwa [List.take_length]⟩
  omega

/-- **The place that is answered is the least one that the words lead to.** -/
theorem chase_eq_ok_iff : chase source start words = .ok p ↔
    LeastPlace source.content.toList start words p := by
  refine ⟨leastPlace_of_chase, fun h => ?_⟩
  cases hchase : chase source start words with
  | error e =>
    obtain ⟨word, -, hmissing⟩ := firstMissing_of_chase hchase
    exact absurd h.leadTo hmissing.not_leadTo
  | ok p' => rw [(leastPlace_of_chase hchase).unique h]

/-- **The word that is named is the first one that cannot be reached.** -/
theorem chase_eq_error_iff {e : SourceMapError} : chase source start words = .error e ↔
    ∃ word, e = .needleNotFound word source.path ∧
      FirstMissing source.content.toList start words word := by
  refine ⟨firstMissing_of_chase, ?_⟩
  rintro ⟨word, rfl, hmissing⟩
  cases hchase : chase source start words with
  | error e =>
    obtain ⟨word', rfl, hmissing'⟩ := firstMissing_of_chase hchase
    rw [hmissing.unique hmissing']
  | ok p => exact absurd (leastPlace_of_chase hchase).leadTo hmissing.not_leadTo

end TextPatch.SourceMap
