/-
# Optional rules

A rule may say that it is fine if its search comes to nothing.  A search comes to nothing in two
ways: its leading needles stand for no identifier (`Designates` says what they come to), or there is
no chain of its regular needles behind that identifier.  Both are `Unresolved`, and besides them
there is always a match (`unresolved_or_found`).

Only the second way leaves the text alone.  `optional_kept_iff` says that an optional rule whose
search is unresolved keeps its text exactly if the lookup of its leading needles is not what has
failed; a lookup that fails is an error of the rule, optional or not, as `optional_lookup_fails`
shows.
-/
import TextPatch.Proofs.Edits.Errors
import TextPatch.Proofs.Search.Collection
import TextPatch.Proofs.SourceMap.Translation

namespace TextPatch

open SourceMap (Document Translates IsNameAt)

namespace SearchSpec

variable {s : SearchSpec} {d : Document} {hint : String} {text : Text}

/-! ## 1. What leading needles stand for -/

/-- What the leading needles of a search come to: the byte of the identifier that they stand for,
nothing if there are none, or the error of their lookup. -/
inductive Designates (s : SearchSpec) (d : Document) (hint : String) (text : Text) :
    Except SourceMapError (Option Nat) → Prop
  | nothing (hnone : s.sourceNeedles = []) : Designates s d hint text (.ok none)
  | name {n : Nat} {name : String} (hneedles : s.sourceNeedles ≠ [])
      (hplace : Translates d hint text s.sourceNeedles (.ok n)) (hname : IsNameAt text n name) :
      Designates s d hint text (.ok (some n))
  | noName {n : Nat} (hneedles : s.sourceNeedles ≠ [])
      (hplace : Translates d hint text s.sourceNeedles (.ok n))
      (hnone : ∀ name, ¬ IsNameAt text n name) :
      Designates s d hint text (.error (.notAnIdentifier n))
  | noPlace {cause : SourceMapError} (hneedles : s.sourceNeedles ≠ [])
      (hplace : Translates d hint text s.sourceNeedles (.error cause)) :
      Designates s d hint text (.error cause)

/-- Leading needles are followed to a byte, and the identifier is read there. -/
theorem identifier_eq_of_sourceNeedles (hneedles : s.sourceNeedles ≠ []) :
    s.identifier text (some (d.lookup hint)) =
      match (d.trace hint text (.needles s.sourceNeedles)).map SourceMap.Trace.offset with
      | .error e => .error (.sourceMap e)
      | .ok n =>
        match Document.readIdentifier text n with
        | .error e => .error (.sourceMap e)
        | .ok i => .ok (some i) := by
  unfold identifier
  rw [if_neg (by simpa using hneedles)]
  simp only [Document.lookup, Document.identifierAt]
  cases d.trace hint text (.needles s.sourceNeedles) <;> rfl

/-- Leading needles whose lookup fails have no identifier. -/
theorem Designates.identifier_eq_error {cause : SourceMapError}
    (h : s.Designates d hint text (.error cause)) :
    s.identifier text (some (d.lookup hint)) = .error (.sourceMap cause) := by
  cases h with
  | noName hneedles hplace hnone =>
    rw [identifier_eq_of_sourceNeedles hneedles, hplace.eq]
    simp only [SourceMap.readIdentifier_of_no_name hnone]
  | noPlace hneedles hplace => rw [identifier_eq_of_sourceNeedles hneedles, hplace.eq]

/-- Other leading needles have the identifier at the byte that they come to. -/
theorem Designates.exists_identifier {seed : Option Nat}
    (h : s.Designates d hint text (.ok seed)) :
    ∃ i, s.identifier text (some (d.lookup hint)) = .ok i ∧ i.map Identifier.offset = seed := by
  cases h with
  | nothing hnone => exact ⟨none, identifier_eq_none hnone, rfl⟩
  | @name n name hneedles hplace hname =>
    have hread : Document.readIdentifier text n = .ok ⟨n, name⟩ :=
      SourceMap.readIdentifier_eq_ok_iff_isNameAt.mpr ⟨rfl, hname⟩
    refine ⟨some ⟨n, name⟩, ?_, rfl⟩
    rw [identifier_eq_of_sourceNeedles hneedles, hplace.eq]
    simp only [hread]

/-- **Leading needles come to something.** -/
theorem exists_designates (s : SearchSpec) (d : Document) (hint : String) (text : Text) :
    ∃ r, s.Designates d hint text r := by
  by_cases hneedles : s.sourceNeedles = []
  · exact ⟨_, .nothing hneedles⟩
  · obtain ⟨place, hplace⟩ := SourceMap.exists_translates d hint text s.sourceNeedles
    cases place with
    | error cause => exact ⟨_, .noPlace hneedles hplace⟩
    | ok n =>
      by_cases hname : ∃ name, IsNameAt text n name
      · obtain ⟨name, hname⟩ := hname
        exact ⟨_, .name hneedles hplace hname⟩
      · exact ⟨_, .noName hneedles hplace (not_exists.mp hname)⟩

/-! ## 2. Searches that come to nothing -/

/-- A search that cannot be resolved in a text through a map.  If the lookup of its leading needles
has failed, the error of the lookup is the cause. -/
inductive Unresolved (s : SearchSpec) (d : Document) (hint : String) (text : Text) :
    Option SourceMapError → Prop
  | lookup {cause : SourceMapError} (hcause : s.Designates d hint text (.error cause)) :
      Unresolved s d hint text (some cause)
  | needles {seed : Option Nat} (hseed : s.Designates d hint text (.ok seed))
      (hneedles : s.needles ≠ []) (hnone : ¬ ∃ places, Chained text seed s.needles places) :
      Unresolved s d hint text none

/-- A search whose leading needles cannot be looked up fails, optional or not. -/
theorem resolve_of_lookup_error {cause : SourceMapError}
    (h : s.Designates d hint text (.error cause)) (file : String) :
    s.resolve file text (some (d.lookup hint)) = .error (.sourceMap cause) := by
  unfold resolve
  rw [h.identifier_eq_error]
  rfl

/-- An optional search whose regular needles have no chain finds nothing. -/
theorem resolve_of_not_chained {seed : Option Nat} (hoptional : s.isOptional = true)
    (hseed : s.Designates d hint text (.ok seed)) (hneedles : s.needles ≠ [])
    (hnone : ¬ ∃ places, Chained text seed s.needles places) (file : String) :
    ∃ i, s.resolve file text (some (d.lookup hint)) = .ok ⟨[], i⟩ := by
  obtain ⟨i, hi, rfl⟩ := hseed.exists_identifier
  refine ⟨i, ?_⟩
  rw [resolve_of_identifier hneedles hi, ← first_eq]
  cases hfirst : s.first text (i.map Identifier.offset) with
  | error n => simp only [hoptional, if_true]
  | ok m =>
    obtain ⟨places, hplaces, -⟩ := (earliestEnd_of_first hneedles hfirst).canEndAt
    exact absurd ⟨places, hplaces⟩ hnone

/-- **A search that is not unresolved has a match.** -/
theorem unresolved_or_found (hs : s.needles = [] → s.sourceNeedles ≠ []) (file : String) :
    (∃ cause, s.Unresolved d hint text cause) ∨
      ∃ m ms i, s.resolve file text (some (d.lookup hint)) = .ok ⟨m :: ms, i⟩ := by
  obtain ⟨r, hr⟩ := exists_designates s d hint text
  cases r with
  | error cause => exact Or.inl ⟨some cause, .lookup hr⟩
  | ok seed =>
    obtain ⟨i, hi, rfl⟩ := hr.exists_identifier
    by_cases hneedles : s.needles = []
    · -- the identifier itself is the match
      obtain ⟨-, id, -, -, rfl⟩ := exists_lookup_of_identifier (hs hneedles) hi
      exact Or.inr ⟨_, [], some id, resolve_of_no_needles hneedles hi⟩
    · rw [resolve_of_identifier hneedles hi, ← first_eq]
      cases hfirst : s.first text (i.map Identifier.offset) with
      | error n => exact Or.inl ⟨none, .needles hr hneedles (not_chained_of_first hfirst)⟩
      | ok m => exact Or.inr ⟨m, _, i, rfl⟩

end SearchSpec

/-! ## 3. Optional rules -/

/-- A checked rule is optional if the rule says so. -/
theorem isOptional_of_ofRule {rule : EditRule} {sourceMapped : Bool} {p : RulePlan}
    (hoptional : rule.patchOptional = some true)
    (hp : RulePlan.ofRule rule sourceMapped = .ok p) :
    p.search.isOptional = true ∧ (p.search.needles = [] → p.search.sourceNeedles ≠ []) := by
  obtain ⟨search, hsearch, hp⟩ := bind_eq_ok.mp hp
  cases hp
  refine ⟨?_, SearchSpec.sourceNeedles_ne_nil_of_ofSearch hsearch⟩
  rw [hoptional] at hsearch
  unfold SearchSpec.ofSearch at hsearch
  split at hsearch
  · cases hsearch
  · obtain ⟨parts, -, hsearch⟩ := bind_eq_ok.mp hsearch
    cases hsearch
    rfl

/-- What a rule does with a text when its search may come to nothing.  A search without a match is
unresolved, and the rule then keeps the text exactly if no lookup is the cause; otherwise it fails
with the error of that lookup. -/
structure KeepsUnresolved (file : String) (text : Text) (p : RulePlan) (d : Document)
    (hint : String) : Prop where
  unresolved_iff : (∃ cause, p.search.Unresolved d hint text cause) ↔
    ¬ ∃ m ms i, p.search.resolve file text (some (d.lookup hint)) = .ok ⟨m :: ms, i⟩
  kept_iff : ∀ cause, p.search.Unresolved d hint text cause →
    (applyRule file text p (some (d.lookup hint)) = .ok text ↔ cause = none)
  fails : ∀ cause, p.search.Unresolved d hint text (some cause) →
    applyRule file text p (some (d.lookup hint)) = .error (.resolve (.sourceMap cause))

/-- **When an optional rule keeps a text in which it finds nothing.** -/
theorem optional_kept_iff {rule : EditRule} {sourceMapped : Bool} {p : RulePlan}
    (hoptional : rule.patchOptional = some true) (hp : RulePlan.ofRule rule sourceMapped = .ok p)
    (file : String) (text : Text) (d : Document) (hint : String) :
    KeepsUnresolved file text p d hint := by
  obtain ⟨hoptional, hneedles⟩ := isOptional_of_ofRule hoptional hp
  have hfails : ∀ cause, p.search.Unresolved d hint text (some cause) →
      applyRule file text p (some (d.lookup hint)) = .error (.resolve (.sourceMap cause)) := by
    rintro cause (hcause | _)
    exact applyRule_eq_resolve_iff.mpr (SearchSpec.resolve_of_lookup_error hcause file)
  refine ⟨⟨?_, fun hno => ?_⟩, fun cause hcause => ?_, hfails⟩
  · rintro ⟨cause, hcause⟩ ⟨m, ms, i, hresolve⟩
    cases hcause with
    | lookup hcause =>
      rw [SearchSpec.resolve_of_lookup_error hcause file] at hresolve
      cases hresolve
    | needles hseed hne hnone =>
      obtain ⟨j, hnothing⟩ :=
        SearchSpec.resolve_of_not_chained hoptional hseed hne hnone file
      rw [hnothing] at hresolve
      cases hresolve
  · exact (SearchSpec.unresolved_or_found hneedles file).resolve_right hno
  · cases hcause with
    | lookup hcause =>
      rw [hfails _ (.lookup hcause)]
      simp
    | needles hseed hne hnone =>
      obtain ⟨i, hresolve⟩ :=
        SearchSpec.resolve_of_not_chained hoptional hseed hne hnone file
      unfold applyRule
      rw [hresolve]
      simp

/-- A map with one source of one word. -/
def oneWordMap : Document where
  sources := ["s.ts"]
  contents := [some "key"]
  mappings := [⟨0, 0, 0, 0, 0⟩]

/-- A rule that may find nothing. -/
def optionalRule (search : Search) : EditRule :=
  ⟨search, none, none, none, none, none, none, some true⟩

/-- A search for the place that `key` has become, and behind it for `z`. -/
def mappedThenPlain : Search := .many ["\x7b\x7bkey\x7d\x7d", "z"]

theorem optionalRule_keeps : (optionalRule mappedThenPlain).patchOptional = some true ∧
    ∃ p, RulePlan.ofRule (optionalRule mappedThenPlain) true = .ok p ∧
      KeepsUnresolved "s.ts" ['x'] p oneWordMap "s.ts" := by
  obtain ⟨p, hp⟩ : ∃ p, RulePlan.ofRule (optionalRule mappedThenPlain) true = .ok p := ⟨_, rfl⟩
  exact ⟨rfl, p, hp, optional_kept_iff rfl hp "s.ts" ['x'] oneWordMap "s.ts"⟩

/-- **A lookup that fails is an error of an optional rule, too.**  The needle of the rule is not
found in the source. -/
theorem optional_lookup_fails :
    ¬ ∀ (rule : EditRule) (sourceMapped : Bool) (p : RulePlan) (file : String) (text : Text)
        (d : Document) (hint : String), rule.patchOptional = some true →
      RulePlan.ofRule rule sourceMapped = .ok p →
        (∃ cause, p.search.Unresolved d hint text cause) →
          applyRule file text p (some (d.lookup hint)) = .ok text := by
  intro hclaim
  obtain ⟨p, hp, hneedles⟩ :
      ∃ p, RulePlan.ofRule (optionalRule (.one "\x7b\x7bz\x7d\x7d")) true = .ok p ∧
        p.search.sourceNeedles = ["z"] := ⟨_, rfl, rfl⟩
  have hplace : SourceMap.Translates oneWordMap "s.ts" ['x'] ["z"]
      (.error (.needleNotFound "z" "s.ts")) := SourceMap.translates_iff.mpr rfl
  rw [← hneedles] at hplace
  have hcause := SearchSpec.Designates.noPlace (by rw [hneedles]; simp) hplace
  have hkept := hclaim _ _ _ "s.ts" _ _ _ rfl hp ⟨_, .lookup hcause⟩
  have hfails := applyRule_eq_resolve_iff.mpr (SearchSpec.resolve_of_lookup_error hcause "s.ts")
  rw [hfails] at hkept
  cases hkept

end TextPatch
