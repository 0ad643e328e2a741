/-
# Replacing a word

A rule for one literal needle that only replaces (`EditRule.ReplacesWord`) does to a text what
replacing a word means, said in terms of the places at which the word stands (`Text.HasAt`): a
single replacement replaces the first occurrence, a multiple one all of them if none overlaps
another, and the word is reported as not found exactly if the text does not contain it
(`applyRuleToText_word`).
-/
import TextPatch.Proofs.Edits.Errors
import TextPatch.Proofs.Edits.Replacement
import TextPatch.Proofs.Search.Words

namespace TextPatch

variable {p : RulePlan} {file : String} {text : Text}

/-! ## 1. Rules and plans that replace a word -/

/-- A rule that writes `newText` over a word, in single or in multiple mode. -/
structure EditRule.ReplacesWord (rule : EditRule) (word newText : String) : Prop
    extends rule.WritesOver newText where
  search_eq : rule.search = .one word
  mode_ne : rule.searchMode ≠ some .regex
  required : rule.patchOptional ≠ some true

/-- Such a rule is checked to a plan for the word, which goes on for all matches in multiple
mode. -/
theorem EditRule.ReplacesWord.exists_plan {rule : EditRule} {word newText : String}
    (h : rule.ReplacesWord word newText) (hword : word ≠ "") :
    ∃ p, RulePlan.ofRule rule false = .ok p ∧ p.Overwrites (.literal word.toList) newText ∧
      p.search.exhaustive = decide (rule.searchMode = some .multiple) ∧
      p.search.isOptional = false ∧ p.search.label = rule.search.label := by
  have hmode : rule.searchMode.getD .single ≠ .regex := by
    cases hm : rule.searchMode with
    | none => decide
    | some mode =>
      rintro rfl
      exact h.mode_ne hm
  have hrequired : rule.patchOptional.getD false = false := by
    cases ho : rule.patchOptional with
    | none => rfl
    | some o =>
      cases o with
      | false => rfl
      | true => exact absurd ho h.required
  have hexhaustive : (rule.searchMode.getD .single == .multiple) =
      decide (rule.searchMode = some .multiple) := by
    cases rule.searchMode with
    | none => rfl
    | some mode => cases mode <;> rfl
  have hempty : word.isEmpty = false := by simpa using hword
  have hsearch : SearchSpec.ofSearch rule.search (rule.searchMode.getD .single)
      (rule.patchOptional.getD false) false =
        .ok ⟨[], [.literal word.toList], decide (rule.searchMode = some .multiple), false, false,
          rule.search.label⟩ := by
    simp [SearchSpec.ofSearch, SearchSpec.split, Needle.ofToken, Search.needles, h.search_eq, hword,
      hempty, hmode, hrequired, hexhaustive, Needle.asksForAll, bind, Except.bind, pure,
      Except.pure]
  obtain ⟨p, hplan, hs, hp⟩ := h.toWritesOver.exists_plan hsearch rfl rfl
  refine ⟨p, hplan, hp, ?_, ?_, ?_⟩ <;> rw [hs]

/-! ## 2. Replacing a word -/

namespace RulePlan.Overwrites

variable {word newText : String}

/-- A plan that does not go on replaces the first occurrence. -/
theorem applyRule_single (hp : p.Overwrites (.literal word.toList) newText)
    (he : p.search.exhaustive = false) {u v : Text} (ht : text = u ++ word.toList ++ v)
    (hfirst : ∀ n, text.HasAt word.toList n → u.byteLength ≤ n) :
    applyRule file text p none = .ok (u ++ newText.toList ++ v) := by
  have hm : (Needle.literal word.toList).Occurs text
      ⟨u.byteLength, Text.byteLength word.toList⟩ :=
    Needle.occurs_literal_iff.mpr ⟨⟨u, v, ht, rfl⟩, rfl⟩
  have hresolve : p.search.resolve file text none =
      .ok ⟨[⟨u.byteLength, Text.byteLength word.toList⟩], none⟩ :=
    SearchSpec.resolve_single hp.needles_eq (SearchSpec.identifier_eq_none hp.sources_eq) he hm
      (by simp) fun m' hm' _ => hfirst m'.start (Needle.occurs_literal_iff.mp hm').1
  rw [applyRule_disjoint hp.onlyReplaces hresolve (hp.insertion_eq text) (by simpa using hm.liesIn)
    (List.pairwise_singleton _ _), ht, Text.overwrite_singleton]

/-- A plan that goes on replaces all occurrences, if they do not overlap. -/
theorem applyRule_multiple (hp : p.Overwrites (.literal word.toList) newText)
    (he : p.search.exhaustive = true)
    (hexists : ∃ n, text.HasAt word.toList n)
    (hapart : ∀ m n, text.HasAt word.toList m → text.HasAt word.toList n → m < n →
      m + Text.byteLength word.toList ≤ n) :
    ∃ places : List Nat, places.Pairwise (· < ·) ∧
      (∀ n, n ∈ places ↔ text.HasAt word.toList n) ∧
      applyRule file text p none = .ok (text.overwrite newText.toList 0
        (places.map fun n => ⟨n, Text.byteLength word.toList⟩)) := by
  obtain ⟨n, hn⟩ := hexists
  obtain ⟨ms, hresolve, hlisting⟩ := hp.exists_listing he
    ⟨⟨n, Text.byteLength word.toList⟩, Needle.occurs_literal_iff.mpr ⟨hn, rfl⟩⟩
  have hmem : ∀ m, m ∈ ms ↔ text.HasAt word.toList m.start ∧
      m.length = Text.byteLength word.toList := by
    intro m
    rw [hlisting.mem_iff, Needle.occurs_literal_iff]
    exact and_iff_left (Nat.zero_le _)
  have hmatches : (ms.map Match.start).map (fun n => ⟨n, Text.byteLength word.toList⟩) = ms := by
    rw [List.map_map]
    refine (List.map_congr_left fun m hm => ?_).trans (List.map_id ms)
    exact congrArg (Match.mk m.start) ((hmem m).mp hm).2.symm
  refine ⟨ms.map Match.start, List.pairwise_map.mpr hlisting.sorted, fun k => ?_, ?_⟩
  · rw [List.mem_map]
    constructor
    · rintro ⟨m, hm, rfl⟩
      exact ((hmem m).mp hm).1
    · intro hk
      exact ⟨⟨k, Text.byteLength word.toList⟩, (hmem _).mpr ⟨hk, rfl⟩, rfl⟩
  · rw [hmatches]
    refine applyRule_disjoint hp.onlyReplaces hresolve (hp.insertion_eq text)
      (fun m hm => ((hlisting.mem_iff m).mp hm).1.liesIn) ?_
    refine hlisting.sorted.imp_of_mem fun {m m'} hm hm' hlt => ?_
    rw [((hmem m).mp hm).2]
    exact hapart m.start m'.start ((hmem m).mp hm).1 ((hmem m').mp hm').1 hlt

/-- The search fails exactly where the word does not stand anywhere, and says so. -/
theorem resolve_eq_error_iff (hp : p.Overwrites (.literal word.toList) newText)
    (hrequired : p.search.isOptional = false) {cause : NeedleError} :
    p.search.resolve file text none = .error cause ↔
      cause = .notFound word p.search.label file ∧ ¬ ∃ n, text.HasAt word.toList n := by
  have hi : p.search.identifier text none = .ok none :=
    SearchSpec.identifier_eq_none hp.sources_eq
  by_cases hexists : ∃ n, text.HasAt word.toList n
  · -- the word is found, whether the search goes on or not
    obtain ⟨n, hn⟩ := hexists
    have hoccurs : (Needle.literal word.toList).Occurs text ⟨n, Text.byteLength word.toList⟩ :=
      Needle.occurs_literal_iff.mpr ⟨hn, rfl⟩
    obtain ⟨found, hfind⟩ := Needle.exists_find? hoccurs (Nat.zero_le n)
    rw [SearchSpec.resolve_of_identifier (by simp [hp.needles_eq]) hi, hp.needles_eq,
      SearchSpec.chain_singleton]
    simp only [Option.map_none, firstByte, hfind]
    constructor
    · intro h
      cases h
    · rintro ⟨-, hmissing⟩
      exact absurd ⟨n, hn⟩ hmissing
  · have hmissing : ∀ m, (Needle.literal word.toList).Occurs text m → ¬ ∀ o ∈
        (none : Option Identifier).map Identifier.offset, o < m.start :=
      fun m hm => absurd ⟨m.start, (Needle.occurs_literal_iff.mp hm).1⟩ hexists
    rw [SearchSpec.resolve_missing hp.needles_eq hi hmissing, hrequired]
    simp [Needle.written, hexists, eq_comm]

end RulePlan.Overwrites

/-- **Literal replacement is replacement.**  In single mode the first occurrence of the word is
replaced; in multiple mode all of them at once, if no two of them overlap; and the search reports
that it has not found the word exactly if the text does not contain it. -/
theorem applyRuleToText_word {rule : EditRule} {word newText : String}
    (hrule : rule.ReplacesWord word newText) (hword : word ≠ "") (text : Text) :
    (rule.searchMode ≠ some .multiple → (∃ n, text.HasAt word.toList n) →
      ∃ u v : Text, text = u ++ word.toList ++ v ∧
        (∀ n, text.HasAt word.toList n → u.byteLength ≤ n) ∧
        applyRuleToText text rule = .ok (u ++ newText.toList ++ v)) ∧
    (rule.searchMode = some .multiple → (∃ n, text.HasAt word.toList n) →
      (∀ m n, text.HasAt word.toList m → text.HasAt word.toList n → m < n →
        m + Text.byteLength word.toList ≤ n) →
      ∃ places : List Nat, places.Pairwise (· < ·) ∧
        (∀ n, n ∈ places ↔ text.HasAt word.toList n) ∧
        applyRuleToText text rule = .ok (text.overwrite newText.toList 0
          (places.map fun n => ⟨n, Text.byteLength word.toList⟩))) ∧
    (∀ needle search file,
      applyRuleToText text rule = .error (.resolve (.notFound needle search file)) ↔
        (needle = word ∧ search = rule.search.label ∧ file = "") ∧
          ¬ ∃ n, text.HasAt word.toList n) := by
  obtain ⟨p, hplan, hp, hexhaustive, hrequired, hlabel⟩ := hrule.exists_plan hword
  have happly : applyRuleToText text rule = applyRule "" text p none := by
    rw [applyRuleToText, hplan]
  rw [happly]
  refine ⟨fun hmode hexists => ?_, fun hmode hexists hapart => ?_, fun needle search file => ?_⟩
  · obtain ⟨u, v, ht, hfirst⟩ := Text.exists_first_hasAt hexists
    exact ⟨u, v, ht, hfirst, hp.applyRule_single (by simpa [hmode] using hexhaustive) ht hfirst⟩
  · exact hp.applyRule_multiple (by simpa [hmode] using hexhaustive) hexists hapart
  · rw [applyRule_eq_resolve_iff, hp.resolve_eq_error_iff hrequired, hlabel,
      NeedleError.notFound.injEq]

/-- A rule that doubles every `é`. -/
def doubling : EditRule where
  search := .one "é"
  searchMode := some .multiple
  insertText := some "éé"
  insertMode := some .replace
  insertOffset := none
  removeRange := none
  removeRangeAfter := none
  patchOptional := none

/-- The rule doubles both `é` of `éaé`, and not what it has written. -/
theorem doubling_word : doubling.ReplacesWord "é" "éé" ∧ "é" ≠ "" ∧
    ∃ places : List Nat, places.Pairwise (· < ·) ∧
      (∀ n, n ∈ places ↔ Text.HasAt ['é', 'a', 'é'] ['é'] n) ∧
      applyRuleToText ['é', 'a', 'é'] doubling =
        .ok (Text.overwrite ['é', 'a', 'é'] ['é', 'é'] 0 (places.map fun n => ⟨n, 2⟩)) := by
  have hrule : doubling.ReplacesWord "é" "éé" :=
    ⟨⟨rfl, rfl, rfl, rfl, rfl⟩, rfl, by decide, by decide⟩
  have hplaces : ∀ n, Text.HasAt ['é', 'a', 'é'] ['é'] n → n = 0 ∨ n = 3 := by
    rintro n ⟨u, v, h, rfl⟩
    match u with
    | [] => exact Or.inl rfl
    | [_] => simp at h
    | [_, _] =>
      obtain ⟨rfl, rfl, -⟩ : 'é' = _ ∧ 'a' = _ ∧ _ := by simpa using h
      exact Or.inr rfl
    | _ :: _ :: _ :: _ => simp at h
  have hexists : ∃ n, Text.HasAt ['é', 'a', 'é'] ['é'] n := ⟨0, [], ['a', 'é'], rfl, rfl⟩
  refine ⟨hrule, by decide, (applyRuleToText_word hrule (by decide) _).2.1 rfl hexists ?_⟩
  intro m n hm hn hlt
  have hlength : Text.byteLength "é".toList = 2 := by decide
  have := hplaces m hm
  have := hplaces n hn
  omega

end TextPatch
