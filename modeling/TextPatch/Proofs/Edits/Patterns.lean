/-
# Replacing a pattern

A rule for one pattern that asks for all matches (`EditRule.ReplacesPattern`) writes over every
place at which the pattern matches, in turn.  These are more than what a scan finds, which goes on at
the end of each match: a pattern such as `a+` also matches inside its own matches.

`applyRule_pattern` says how the two compare.  The matches of the scan are among those of the rule,
there are as many exactly if none of the rule's begins inside one of the scan's, and then the rule
writes over the matches of the scan, all at once.
-/
import TextPatch.Proofs.Edits.Replacement
import TextPatch.Proofs.Search.Scans

namespace TextPatch

/-! ## 1. Rules and plans that replace a pattern -/

namespace Needle

/-- A needle is written as its token. -/
theorem written_of_ofToken {mode : SearchMode} {token : String} {n : Needle}
    (h : ofToken mode token = .ok n) : n.written = token := by
  unfold ofToken at h
  split at h
  · unfold ofPattern at h
    split at h
    · cases h
    · split at h
      · cases h
      · cases h
        rfl
  · cases h
    exact String.ofList_toList

/-- A token that asks for all matches is read as a pattern. -/
theorem exists_pattern {token : String}
    (h : (ofToken .regex token).toOption.any asksForAll = true) :
    ∃ regex, ofToken .regex token = .ok (.pattern token regex true) := by
  cases hneedle : ofToken .regex token with
  | error e =>
    rw [hneedle] at h
    cases h
  | ok n =>
    rw [hneedle] at h
    cases n with
    | literal word => cases h
    | pattern written regex g =>
      obtain rfl : g = true := h
      obtain rfl : written = token := written_of_ofToken hneedle
      exact ⟨regex, rfl⟩

/-- A pattern is written with a slash before it. -/
theorem exists_slash_of_ofToken {token written : String} {regex : Regex} {g : Bool}
    (h : ofToken .regex token = .ok (.pattern written regex g)) :
    ∃ body, token.toList = '/' :: body := by
  simp only [ofToken, if_true] at h
  split at h
  · rename_i parts hparts
    unfold patternParts? at hparts
    split at hparts
    · rename_i body hbody
      exact ⟨body, hbody⟩
    · cases hparts
  · cases h

end Needle

/-- So its token is not empty, and no needle that is looked up through the source map. -/
theorem SearchSpec.split_pattern {token label : String} {regex : Regex} {g sourceMapped : Bool}
    (h : Needle.ofToken .regex token = .ok (.pattern token regex g)) :
    split .regex sourceMapped label false [token] = .ok ([], [.pattern token regex g]) := by
  obtain ⟨body, hbody⟩ := Needle.exists_slash_of_ofToken h
  have hempty : token ≠ "" := by
    rintro rfl
    cases hbody
  have hsource : sourceNeedle? token = none := by
    rw [sourceNeedle?, hbody]
    rfl
  simp [split, hsource, hempty, h, bind, Except.bind, pure, Except.pure]

/-- A rule that writes `newText` over the matches of a pattern that asks for all of them. -/
structure EditRule.ReplacesPattern (rule : EditRule) (token : String) (regex : Regex)
    (newText : String) : Prop extends rule.WritesOver newText where
  needles_eq : rule.search.needles = [token]
  mode_eq : rule.searchMode = some .regex
  pattern_eq : Needle.ofToken .regex token = .ok (.pattern token regex true)

/-- Such a rule is checked to a plan for the pattern, which goes on for all matches. -/
theorem EditRule.ReplacesPattern.exists_plan {rule : EditRule} {token newText : String}
    {regex : Regex} (h : rule.ReplacesPattern token regex newText) (sourceMapped : Bool) :
    ∃ p, RulePlan.ofRule rule sourceMapped = .ok p ∧
      p.Overwrites (.pattern token regex true) newText ∧ p.search.exhaustive = true := by
  obtain ⟨body, hbody⟩ := Needle.exists_slash_of_ofToken h.pattern_eq
  have hne : rule.search ≠ .one "" := by
    intro hsearch
    have hneedles := h.needles_eq
    rw [hsearch] at hneedles
    obtain rfl : "" = token := by simpa [Search.needles] using hneedles
    cases hbody
  have hsearch : SearchSpec.ofSearch rule.search (rule.searchMode.getD .single)
      (rule.patchOptional.getD false) sourceMapped =
        .ok ⟨[], [.pattern token regex true], true, rule.patchOptional.getD false, sourceMapped,
          rule.search.label⟩ := by
    simp [SearchSpec.ofSearch, h.needles_eq, hne, h.mode_eq, SearchSpec.split_pattern h.pattern_eq,
      Needle.asksForAll, bind, Except.bind, pure, Except.pure]
  obtain ⟨p, hplan, hs, hp⟩ := h.toWritesOver.exists_plan hsearch rfl rfl
  exact ⟨p, hplan, hp, by rw [hs]⟩

/-! ## 2. Replacing a pattern -/

variable {p : RulePlan} {n : Needle} {newText : String} {file : String} {text t : Text}
  {lookup : Option Lookup}

namespace RulePlan.Overwrites

/-- The matches are written over in turn. -/
theorem applyRule_eq_writeOver (hp : p.Overwrites n newText)
    (hinsertion : p.insertion text lookup = .ok (some t)) {r : Resolution}
    (hresolve : p.search.resolve file text lookup = .ok r) :
    applyRule file text p lookup =
      (r.found.foldlM (Edited.writeOver t) (Edited.ofText text)).map Edited.text := by
  rw [applyRule_of_resolve hresolve hinsertion, Edited.editAt_eq_writeOver hp.onlyReplaces]

/-- **Where a scan finds all there is to be found, its matches are replaced at once.** -/
theorem applyRule_scan (hp : p.Overwrites n newText)
    (hinsertion : p.insertion text lookup = .ok (some t)) {scan : List Match}
    (hresolve : p.search.resolve file text lookup = .ok ⟨scan, none⟩)
    (hlisting : n.Listing text 0 scan) (hscan : n.Scan text 0 scan) :
    applyRule file text p lookup = .ok (text.overwrite t 0 scan) :=
  applyRule_disjoint hp.onlyReplaces hresolve hinsertion
    (fun _ hm => (hscan.occurs hm).1.liesIn)
    (hlisting.sorted.imp_of_mem fun hm hm' hlt => hscan.stop_le hm hm' hlt)

end RulePlan.Overwrites

/-- **A rule for a pattern writes over every match of it in turn**, each moved by what the text has
grown so far.  The matches of a scan are among these; there are as many exactly if no match of the
pattern begins inside a match of the scan, and if so, the rule writes over the matches of the scan,
all at once. -/
theorem applyRule_pattern {rule : EditRule} {token newText : String} {regex : Regex}
    (hrule : rule.ReplacesPattern token regex newText) (sourceMapped : Bool) :
    ∃ p, RulePlan.ofRule rule sourceMapped = .ok p ∧
      (∀ text, p.insertion text none = .ok (some newText.toList)) ∧
      ∀ (file : String) (text t : Text) (lookup : Option Lookup),
        p.insertion text lookup = .ok (some t) →
        (∃ m, (Needle.pattern token regex true).Occurs text m) →
        (∀ m, (Needle.pattern token regex true).Occurs text m → 0 < m.length) →
        ∃ found scan, p.search.resolve file text lookup = .ok ⟨found, none⟩ ∧
          (Needle.pattern token regex true).Listing text 0 found ∧
          (Needle.pattern token regex true).Scan text 0 scan ∧ scan.Sublist found ∧
          applyRule file text p lookup =
            (found.foldlM (Edited.writeOver t) (Edited.ofText text)).map Edited.text ∧
          (found.length = scan.length ↔ ∀ m ∈ scan, ∀ m',
            (Needle.pattern token regex true).Occurs text m' →
              ¬ (m.start < m'.start ∧ m'.start < m.start + m.length)) ∧
          (found.length = scan.length →
            applyRule file text p lookup = .ok (text.overwrite t 0 scan)) := by
  obtain ⟨p, hplan, hp, he⟩ := hrule.exists_plan sourceMapped
  refine ⟨p, hplan, hp.insertion_eq, fun file text t lookup hinsertion hexists hpos => ?_⟩
  obtain ⟨found, hresolve, hlisting⟩ := hp.exists_listing he hexists
  obtain ⟨scan, hscan⟩ := Needle.exists_scan hpos (text.byteLength + 1) 0 (by omega)
  have hsublist := hscan.sublist hlisting hpos
  refine ⟨found, scan, hresolve, hlisting, hscan, hsublist,
    hp.applyRule_eq_writeOver hinsertion hresolve, hscan.length_eq_iff hlisting hpos,
    fun hlength => ?_⟩
  obtain rfl : scan = found := hsublist.eq_of_length hlength.symm
  exact hp.applyRule_scan hinsertion hresolve hlisting hscan

/-! ## 3. Two patterns -/

/-- A rule that writes `newText` over all matches of a pattern. -/
def replaceAll (token newText : String) : EditRule where
  search := .one token
  searchMode := some .regex
  insertText := some newText
  insertMode := some .replace
  insertOffset := none
  removeRange := none
  removeRangeAfter := none
  patchOptional := none

/-- What the token of such a rule has to be. -/
theorem exists_regex_replaceAll (token newText : String)
    (h : (Needle.ofToken .regex token).toOption.any Needle.asksForAll = true) :
    ∃ regex, (replaceAll token newText).ReplacesPattern token regex newText ∧
      ∀ text start, (Needle.pattern token regex true).find? text start =
        (Needle.ofToken .regex token).toOption.bind (·.find? text start) := by
  obtain ⟨regex, hregex⟩ := Needle.exists_pattern h
  refine ⟨regex, ⟨⟨rfl, rfl, rfl, rfl, rfl⟩, rfl, rfl, hregex⟩, fun text start => ?_⟩
  rw [hregex]
  rfl

/-- No match of `aé` reaches into another, so all are replaced. -/
theorem disjoint_pattern_replaced : ∃ regex p,
    (replaceAll "/aé/g" "x").ReplacesPattern "/aé/g" regex "x" ∧
    RulePlan.ofRule (replaceAll "/aé/g" "x") false = .ok p ∧
    p.insertion ['a', 'é', 'a', 'é'] none = .ok (some ['x']) ∧
    (∃ m, (Needle.pattern "/aé/g" regex true).Occurs ['a', 'é', 'a', 'é'] m) ∧
    (∀ m, (Needle.pattern "/aé/g" regex true).Occurs ['a', 'é', 'a', 'é'] m → 0 < m.length) ∧
    ∃ scan, (Needle.pattern "/aé/g" regex true).Scan ['a', 'é', 'a', 'é'] 0 scan ∧
      applyRule "f" ['a', 'é', 'a', 'é'] p none =
        .ok (Text.overwrite ['a', 'é', 'a', 'é'] ['x'] 0 scan) := by
  obtain ⟨regex, hrule, hfind⟩ := exists_regex_replaceAll "/aé/g" "x" (by decide +kernel)
  have hfirst : (Needle.pattern "/aé/g" regex true).find? ['a', 'é', 'a', 'é'] 0 =
      some ⟨0, 3⟩ := by
    rw [hfind]
    decide +kernel
  have hsecond : (Needle.pattern "/aé/g" regex true).find? ['a', 'é', 'a', 'é'] 1 =
      some ⟨3, 3⟩ := by
    rw [hfind]
    decide +kernel
  have hlast : (Needle.pattern "/aé/g" regex true).find? ['a', 'é', 'a', 'é'] 4 = none := by
    rw [hfind]
    decide +kernel
  have hlisting := Needle.Listing.cons hfirst (.cons hsecond (.nil hlast))
  have hmem : ∀ {m}, (Needle.pattern "/aé/g" regex true).Occurs ['a', 'é', 'a', 'é'] m →
      m ∈ [⟨0, 3⟩, ⟨3, 3⟩] := fun hm => (hlisting.mem_iff _).mpr ⟨hm, Nat.zero_le _⟩
  have hexists : ∃ m, (Needle.pattern "/aé/g" regex true).Occurs ['a', 'é', 'a', 'é'] m :=
    ⟨⟨0, 3⟩, (Needle.occurs_of_find? hfirst).1⟩
  have hpos : ∀ m, (Needle.pattern "/aé/g" regex true).Occurs ['a', 'é', 'a', 'é'] m →
      0 < m.length := by
    intro m hm
    have hlength : ∀ m ∈ [(⟨0, 3⟩ : Match), ⟨3, 3⟩], 0 < m.length := by decide
    exact hlength m (hmem hm)
  obtain ⟨p, hplan, hinsertion, happly⟩ := applyRule_pattern hrule false
  obtain ⟨found, scan, -, -, hscan, -, -, hcount, hreplaced⟩ :=
    happly "f" ['a', 'é', 'a', 'é'] ['x'] none (hinsertion _) hexists hpos
  refine ⟨regex, p, hrule, hplan, hinsertion _, hexists, hpos, scan, hscan,
    hreplaced (hcount.mpr fun m hm m' hm' => ?_)⟩
  have hapart : ∀ m ∈ [(⟨0, 3⟩ : Match), ⟨3, 3⟩], ∀ m' ∈ [(⟨0, 3⟩ : Match), ⟨3, 3⟩],
      ¬ (m.start < m'.start ∧ m'.start < m.start + m.length) := by decide
  exact hapart m (hmem (hscan.occurs hm).1) m' (hmem hm')

/-- **A match inside a match is replaced as well.**  In `aa` the pattern `a+` matches both letters
together and the second one alone.  A scan finds the former only, and the rule replaces both. -/
theorem inner_match_replaced : ∃ regex,
    (replaceAll "/a+/g" "XY").ReplacesPattern "/a+/g" regex "XY" ∧
    (∃ m, (Needle.pattern "/a+/g" regex true).Occurs ['a', 'a'] m) ∧
    (∀ m, (Needle.pattern "/a+/g" regex true).Occurs ['a', 'a'] m → 0 < m.length) ∧
    (Needle.pattern "/a+/g" regex true).Scan ['a', 'a'] 0 [⟨0, 2⟩] ∧
    applyRuleToText ['a', 'a'] (replaceAll "/a+/g" "XY") = .ok ['X', 'X', 'Y'] ∧
    ¬ ∃ scan, (Needle.pattern "/a+/g" regex true).Scan ['a', 'a'] 0 scan ∧
      applyRuleToText ['a', 'a'] (replaceAll "/a+/g" "XY") =
        .ok (Text.overwrite ['a', 'a'] ['X', 'Y'] 0 scan) := by
  obtain ⟨regex, hrule, hfind⟩ := exists_regex_replaceAll "/a+/g" "XY" (by decide +kernel)
  have hfirst : (Needle.pattern "/a+/g" regex true).find? ['a', 'a'] 0 = some ⟨0, 2⟩ := by
    rw [hfind]
    decide +kernel
  have hsecond : (Needle.pattern "/a+/g" regex true).find? ['a', 'a'] 1 = some ⟨1, 1⟩ := by
    rw [hfind]
    decide +kernel
  have hlast : (Needle.pattern "/a+/g" regex true).find? ['a', 'a'] 2 = none := by
    rw [hfind]
    decide +kernel
  have hlisting := Needle.Listing.cons hfirst (.cons hsecond (.nil hlast))
  have hscan : (Needle.pattern "/a+/g" regex true).Scan ['a', 'a'] 0 [⟨0, 2⟩] :=
    .step hfirst (.done hlast)
  have hresult : applyRuleToText ['a', 'a'] (replaceAll "/a+/g" "XY") = .ok ['X', 'X', 'Y'] :=
    eq_ok_of_toOption (by decide +kernel)
  refine ⟨regex, hrule, ⟨⟨0, 2⟩, (Needle.occurs_of_find? hfirst).1⟩, fun m hm => ?_, hscan, hresult,
    ?_⟩
  · have hlength : ∀ m ∈ [(⟨0, 2⟩ : Match), ⟨1, 1⟩], 0 < m.length := by decide
    exact hlength m ((hlisting.mem_iff m).mpr ⟨hm, Nat.zero_le _⟩)
  · rintro ⟨scan, hother, heq⟩
    rw [hother.unique hscan, hresult] at heq
    have hne : (['X', 'X', 'Y'] : Text) ≠ Text.overwrite ['a', 'a'] ['X', 'Y'] 0 [⟨0, 2⟩] := by
      decide
    exact hne (Except.ok.inj heq)

end TextPatch
