/-
# The rules of a bundled run

A run over the bundled script resolves one rule after the other, each against the text that the
rules before it left.  A *visit* is one such rule together with the text that it meets and the trail
of all splices that led there from the pristine text; rules of a descriptor that fails are visited
too, but the next descriptor starts from the text as it was before them.

* `visitAll` lists the visits of a run; `visitAll_sound` shows that every trail does lead from the
  pristine text to the text of the visit, and that a rule which has something to look up has the map
  to do it with;
* `descriptors_output` shows that the list is faithful: the run ends with the text of the last
  draft.
-/
import TextPatch.Bundle
import TextPatch.Proofs.Edits.Trail

namespace TextPatch

open SourceMap (Document)

/-! ## 1. Visits -/

/-- A text on its way, and the splices that have made it from the pristine one. -/
structure Draft where
  text : Text
  trail : Trail

/-- A rule that is resolved in the course of a run. -/
structure Visit where
  /-- The source in which the needles of the rule are looked up. -/
  file : String
  plan : RulePlan
  lookup : Option Lookup
  /-- What the rules before it left. -/
  draft : Draft

namespace RulePlan

/-- The needles that a rule looks up for its search. -/
def searchLookups (p : RulePlan) : List (List String) :=
  if p.search.sourceNeedles.isEmpty then [] else [p.search.sourceNeedles]

/-- The needles that a rule looks up for a part of its insert text. -/
def pieceLookup (p : RulePlan) : Insertion.Piece → List (List String)
  | .char _ => []
  | .reference inner => [p.search.sourceNeedles ++ [String.ofList inner]]

/-- The needles that a rule looks up for its insert text. -/
def insertLookups (p : RulePlan) : List (List String) :=
  if p.search.sourceMapped then
    p.insertText.toList.flatMap fun t => (Insertion.pieces t.toList).flatMap p.pieceLookup
  else []

/-- All needles that a rule looks up through the source map. -/
def lookups (p : RulePlan) : List (List String) := p.searchLookups ++ p.insertLookups

/-- A rule that looks something up needs the source map. -/
theorem usesSourceMap_of_mem_lookups {p : RulePlan} {needles : List String}
    (h : needles ∈ p.lookups) : p.usesSourceMap = true := by
  rw [usesSourceMap, Bool.or_eq_true]
  rcases List.mem_append.mp h with h | h
  · unfold searchLookups at h
    split at h
    · cases h
    · rename_i hne
      exact Or.inl (by simpa using hne)
  · unfold insertLookups at h
    split at h
    · rename_i hmapped
      obtain ⟨t, ht, h⟩ := List.mem_flatMap.mp h
      obtain ⟨piece, hpiece, h⟩ := List.mem_flatMap.mp h
      refine Or.inr ?_
      rw [Bool.and_eq_true]
      refine ⟨hmapped, ?_⟩
      have hsome : p.insertText = some t := by simpa using ht
      rw [hsome, Option.any_some, Insertion.hasReference, List.any_eq_true]
      cases piece with
      | char c => cases h
      | reference inner => exact ⟨.reference inner, hpiece, rfl⟩
    · cases h

end RulePlan

namespace Bundle

/-- The lookup that the rules of a file patch have: one if any of them needs the source map. -/
def lookupFor (d : Document) (file : String) (plans : List RulePlan) : Option Lookup :=
  if plans.any RulePlan.usesSourceMap then some (d.lookup file) else none

/-- The visits of checked rules, and the draft behind them unless one of them fails. -/
def visitRules (file : String) (lookup : Option Lookup) :
    Draft → List RulePlan → List Visit × Option Draft
  | a, [] => ([], some a)
  | a, p :: ps =>
    match applyRule file a.text p lookup with
    | .error _ => ([⟨file, p, lookup, a⟩], none)
    | .ok text =>
      let rest := visitRules file lookup ⟨text, a.trail ++ p.trail file a.text lookup⟩ ps
      (⟨file, p, lookup, a⟩ :: rest.1, rest.2)

/-- The visits of a file patch. -/
def visitFile (d : Document) (a : Draft) (p : FilePatch) : List Visit × Option Draft :=
  match RulePlan.ofRules true p.rules with
  | .error _ => ([], none)
  | .ok plans => visitRules p.file (lookupFor d p.file plans) a plans

/-- The visits of file patches, up to the first that fails. -/
def visitFiles (d : Document) : Draft → List FilePatch → List Visit × Option Draft
  | a, [] => ([], some a)
  | a, p :: rest =>
    match visitFile d a p with
    | (visits, none) => (visits, none)
    | (visits, some b) => (visits ++ (visitFiles d b rest).1, (visitFiles d b rest).2)

/-- The visits of descriptors, and the draft that they leave.  A descriptor that fails leaves the
draft that it met. -/
def visitAll (d : Document) : Draft → List Descriptor → List Visit × Draft
  | a, [] => ([], a)
  | a, desc :: rest =>
    let tried := visitFiles d a desc.files
    let others := visitAll d (tried.2.getD a) rest
    (tried.1 ++ others.1, others.2)

/-! ## 2. What holds at every visit -/

end Bundle

/-- A draft has come from a text along its trail. -/
def Draft.From (a : Draft) (pristine : Text) : Prop := Trail.apply a.trail pristine = .ok a.text

/-- What holds of a visit in a run that starts from a text with the map `d`: its draft has come from
that text, and a rule that needs the map has the lookup of its file in it. -/
structure Visit.Sound (d : Document) (pristine : Text) (v : Visit) : Prop where
  from_pristine : v.draft.From pristine
  lookup_eq : v.plan.usesSourceMap = true → v.lookup = some (d.lookup v.file)

/-- A rule that is applied takes a draft to the next one. -/
theorem Draft.From.step {a : Draft} {pristine t : Text} {file : String} {p : RulePlan}
    {lookup : Option Lookup} (ha : a.From pristine)
    (h : applyRule file a.text p lookup = .ok t) :
    Draft.From ⟨t, a.trail ++ p.trail file a.text lookup⟩ pristine :=
  Trail.apply_append ha (applyRule_eq_trail h)

namespace Bundle

section

variable {d : Document} {pristine : Text}

/-- All visits are sound, and so is the draft behind them. -/
def SoundUpTo (d : Document) (pristine : Text) (r : List Visit × Option Draft) : Prop :=
  (∀ v ∈ r.1, v.Sound d pristine) ∧ ∀ b ∈ r.2, b.From pristine

theorem visitRules_sound {file : String} {lookup : Option Lookup} :
    ∀ (ps : List RulePlan) {a : Draft},
      (∀ p ∈ ps, p.usesSourceMap = true → lookup = some (d.lookup file)) → a.From pristine →
      SoundUpTo d pristine (visitRules file lookup a ps)
  | [], a, _, ha => ⟨by simp [visitRules], by simpa [visitRules] using ha⟩
  | p :: ps, a, hmap, ha => by
    have hhere : Visit.Sound d pristine ⟨file, p, lookup, a⟩ := ⟨ha, hmap p (by simp)⟩
    rw [visitRules]
    cases happly : applyRule file a.text p lookup with
    | error e => exact ⟨by simpa using hhere, by simp⟩
    | ok t =>
      have hrest := visitRules_sound ps (fun q hq => hmap q (by simp [hq])) (ha.step happly)
      exact ⟨by simpa using ⟨hhere, hrest.1⟩, hrest.2⟩

theorem visitFile_sound (d : Document) {a : Draft} (p : FilePatch) (ha : a.From pristine) :
    SoundUpTo d pristine (visitFile d a p) := by
  unfold visitFile
  cases RulePlan.ofRules true p.rules with
  | error e => exact ⟨by simp, by simp⟩
  | ok plans =>
    refine visitRules_sound plans (fun q hq huses => ?_) ha
    have hany : plans.any RulePlan.usesSourceMap = true := List.any_eq_true.mpr ⟨q, hq, huses⟩
    rw [lookupFor, if_pos hany]

theorem visitFiles_sound (d : Document) : ∀ (files : List FilePatch) {a : Draft}, a.From pristine →
    SoundUpTo d pristine (visitFiles d a files)
  | [], a, ha => ⟨by simp [visitFiles], by simpa [visitFiles] using ha⟩
  | p :: rest, a, ha => by
    have hhere := visitFile_sound d p ha
    rw [visitFiles]
    split
    · rename_i visits heq
      rw [heq] at hhere
      exact hhere
    · rename_i visits b heq
      rw [heq] at hhere
      have hrest := visitFiles_sound d rest (hhere.2 b rfl)
      refine ⟨fun v hv => ?_, hrest.2⟩
      rcases List.mem_append.mp hv with hv | hv
      · exact hhere.1 v hv
      · exact hrest.1 v hv

/-- **Every visit of a run is sound**, and the run ends with a draft of the pristine text. -/
theorem visitAll_sound (d : Document) : ∀ (ds : List Descriptor) {a : Draft}, a.From pristine →
    (∀ v ∈ (visitAll d a ds).1, v.Sound d pristine) ∧ (visitAll d a ds).2.From pristine
  | [], a, ha => ⟨by simp [visitAll], ha⟩
  | desc :: rest, a, ha => by
    have hhere := visitFiles_sound d desc.files ha
    have hnext : ((visitFiles d a desc.files).2.getD a).From pristine := by
      cases hlast : (visitFiles d a desc.files).2 with
      | none => exact ha
      | some b => exact hhere.2 b hlast
    have hrest := visitAll_sound d rest hnext
    rw [visitAll]
    refine ⟨fun v hv => ?_, hrest.2⟩
    rcases List.mem_append.mp hv with hv | hv
    · exact hhere.1 v hv
    · exact hrest.1 v hv

end

/-! ## 3. The run goes where its visits say -/

/-- A way to come by source maps that answers `d` whenever it is asked. -/
def Answers (provider : SourceMap.Provider OnTree) (d : Document) : Prop :=
  ∀ script text h, (provider script text h).1 = .ok d

/-- A session whose map is `d`, known or not. -/
def Session.Has (s : Session OnTree) (d : Document) : Prop :=
  Answers s.provider d ∧ (s.known = none ∨ s.known = some d)

section

variable {d : Document} {s : Session OnTree} {h : TreeHost}

theorem Session.map_eq (hs : s.Has d) : (s.map h).1 = .ok d := by
  unfold Session.map
  rcases hs.2 with hk | hk
  · rw [hk]
    have hask := hs.1 s.script s.pristine h
    simp only [OnTree.bind_apply]
    rw [hask]
    rfl
  · rw [hk]
    rfl

theorem Session.mapFor_eq (hs : s.Has d) (plans : List RulePlan) :
    (s.mapFor plans h).1 =
      .ok (if plans.any RulePlan.usesSourceMap then some d else none) := by
  unfold Session.mapFor
  split
  · simp only [OnTree.bind_apply, OnTree.pure_apply]
    rw [Session.map_eq hs]
    rfl
  · rfl

/-- Checked rules lead to the draft behind their visits. -/
theorem visitRules_text (file : String) (lookup : Option Lookup) :
    ∀ (ps : List RulePlan) (a : Draft),
      (applyRules file lookup a.text ps).toOption = (visitRules file lookup a ps).2.map Draft.text
  | [], a => rfl
  | p :: ps, a => by
    rw [visitRules, applyRules]
    cases happly : applyRule file a.text p lookup with
    | error e => rfl
    | ok t => exact visitRules_text file lookup ps ⟨t, _⟩

theorem runRules_text (file : String) (document : Option Document) (a : Draft)
    (plans : List RulePlan) :
    ((runRules file document a.text plans : OnTree _) h).1.toOption =
      (visitRules file (document.map fun d => d.lookup file) a plans).2.map Draft.text := by
  rw [← visitRules_text]
  unfold runRules
  simp only [OnTree.bind_apply, OnTree.noteAll_apply]
  cases applyRules file (document.map fun d => d.lookup file) a.text plans <;> rfl

/-- A file patch leads to the draft behind its visits, and leaves a session with the same map. -/
theorem filePatch_text (hs : s.Has d) (a : Draft) (p : FilePatch) :
    (filePatch s a.text p h).1.1.Has d ∧
      (filePatch s a.text p h).1.2.toOption = (visitFile d a p).2.map Draft.text := by
  unfold filePatch visitFile
  cases RulePlan.ofRules true p.rules with
  | error e => exact ⟨hs, rfl⟩
  | ok plans =>
    have hmap := Session.mapFor_eq (h := h) hs plans
    simp only [OnTree.bind_apply]
    rw [hmap]
    unfold lookupFor
    split
    · refine ⟨⟨hs.1, Or.inr rfl⟩, ?_⟩
      exact runRules_text p.file (some d) a plans
    · refine ⟨hs, ?_⟩
      exact runRules_text p.file none a plans

theorem filePatches_text : ∀ (files : List FilePatch) {s : Session OnTree} {h : TreeHost},
    s.Has d → ∀ a : Draft,
      (filePatches s a.text files h).1.1.Has d ∧
        (filePatches s a.text files h).1.2.toOption = (visitFiles d a files).2.map Draft.text
  | [], s, h, hs, a => ⟨hs, rfl⟩
  | p :: rest, s, h, hs, a => by
    have hhere := filePatch_text (h := h) hs a p
    rw [filePatches, visitFiles]
    simp only [OnTree.bind_apply]
    rcases hrun : filePatch s a.text p h with ⟨⟨s₁, r⟩, h₁⟩
    rcases hvisit : visitFile d a p with ⟨visits, last⟩
    rw [hrun, hvisit] at hhere
    cases r with
    | error e =>
      cases last with
      | none => exact ⟨hhere.1, rfl⟩
      | some b => cases hhere.2
    | ok t =>
      cases last with
      | none => cases hhere.2
      | some b =>
        obtain rfl : t = b.text := Option.some.inj hhere.2
        exact filePatches_text rest hhere.1 b

/-- **A run ends with the text of the draft that its visits leave.** -/
theorem descriptors_output : ∀ (ds : List Descriptor) {s : Session OnTree} {h : TreeHost}
    (index : Nat), s.Has d → ∀ a : Draft,
      (descriptors s a.text index ds h).1.1 = (visitAll d a ds).2.text
  | [], s, h, index, hs, a => rfl
  | desc :: rest, s, h, index, hs, a => by
    have hhere := filePatches_text (h := h) desc.files hs a
    rw [descriptors, visitAll]
    simp only [OnTree.bind_apply]
    rcases hrun : filePatches s a.text desc.files h with ⟨⟨s₁, r⟩, h₁⟩
    rcases hvisit : visitFiles d a desc.files with ⟨visits, last⟩
    rw [hrun, hvisit] at hhere
    cases r with
    | error e =>
      cases last with
      | none =>
        exact descriptors_output rest (index + 1) hhere.1 a
      | some b => cases hhere.2
    | ok t =>
      cases last with
      | none => cases hhere.2
      | some b =>
        obtain rfl : t = b.text := Option.some.inj hhere.2
        exact descriptors_output rest (index + 1) hhere.1 b

end

end Bundle

end TextPatch
