/-
# What later rules of a run look up

The source map belongs to the pristine text, but a rule hands the text that it meets to the lookup.
This file says exactly when a later rule still finds what the map means.  Take an identifier that
needles stand for in the pristine text, and a visit whose trail has not touched it, so that it is
still in the text, moved by the growth of the splices before it.  The lookup of the visit finds it
there if and only if

* it still has its line and its column, and
* no identifier character has come to stand right behind it.

`later_lookup_iff` is that statement over whole runs.  The first condition fails as soon as an edit
before the identifier changes the length of its line: then the run takes another name for it
(`moved_lookup_differs`).
-/
import TextPatch.Host.OnTree
import TextPatch.Proofs.Bundle.Visits
import TextPatch.Proofs.SourceMap.Identifiers

namespace TextPatch

open SourceMap (Document isIdentifierChar)
open SourceMap.Document (identifierAtPosition exists_place readIdentifier_eq_ok_iff place_finds_iff)

/-! ## 1. Identifiers in a text -/

/-- Whether no identifier character stands at byte `n` of a text. -/
def Text.EndsIdentifierAt (t : Text) (n : Nat) : Prop :=
  ∀ before c after, t.splitAt? n = some (before, c :: after) → isIdentifierChar c = false

theorem Text.endsIdentifierAt_append (u v : Text) :
    Text.EndsIdentifierAt (u ++ v) u.byteLength ↔
      ∀ c v', v = c :: v' → isIdentifierChar c = false := by
  unfold Text.EndsIdentifierAt
  rw [Text.splitAt?_append]
  constructor
  · rintro h c v' rfl
    exact h u c v' rfl
  · intro h before c after heq
    obtain ⟨-, rfl⟩ : u = before ∧ v = c :: after := by simpa using heq
    exact h c after rfl

/-- An identifier that is found at a position is a part of the text that starts there and consists
of identifier characters. -/
theorem exists_cut_of_identifierAtPosition {t : Text} {p : Position} {i : Identifier}
    (h : identifierAtPosition t p = .ok i) :
    ∃ u w v : Text, t = u ++ w ++ v ∧ i = ⟨u.byteLength, String.ofList w⟩ ∧ w ≠ [] ∧
      (∀ c ∈ w, isIdentifierChar c = true) ∧ Position.ofOffset t u.byteLength = p := by
  unfold identifierAtPosition at h
  split at h
  · cases h
  · rename_i n hn
    obtain ⟨hoffset, u, v, rfl, rfl, hname, hne⟩ := readIdentifier_eq_ok_iff.mp h
    refine ⟨u, v.takeWhile isIdentifierChar, v.dropWhile isIdentifierChar, ?_, ?_, hne, ?_, ?_⟩
    · rw [List.append_assoc, List.takeWhile_append_dropWhile]
    · cases i
      simp only at hoffset hname
      rw [hoffset, hname]
    · exact fun c hc => List.all_eq_true.mp List.all_takeWhile c hc
    · exact Position.ofOffset_of_offset? hn

/-- **When a lookup finds an identifier that a trail has moved.**  The trail spares it. -/
theorem moved_identifier_iff {d : Document} {hint : String} {pristine text : Text}
    {needles : List String} {i : Identifier} {tr : Trail}
    (hi : d.identifierAt hint pristine needles = .ok i) (htr : Trail.apply tr pristine = .ok text)
    (hs : Trail.Spares tr i.offset i.name.utf8ByteSize) :
    d.identifierAt hint text needles = .ok ⟨Trail.carry tr i.offset, i.name⟩ ↔
      Position.ofOffset text (Trail.carry tr i.offset) = Position.ofOffset pristine i.offset ∧
        text.EndsIdentifierAt (Trail.carry tr i.offset + i.name.utf8ByteSize) := by
  obtain ⟨p, hp⟩ := exists_place hi
  rw [hp] at hi ⊢
  obtain ⟨u, w, v, rfl, rfl, hw, hchars, hplace⟩ := exists_cut_of_identifierAtPosition hi
  simp only [Text.utf8ByteSize_ofList] at hs ⊢
  obtain ⟨u', v', rfl, hu'⟩ := Trail.apply_spared htr hw hs
  have hposition : Position.ofOffset (u' ++ w ++ v') u'.byteLength =
      Position.endOf Position.start u' := by
    rw [List.append_assoc, Position.ofOffset_append]
  have hbehind : Text.EndsIdentifierAt (u' ++ w ++ v') (u'.byteLength + w.byteLength) ↔
      ∀ c v'', v' = c :: v'' → isIdentifierChar c = false := by
    rw [← Text.byteLength_append]
    exact Text.endsIdentifierAt_append (u' ++ w) v'
  rw [← hu', hposition, hplace, hbehind]
  exact place_finds_iff hw hchars

/-! ## 2. Whole runs -/

namespace Bundle

/-- What a run over a script with the map `d` does with the needles of its rules: it ends with the
text of its last draft, and each visit whose trail has spared an identifier finds it exactly if the
identifier has kept its line and its column and ends where it did. -/
structure LooksUp (d : Document) (ds : List Descriptor) (r : BundleReport) : Prop where
  output_eq : r.output = (visitAll d ⟨r.pristine, []⟩ ds).2.text
  found_iff : ∀ v ∈ (visitAll d ⟨r.pristine, []⟩ ds).1, ∀ needles ∈ v.plan.lookups,
    ∀ i, d.identifierAt v.file r.pristine needles = .ok i →
      Trail.Spares v.draft.trail i.offset i.name.utf8ByteSize →
        ∃ lookup, v.lookup = some lookup ∧
          (lookup v.draft.text needles = .ok ⟨Trail.carry v.draft.trail i.offset, i.name⟩ ↔
            Position.ofOffset v.draft.text (Trail.carry v.draft.trail i.offset) =
                Position.ofOffset r.pristine i.offset ∧
              v.draft.text.EndsIdentifierAt
                (Trail.carry v.draft.trail i.offset + i.name.utf8ByteSize))

/-- A script that has been written is reported as it was handed over. -/
theorem eq_of_writeScript {script : Path} {r r' : BundleReport} {h h' : TreeHost}
    (hwrite : (writeScript script r : OnTree _) h = (.ok r', h')) : r' = r := by
  unfold writeScript at hwrite
  simp only [OnTree.bind_apply] at hwrite
  rcases hreplace : (Host.replace script (String.ofList r.output).toUTF8 : OnTree _) h with
    ⟨e | u, h₁⟩
  · rw [hreplace] at hwrite
    cases hwrite
  · rw [hreplace] at hwrite
    exact (Except.ok.inj (congrArg Prod.fst hwrite)).symm

/-- A run over a script reports the text that its descriptors leave. -/
theorem patchSet_output {script : Path} {s : PatchSet} {provider : SourceMap.Provider OnTree}
    {dryRun : Bool} {h h' : TreeHost} {r : BundleReport}
    (hrun : (patchSet script s provider dryRun : OnTree _) h = (.ok r, h')) :
    ∃ h₀, r.output =
      (descriptors ⟨script, r.pristine, provider, none⟩ r.pristine 0
        s.forBundledScript h₀).1.1 := by
  unfold patchSet at hrun
  simp only [OnTree.bind_apply] at hrun
  rcases hopen : (openScript script dryRun : OnTree _) h with ⟨e | pristine, h₁⟩
  · rw [hopen] at hrun
    cases hrun
  · rw [hopen] at hrun
    simp only [OnTree.bind_apply] at hrun
    refine ⟨h₁, ?_⟩
    cases dryRun with
    | true =>
      simp only [if_true, OnTree.pure_apply] at hrun
      obtain rfl := Except.ok.inj (congrArg Prod.fst hrun)
      rfl
    | false =>
      simp only [Bool.false_eq_true, if_false] at hrun
      rw [eq_of_writeScript hrun]

/-- **When the needles of a rule still mean the pristine script.**  For every run that comes to a
report, with a map that is there whenever it is asked for. -/
theorem later_lookup_iff {script : Path} {s : PatchSet} {provider : SourceMap.Provider OnTree}
    {dryRun : Bool} {d : Document} {h h' : TreeHost} {r : BundleReport}
    (hmap : Answers provider d)
    (hrun : (patchSet script s provider dryRun : OnTree _) h = (.ok r, h')) :
    LooksUp d s.forBundledScript r := by
  have hstart : Draft.From ⟨r.pristine, []⟩ r.pristine := rfl
  have hsound := (visitAll_sound d s.forBundledScript hstart).1
  constructor
  · obtain ⟨h₀, hout⟩ := patchSet_output hrun
    rw [hout]
    exact descriptors_output s.forBundledScript 0 ⟨hmap, Or.inl rfl⟩ ⟨r.pristine, []⟩
  · intro v hv needles hneedles i hi hspared
    have huses := RulePlan.usesSourceMap_of_mem_lookups hneedles
    exact ⟨d.lookup v.file, (hsound v hv).lookup_eq huses,
      moved_identifier_iff hi (hsound v hv).from_pristine hspared⟩

/-- A map by which `c` stands in column 3 of the first line of the script. -/
def cutMap : Document where
  sources := ["s.ts"]
  contents := [some "c"]
  mappings := [⟨0, 3, 0, 0, 0⟩]

/-- A set of two rules: the first one takes away the first character, the second one the first
character of the identifier that `c` stands for. -/
def cutSet : PatchSet where
  descriptors := [⟨.bundledScript true, [⟨"s.ts", none,
    [⟨.one "a", none, none, none, none, some ⟨0, 1⟩, none, none⟩,
      ⟨.one "\x7b\x7bc\x7d\x7d", none, none, none, none, some ⟨0, 1⟩, none, none⟩]⟩]⟩]

def cutHost : TreeHost := .ofTree ⟨[(["x.js"], .file "ab=cd".toUTF8)]⟩

theorem answers_cutMap : Answers (SourceMap.fixed (.ok cutMap)) cutMap := fun _ _ _ => rfl

theorem exists_patchSet_cutHost : ∃ r h',
    (patchSet ⟨"/x.js"⟩ cutSet (SourceMap.fixed (.ok cutMap)) true : OnTree _) cutHost =
      (.ok r, h') ∧ r.pristine = ['a', 'b', '=', 'c', 'd'] := by
  have hcheck : (match (patchSet ⟨"/x.js"⟩ cutSet (SourceMap.fixed (.ok cutMap)) true : OnTree _)
      cutHost with
      | (.ok r, _) => decide (r.pristine = ['a', 'b', '=', 'c', 'd'])
      | (.error _, _) => false) = true := by
    decide +kernel
  rcases hrun : (patchSet ⟨"/x.js"⟩ cutSet (SourceMap.fixed (.ok cutMap)) true : OnTree _) cutHost
    with ⟨r, h'⟩
  rw [hrun] at hcheck
  cases r with
  | error cause => cases hcheck
  | ok r => exact ⟨r, h', rfl, of_decide_eq_true hcheck⟩

theorem cutHost_looksUp : Answers (SourceMap.fixed (.ok cutMap)) cutMap ∧ ∃ r h',
    (patchSet ⟨"/x.js"⟩ cutSet (SourceMap.fixed (.ok cutMap)) true : OnTree _) cutHost =
      (.ok r, h') ∧ LooksUp cutMap cutSet.forBundledScript r := by
  obtain ⟨r, h', hrun, -⟩ := exists_patchSet_cutHost
  exact ⟨answers_cutMap, r, h', hrun, later_lookup_iff answers_cutMap hrun⟩

/-- **A later rule may find another identifier** than the one that the map means.  The first rule
shortens the line before `cd`; the second one then finds `d`. -/
theorem moved_lookup_differs :
    ¬ ∀ (script : Path) (s : PatchSet) (provider : SourceMap.Provider OnTree) (dryRun : Bool)
      (d : Document) (h h' : TreeHost) (r : BundleReport), Answers provider d →
      (patchSet script s provider dryRun : OnTree _) h = (.ok r, h') →
      ∀ v ∈ (visitAll d ⟨r.pristine, []⟩ s.forBundledScript).1, ∀ needles ∈ v.plan.lookups,
        ∀ i, d.identifierAt v.file r.pristine needles = .ok i →
          Trail.Spares v.draft.trail i.offset i.name.utf8ByteSize →
            ∃ lookup, v.lookup = some lookup ∧
              lookup v.draft.text needles = .ok ⟨Trail.carry v.draft.trail i.offset, i.name⟩ := by
  intro hclaim
  obtain ⟨r, h', hrun, hpristine⟩ := exists_patchSet_cutHost
  have hvisit := hclaim _ _ _ _ _ _ _ _ answers_cutMap hrun
  rw [hpristine] at hvisit
  generalize hvs : (visitAll cutMap ⟨['a', 'b', '=', 'c', 'd'], []⟩ cutSet.forBundledScript).1 = vs
    at hvisit
  have hsecond : vs[1]?.map (fun v => (v.file, v.plan.lookups, v.draft.text, v.draft.trail)) =
      some ("s.ts", [["c"]], ['b', '=', 'c', 'd'], [⟨0, 1, []⟩]) := by
    rw [← hvs]
    decide +kernel
  have hlookup : vs[1]?.bind (fun v => v.lookup.bind fun lookup =>
      (lookup ['b', '=', 'c', 'd'] ["c"]).toOption) = some ⟨3, "d"⟩ := by
    rw [← hvs]
    decide +kernel
  obtain ⟨v, hv, hparts⟩ := Option.map_eq_some_iff.mp hsecond
  obtain ⟨hfile, hneedles, htext, htrail⟩ : v.file = "s.ts" ∧ v.plan.lookups = [["c"]] ∧
      v.draft.text = ['b', '=', 'c', 'd'] ∧ v.draft.trail = [⟨0, 1, []⟩] := by
    simpa using hparts
  have hi : cutMap.identifierAt "s.ts" ['a', 'b', '=', 'c', 'd'] ["c"] = .ok ⟨3, "cd"⟩ :=
    eq_ok_of_toOption (by decide +kernel)
  obtain ⟨lookup, hv', hfound⟩ := hvisit v (List.mem_of_getElem? hv) ["c"] (by simp [hneedles])
    ⟨3, "cd"⟩ (by rw [hfile, hi]) (by rw [htrail]; decide +kernel)
  rw [htext] at hfound
  rw [hv, Option.bind_some, hv', Option.bind_some, hfound] at hlookup
  have hname : "cd" = "d" := congrArg Identifier.name (Option.some.inj hlookup)
  exact absurd hname (by decide)

end Bundle

end TextPatch
