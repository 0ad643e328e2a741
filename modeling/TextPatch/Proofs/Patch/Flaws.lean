/-
# What checking a patch set finds

A *flaw* of a patch set is something that is wrong at an address.  Addresses are paths through the
document: the number of a descriptor, then `0` for its target or `j + 1` for its file patch `j`, then
`0` for the name of the file or `k + 1` for its rule `k`, then `0` and `1` for the two ranges of the
rule and `2` for its search.  So the lexicographic order of the addresses is the order of the
document.

Flaws are told in that order, all of them and each once (`Tells`, `PatchSet.tells_issues`).  What is
told of a part is put together from what is told of its own parts, which have longer addresses
(`Tells.numbered`); there is one such step for each kind of part.
-/
import TextPatch.Patch.Validation

namespace TextPatch

/-! ## 1. Telling in order -/

/-- Issues that tell of all flaws in the order of their addresses, once of each. -/
def Tells (flaw : List Nat → ValidationIssue → Prop) (issues : List ValidationIssue) : Prop :=
  ∃ told : List (List Nat × ValidationIssue), told.Pairwise (fun x y => x.1 < y.1) ∧
    (∀ address issue, (address, issue) ∈ told ↔ flaw address issue) ∧ issues = told.map Prod.snd

namespace Tells

variable {flaw flaw' : List Nat → ValidationIssue → Prop} {issues issues' : List ValidationIssue}

theorem congr (h : Tells flaw issues)
    (hiff : ∀ address issue, flaw address issue ↔ flaw' address issue) : Tells flaw' issues := by
  obtain ⟨told, hordered, hmem, rfl⟩ := h
  exact ⟨told, hordered, fun a i => (hmem a i).trans (hiff a i), rfl⟩

theorem nothing (h : ∀ address issue, ¬ flaw address issue) : Tells flaw [] :=
  ⟨[], List.Pairwise.nil, fun a i => by simp [h a i], rfl⟩

theorem one (address : List Nat) (issue : ValidationIssue) :
    Tells (fun a i => a = address ∧ i = issue) [issue] :=
  ⟨[(address, issue)], List.pairwise_singleton _ _, fun a i => by simp, rfl⟩

/-- Flaws with smaller addresses are told first. -/
theorem append (h : Tells flaw issues) (h' : Tells flaw' issues')
    (hlt : ∀ a i a' i', flaw a i → flaw' a' i' → a < a') :
    Tells (fun a i => flaw a i ∨ flaw' a i) (issues ++ issues') := by
  obtain ⟨told, hordered, hmem, rfl⟩ := h
  obtain ⟨told', hordered', hmem', rfl⟩ := h'
  refine ⟨told ++ told', List.pairwise_append.mpr ⟨hordered, hordered', ?_⟩, fun a i => ?_, ?_⟩
  · intro x hx y hy
    exact hlt x.1 x.2 y.1 y.2 ((hmem x.1 x.2).mp hx) ((hmem' y.1 y.2).mp hy)
  · rw [List.mem_append, hmem, hmem']
  · rw [List.map_append]

/-- The flaws of a part have its number before their addresses. -/
theorem below (n : Nat) (h : Tells flaw issues) :
    Tells (fun a i => ∃ b, a = n :: b ∧ flaw b i) issues := by
  obtain ⟨told, hordered, hmem, rfl⟩ := h
  refine ⟨told.map fun x => (n :: x.1, x.2), ?_, fun a i => ?_, by simp⟩
  · rw [List.pairwise_map]
    refine hordered.imp fun {x y} hlt => ?_
    exact List.cons_lt_cons_iff.mpr (Or.inr ⟨rfl, hlt⟩)
  · constructor
    · intro h
      obtain ⟨x, hx, heq⟩ := List.mem_map.mp h
      obtain ⟨rfl, rfl⟩ := Prod.mk.inj heq
      exact ⟨x.1, rfl, (hmem x.1 x.2).mp hx⟩
    · rintro ⟨b, rfl, hb⟩
      exact List.mem_map.mpr ⟨(b, i), (hmem b i).mpr hb, rfl⟩

/-- **The parts of a list are told of one after the other**, the first one with the number `n`. -/
theorem numbered {α : Type} {flaws : Nat → α → List Nat → ValidationIssue → Prop}
    {found : Nat → α → List ValidationIssue} (h : ∀ k x, Tells (flaws k x) (found k x)) (n : Nat) :
    ∀ xs : List α, Tells (fun a i => ∃ k x b, xs[k]? = some x ∧ a = (n + k) :: b ∧ flaws k x b i)
      (xs.mapIdx found).flatten := by
  intro xs
  induction xs generalizing n flaws found with
  | nil => exact nothing (by simp)
  | cons x xs ih =>
    have hrest := ih (fun k => h (k + 1)) (n + 1)
    have hboth := append (below n (h 0 x)) hrest fun a i a' i' hfirst hlater => by
      obtain ⟨b, rfl, -⟩ := hfirst
      obtain ⟨k, y, b', -, rfl, -⟩ := hlater
      exact List.cons_lt_cons_iff.mpr (Or.inl (by omega))
    rw [List.mapIdx_cons, List.flatten_cons]
    refine hboth.congr fun a i => ?_
    constructor
    · rintro (⟨b, rfl, hb⟩ | ⟨k, y, b, hy, rfl, hb⟩)
      · exact ⟨0, x, b, rfl, rfl, hb⟩
      · exact ⟨k + 1, y, b, hy, by rw [Nat.add_assoc, Nat.add_comm 1 k], hb⟩
    · rintro ⟨k, y, b, hy, rfl, hb⟩
      cases k with
      | zero =>
        obtain rfl : x = y := Option.some.inj hy
        exact Or.inl ⟨b, rfl, hb⟩
      | succ k => exact Or.inr ⟨k, y, b, hy, by rw [Nat.add_assoc, Nat.add_comm 1 k], hb⟩

/-- Nothing is told exactly if there are no flaws. -/
theorem eq_nil_iff (h : Tells flaw issues) : issues = [] ↔ ∀ a i, ¬ flaw a i := by
  obtain ⟨told, -, hmem, rfl⟩ := h
  rw [List.map_eq_nil_iff, List.eq_nil_iff_forall_not_mem]
  constructor
  · intro hnone a i hflaw
    exact hnone (a, i) ((hmem a i).mpr hflaw)
  · intro hnone x hx
    exact hnone x.1 x.2 ((hmem x.1 x.2).mp hx)

end Tells

/-! ## 2. Flaws -/

/-- What is wrong with a rule, and how it is told. -/
inductive EditRule.Flaw (patch file : String) (index : Nat) (sourceMapped : Bool) (r : EditRule) :
    List Nat → ValidationIssue → Prop
  /-- The range from the start of the match ends before it starts. -/
  | removeRange {range : OffsetRange} (hrange : r.removeRange = some range)
      (hinverted : range.stop < range.start) :
      Flaw patch file index sourceMapped r [0] (.invalidRule patch file index
        ("removeRange" ++ s!" start {range.start.toInt} is after end {range.stop.toInt}"))
  /-- The range from the end of the match does. -/
  | removeRangeAfter {range : OffsetRange} (hrange : r.removeRangeAfter = some range)
      (hinverted : range.stop < range.start) :
      Flaw patch file index sourceMapped r [1] (.invalidRule patch file index
        ("removeRangeAfter" ++ s!" start {range.start.toInt} is after end {range.stop.toInt}"))
  /-- The search is not valid. -/
  | search {cause : NeedleError} (hcause : RulePlan.ofRule r sourceMapped = .error cause) :
      Flaw patch file index sourceMapped r [2] (.invalidRule patch file index cause.message)

/-- What is wrong with a file patch. -/
inductive FilePatch.Flaw (patch : String) (sourceMapped : Bool) (p : FilePatch) :
    List Nat → ValidationIssue → Prop
  /-- The name of the file is blank. -/
  | name (hblank : ∀ c ∈ p.file.toList, Text.isBlank c = true) :
      Flaw patch sourceMapped p [0] (.missingField patch "patches.file")
  | rule {k : Nat} {r : EditRule} {address : List Nat} {issue : ValidationIssue}
      (hr : p.rules[k]? = some r) (hflaw : r.Flaw patch p.file k sourceMapped address issue) :
      Flaw patch sourceMapped p ((k + 1) :: address) issue

/-- What is wrong with a target, and how it is told. -/
inductive Target.Flaw (patch : String) : Target → ValidationIssue → Prop
  /-- No extension is named, or one with a blank name. -/
  | extension {ids : ExtensionIds}
      (hbad : ids.ids = [] ∨ ∃ id ∈ ids.ids, ∀ c ∈ id.toList, Text.isBlank c = true) :
      Flaw patch (.extensions ids) (.missingField patch "target.extension")
  /-- The bundled script is switched off. -/
  | disabled : Flaw patch (.bundledScript false)
      (.invalidTarget patch "workbenchJs target must be true")

/-- What is wrong with a descriptor. -/
inductive Descriptor.Flaw (index : Nat) (d : Descriptor) : List Nat → ValidationIssue → Prop
  | target {issue : ValidationIssue} (hflaw : d.target.Flaw (d.label index) issue) :
      Flaw index d [0] issue
  | file {j : Nat} {p : FilePatch} {address : List Nat} {issue : ValidationIssue}
      (hp : d.files[j]? = some p)
      (hflaw : p.Flaw (d.label index) d.target.isBundledScript address issue) :
      Flaw index d ((j + 1) :: address) issue

/-- What is wrong with a set. -/
inductive PatchSet.Flaw (s : PatchSet) : List Nat → ValidationIssue → Prop
  | descriptor {i : Nat} {d : Descriptor} {address : List Nat} {issue : ValidationIssue}
      (hd : s.descriptors[i]? = some d) (hflaw : d.Flaw i address issue) :
      Flaw s (i :: address) issue

/-! ## 3. Issues -/

theorem isBlankName_iff {s : String} :
    isBlankName s = true ↔ ∀ c ∈ s.toList, Text.isBlank c = true := List.all_eq_true

section

variable (patch file : String) (index : Nat) (sourceMapped : Bool)

/-- An inverted range is told of by its name. -/
theorem OffsetRange.tells_issues (name : String) (range? : Option OffsetRange) :
    Tells (fun a i => a = [] ∧ ∃ range, range? = some range ∧ range.stop < range.start ∧
        i = .invalidRule patch file index
          (name ++ s!" start {range.start.toInt} is after end {range.stop.toInt}"))
      (OffsetRange.issues patch file index name range?) := by
  unfold OffsetRange.issues
  cases range? with
  | none => exact .nothing (by simp)
  | some range =>
    simp only
    split
    · rename_i hinverted
      refine (Tells.one [] _).congr fun a i => ?_
      simp [hinverted]
    · rename_i hordered
      exact .nothing (by simp [hordered])

theorem EditRule.tells_search (r : EditRule) :
    Tells (fun a i => a = [] ∧ ∃ cause, RulePlan.ofRule r sourceMapped = .error cause ∧
        i = .invalidRule patch file index cause.message)
      (match RulePlan.ofRule r sourceMapped with
        | .ok _ => []
        | .error e => [.invalidRule patch file index e.message]) := by
  cases RulePlan.ofRule r sourceMapped with
  | ok p => exact .nothing (by simp)
  | error cause =>
    refine (Tells.one [] _).congr fun a i => ?_
    simp

theorem EditRule.tells_issues (r : EditRule) :
    Tells (r.Flaw patch file index sourceMapped)
      (r.issues patch file index sourceMapped) := by
  have hrange := (OffsetRange.tells_issues patch file index "removeRange" r.removeRange).below 0
  have hafter :=
    (OffsetRange.tells_issues patch file index "removeRangeAfter" r.removeRangeAfter).below 1
  have hsearch := (r.tells_search patch file index sourceMapped).below 2
  have hboth := hrange.append hafter fun a i a' i' hfirst hlater => by
    obtain ⟨b, rfl, -⟩ := hfirst
    obtain ⟨b', rfl, -⟩ := hlater
    exact List.cons_lt_cons_iff.mpr (Or.inl (by omega))
  have hall := hboth.append hsearch fun a i a' i' hfirst hlater => by
    obtain ⟨b', rfl, -⟩ := hlater
    rcases hfirst with ⟨b, rfl, -⟩ | ⟨b, rfl, -⟩
    · exact List.cons_lt_cons_iff.mpr (Or.inl (by omega))
    · exact List.cons_lt_cons_iff.mpr (Or.inl (by omega))
  refine hall.congr fun a i => ?_
  constructor
  · rintro ((⟨b, rfl, rfl, range, hr, hinverted, rfl⟩ | ⟨b, rfl, rfl, range, hr, hinverted, rfl⟩) |
      ⟨b, rfl, rfl, cause, hcause, rfl⟩)
    · exact .removeRange hr hinverted
    · exact .removeRangeAfter hr hinverted
    · exact .search hcause
  · intro h
    cases h with
    | removeRange hr hinverted => exact Or.inl (Or.inl ⟨[], rfl, rfl, _, hr, hinverted, rfl⟩)
    | removeRangeAfter hr hinverted => exact Or.inl (Or.inr ⟨[], rfl, rfl, _, hr, hinverted, rfl⟩)
    | search hcause => exact Or.inr ⟨[], rfl, rfl, _, hcause, rfl⟩

theorem FilePatch.tells_issues (p : FilePatch) :
    Tells (p.Flaw patch sourceMapped) (p.issues patch sourceMapped) := by
  have hname : Tells (fun a i => a = [] ∧ isBlankName p.file = true ∧
      i = .missingField patch "patches.file")
      (if isBlankName p.file then [.missingField patch "patches.file"] else []) := by
    split
    · rename_i hblank
      refine (Tells.one [] _).congr fun a i => ?_
      simp [hblank]
    · rename_i hname
      exact .nothing (by simp [hname])
  have hrules := Tells.numbered
    (fun k (r : EditRule) => r.tells_issues patch p.file k sourceMapped) 1 p.rules
  have hall := (hname.below 0).append hrules fun a i a' i' hfirst hlater => by
    obtain ⟨b, rfl, -⟩ := hfirst
    obtain ⟨k, r, b', -, rfl, -⟩ := hlater
    exact List.cons_lt_cons_iff.mpr (Or.inl (by omega))
  refine hall.congr fun a i => ?_
  constructor
  · rintro (⟨b, rfl, rfl, hblank, rfl⟩ | ⟨k, r, b, hr, rfl, hflaw⟩)
    · exact .name (isBlankName_iff.mp hblank)
    · rw [Nat.add_comm]
      exact .rule hr hflaw
  · intro h
    cases h with
    | name hblank => exact Or.inl ⟨[], rfl, rfl, isBlankName_iff.mpr hblank, rfl⟩
    | @rule k r address issue hr hflaw =>
      exact Or.inr ⟨k, r, address, hr, by rw [Nat.add_comm], hflaw⟩

theorem Target.tells_issues (t : Target) :
    Tells (fun a i => a = [] ∧ t.Flaw patch i) (t.issues patch) := by
  cases t with
  | extensions ids =>
    have hbad : (ids.ids.isEmpty || ids.ids.any isBlankName) = true ↔
        ids.ids = [] ∨ ∃ id ∈ ids.ids, ∀ c ∈ id.toList, Text.isBlank c = true := by
      simp only [Bool.or_eq_true, List.isEmpty_iff, List.any_eq_true, isBlankName_iff]
    change Tells _ (if (ids.ids.isEmpty || ids.ids.any isBlankName) = true then _ else _)
    split
    · rename_i h
      refine (Tells.one [] _).congr fun a i => and_congr_right fun _ => ?_
      constructor
      · rintro rfl
        exact .extension (hbad.mp h)
      · rintro ⟨-⟩
        rfl
    · rename_i h
      refine .nothing fun a i hflaw => ?_
      obtain ⟨-, ⟨hids⟩⟩ := hflaw
      exact h (hbad.mpr hids)
  | bundledScript enabled =>
    cases enabled with
    | true =>
      refine .nothing fun a i hflaw => ?_
      obtain ⟨-, hflaw⟩ := hflaw
      cases hflaw
    | false =>
      refine (Tells.one [] _).congr fun a i => and_congr_right fun _ => ?_
      constructor
      · rintro rfl
        exact .disabled
      · rintro ⟨-⟩
        rfl

end

theorem Descriptor.tells_issues (index : Nat) (d : Descriptor) :
    Tells (d.Flaw index) (d.issues index) := by
  have hfiles := Tells.numbered
    (fun _ (p : FilePatch) => p.tells_issues (d.label index) d.target.isBundledScript) 1 d.files
  have hall := ((d.target.tells_issues (d.label index)).below 0).append hfiles
    fun a i a' i' hfirst hlater => by
      obtain ⟨b, rfl, -⟩ := hfirst
      obtain ⟨k, r, b', -, rfl, -⟩ := hlater
      exact List.cons_lt_cons_iff.mpr (Or.inl (by omega))
  have hissues : d.issues index = d.target.issues (d.label index) ++
      (d.files.mapIdx fun _ p => p.issues (d.label index) d.target.isBundledScript).flatten := by
    rw [Descriptor.issues, List.flatMap_def]
    congr 2
    apply List.ext_getElem <;> simp
  rw [hissues]
  refine hall.congr fun a i => ?_
  constructor
  · rintro (⟨b, rfl, rfl, hflaw⟩ | ⟨j, p, b, hp, rfl, hflaw⟩)
    · exact .target hflaw
    · rw [Nat.add_comm]
      exact .file hp hflaw
  · intro h
    cases h with
    | target hflaw => exact Or.inl ⟨[], rfl, rfl, hflaw⟩
    | @file j p address issue hp hflaw =>
      exact Or.inr ⟨j, p, address, hp, by rw [Nat.add_comm], hflaw⟩

/-- **Checking a set tells of all its flaws** in the order of the document, once of each. -/
theorem PatchSet.tells_issues (s : PatchSet) : Tells s.Flaw s.issues := by
  refine (Tells.numbered (fun i (d : Descriptor) => d.tells_issues i) 0 s.descriptors).congr
    fun a i => ?_
  constructor
  · rintro ⟨k, d, b, hd, rfl, hflaw⟩
    rw [Nat.zero_add]
    exact .descriptor hd hflaw
  · rintro ⟨hd, hflaw⟩
    exact ⟨_, _, _, hd, by rw [Nat.zero_add], hflaw⟩

end TextPatch
