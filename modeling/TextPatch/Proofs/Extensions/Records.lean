/-
# The record of a manifest

What a run enters into the record of an extension, and what is found there later.

* A descriptor that is applied is entered behind all that has been entered before
  (`applied_record`), so trying descriptors never takes an entry away (`descriptors_recorded`).
* Writing a manifest and reading it again gives the same record (`applied_of_written`), because the
  record is made of strings only, and those come back as they were (`Json.alike_of_parse_pretty`).
-/
import TextPatch.Proofs.Extensions.Runs
import TextPatch.Proofs.Json.Answers

namespace TextPatch

/-! ## 1. Keys of an object -/

namespace Members

theorem contains_iff_mem_keys (key : String) : ∀ {m : Members},
    m.contains key = true ↔ key ∈ m.keys
  | [] => by simp [contains, get?, keys]
  | (k, v) :: m => by
    have ih := contains_iff_mem_keys key (m := m)
    unfold contains get? at ih ⊢
    rw [List.lookup_cons, keys, List.map_cons, List.mem_cons]
    cases hkey : key == k with
    | true => simp [eq_of_beq hkey]
    | false =>
      have hne : key ≠ k := by simpa using hkey
      simp only [hne, false_or]
      exact ih

end Members

namespace Manifest

variable {d d' : Manifest} {identity : String} {files : List String}

/-! ## 2. Recording -/

theorem stringItems_strings (files : List String) :
    stringItems (.array (files.map .string)) = files := by
  change (files.map Json.string).filterMap Json.string? = files
  rw [List.filterMap_map]
  exact List.filterMap_some

/-- The record after something has been recorded. -/
theorem recordMembers?_record (d : Manifest) (identity : String) (files : List String) :
    (d.record identity files).recordMembers? =
      some ((d.recordMembers?.getD []).insert identity (.array (files.map .string))) := by
  simp [record, recordMembers?, Json.members?]

theorem contains_iff {x : String} : d.contains x = true ↔ x ∈ d.applied.map Prod.fst := by
  unfold contains applied
  cases hrecord : d.recordMembers? with
  | none => simp
  | some m =>
    rw [List.map_map]
    exact Members.contains_iff_mem_keys x

/-- **What is recorded comes last**, behind all that has been recorded before. -/
theorem applied_record (h : d.contains identity = false) :
    (d.record identity files).applied = d.applied ++ [(identity, files)] := by
  have hnew : identity ∉ Members.keys (d.recordMembers?.getD []) := by
    rw [← Members.contains_iff_mem_keys]
    unfold contains at h
    cases hrecord : d.recordMembers? with
    | none => simp [Members.contains, Members.get?]
    | some m =>
      rw [hrecord] at h
      simpa using h
  unfold applied
  rw [recordMembers?_record, Option.getD_some, Json.insert_of_not_mem _ hnew, List.map_append]
  simp [stringItems_strings]

theorem applied_clear (d : Manifest) : d.clear.applied = [] := by
  unfold applied recordMembers? clear
  simp [Json.members?]

theorem mem_addNew {s : String} : ∀ {rest items : List String},
    s ∈ addNew items rest ↔ s ∈ items ∨ s ∈ rest
  | [], items => by simp [addNew]
  | u :: rest, items => by
    rw [addNew, mem_addNew, List.mem_cons]
    by_cases hu : items.contains u = true
    · rw [if_pos hu]
      have hmem : u ∈ items := by simpa using hu
      constructor
      · rintro (h | h)
        · exact Or.inl h
        · exact Or.inr (Or.inr h)
      · rintro (h | rfl | h)
        · exact Or.inl h
        · exact Or.inl hmem
        · exact Or.inr h
    · rw [if_neg hu, List.mem_append, List.mem_singleton, or_assoc]

/-- An identity is recorded as long as its entry is. -/
theorem contains_of_applied (h : ∀ x ∈ d.applied, x ∈ d'.applied) {x : String}
    (hx : d.contains x = true) : d'.contains x = true := by
  obtain ⟨y, hy, rfl⟩ := List.mem_map.mp (contains_iff.mp hx)
  exact contains_iff.mpr (List.mem_map_of_mem (h y hy))

/-- The files of the record are those of its entries. -/
theorem mem_appliedFiles {s : String} : s ∈ d.appliedFiles ↔ ∃ x ∈ d.applied, s ∈ x.2 := by
  rw [appliedFiles, mem_addNew, List.mem_flatMap]
  simp

/-! ## 3. Writing and reading again -/

/-- A manifest with each key once in each object. -/
def Distinct (d : Manifest) : Prop := Json.Distinct (.object d.members)

theorem distinct_of_ofText {path : Path} {text : String} (h : ofText path text = .ok d) :
    d.Distinct := by
  unfold ofText at h
  split at h
  · rename_i members hparse
    cases h
    exact Json.distinct_of_parse hparse
  · cases h
  · cases h

theorem distinct_strings : ∀ files : List String, Json.DistinctItems (files.map .string)
  | [] => trivial
  | _ :: files => ⟨trivial, distinct_strings files⟩

theorem distinct_get? {key : String} {v : Json} : ∀ {m : Members}, Json.DistinctValues m →
    m.get? key = some v → v.Distinct
  | [], _, h => by simp [Members.get?] at h
  | (k, w) :: m, hm, h => by
    unfold Members.get? at h
    rw [List.lookup_cons] at h
    cases hkey : key == k with
    | true =>
      rw [hkey] at h
      cases h
      exact hm.1
    | false =>
      rw [hkey] at h
      exact distinct_get? hm.2 h

theorem Distinct.record (h : d.Distinct) : (d.record identity files).Distinct := by
  have hold : Json.Distinct (.object (d.recordMembers?.getD [])) := by
    unfold recordMembers?
    cases hget : d.members.get? recordKey with
    | none => exact ⟨by simp [Members.keys], trivial⟩
    | some v =>
      have hv := distinct_get? h.2 hget
      cases v with
      | object m => exact hv
      | _ => exact ⟨by simp [Members.keys, Json.members?], trivial⟩
  have hentry : Json.Distinct (.array (files.map .string)) := distinct_strings files
  have hnew : Json.Distinct (.object ((d.recordMembers?.getD []).insert identity
      (.array (files.map .string)))) := Json.distinct_insert identity hentry hold.1 hold.2
  exact Json.distinct_insert recordKey hnew h.1 h.2

theorem Distinct.clear (h : d.Distinct) : d.clear.Distinct := by
  have hempty : Json.Distinct (.object []) := ⟨by simp [Members.keys], trivial⟩
  exact Json.distinct_insert recordKey hempty h.1 h.2

theorem map_stringItems : ∀ {ms ns : Members}, Json.AlikeMembers ms ns →
    ns.map (fun (identity, files) => (identity, stringItems files)) =
      ms.map fun (identity, files) => (identity, stringItems files)
  | [], [], _ => rfl
  | (k, v) :: ms, (_, w) :: ns, h => by
    obtain ⟨rfl, hvw, hrest⟩ := h
    have hitems : stringItems w = stringItems v := hvw.strings
    rw [List.map_cons, List.map_cons, map_stringItems hrest]
    simp only [hitems]
  | [], _ :: _, h => h.elim
  | _ :: _, [], h => h.elim

theorem applied_of_alike (h : Json.AlikeMembers d.members d'.members) :
    d'.applied = d.applied := by
  unfold applied recordMembers?
  rcases h.get?_cases recordKey with ⟨hd, hd'⟩ | ⟨v, w, hd, hd', hvw⟩
  · rw [hd, hd']
  · rw [hd, hd', Option.bind_some, Option.bind_some]
    rcases hvw.members?_cases with ⟨hv, hw⟩ | ⟨ms, ns, hv, hw, hmembers⟩
    · rw [hv, hw]
    · rw [hv, hw]
      exact map_stringItems hmembers

/-- **A manifest that has been written is read with the same record.** -/
theorem applied_of_written {path : Path} (hd : d.Distinct)
    (h : ofText path d.written = .ok d') : d'.applied = d.applied := by
  unfold ofText written at h
  rw [String.toList_ofList] at h
  split at h
  · rename_i members hparse
    cases h
    exact applied_of_alike (Json.alike_of_parse_pretty hd hparse)
  · cases h
  · cases h

end Manifest

/-! ## 4. Descriptors -/

namespace Apply

variable {e : Enclosure} {h h' : TreeHost}

/-- What the manifest at hand has become after some attempts. -/
structure Recorded (manifest manifest' : Manifest) (as : List Attempt) : Prop where
  path_eq : manifest'.path = manifest.path
  distinct : manifest.Distinct → manifest'.Distinct
  grows : ∀ x ∈ manifest.applied, x ∈ manifest'.applied
  unchanged : (∀ a ∈ as, a.outcome.isApplied = false) → manifest' = manifest
  entered : ∀ a ∈ as, ∀ target files, a.outcome.result = .ok (.applied target files) →
    (a.outcome.identity, files) ∈ manifest'.applied

/-- A descriptor that is applied is entered into the record. -/
theorem descriptor_recorded {id identity : String} {manifest manifest' : Manifest} {d : Descriptor}
    {r : Except ApplicationError PatchResult}
    (hrun : (descriptor e id identity manifest d : OnTree _) h = ((manifest', r), h')) :
    Recorded manifest manifest' [⟨e.root, d, ⟨identity, id, r⟩, h, h'⟩] := by
  rcases descriptor_cases hrun with ⟨-, rfl, rfl, -⟩ | ⟨hnew, r₁, h₁, -, -, hr⟩
  · exact ⟨rfl, fun hd => hd, fun x hx => hx, fun _ => rfl, by simp⟩
  · rcases hr with ⟨files, -, rfl, rfl⟩ | ⟨cause, -, rfl, rfl⟩
    · have happlied : (manifest.record identity files).applied =
          manifest.applied ++ [(identity, files)] := by
        refine Manifest.applied_record ?_
        simpa using fun hc => hnew (Or.inl hc)
      refine ⟨rfl, Manifest.Distinct.record, fun x hx => ?_, fun hnone => ?_,
        fun a ha target files' hr => ?_⟩
      · rw [happlied]
        exact List.mem_append_left _ hx
      · have hfalse := hnone _ (List.mem_singleton_self _)
        cases hfalse
      · obtain rfl := List.mem_singleton.mp ha
        cases hr
        rw [happlied]
        simp
    · exact ⟨rfl, fun hd => hd, fun x hx => hx, fun _ => rfl, by simp⟩

/-- **Descriptors that are applied are entered into the record**, and none is taken out of it. -/
theorem descriptors_recorded {id : String} {source : PatchSource} :
    ∀ {ds : List Descriptor} {manifest manifest' : Manifest} {h h' : TreeHost}
      {outcomes : List PatchOutcome},
      (descriptors e id source manifest ds : OnTree _) h = ((manifest', outcomes), h') →
        Recorded manifest manifest' (attempts e id source manifest h ds)
  | [], manifest, manifest', h, h', outcomes, hrun => by
    obtain ⟨hm, -⟩ := Prod.mk.inj hrun
    obtain ⟨rfl, -⟩ := Prod.mk.inj hm
    exact ⟨rfl, fun hd => hd, fun x hx => hx, fun _ => rfl, by simp [attempts]⟩
  | d :: rest, manifest, manifest', h, h', outcomes, hrun => by
    obtain ⟨manifest₁, r, h₁, outcomes₁, hd, hrest, -, hlog⟩ := descriptors_cons hrun
    have ih := descriptors_recorded hrest
    have hone := descriptor_recorded hd
    rw [hlog]
    refine ⟨ih.path_eq.trans hone.path_eq, fun hd => ih.distinct (hone.distinct hd),
      fun x hx => ih.grows x (hone.grows x hx), fun hnone => ?_, fun a ha target files hr => ?_⟩
    · rw [ih.unchanged fun a ha => hnone a (List.mem_cons_of_mem _ ha)]
      exact hone.unchanged fun a ha => hnone a (by simp [List.mem_singleton.mp ha])
    · rcases List.mem_cons.mp ha with rfl | ha
      · exact ih.grows _ (hone.entered _ (by simp) target files hr)
      · exact ih.entered a ha target files hr

end Apply

end TextPatch
