/-
# Groups of descriptors

A descriptor may name several extensions, and the same one more than once.  `PatchSet.mentions` is
the flat list of these mentions, in the order of the document.  Grouping gives each extension that
is named one group, in the order of the first mentions, with the descriptors that mention it, in the
order of the document and once for each mention (`PatchSet.groups_eq`).

What a run reports belongs to the groups one by one (`Apply.Reported`): all that is reported of an
extension is what its own group has reported, on the host that the run has come to it with.
-/
import Mathlib.Data.List.Basic
import Mathlib.Data.List.Induction
import TextPatch.Proofs.Extensions.Passes

namespace TextPatch

/-! ## 1. Mentions -/

namespace PatchSet

/-- The mentions of extensions, each with the descriptor that mentions it. -/
def mentions (s : PatchSet) : List (String × Descriptor) :=
  s.forExtensions.flatMap fun d => d.target.extensionIds.map fun id => (id, d)

/-- The extensions that are mentioned, in the order of their first mention. -/
def named (s : PatchSet) : List String := (s.mentions.map Prod.fst).eraseDups

/-- The descriptors that mention an extension, once for each mention. -/
def naming (s : PatchSet) (id : String) : List Descriptor :=
  (s.mentions.filter fun m => m.1 = id).map Prod.snd

/-- What is mentioned are the extensions of the targets, one after the other. -/
theorem map_fst_mentions (s : PatchSet) :
    s.mentions.map Prod.fst = s.forExtensions.flatMap fun d => d.target.extensionIds := by
  rw [mentions, List.map_flatMap]
  simp [Function.comp_def]

/-- There is a descriptor for each time that an extension is mentioned. -/
theorem length_naming (s : PatchSet) (id : String) :
    (s.naming id).length = (s.forExtensions.flatMap fun d => d.target.extensionIds).count id := by
  rw [naming, List.length_map, ← map_fst_mentions, List.count, List.countP_map,
    List.countP_eq_length_filter]
  rfl

theorem mem_forExtensions_of_mem_naming {s : PatchSet} {id : String} {d : Descriptor}
    (hd : d ∈ s.naming id) : d ∈ s.forExtensions := by
  obtain ⟨m, hm, rfl⟩ := List.mem_map.mp hd
  obtain ⟨d, hmem, hmap⟩ := List.mem_flatMap.mp (List.mem_filter.mp hm).1
  obtain ⟨id, -, rfl⟩ := List.mem_map.mp hmap
  exact hmem

end PatchSet

/-! ## 2. Grouping -/

/-- A new element comes last among those that are each listed once. -/
theorem eraseDups_concat (as : List String) (a : String) :
    (as ++ [a]).eraseDups = if a ∈ as then as.eraseDups else as.eraseDups ++ [a] := by
  rw [List.eraseDups_append, List.removeAll]
  by_cases ha : a ∈ as
  · simp [ha]
  · simp [ha, List.eraseDups_cons]

theorem nodup_eraseDups (as : List String) : as.eraseDups.Nodup := by
  induction as using List.reverseRecOn with
  | nil => simp
  | append_singleton as a ih =>
    rw [eraseDups_concat]
    split
    · exact ih
    · rename_i ha
      refine List.nodup_append.mpr ⟨ih, by simp, fun x hx y hy => ?_⟩
      rintro rfl
      exact ha (List.mem_eraseDups.mp (List.mem_singleton.mp hy ▸ hx))

/-- A descriptor is added behind those of its group, or to a group of its own behind the others. -/
theorem addToGroup_map (d : Descriptor) (id : String) (f : String → List Descriptor) :
    ∀ {ids : List String}, ids.Nodup → addToGroup d id (ids.map fun k => (k, f k)) =
      if id ∈ ids then ids.map fun k => (k, if k = id then f k ++ [d] else f k)
      else ids.map (fun k => (k, f k)) ++ [(id, [d])]
  | [], _ => by simp [addToGroup]
  | k :: ids, hids => by
    obtain ⟨hk, hids⟩ := List.nodup_cons.mp hids
    rw [List.map_cons, addToGroup]
    by_cases hid : k = id
    · subst hid
      have hothers : ids.map (fun k' => (k', if k' = k then f k' ++ [d] else f k')) =
          ids.map fun k' => (k', f k') := by
        refine List.map_congr_left fun k' hk' => ?_
        rw [if_neg (fun h : k' = k => hk (h ▸ hk'))]
      simp [hothers]
    · rw [if_neg hid, addToGroup_map d id f hids]
      by_cases hmem : id ∈ ids
      · simp [hmem, hid]
      · simp [hmem, Ne.symm hid]

/-- The groups of some mentions. -/
def groupsOf (ms : List (String × Descriptor)) : List (String × List Descriptor) :=
  ms.foldl (fun groups m => addToGroup m.2 m.1 groups) []

theorem groupsOf_eq (ms : List (String × Descriptor)) :
    groupsOf ms = (ms.map Prod.fst).eraseDups.map fun id =>
      (id, (ms.filter fun m => m.1 = id).map Prod.snd) := by
  induction ms using List.reverseRecOn with
  | nil => simp [groupsOf]
  | append_singleton ms m ih =>
    obtain ⟨id, d⟩ := m
    have hstep : groupsOf (ms ++ [(id, d)]) = addToGroup d id (groupsOf ms) := by
      simp [groupsOf]
    rw [hstep, ih, addToGroup_map d id _ (nodup_eraseDups _), List.map_append, List.map_singleton,
      eraseDups_concat]
    have hfilter : ∀ k, ((ms ++ [(id, d)]).filter fun m => m.1 = k).map Prod.snd =
        if k = id then (ms.filter fun m => m.1 = k).map Prod.snd ++ [d]
        else (ms.filter fun m => m.1 = k).map Prod.snd := by
      intro k
      by_cases hk : k = id
      · subst hk
        simp
      · simp [hk, Ne.symm hk]
    simp only [hfilter, List.mem_eraseDups]
    by_cases hmem : id ∈ ms.map Prod.fst
    · rw [if_pos hmem, if_pos hmem]
    · rw [if_neg hmem, if_neg hmem, List.map_append, List.map_singleton]
      have hnone : (ms.filter fun m => m.1 = id) = [] := by
        refine List.filter_eq_nil_iff.mpr fun m hm => ?_
        simpa using fun h : m.1 = id => hmem (h ▸ List.mem_map_of_mem hm)
      congr 1
      · refine List.map_congr_left fun k hk => ?_
        rw [if_neg (fun h : k = id => hmem (h ▸ List.mem_eraseDups.mp hk))]
      · simp [hnone]

/-- **Each extension that is mentioned has one group**, with the descriptors that mention it. -/
theorem PatchSet.groups_eq (s : PatchSet) :
    s.groups = s.named.map fun id => (id, s.naming id) := by
  have hflat : s.groups = groupsOf s.mentions := by
    rw [groups, groupsOf, mentions, List.foldl_flatMap]
    simp only [List.foldl_map]
  rw [hflat, groupsOf_eq]
  rfl

theorem PatchSet.nodup_named (s : PatchSet) : s.named.Nodup := nodup_eraseDups _

/-! ## 3. Reports -/

namespace ApplyReport

/-- What is reported of the descriptors that mention an extension. -/
def outcomesOf (r : ApplyReport) (id : String) : List PatchOutcome :=
  r.outcomes.filter fun o => o.target = id

/-- The failures of an extension as a whole. -/
def errorsOf (r : ApplyReport) (id : String) : List ApplicationError :=
  (r.targetErrors.filter fun e => e.1 = id).map Prod.snd

/-- A report in which all is about one extension. -/
structure IsOf (r : ApplyReport) (id : String) : Prop where
  outcomes : ∀ o ∈ r.outcomes, o.target = id
  errors : ∀ e ∈ r.targetErrors, e.1 = id

variable {a b r : ApplyReport} {id k : String}

@[simp] theorem outcomesOf_merge : (a.merge b).outcomesOf id = a.outcomesOf id ++ b.outcomesOf id :=
  List.filter_append ..

@[simp] theorem errorsOf_merge : (a.merge b).errorsOf id = a.errorsOf id ++ b.errorsOf id := by
  rw [errorsOf, merge, List.filter_append, List.map_append]
  rfl

theorem IsOf.outcomesOf_self (h : r.IsOf id) : r.outcomesOf id = r.outcomes :=
  List.filter_eq_self.mpr fun o ho => by simp [h.outcomes o ho]

theorem IsOf.errorsOf_self (h : r.IsOf id) : r.errorsOf id = r.targetErrors.map Prod.snd := by
  rw [errorsOf, List.filter_eq_self.mpr fun e he => by simp [h.errors e he]]

theorem IsOf.outcomesOf_ne (h : r.IsOf id) (hne : k ≠ id) : r.outcomesOf k = [] :=
  List.filter_eq_nil_iff.mpr fun o ho => by simp [h.outcomes o ho, Ne.symm hne]

theorem IsOf.errorsOf_ne (h : r.IsOf id) (hne : k ≠ id) : r.errorsOf k = [] := by
  rw [errorsOf, List.filter_eq_nil_iff.mpr fun e he => by simp [h.errors e he, Ne.symm hne],
    List.map_nil]

theorem IsOf.targetErrors_eq (h : r.IsOf id) :
    r.targetErrors = (r.errorsOf id).map fun cause => (id, cause) := by
  rw [h.errorsOf_self, List.map_map]
  refine (List.map_id _).symm.trans (List.map_congr_left fun e he => ?_)
  rw [← h.errors e he]
  rfl

/-- A report that goes through extensions one by one, and tells nothing else. -/
structure InOrder (r : ApplyReport) (ids : List String) : Prop where
  outcomes : r.outcomes = ids.flatMap r.outcomesOf
  errors : r.targetErrors = ids.flatMap fun id => (r.errorsOf id).map fun cause => (id, cause)

theorem InOrder.cons_merge {ids : List String} (hb : b.InOrder ids) (ha : a.IsOf id)
    (hid : id ∉ ids) (houtcomes : b.outcomesOf id = []) (herrors : b.errorsOf id = []) :
    (a.merge b).InOrder (id :: ids) := by
  have hne : ∀ k ∈ ids, k ≠ id := fun k hk heq => hid (heq ▸ hk)
  constructor
  · have hlater : ids.flatMap (a.merge b).outcomesOf = b.outcomes := by
      refine (List.flatMap_congr fun k hk => ?_).trans hb.outcomes.symm
      rw [outcomesOf_merge, ha.outcomesOf_ne (hne k hk), List.nil_append]
    rw [List.flatMap_cons, hlater, outcomesOf_merge, ha.outcomesOf_self, houtcomes, List.append_nil]
    rfl
  · have hlater : ids.flatMap (fun k => ((a.merge b).errorsOf k).map fun cause => (k, cause)) =
        b.targetErrors := by
      refine (List.flatMap_congr fun k hk => ?_).trans hb.errors.symm
      rw [errorsOf_merge, ha.errorsOf_ne (hne k hk), List.nil_append]
    rw [List.flatMap_cons, hlater, errorsOf_merge, herrors, List.append_nil, ← ha.targetErrors_eq]
    rfl

end ApplyReport

namespace Apply

variable (find : String → Option InstalledExtension) (source : PatchSource)

/-- Groups are tried one after the other. -/
theorem groups_cons_apply (id : String) (ds : List Descriptor)
    (rest : List (String × List Descriptor)) (h : TreeHost) :
    (groups find source ((id, ds) :: rest) : OnTree _) h =
      let first := (group find source id ds : OnTree _) h
      let others := (groups find source rest : OnTree _) first.2
      (first.1.merge others.1, others.2) := rfl

/-- **Every way in which the report on a group can come about.**  An extension that is not installed
or cannot be opened is reported as such; the descriptors are tried on another one. -/
theorem group_apply (id : String) (ds : List Descriptor) (h : TreeHost) :
    (find id = none ∧ ((group find source id ds : OnTree _) h).1 = notInstalled id source ds) ∨
      ∃ x, find id = some x ∧
        ((∃ cause, ((openTarget x.root : OnTree _) h).1 = .error cause ∧
            ((group find source id ds : OnTree _) h).1 = ⟨[], [(id, cause)], false⟩) ∨
          ∃ e manifest, ((openTarget x.root : OnTree _) h).1 = .ok (e, manifest) ∧
            (group find source id ds : OnTree _) h =
              (openedTarget e manifest id x.isActive source ds : OnTree _) h) := by
  unfold group
  cases hfind : find id with
  | none => exact Or.inl ⟨rfl, rfl⟩
  | some x =>
    refine Or.inr ⟨x, rfl, ?_⟩
    simp only
    unfold target
    rw [OnTree.bind_apply]
    rcases hopen : (openTarget x.root : OnTree _) h with ⟨r, h₁⟩
    obtain ⟨rfl, -⟩ := openTarget_apply hopen
    cases r with
    | error cause => exact Or.inl ⟨cause, rfl, rfl⟩
    | ok opened => exact Or.inr ⟨opened.1, opened.2, rfl, rfl⟩

theorem isOf_group (id : String) (ds : List Descriptor) (h : TreeHost) :
    ((group find source id ds : OnTree _) h).1.IsOf id := by
  rcases group_apply find source id ds h with
    ⟨-, hreport⟩ | ⟨x, -, ⟨cause, -, hreport⟩ | ⟨e, manifest, -, hrun⟩⟩
  · rw [hreport]
    refine ⟨fun o ho => ?_, by simp [notInstalled]⟩
    obtain ⟨d, -, rfl⟩ := List.mem_map.mp ho
    rfl
  · rw [hreport]
    exact ⟨by simp, by simp⟩
  · rw [hrun]
    rcases hopened : (openedTarget e manifest id x.isActive source ds : OnTree _) h with
      ⟨report, h'⟩
    obtain ⟨manifest₁, outcomes, h₁, htrial, rfl, hend⟩ := openedTarget_cases hopened
    refine ⟨fun o ho => ?_, fun err herr => ?_⟩
    · rw [← outcome_attempts htrial] at ho
      obtain ⟨a, ha, rfl⟩ := List.mem_map.mp ho
      exact (root_of_mem_attempts ha).2
    · rcases hend with ⟨-, -, hnone⟩ | ⟨-, r, h₂, -, -, ⟨-, hnone⟩ | ⟨cause, -, hone⟩⟩
      · simp [hnone] at herr
      · simp [hnone] at herr
      · rw [hone] at herr
        rw [List.mem_singleton.mp herr]

/-- Nothing is reported of an extension that has no group. -/
theorem groups_none {id : String} : ∀ {gs : List (String × List Descriptor)} (h : TreeHost),
    id ∉ gs.map Prod.fst → ((groups find source gs : OnTree _) h).1.outcomesOf id = [] ∧
      ((groups find source gs : OnTree _) h).1.errorsOf id = []
  | [], _, _ => ⟨rfl, rfl⟩
  | (k, ds) :: rest, h, hid => by
    rw [List.map_cons, List.mem_cons, not_or] at hid
    have hfirst := isOf_group find source k ds h
    have hrest := groups_none ((group find source k ds : OnTree _) h).2 hid.2
    rw [groups_cons_apply]
    simp only [ApplyReport.outcomesOf_merge, ApplyReport.errorsOf_merge,
      hfirst.outcomesOf_ne hid.1, hfirst.errorsOf_ne hid.1, hrest.1, hrest.2]
    exact ⟨rfl, rfl⟩

/-- The host on which the group of an extension is tried, among other groups. -/
def comesTo (gs : List (String × List Descriptor)) (id : String) (h : TreeHost) : TreeHost :=
  ((groups find source (gs.takeWhile fun g => g.1 ≠ id) : OnTree _) h).2

/-- **What is reported of an extension is what its group has reported.** -/
theorem groups_of_mem {id : String} {ds : List Descriptor} :
    ∀ {gs : List (String × List Descriptor)} (h : TreeHost), (gs.map Prod.fst).Nodup →
      (id, ds) ∈ gs →
      ((groups find source gs : OnTree _) h).1.outcomesOf id =
          ((group find source id ds : OnTree _) (comesTo find source gs id h)).1.outcomes ∧
        ((groups find source gs : OnTree _) h).1.errorsOf id =
          ((group find source id ds : OnTree _) (comesTo find source gs id h)).1.targetErrors.map
            Prod.snd
  | (k, es) :: rest, h, hgs, hmem => by
    rw [List.map_cons, List.nodup_cons] at hgs
    have hfirst := isOf_group find source k es h
    rw [groups_cons_apply]
    simp only [ApplyReport.outcomesOf_merge, ApplyReport.errorsOf_merge]
    by_cases hk : k = id
    · subst hk
      obtain rfl : ds = es := by
        rcases List.mem_cons.mp hmem with heq | hrest
        · exact (Prod.mk.inj heq).2
        · exact absurd (List.mem_map_of_mem hrest) hgs.1
      have hhere : comesTo find source ((k, ds) :: rest) k h = h := by simp [comesTo, groups]
      have hrest := groups_none find source
        ((group find source k ds : OnTree _) h).2 hgs.1
      rw [hhere, hfirst.outcomesOf_self, hfirst.errorsOf_self, hrest.1, hrest.2]
      exact ⟨List.append_nil _, List.append_nil _⟩
    · have hlater : comesTo find source ((k, es) :: rest) id h =
          comesTo find source rest id ((group find source k es : OnTree _) h).2 := by
        simp [comesTo, hk, groups_cons_apply]
      have hrest := groups_of_mem
        ((group find source k es : OnTree _) h).2 hgs.2
        ((List.mem_cons.mp hmem).resolve_left fun heq => hk (Prod.mk.inj heq).1.symm)
      rw [hlater, hfirst.outcomesOf_ne (Ne.symm hk), hfirst.errorsOf_ne (Ne.symm hk), hrest.1,
        hrest.2]
      exact ⟨rfl, rfl⟩

/-- **Reports come in the order of the groups**, and there is nothing else in them. -/
theorem groups_inOrder : ∀ {gs : List (String × List Descriptor)} (h : TreeHost),
    (gs.map Prod.fst).Nodup →
      ((groups find source gs : OnTree _) h).1.InOrder (gs.map Prod.fst)
  | [], _, _ => ⟨rfl, rfl⟩
  | (k, ds) :: rest, h, hgs => by
    obtain ⟨hk, hrest⟩ := List.nodup_cons.mp hgs
    have hnone := groups_none find source ((group find source k ds : OnTree _) h).2 hk
    exact (groups_inOrder _ hrest).cons_merge (isOf_group find source k ds h) hk hnone.1 hnone.2

end Apply

end TextPatch
