/-
# Splitting a patch set

A run over two patch sets, one behind the other, comes to the same as a run over the first and then
one over the second (`splitting_changes_nothing`), if no extension is inside another one, no file
patch leads to a manifest, and manifests hold no binary numbers.

* What a group comes to depends on what is seen from the root of its extension
  (`Apply.group_congr`), and it changes files in that root only (`Apply.group_changes`).  So an
  extension sees of a run what its own group does (`Apply.groups_project`).
* A group can be split, because the trial of its descriptors can (`Apply.group_append`).
-/
import TextPatch.Proofs.Extensions.Accounting
import TextPatch.Proofs.Extensions.Trials

namespace TextPatch

open TextPatch.Tree (AgreeAt Sees)

namespace Apply

variable {l : Location} {b : ByteArray} {d : Manifest} {h h' : TreeHost} {id : String}
  {source : PatchSource} {ds es : List Descriptor}

/-! ## 1. One group -/

section

variable (find : String → Option InstalledExtension)

/-- An extension is installed in the directory at a place. -/
def InstalledAt (h : TreeHost) (id : String) (l : Location) : Prop :=
  ∃ x, find id = some x ∧ h.tree.locate h.working true x.root = .ok l ∧
    h.tree.isDirectory l = true

/-- An extension is installed in the directory at a place, and it can be opened. -/
structure Opens (h : TreeHost) (id : String) (x : InstalledExtension) (l : Location)
    (b : ByteArray) (d : Manifest) : Prop where
  find_eq : find id = some x
  locate : h.tree.locate h.working true x.root = .ok l
  openAt : OpenAt l b d h

/-- What is reported of an extension that cannot be opened. -/
def shutOutcomes (id : String) (source : PatchSource) (ds : List Descriptor) : List PatchOutcome :=
  if (find id).isSome then [] else (notInstalled id source ds).outcomes

end

variable {find : String → Option InstalledExtension} {h₀ : TreeHost} {x : InstalledExtension}

theorem shutOutcomes_append : shutOutcomes find id source (ds ++ es) =
    shutOutcomes find id source ds ++ shutOutcomes find id source es := by
  unfold shutOutcomes notInstalled
  split
  · rfl
  · exact List.map_append

theorem InstalledAt.unique {k : Location} (hl : InstalledAt find h id l)
    (hk : InstalledAt find h id k) : l = k := by
  obtain ⟨x, hx, hl, -⟩ := hl
  obtain ⟨y, hy, hk, -⟩ := hk
  rw [hx] at hy
  cases hy
  rw [hl] at hk
  exact Except.ok.inj hk

theorem installedAt_iff (hpaths : h.SamePaths h') (ht : h.tree.Unlinked) :
    InstalledAt find h' id l ↔ InstalledAt find h id l := by
  unfold InstalledAt
  simp only [hpaths.locate_iff ht, hpaths.ways.directory]

namespace Opens

theorem installedAt (hopens : Opens find h id x l b d) : InstalledAt find h id l :=
  ⟨x, hopens.find_eq, hopens.locate, hopens.openAt.ready.isDirectory⟩

/-- It can be opened on another host, too, that agrees with this one. -/
theorem of_agreeAt (hopens : Opens find h id x l b d) (hpaths : h.SamePaths h')
    (hagree : AgreeAt l h.tree h'.tree) : Opens find h' id x l b d :=
  ⟨hopens.find_eq, (hpaths.locate_iff hopens.openAt.ready.unlinked).mpr hopens.locate,
    hopens.openAt.of_agreeAt hpaths.ways hagree⟩

theorem group_eq (hopens : Opens find h id x l b d) : (group find source id ds : OnTree _) h =
    (openedTarget ⟨Path.ofNames l⟩ d id x.isActive source ds : OnTree _) h := by
  have hopen := hopens.openAt.openTarget_eq hopens.locate
  unfold group
  rw [hopens.find_eq]
  simp only
  unfold target
  rw [OnTree.bind_apply]
  rcases hrun : (openTarget x.root : OnTree _) h with ⟨r, h₁⟩
  obtain ⟨rfl, -⟩ := openTarget_apply hrun
  rw [hrun] at hopen
  simp only at hopen
  rw [hopen]

end Opens

/-- An extension that cannot be opened is left alone. -/
theorem group_of_shut (source : PatchSource) (ds : List Descriptor) (ht : h₀.tree.Plain)
    (hpaths : h₀.SamePaths h) (hshut : ∀ x l b d, ¬ Opens find h id x l b d) :
    ((group find source id ds : OnTree _) h).1.outcomes = shutOutcomes find id source ds ∧
      h.SameFiles ((group find source id ds : OnTree _) h).2 := by
  unfold group shutOutcomes
  cases hfind : find id with
  | none => exact ⟨rfl, rfl, rfl⟩
  | some x =>
    simp only
    unfold target
    rw [OnTree.bind_apply]
    rcases hrun : (openTarget x.root : OnTree _) h with ⟨r, h₁⟩
    obtain ⟨rfl, -⟩ := openTarget_apply hrun
    cases r with
    | error cause => exact ⟨rfl, rfl, rfl⟩
    | ok opened =>
      obtain ⟨l, b, hlocate, -, hopen⟩ := OpenAt.exists_of_openTarget (e := opened.1)
        (d := opened.2) ht hpaths (by rw [hrun])
      exact absurd ⟨hfind, hlocate, hopen⟩ (hshut x l b opened.2)

/-- **What a group changes** are files in the root of its extension. -/
theorem group_changes (find : String → Option InstalledExtension) (source : PatchSource)
    (id : String) (ht : h₀.tree.Plain) (hpaths : h₀.SamePaths h) (hds : AvoidManifest ds) :
    h₀.SamePaths ((group find source id ds : OnTree _) h).2 ∧
      ∀ k, (∀ l, InstalledAt find h₀ id l → ¬ l <+: k) →
        ((group find source id ds : OnTree _) h).2.tree.get? k = h.tree.get? k := by
  by_cases hopens : ∃ x l b d, Opens find h id x l b d
  · obtain ⟨x, l, b, d, hopens⟩ := hopens
    obtain ⟨-, htree, hworking⟩ :=
      openedTarget_eq id x.isActive source hopens.openAt hds
    have hchanges := changesIn_stored id source hopens.openAt hds
    rw [hopens.group_eq]
    refine ⟨hpaths.trans ⟨hworking, ?_⟩, fun k hk => ?_⟩
    · rw [htree]
      exact hchanges.ways
    · rw [htree]
      exact hchanges.outside k
        (hk l ((installedAt_iff hpaths ht.no_link).mp hopens.installedAt))
  · simp only [not_exists] at hopens
    obtain ⟨-, hsame⟩ := group_of_shut source ds ht hpaths hopens
    exact ⟨hpaths.trans (.of_sameFiles hpaths.ways.unlinked hsame), fun k _ => by rw [hsame.1]⟩

/-- **What a group comes to** depends on what is seen from the root of its extension. -/
theorem group_congr (source : PatchSource) (ht : h₀.tree.Plain) (hpaths : h₀.SamePaths h)
    (hpaths' : h₀.SamePaths h') (hds : AvoidManifest ds)
    (hagree : ∀ l, InstalledAt find h₀ id l → AgreeAt l h.tree h'.tree) :
    ((group find source id ds : OnTree _) h').1.outcomes =
        ((group find source id ds : OnTree _) h).1.outcomes ∧
      ∀ l, InstalledAt find h₀ id l → AgreeAt l ((group find source id ds : OnTree _) h).2.tree
        ((group find source id ds : OnTree _) h').2.tree := by
  have hforth : h.SamePaths h' := hpaths.symm_trans hpaths'
  have hback : h'.SamePaths h := hpaths'.symm_trans hpaths
  by_cases hopens : ∃ x l b d, Opens find h id x l b d
  · obtain ⟨x, l, b, d, hopens⟩ := hopens
    have hinstalled := (installedAt_iff hpaths ht.no_link).mp hopens.installedAt
    have hopens' := hopens.of_agreeAt hforth (hagree l hinstalled)
    obtain ⟨hout, htree, -⟩ :=
      openedTarget_eq id x.isActive source hopens.openAt hds
    obtain ⟨hout', htree', -⟩ :=
      openedTarget_eq id x.isActive source hopens'.openAt hds
    obtain ⟨hanswer, hstored⟩ := agreeAt_stored id source hopens.openAt
      hopens'.openAt hds (hagree l hinstalled)
    rw [hopens.group_eq, hopens'.group_eq]
    refine ⟨by rw [hout, hout', hanswer], fun k hk => ?_⟩
    obtain rfl := hk.unique hinstalled
    rw [htree, htree']
    exact hstored
  · have hopens' : ∀ x l b d, ¬ Opens find h' id x l b d := fun x l b d hopens' =>
      hopens ⟨x, l, b, d, hopens'.of_agreeAt hback
        (hagree l ((installedAt_iff hpaths' ht.no_link).mp hopens'.installedAt)).symm⟩
    simp only [not_exists] at hopens
    obtain ⟨hout, hsame⟩ := group_of_shut source ds ht hpaths hopens
    obtain ⟨hout', hsame'⟩ := group_of_shut source ds ht hpaths' hopens'
    refine ⟨hout'.trans hout.symm, fun l hl => ?_⟩
    rw [hsame.1, hsame'.1]
    exact hagree l hl

/-- A group without descriptors does nothing. -/
theorem group_nil (find : String → Option InstalledExtension) (source : PatchSource)
    (id : String) (ht : h₀.tree.Plain) (hpaths : h₀.SamePaths h) :
    ((group find source id [] : OnTree _) h).1.outcomes = [] ∧
      ((group find source id [] : OnTree _) h).2.tree = h.tree := by
  by_cases hopens : ∃ x l b d, Opens find h id x l b d
  · obtain ⟨x, l, b, d, hopens⟩ := hopens
    rw [hopens.group_eq]
    exact ⟨rfl, rfl⟩
  · simp only [not_exists] at hopens
    obtain ⟨hout, hsame⟩ := group_of_shut source [] ht hpaths hopens
    refine ⟨hout.trans ?_, hsame.1⟩
    unfold shutOutcomes
    split <;> rfl

theorem AvoidManifest.append (hds : AvoidManifest ds) (hes : AvoidManifest es) :
    AvoidManifest (ds ++ es) :=
  fun d hd => (List.mem_append.mp hd).elim (hds d) (hes d)

/-- A group can be split if its extension can be opened. -/
theorem Opens.group_append (hopens : Opens find h id x l b d) (hexact : d.Exact)
    (hds : AvoidManifest ds) (hes : AvoidManifest es)
    (hforth : h.SamePaths ((group find source id ds : OnTree _) h).2) :
    let first := (group find source id ds : OnTree _) h
    let second := (group find source id es : OnTree _) first.2
    ((group find source id (ds ++ es) : OnTree _) h).1.outcomes =
        first.1.outcomes ++ second.1.outcomes ∧
      AgreeAt l ((group find source id (ds ++ es) : OnTree _) h).2.tree second.2.tree := by
  intro first second
  obtain ⟨hout, htree, -⟩ := openedTarget_eq id x.isActive source hopens.openAt hds
  obtain ⟨hout', htree', -⟩ := openedTarget_eq id x.isActive source hopens.openAt (hds.append hes)
  rw [← hopens.group_eq] at hout htree hout' htree'
  -- the extension is open again, with the manifest that the first part has left at hand
  have hagain : Opens find first.2 id x l _ _ := ⟨hopens.find_eq,
    (hforth.locate_iff hopens.openAt.ready.unlinked).mpr hopens.locate,
    openAt_stored hopens.openAt hexact hds htree⟩
  obtain ⟨hout₂, htree₂, -⟩ := openedTarget_eq id x.isActive source hagain.openAt hes
  rw [← hagain.group_eq] at hout₂ htree₂
  obtain ⟨houtcomes, hagree⟩ := trial_split hopens.openAt hexact hds hes htree
  refine ⟨by rw [hout', houtcomes, hout, hout₂], ?_⟩
  rw [htree', htree₂]
  exact hagree

/-- **A group can be split.** -/
theorem group_append (source : PatchSource) (ht : h₀.tree.Plain) (hpaths : h₀.SamePaths h)
    (hds : AvoidManifest ds) (hes : AvoidManifest es)
    (hints : ∀ l d, InstalledAt find h id l →
      ((Manifest.read (Path.ofNames l) : OnTree _) h).1 = .ok d → d.Integral) :
    let first := (group find source id ds : OnTree _) h
    let second := (group find source id es : OnTree _) first.2
    ((group find source id (ds ++ es) : OnTree _) h).1.outcomes =
        first.1.outcomes ++ second.1.outcomes ∧
      ∀ l, InstalledAt find h id l →
        AgreeAt l ((group find source id (ds ++ es) : OnTree _) h).2.tree second.2.tree := by
  intro first second
  have hfirst : h₀.SamePaths first.2 := (group_changes find source id ht hpaths hds).1
  have hforth : h.SamePaths first.2 := hpaths.symm_trans hfirst
  by_cases hopens : ∃ x l b d, Opens find h id x l b d
  · obtain ⟨x, l, b, d, hopens⟩ := hopens
    have hexact : d.Exact := by
      obtain ⟨text, -, htext⟩ := hopens.openAt.isIn
      exact Manifest.exact_of_ofText htext (hints l d hopens.installedAt hopens.openAt.read_eq)
    obtain ⟨houtcomes, hagree⟩ := hopens.group_append hexact hds hes hforth
    refine ⟨houtcomes, fun k hk => ?_⟩
    obtain rfl := hk.unique hopens.installedAt
    exact hagree
  · simp only [not_exists] at hopens
    obtain ⟨hout, hsame⟩ := group_of_shut source ds ht hpaths hopens
    obtain ⟨hout', hsame'⟩ := group_of_shut source (ds ++ es) ht hpaths hopens
    have hopens₂ : ∀ x l b d, ¬ Opens find first.2 id x l b d := fun x l b d hopens₂ =>
      hopens x l b d (hopens₂.of_agreeAt (hfirst.symm_trans hpaths)
        fun k _ => by rw [hsame.1])
    obtain ⟨hout₂, hsame₂⟩ := group_of_shut source es ht hfirst hopens₂
    refine ⟨by rw [hout', hout, hout₂, shutOutcomes_append], fun l _ k _ => ?_⟩
    rw [hsame₂.1, hsame.1, hsame'.1]

/-! ## 2. Several groups -/

variable {gs : List (String × List Descriptor)}

/-- No extension is installed inside another one. -/
def Apart (find : String → Option InstalledExtension) (h : TreeHost) : Prop :=
  ∀ a b l k, a ≠ b → InstalledAt find h a l → InstalledAt find h b k → ¬ l <+: k

/-- What is seen from one extension is not inside another one. -/
theorem Apart.not_prefix (hapart : Apart find h) {a b : String} {l r k : Location} (hne : a ≠ b)
    (ha : InstalledAt find h a l) (hb : InstalledAt find h b r) (hk : Sees l k) : ¬ r <+: k := by
  intro hrk
  rcases hk with hk | hk
  · rcases List.prefix_or_prefix_of_prefix hk hrk with hlr | hrl
    · exact hapart a b l r hne ha hb hlr
    · exact hapart b a r l (Ne.symm hne) hb ha hrl
  · exact hapart b a r l (Ne.symm hne) hb ha (hrk.trans hk)

/-- **What groups change** are files in the roots of their extensions. -/
theorem groups_changes (find : String → Option InstalledExtension) (source : PatchSource)
    (ht : h₀.tree.Plain) : ∀ {gs : List (String × List Descriptor)}
    {h : TreeHost}, h₀.SamePaths h → (∀ g ∈ gs, AvoidManifest g.2) →
      h₀.SamePaths ((groups find source gs : OnTree _) h).2 ∧
        ∀ k, (∀ g ∈ gs, ∀ l, InstalledAt find h₀ g.1 l → ¬ l <+: k) →
          ((groups find source gs : OnTree _) h).2.tree.get? k = h.tree.get? k
  | [], _, hpaths, _ => ⟨hpaths, fun _ _ => rfl⟩
  | (id, ds) :: rest, h, hpaths, hgs => by
    rw [groups_cons_apply]
    simp only
    obtain ⟨hfirst, hsame⟩ := group_changes find source id ht hpaths
      (hgs _ List.mem_cons_self)
    obtain ⟨hothers, hsame'⟩ := groups_changes find source ht hfirst fun g hg =>
      hgs g (List.mem_cons_of_mem _ hg)
    exact ⟨hothers, fun k hk => (hsame' k fun g hg => hk g (List.mem_cons_of_mem _ hg)).trans
      (hsame k (hk _ List.mem_cons_self))⟩

/-- The groups of other extensions cannot be seen from an extension. -/
theorem agreeAt_groups (ht : h₀.tree.Plain) (hpaths : h₀.SamePaths h) (hapart : Apart find h₀)
    (hgs : ∀ g ∈ gs, AvoidManifest g.2) (hid : id ∉ gs.map Prod.fst)
    (hl : InstalledAt find h₀ id l) :
    AgreeAt l h.tree ((groups find source gs : OnTree _) h).2.tree := by
  refine fun k hk => (groups_changes find source ht hpaths hgs).2 k fun g hg r hr => ?_
  refine hapart.not_prefix (fun heq => hid ?_) hl hr hk
  rw [heq]
  exact List.mem_map_of_mem hg

/-- **An extension sees of several groups what its own group does.** -/
theorem groups_project (ht : h₀.tree.Plain) (hapart : Apart find h₀) :
    ∀ {gs : List (String × List Descriptor)} {h : TreeHost}, h₀.SamePaths h →
      (gs.map Prod.fst).Nodup → (∀ g ∈ gs, AvoidManifest g.2) → (id, ds) ∈ gs →
        ((groups find source gs : OnTree _) h).1.outcomesOf id =
            ((group find source id ds : OnTree _) h).1.outcomes ∧
          ∀ l, InstalledAt find h₀ id l → AgreeAt l
            ((group find source id ds : OnTree _) h).2.tree
            ((groups find source gs : OnTree _) h).2.tree
  | (k, es) :: rest, h, hpaths, hnodup, hgs, hmem => by
    obtain ⟨hk, hnodup⟩ := List.nodup_cons.mp hnodup
    have hes := hgs _ List.mem_cons_self
    have hrest := fun g hg => hgs g (List.mem_cons_of_mem _ hg)
    have hfirst := isOf_group find source k es h
    obtain ⟨hpaths₁, hchanges⟩ :=
      group_changes find source k ht hpaths hes
    rw [groups_cons_apply]
    simp only [ApplyReport.outcomesOf_merge]
    by_cases hid : k = id
    · subst hid
      obtain rfl : ds = es := by
        rcases List.mem_cons.mp hmem with heq | hmem
        · exact (Prod.mk.inj heq).2
        · exact absurd (List.mem_map_of_mem hmem) hk
      rw [hfirst.outcomesOf_self, (groups_none find source _ hk).1, List.append_nil]
      exact ⟨rfl, fun l hl => agreeAt_groups ht hpaths₁ hapart hrest hk hl⟩
    · have hmem : (id, ds) ∈ rest :=
        (List.mem_cons.mp hmem).resolve_left fun heq => hid (Prod.mk.inj heq).1.symm
      obtain ⟨houtcomes, hagree⟩ := groups_project ht hapart hpaths₁ hnodup hrest hmem
      -- the first group cannot be seen
      have hunseen : ∀ l, InstalledAt find h₀ id l →
          AgreeAt l h.tree ((group find source k es : OnTree _) h).2.tree := fun l hl q hq =>
        hchanges q fun r hr => hapart.not_prefix (Ne.symm hid) hl hr hq
      obtain ⟨hsame, hsees⟩ := group_congr source ht hpaths hpaths₁
        (hrest _ hmem) hunseen
      rw [hfirst.outcomesOf_ne (Ne.symm hid), houtcomes, hsame]
      exact ⟨rfl, fun l hl => (hsees l hl).trans (hagree l hl)⟩

end Apply

open Apply (Apart AvoidManifest InstalledAt)

/-! ## 3. Runs -/

/-- Two patch sets, one behind the other. -/
instance : Append PatchSet := ⟨fun s₁ s₂ => ⟨s₁.descriptors ++ s₂.descriptors⟩⟩

namespace PatchSet

/-- No file patch for an extension leads to the manifest. -/
def AvoidsManifests (s : PatchSet) : Prop := AvoidManifest s.forExtensions

variable {s s₁ s₂ : PatchSet}

theorem forExtensions_append :
    (s₁ ++ s₂).forExtensions = s₁.forExtensions ++ s₂.forExtensions := List.filter_append ..

theorem naming_append (id : String) : (s₁ ++ s₂).naming id = s₁.naming id ++ s₂.naming id := by
  unfold naming mentions
  rw [forExtensions_append, List.flatMap_append, List.filter_append, List.map_append]

theorem AvoidsManifests.append (h₁ : s₁.AvoidsManifests) (h₂ : s₂.AvoidsManifests) :
    (s₁ ++ s₂).AvoidsManifests := by
  unfold AvoidsManifests
  rw [forExtensions_append]
  exact Apply.AvoidManifest.append h₁ h₂

theorem AvoidsManifests.naming (h : s.AvoidsManifests) (id : String) :
    AvoidManifest (s.naming id) := fun d hd => h d (mem_forExtensions_of_mem_naming hd)

theorem AvoidsManifests.groups (h : s.AvoidsManifests) : ∀ g ∈ s.groups, AvoidManifest g.2 := by
  rw [s.groups_eq]
  intro g hg
  obtain ⟨id, -, rfl⟩ := List.mem_map.mp hg
  exact h.naming id

end PatchSet

namespace Run

variable {r : Run} {h₀ h : TreeHost}

/-- What a run changes are files in the roots of extensions. -/
theorem changes (ht : h₀.tree.Plain) (hpaths : h₀.SamePaths h) (hset : r.set.AvoidsManifests) :
    h₀.SamePaths (r.after h) ∧ ∀ k, (∀ id l, InstalledAt r.find h₀ id l → ¬ l <+: k) →
      (r.after h).tree.get? k = h.tree.get? k := by
  obtain ⟨hafter, hsame⟩ :=
    Apply.groups_changes r.find r.source ht hpaths hset.groups
  exact ⟨hafter, fun k hk => hsame k fun g _ l hl => hk g.1 l hl⟩

/-- **An extension sees of a run what is done for the descriptors that mention it.** -/
theorem project (ht : h₀.tree.Plain) (hpaths : h₀.SamePaths h) (hapart : Apart r.find h₀)
    (hset : r.set.AvoidsManifests) (id : String) :
    (r.report h).outcomesOf id =
        ((Apply.group r.find r.source id (r.set.naming id) : OnTree _) h).1.outcomes ∧
      ∀ l, InstalledAt r.find h₀ id l → AgreeAt l
        ((Apply.group r.find r.source id (r.set.naming id) : OnTree _) h).2.tree
        (r.after h).tree := by
  by_cases hid : id ∈ r.set.named
  · refine Apply.groups_project ht hapart hpaths (r.keys_groups ▸ r.set.nodup_named) hset.groups ?_
    rw [r.set.groups_eq]
    exact List.mem_map_of_mem hid
  · obtain ⟨houtcomes, -, hnaming⟩ := r.report_of_not_mem_named h hid
    obtain ⟨hnone, htree⟩ :=
      Apply.group_nil r.find r.source id ht hpaths
    rw [houtcomes, hnaming, hnone]
    refine ⟨rfl, fun l hl => ?_⟩
    rw [htree]
    exact Apply.agreeAt_groups ht hpaths hapart hset.groups (r.keys_groups ▸ hid) hl

end Run

/-- A run over two patch sets, one behind the other, comes to the same as two runs. -/
structure SplitsInto (find : String → Option InstalledExtension) (source : PatchSource)
    (s₁ s₂ : PatchSet) (h : TreeHost) : Prop where
  /-- The same files are left: live ones, backups and manifests. -/
  files : ∀ k, ((Run.mk find source (s₁ ++ s₂)).after h).tree.get? k =
    (afterRuns [⟨find, source, s₁⟩, ⟨find, source, s₂⟩] h).tree.get? k
  /-- The same is reported of each extension, in the same order. -/
  outcomes : ∀ id, ((Run.mk find source (s₁ ++ s₂)).report h).outcomesOf id =
    ((Run.mk find source s₁).report h).outcomesOf id ++
      ((Run.mk find source s₂).report ((Run.mk find source s₁).after h)).outcomesOf id

/-- **Splitting a patch set changes nothing.** -/
theorem splitting_changes_nothing {find : String → Option InstalledExtension}
    {source : PatchSource} {s₁ s₂ : PatchSet} {h : TreeHost} (ht : h.tree.Plain)
    (hapart : Apart find h) (hs₁ : s₁.AvoidsManifests) (hs₂ : s₂.AvoidsManifests)
    (hints : ∀ id l d, InstalledAt find h id l →
      ((Manifest.read (Path.ofNames l) : OnTree _) h).1 = .ok d → d.Integral) :
    SplitsInto find source s₁ s₂ h := by
  let whole : Run := ⟨find, source, s₁ ++ s₂⟩
  let first : Run := ⟨find, source, s₁⟩
  let second : Run := ⟨find, source, s₂⟩
  have hself : h.SamePaths h := .refl ht.no_link
  have hfirst : h.SamePaths (first.after h) := (Run.changes (r := first) ht hself hs₁).1
  -- what comes of one extension
  have hone : ∀ id, (whole.report h).outcomesOf id = (first.report h).outcomesOf id ++
      (second.report (first.after h)).outcomesOf id ∧ ∀ l, InstalledAt find h id l →
        AgreeAt l (whole.after h).tree (second.after (first.after h)).tree := by
    intro id
    obtain ⟨hout, hagree⟩ :=
      Run.project (r := whole) ht hself hapart (hs₁.append hs₂) id
    obtain ⟨hout₁, hagree₁⟩ := Run.project (r := first) ht hself hapart hs₁ id
    obtain ⟨hout₂, hagree₂⟩ := Run.project (r := second) ht hfirst hapart hs₂ id
    obtain ⟨hsplit, hparts⟩ := Apply.group_append source ht hself (hs₁.naming id)
      (hs₂.naming id) fun l d => hints id l d
    have hgroup : h.SamePaths ((Apply.group find source id (s₁.naming id) : OnTree _) h).2 :=
      (Apply.group_changes find source id ht hself (hs₁.naming id)).1
    obtain ⟨hsame, hsees⟩ := Apply.group_congr source ht hgroup hfirst
      (hs₂.naming id) hagree₁
    rw [show whole.set.naming id = _ from PatchSet.naming_append id] at hout hagree
    refine ⟨by rw [hout, hsplit, hout₁, hout₂, hsame], fun l hl => ?_⟩
    exact (((hagree l hl).symm.trans (hparts l hl)).trans (hsees l hl)).trans (hagree₂ l hl)
  refine ⟨fun k => ?_, fun id => (hone id).1⟩
  by_cases hk : ∃ id l, InstalledAt find h id l ∧ l <+: k
  · obtain ⟨id, l, hl, hlk⟩ := hk
    exact ((hone id).2 l hl k (Or.inl hlk)).symm
  · have hnone : ∀ id l, InstalledAt find h id l → ¬ l <+: k := fun id l hl hlk =>
      hk ⟨id, l, hl, hlk⟩
    have hwhole := (Run.changes (r := whole) ht hself (hs₁.append hs₂)).2 k hnone
    have hsecond := (Run.changes (r := second) ht hfirst hs₂).2 k hnone
    exact hwhole.trans
      (hsecond.trans ((Run.changes (r := first) ht hself hs₁).2 k hnone)).symm

/-- Two extensions with a file each. -/
def twinTree : Tree where
  entries := [(["x"], .directory), (["x", "package.json"], .file "\x7b\x7d".toUTF8),
    (["x", "a.js"], .file "one".toUTF8), (["y"], .directory),
    (["y", "package.json"], .file "\x7b\x7d".toUTF8), (["y", "a.js"], .file "one".toUTF8)]

/-- Where the two extensions are. -/
def findTwin (id : String) : Option InstalledExtension :=
  if id = "p.x" then some ⟨id, ⟨"/x"⟩, true⟩
  else if id = "p.y" then some ⟨id, ⟨"/y"⟩, false⟩
  else none

/-- A descriptor for both extensions. -/
def twinSet : PatchSet where
  descriptors := [⟨.extensions (.many ["p.x", "p.y"]), [insertTwo "a.js"]⟩]

/-- The same descriptor once more for one of them, and one that fails after it has written a
file. -/
def laterSet : PatchSet where
  descriptors := [⟨.extensions (.one "p.x"), [insertTwo "a.js"]⟩,
    ⟨.extensions (.many ["p.x", "p.y"]), [insertTwo "a.js", insertTwo "missing.js"]⟩]

theorem installedAt_findTwin {id : String} {l : Location}
    (h : InstalledAt findTwin (.ofTree twinTree) id l) :
    id = "p.x" ∧ l = ["x"] ∨ id = "p.y" ∧ l = ["y"] := by
  have hx : twinTree.locate [] true ⟨"/x"⟩ = .ok ["x"] := eq_ok_of_toOption (by decide +kernel)
  have hy : twinTree.locate [] true ⟨"/y"⟩ = .ok ["y"] := eq_ok_of_toOption (by decide +kernel)
  obtain ⟨x, hfind, hlocate, -⟩ := h
  unfold findTwin at hfind
  split at hfind
  · rename_i hid
    cases hfind
    exact Or.inl ⟨hid, Except.ok.inj (hlocate.symm.trans hx)⟩
  · split at hfind
    · rename_i hid
      cases hfind
      exact Or.inr ⟨hid, Except.ok.inj (hlocate.symm.trans hy)⟩
    · cases hfind

theorem twins_split :
    twinTree.Plain ∧ Apart findTwin (.ofTree twinTree) ∧ twinSet.AvoidsManifests ∧
      laterSet.AvoidsManifests ∧ SplitsInto findTwin .here twinSet laterSet (.ofTree twinTree) := by
  have ht : twinTree.Plain := Tree.plain_of_isPlain (by decide +kernel)
  have hapart : Apart findTwin (.ofTree twinTree) := by
    intro a b l k hne ha hb
    rcases installedAt_findTwin ha with ⟨rfl, rfl⟩ | ⟨rfl, rfl⟩ <;>
      rcases installedAt_findTwin hb with ⟨rfl, rfl⟩ | ⟨rfl, rfl⟩
    · exact absurd rfl hne
    · decide
    · decide
    · exact absurd rfl hne
  have hs₁ : twinSet.AvoidsManifests := by
    unfold PatchSet.AvoidsManifests AvoidManifest
    decide +kernel
  have hs₂ : laterSet.AvoidsManifests := by
    unfold PatchSet.AvoidsManifests AvoidManifest
    decide +kernel
  have hempty : ∀ l ∈ [["x"], ["y"]], ((Manifest.read (Path.ofNames l) : OnTree _)
      (.ofTree twinTree)).1.toOption.all (fun d => d.members.isEmpty) = true := by
    decide +kernel
  refine ⟨ht, hapart, hs₁, hs₂, splitting_changes_nothing ht hapart hs₁ hs₂ ?_⟩
  intro id l d hl hread
  have hnone := hempty l (by rcases installedAt_findTwin hl with ⟨-, rfl⟩ | ⟨-, rfl⟩ <;> simp)
  rw [hread] at hnone
  have hmembers : d.members = [] := List.isEmpty_iff.mp hnone
  unfold Manifest.Integral
  rw [hmembers]
  exact .object (by simp)

end TextPatch
