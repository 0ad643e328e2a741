/-
# The pristine text of a file is never lost

Patching overwrites files, and restoring moves backups around.  `Kept t₀ t` is what survives both,
whatever succeeds or fails, when a tree `t₀` without backups has become `t`: every file but a
manifest has its first content, or its backup has it; every backup holds the first content of its
file; and no other entry has come or gone.

The invariant is shown for each of the four changes that a run makes to a tree: a backup is made
(`Kept.set_backup`), a file with a backup is replaced (`Kept.set_file`), a manifest is replaced
(`Kept.set_manifest`), and a file is moved back from its backup (`Kept.move_back`).
-/
import TextPatch.Proofs.Extensions.Steps

namespace TextPatch

/-! ## 1. Names of backups -/

/-- The name of a backup. -/
def IsBackupName (s : String) : Prop := ∃ u, s = u ++ backupSuffix

theorem isBackupName_iff {s : String} :
    IsBackupName s ↔ backupSuffix.toList.isSuffixOf s.toList = true := by
  rw [List.isSuffixOf_iff_suffix]
  constructor
  · rintro ⟨u, rfl⟩
    rw [String.toList_append]
    exact List.suffix_append _ _
  · rintro ⟨t, ht⟩
    refine ⟨String.ofList t, String.toList_inj.mp ?_⟩
    rw [String.toList_append, String.toList_ofList, ht]

instance (s : String) : Decidable (IsBackupName s) := decidable_of_iff _ isBackupName_iff.symm

theorem isBackupName_backup (s : String) : IsBackupName (s ++ backupSuffix) := ⟨s, rfl⟩

theorem backup_injective {s u : String} (h : s ++ backupSuffix = u ++ backupSuffix) : s = u := by
  have htext := congrArg String.toList h
  rw [String.toList_append, String.toList_append] at htext
  exact String.toList_inj.mp (List.append_cancel_right htext)

theorem manifestName_ne_backup (s : String) : manifestName ≠ s ++ backupSuffix := by
  intro h
  have htext := congrArg (fun u : String => u.toList.getLast?) h
  simp [manifestName, backupSuffix] at htext

theorem not_isBackupName_manifestName : ¬ IsBackupName manifestName := by
  rintro ⟨s, hs⟩
  exact manifestName_ne_backup s hs

theorem concat_inj {l k : Location} {s u : String} (h : l ++ [s] = k ++ [u]) : l = k ∧ s = u := by
  simpa using h

/-! ## 2. The invariant -/

/-- A tree in which nothing is called like a backup. -/
def Tree.HasNoBackups (t : Tree) : Prop :=
  ∀ l s, (t.get? (l ++ [s])).isSome → ¬ IsBackupName s

/-- Whether no entry of a tree is called like a backup. -/
def Tree.lacksBackups (t : Tree) : Bool :=
  t.entries.all fun p => p.1.getLast?.all fun s => !decide (IsBackupName s)

theorem Tree.hasNoBackups_of_lacksBackups {t : Tree} (h : t.lacksBackups = true) :
    t.HasNoBackups := by
  rintro l s hl ⟨u, rfl⟩
  obtain ⟨e, he⟩ := Option.isSome_iff_exists.mp hl
  have hp := List.all_eq_true.mp h _ (Tree.mem_of_get? (by simp) he)
  simp [isBackupName_backup] at hp

/-- **What is kept of a tree `t₀` when it has become `t`.** -/
structure Kept (t₀ t : Tree) : Prop where
  /-- Directories stay. -/
  directory : ∀ l, t₀.get? l = some .directory → t.get? l = some .directory
  /-- Manifests stay files. -/
  manifest : ∀ l b, t₀.get? (l ++ [manifestName]) = some (.file b) →
    ∃ b', t.get? (l ++ [manifestName]) = some (.file b')
  /-- Another file has its first content, or it has a backup with it. -/
  file : ∀ l s b, s ≠ manifestName → t₀.get? (l ++ [s]) = some (.file b) →
    t.get? (l ++ [s]) = some (.file b) ∨
      (∃ b', t.get? (l ++ [s]) = some (.file b')) ∧
        t.get? (l ++ [s ++ backupSuffix]) = some (.file b)
  /-- A backup holds the first content of its file, which is no manifest. -/
  backup : ∀ l s e, t.get? (l ++ [s ++ backupSuffix]) = some e →
    s ≠ manifestName ∧ ∃ b, t₀.get? (l ++ [s]) = some (.file b) ∧ e = .file b
  /-- There are no entries but the first ones and backups. -/
  entry : ∀ l, (t.get? l).isSome →
    (t₀.get? l).isSome ∨ ∃ k s, l = k ++ [s ++ backupSuffix]

namespace Kept

variable {t₀ t : Tree}

theorem refl (hb : t₀.HasNoBackups) : Kept t₀ t₀ where
  directory _ h := h
  manifest _ b h := ⟨b, h⟩
  file _ _ _ _ h := Or.inl h
  backup l s e h := absurd (isBackupName_backup s) (hb l _ (by rw [h]; rfl))
  entry _ h := Or.inl h

/-- What was a file is one. -/
theorem isFile (h : Kept t₀ t) {l : Location} {s : String} {b : ByteArray}
    (hl : t₀.get? (l ++ [s]) = some (.file b)) : ∃ b', t.get? (l ++ [s]) = some (.file b') := by
  by_cases hs : s = manifestName
  · subst hs
    exact h.manifest l b hl
  · rcases h.file l s b hs hl with hf | ⟨hf, -⟩
    · exact ⟨b, hf⟩
    · exact hf

/-- What is a file and not called like a backup was one. -/
theorem wasFile (ht : t₀.Plain) (h : Kept t₀ t) {l : Location} {s : String} {b : ByteArray}
    (hs : ¬ IsBackupName s) (hl : t.get? (l ++ [s]) = some (.file b)) :
    ∃ b₀, t₀.get? (l ++ [s]) = some (.file b₀) := by
  rcases h.entry _ (by rw [hl]; rfl) with hfirst | ⟨k, u, hk⟩
  · cases hget : t₀.get? (l ++ [s]) with
    | none => rw [hget] at hfirst; cases hfirst
    | some e =>
      cases e with
      | file b₀ => exact ⟨b₀, rfl⟩
      | link target => exact absurd hget (ht.no_link _ target)
      | directory =>
        rw [h.directory _ hget] at hl
        cases hl
  · exact absurd ⟨u, (concat_inj hk).2⟩ hs

/-- The directories are those that were there at first. -/
theorem directory_iff (ht : t₀.Plain) (h : Kept t₀ t) {l : Location} :
    t.get? l = some .directory ↔ t₀.get? l = some .directory := by
  refine ⟨fun hl => ?_, h.directory l⟩
  rcases List.eq_nil_or_concat l with rfl | ⟨k, s, rfl⟩
  · exact Tree.get?_nil t₀
  · rw [List.concat_eq_append] at hl ⊢
    rcases h.entry _ (by rw [hl]; rfl) with hfirst | ⟨k', u, hk⟩
    · cases hget : t₀.get? (k ++ [s]) with
      | none => rw [hget] at hfirst; cases hfirst
      | some e =>
        cases e with
        | directory => rfl
        | link target => exact absurd hget (ht.no_link _ target)
        | file b =>
          obtain ⟨b', hb'⟩ := h.isFile hget
          rw [hb'] at hl
          cases hl
    · rw [hk] at hl
      obtain ⟨-, b, -, hb⟩ := h.backup k' u _ hl
      cases hb

/-- A tree that has been kept is plain. -/
theorem plain (ht : t₀.Plain) (h : Kept t₀ t) : t.Plain where
  no_link l target hl := by
    have hne : l ≠ [] := by
      rintro rfl
      simp at hl
    obtain ⟨k, s, rfl⟩ := (List.eq_nil_or_concat l).resolve_left hne
    rw [List.concat_eq_append] at hl
    rcases h.entry _ (by rw [hl]; rfl) with hfirst | ⟨k', u, hk⟩
    · cases hget : t₀.get? (k ++ [s]) with
      | none => rw [hget] at hfirst; cases hfirst
      | some e =>
        cases e with
        | file b =>
          obtain ⟨b', hb'⟩ := h.isFile hget
          rw [hb'] at hl
          cases hl
        | link target => exact ht.no_link _ target hget
        | directory =>
          rw [h.directory _ hget] at hl
          cases hl
    · rw [hk] at hl
      obtain ⟨-, b, -, hb⟩ := h.backup k' u _ hl
      cases hb
  names l hl := by
    rcases h.entry l hl with hfirst | ⟨k, s, rfl⟩
    · exact ht.names l hfirst
    · obtain ⟨e, he⟩ := Option.isSome_iff_exists.mp hl
      obtain ⟨-, b, hb, -⟩ := h.backup k s e he
      exact (ht.names (k ++ [s]) (by rw [hb]; rfl)).backup
  parents l s hl := by
    rcases h.entry _ hl with hfirst | ⟨k, u, hk⟩
    · exact h.directory l (ht.parents l s hfirst)
    · obtain ⟨rfl, rfl⟩ := concat_inj hk
      obtain ⟨e, he⟩ := Option.isSome_iff_exists.mp hl
      obtain ⟨-, b, hb, -⟩ := h.backup l u e he
      exact h.directory l (ht.parents l u (by rw [hb]; rfl))

/-! ## 3. Changes that keep it -/

/-- A backup is made of a file that has its first content. -/
theorem set_backup (h : Kept t₀ t) (hb : t₀.HasNoBackups) {l : Location} {s : String}
    {b : ByteArray} (hs : s ≠ manifestName) (hfirst : t₀.get? (l ++ [s]) = some (.file b)) :
    Kept t₀ (t.set (l ++ [s ++ backupSuffix]) (.file b)) := by
  have hget := fun k => Tree.get?_set t (l := l ++ [s ++ backupSuffix]) (by simp) (.file b) k
  -- a place that was there at first is another one
  have hother : ∀ k, (t₀.get? k).isSome → k ≠ l ++ [s ++ backupSuffix] := by
    rintro k hk rfl
    exact hb l _ hk (isBackupName_backup s)
  constructor
  · intro k hk
    rw [hget, if_neg (hother k (by rw [hk]; rfl))]
    exact h.directory k hk
  · intro k c hk
    rw [hget, if_neg (hother _ (by rw [hk]; rfl))]
    exact h.manifest k c hk
  · intro k u c hu hk
    rw [hget, if_neg (hother _ (by rw [hk]; rfl)), hget]
    rcases h.file k u c hu hk with hf | ⟨hf, hbackup⟩
    · exact Or.inl hf
    · refine Or.inr ⟨hf, ?_⟩
      split
      · rename_i heq
        obtain ⟨rfl, hus⟩ := concat_inj heq
        obtain rfl := backup_injective hus
        rw [hfirst] at hk
        exact hk
      · exact hbackup
  · intro k u e he
    rw [hget] at he
    split at he
    · rename_i heq
      obtain ⟨rfl, hus⟩ := concat_inj heq
      obtain rfl := backup_injective hus
      cases he
      exact ⟨hs, b, hfirst, rfl⟩
    · exact h.backup k u e he
  · intro k hk
    rw [hget] at hk
    split at hk
    · rename_i heq
      exact Or.inr ⟨l, s, heq⟩
    · exact h.entry k hk

/-- A file whose backup holds its first content is replaced. -/
theorem set_file (h : Kept t₀ t) {l : Location} {s : String} {b new : ByteArray}
    (hs : s ≠ manifestName) (hname : ¬ IsBackupName s)
    (hfirst : t₀.get? (l ++ [s]) = some (.file b))
    (hbackup : t.get? (l ++ [s ++ backupSuffix]) = some (.file b)) :
    Kept t₀ (t.set (l ++ [s]) (.file new)) := by
  have hget := fun k => Tree.get?_set t (l := l ++ [s]) (by simp) (.file new) k
  have hother : ∀ k u, k ++ [u ++ backupSuffix] ≠ l ++ [s] := by
    intro k u heq
    exact hname ⟨u, (concat_inj heq).2.symm⟩
  constructor
  · intro k hk
    rw [hget, if_neg]
    · exact h.directory k hk
    · rintro rfl
      rw [hfirst] at hk
      cases hk
  · intro k c hk
    rw [hget, if_neg]
    · exact h.manifest k c hk
    · intro heq
      exact hs (concat_inj heq).2.symm
  · intro k u c hu hk
    rw [hget, hget, if_neg (hother k u)]
    split
    · rename_i heq
      obtain ⟨rfl, rfl⟩ := concat_inj heq
      rw [hfirst] at hk
      cases hk
      exact Or.inr ⟨⟨new, rfl⟩, hbackup⟩
    · exact h.file k u c hu hk
  · intro k u e he
    rw [hget, if_neg (hother k u)] at he
    exact h.backup k u e he
  · intro k hk
    rw [hget] at hk
    split at hk
    · rename_i heq
      subst heq
      exact Or.inl (by rw [hfirst]; rfl)
    · exact h.entry k hk

/-- A manifest is replaced. -/
theorem set_manifest (h : Kept t₀ t) {l : Location} {b new : ByteArray}
    (hfirst : t₀.get? (l ++ [manifestName]) = some (.file b)) :
    Kept t₀ (t.set (l ++ [manifestName]) (.file new)) := by
  have hget := fun k => Tree.get?_set t (l := l ++ [manifestName]) (by simp) (.file new) k
  have hother : ∀ k u, k ++ [u ++ backupSuffix] ≠ l ++ [manifestName] := by
    intro k u heq
    exact not_isBackupName_manifestName ⟨u, (concat_inj heq).2.symm⟩
  constructor
  · intro k hk
    rw [hget, if_neg]
    · exact h.directory k hk
    · rintro rfl
      rw [hfirst] at hk
      cases hk
  · intro k c hk
    rw [hget]
    split
    · exact ⟨new, rfl⟩
    · exact h.manifest k c hk
  · intro k u c hu hk
    rw [hget, if_neg, hget, if_neg (hother k u)]
    · exact h.file k u c hu hk
    · intro heq
      exact hu (concat_inj heq).2
  · intro k u e he
    rw [hget, if_neg (hother k u)] at he
    exact h.backup k u e he
  · intro k hk
    rw [hget] at hk
    split at hk
    · rename_i heq
      subst heq
      exact Or.inl (by rw [hfirst]; rfl)
    · exact h.entry k hk

/-- What a file and its backup are after the file has been moved back, and everything else. -/
theorem get?_move_back (ht : t₀.Plain) (h : Kept t₀ t) (hb : t₀.HasNoBackups) {l : Location}
    {s : String} {e : Entry} (he : t.get? (l ++ [s ++ backupSuffix]) = some e) :
    ∃ b, t₀.get? (l ++ [s]) = some (.file b) ∧ ∀ k,
      (t.move (l ++ [s ++ backupSuffix]) (l ++ [s])).get? k =
        if k = l ++ [s ++ backupSuffix] then none
        else if k = l ++ [s] then some (.file b) else t.get? k := by
  obtain ⟨-, b, hfirst, rfl⟩ := h.backup l s e he
  obtain ⟨b', hfile⟩ := h.isFile hfirst
  have hdir := (h.plain ht).parents l s (by rw [hfile]; rfl)
  refine ⟨b, hfirst, (h.plain ht).get?_move_file he hdir (by simp [hfile]) ?_⟩
  intro heq
  exact hb l s (by rw [hfirst]; rfl) ⟨s, (concat_inj heq).2.symm⟩

/-- A file is moved back from its backup. -/
theorem move_back (ht : t₀.Plain) (h : Kept t₀ t) (hb : t₀.HasNoBackups) {l : Location}
    {s : String} {e : Entry} (he : t.get? (l ++ [s ++ backupSuffix]) = some e) :
    Kept t₀ (t.move (l ++ [s ++ backupSuffix]) (l ++ [s])) := by
  obtain ⟨hs, -⟩ := h.backup l s e he
  obtain ⟨b, hfirst, hget⟩ := get?_move_back ht h hb he
  have hother : ∀ k, (t₀.get? k).isSome → k ≠ l ++ [s ++ backupSuffix] := by
    rintro k hk rfl
    exact hb l _ hk (isBackupName_backup s)
  have hname : ¬ IsBackupName s := hb l s (by rw [hfirst]; rfl)
  have hfile : ∀ k u, k ++ [u ++ backupSuffix] ≠ l ++ [s] := by
    intro k u heq
    exact hname ⟨u, (concat_inj heq).2.symm⟩
  constructor
  · intro k hk
    rw [hget, if_neg (hother k (by rw [hk]; rfl)), if_neg]
    · exact h.directory k hk
    · rintro rfl
      rw [hfirst] at hk
      cases hk
  · intro k c hk
    rw [hget, if_neg (hother _ (by rw [hk]; rfl)), if_neg]
    · exact h.manifest k c hk
    · intro heq
      exact hs (concat_inj heq).2.symm
  · intro k u c hu hk
    rw [hget, if_neg (hother _ (by rw [hk]; rfl))]
    split
    · rename_i heq
      rw [heq, hfirst] at hk
      exact Or.inl hk
    · rename_i hne
      rw [hget, if_neg, if_neg (hfile k u)]
      · exact h.file k u c hu hk
      · intro heq
        obtain ⟨rfl, hus⟩ := concat_inj heq
        exact hne (by rw [backup_injective hus])
  · intro k u e' he'
    rw [hget] at he'
    split at he'
    · cases he'
    · rw [if_neg (hfile k u)] at he'
      exact h.backup k u e' he'
  · intro k hk
    rw [hget] at hk
    split at hk
    · cases hk
    · split at hk
      · rename_i heq
        exact Or.inl (by rw [heq, hfirst]; rfl)
      · exact h.entry k hk

end Kept

/-! ## 4. Steps that keep it -/

/-- A file patch that leads, by the text of its path, neither to a manifest nor to a file that is
called like a backup. -/
def FilePatch.Ordinary (p : FilePatch) : Prop :=
  ∀ k s, (⟨p.file⟩ : Path).inside? = some (k ++ [s]) → s ≠ manifestName ∧ ¬ IsBackupName s

theorem FilePatch.ordinary_iff {p : FilePatch} :
    p.Ordinary ↔ ((⟨p.file⟩ : Path).inside?.all fun names => names.getLast?.all fun s =>
      decide (s ≠ manifestName) && !decide (IsBackupName s)) = true := by
  unfold FilePatch.Ordinary
  cases (⟨p.file⟩ : Path).inside? with
  | none => simp
  | some names =>
    rcases List.eq_nil_or_concat names with rfl | ⟨k, s, rfl⟩
    · simp
    · rw [List.concat_eq_append]
      constructor
      · intro h
        simpa using h k s rfl
      · intro h k' s' heq
        obtain ⟨rfl, rfl⟩ := concat_inj (Option.some.inj heq)
        simpa using h

instance (p : FilePatch) : Decidable p.Ordinary :=
  decidable_of_iff _ FilePatch.ordinary_iff.symm

/-- The root of an extension that was there at first, with its manifest. -/
structure IsRoot (t₀ : Tree) (e : Enclosure) (l : Location) : Prop where
  root_eq : e.root = Path.ofNames l
  names : AreNames l
  manifest : ∃ b, t₀.get? (l ++ [manifestName]) = some (.file b)

variable {t₀ : Tree} {e : Enclosure} {l : Location}

theorem IsRoot.manifest_path (h : IsRoot t₀ e l) :
    e.root.join manifestFile = Path.ofNames (l ++ [manifestName]) := by
  rw [h.root_eq, Path.join_manifestFile h.names]

/-- The root of an extension that has been opened in a kept tree was there at first. -/
theorem Opened.isRoot (ht : t₀.Plain) {h : TreeHost} (hk : Kept t₀ h.tree) {root : Path}
    {d : Manifest} (ho : Opened h root e d) : ∃ l, IsRoot t₀ e l := by
  have hplain := hk.plain ht
  obtain ⟨l, -, hl, hroot⟩ := ho.root_eq
  obtain ⟨bytes, text, hread, -⟩ := ho.read_eq
  have hnames := hplain.names l hl
  have hnames' : AreNames (l ++ [manifestName]) :=
    hnames.append (by simpa [AreNames] using manifestName_isName)
  rw [ho.path_eq, hroot, Path.join_manifestFile hnames] at hread
  obtain ⟨k, hlocate, hget⟩ := Tree.read_eq_ok_iff.mp hread
  obtain ⟨rfl, -⟩ := (Tree.locate_ofNames_iff hplain.no_link hnames').mp hlocate
  exact ⟨l, hroot, hnames, hk.wasFile ht not_isBackupName_manifestName hget⟩

/-- The file that a file patch reads in a kept tree, if it can read one. -/
theorem exists_place_of_read (ht : t₀.Plain) {h : TreeHost} (hk : Kept t₀ h.tree)
    (hroot : IsRoot t₀ e l) {p : FilePatch} (hp : p.Ordinary) {path : Path} {b : ByteArray}
    (hplace : e.place ⟨p.file⟩ = .ok path) (hread : h.tree.read h.working path = .ok b) :
    ∃ k s b₀, (⟨p.file⟩ : Path).inside? = some (k ++ [s]) ∧ AreNames (l ++ k ++ [s]) ∧
      path = Path.ofNames (l ++ k ++ [s]) ∧ s ≠ manifestName ∧ ¬ IsBackupName s ∧
      h.tree.get? (l ++ k ++ [s]) = some (.file b) ∧
      t₀.get? (l ++ k ++ [s]) = some (.file b₀) := by
  have hplain := hk.plain ht
  obtain ⟨names, hnames, rfl⟩ := (Enclosure.place_eq_ok hroot.root_eq hroot.names).mp hplace
  have hall := hroot.names.append (Path.areNames_of_inside? hnames)
  obtain ⟨q, hlocate, hget⟩ := Tree.read_eq_ok_iff.mp hread
  obtain ⟨rfl, -⟩ := (Tree.locate_ofNames_iff hplain.no_link hall).mp hlocate
  rcases List.eq_nil_or_concat names with rfl | ⟨k, s, rfl⟩
  · -- the root itself is a directory
    obtain ⟨b', hb'⟩ := hroot.manifest
    have hdir := hk.directory l (ht.parents l manifestName (by rw [hb']; rfl))
    rw [List.append_nil, hdir] at hget
    cases hget
  · rw [List.concat_eq_append] at hnames hall hget ⊢
    rw [← List.append_assoc] at hall hget ⊢
    obtain ⟨hs, hname⟩ := hp k s hnames
    obtain ⟨b₀, hfirst⟩ := hk.wasFile ht hname hget
    exact ⟨k, s, b₀, hnames, hall, rfl, hs, hname, hget, hfirst⟩

/-- Backing up a file keeps the first content, which is in the backup afterwards. -/
theorem Kept.backedUp (ht : t₀.Plain) (hb : t₀.HasNoBackups) {t t' : Tree} {working : Location}
    (hk : Kept t₀ t) {s : String} {b b₀ : ByteArray} (hnames : AreNames (l ++ [s]))
    (hs : s ≠ manifestName) (hfile : t.get? (l ++ [s]) = some (.file b))
    (hfirst : t₀.get? (l ++ [s]) = some (.file b₀))
    (hbackup : BackedUp t working (Path.ofNames (l ++ [s])) b t') :
    Kept t₀ t' ∧ t'.get? (l ++ [s ++ backupSuffix]) = some (.file b₀) ∧
      ∀ k, k ≠ l ++ [s ++ backupSuffix] → t'.get? k = t.get? k := by
  have hplain := hk.plain ht
  cases hbackup with
  | before hpresent =>
    rw [Path.backup_ofNames] at hpresent
    obtain ⟨q, hlocate, hget⟩ := Tree.present_eq_true_iff.mp hpresent
    obtain ⟨rfl, -⟩ := (Tree.locate_ofNames_iff hplain.no_link hnames.backup).mp hlocate
    obtain ⟨e, he⟩ := Option.isSome_iff_exists.mp hget
    obtain ⟨-, c, hc, rfl⟩ := hk.backup l s e he
    rw [hfirst] at hc
    cases hc
    exact ⟨hk, he, fun _ _ => rfl⟩
  | now habsent hwrite =>
    rw [Path.backup_ofNames] at habsent hwrite
    obtain ⟨q, hlocate, -, rfl⟩ := Tree.write_eq_ok_iff.mp hwrite
    obtain ⟨rfl, hreach⟩ := (Tree.locate_ofNames_iff hplain.no_link hnames.backup).mp hlocate
    have hnone := Tree.get?_of_not_present habsent hlocate
    -- without a backup, the file still has its first content
    have hsame : b = b₀ := by
      rcases hk.file l s b₀ hs hfirst with hf | ⟨-, hf⟩
      · rw [hfile] at hf
        cases hf
        rfl
      · rw [hnone] at hf
        cases hf
    subst hsame
    refine ⟨hk.set_backup hb hs hfirst, Tree.get?_set_self t _ (by simp), ?_⟩
    exact fun k hne => Tree.get?_set_ne t _ hne

/-- What a file patch may have changed: one file that it leads to, and the backup of that file. -/
structure TouchedOne (t₀ : Tree) (l : Location) (p : FilePatch) (t t' : Tree) (k : Location)
    (s : String) : Prop where
  inside : (⟨p.file⟩ : Path).inside? = some (k ++ [s])
  ordinary : s ≠ manifestName ∧ ¬ IsBackupName s
  first : ∃ b₀, t₀.get? (l ++ k ++ [s]) = some (.file b₀)
  frame : ∀ q, q ≠ l ++ k ++ [s] → q ≠ l ++ k ++ [s ++ backupSuffix] → t'.get? q = t.get? q

/-- **A file patch keeps the pristine text**, however it ends, and if it has changed something, that
is one file and its backup. -/
theorem FileStep.kept (ht : t₀.Plain) (hb : t₀.HasNoBackups) {h h' : TreeHost}
    (hk : Kept t₀ h.tree) (hroot : IsRoot t₀ e l) {p : FilePatch} (hp : p.Ordinary)
    {r : Except ApplicationError Bool} (hstep : FileStep e p h r h') :
    Kept t₀ h'.tree ∧ h'.working = h.working ∧
      (h'.tree = h.tree ∧ r ≠ .ok true ∨
        r ≠ .ok false ∧ ∃ k s, TouchedOne t₀ l p h.tree h'.tree k s) := by
  cases hstep with
  | untouched hfiles hr =>
    rw [hfiles.1]
    exact ⟨hk, hfiles.2, Or.inl ⟨rfl, hr⟩⟩
  | failed hplace hread hbackup hworking =>
    obtain ⟨k, s, b₀, hinside, hnames, rfl, hs, hname, hfile, hfirst⟩ :=
      exists_place_of_read ht hk hroot hp hplace hread
    obtain ⟨hk', -, hframe⟩ := hk.backedUp ht hb hnames hs hfile hfirst hbackup
    exact ⟨hk', hworking, Or.inr ⟨by simp, k, s, hinside, ⟨hs, hname⟩, ⟨b₀, hfirst⟩,
      fun q _ hq => hframe q hq⟩⟩
  | written hplace hread hbackup hwrite hworking =>
    obtain ⟨k, s, b₀, hinside, hnames, rfl, hs, hname, hfile, hfirst⟩ :=
      exists_place_of_read ht hk hroot hp hplace hread
    obtain ⟨hk', hsaved, hframe⟩ := hk.backedUp ht hb hnames hs hfile hfirst hbackup
    obtain ⟨-, q, hnamed, -, hset⟩ := Tree.replace_eq_ok_iff.mp hwrite
    obtain ⟨hq, -⟩ := (Tree.namedPlace_ofNames_iff (hk'.plain ht).no_link hnames).mp hnamed
    obtain ⟨rfl, -⟩ := Prod.mk.inj hq
    rw [hset]
    refine ⟨hk'.set_file hs hname hfirst hsaved, hworking, Or.inr ⟨by simp, k, s, hinside,
      ⟨hs, hname⟩, ⟨b₀, hfirst⟩, ?_⟩⟩
    intro q hq hq'
    rw [Tree.get?_set_ne _ _ hq, hframe q hq']

/-- Replacing the manifest of an extension keeps the pristine text. -/
theorem Kept.replace_manifest (ht : t₀.Plain) {t t' : Tree} {working : Location}
    (hk : Kept t₀ t) (hroot : IsRoot t₀ e l) {new : ByteArray}
    (hwrite : t.replace working (Path.ofNames (l ++ [manifestName])) new = .ok t') :
    Kept t₀ t' ∧ t' = t.set (l ++ [manifestName]) (.file new) := by
  have hnames : AreNames (l ++ [manifestName]) :=
    hroot.names.append (by simpa [AreNames] using manifestName_isName)
  obtain ⟨-, q, hnamed, -, rfl⟩ := Tree.replace_eq_ok_iff.mp hwrite
  obtain ⟨hq, -⟩ := (Tree.namedPlace_ofNames_iff (hk.plain ht).no_link hnames).mp hnamed
  obtain ⟨rfl, -⟩ := Prod.mk.inj hq
  obtain ⟨b, hfirst⟩ := hroot.manifest
  exact ⟨hk.set_manifest hfirst, rfl⟩

/-- A manifest that could be read can be replaced, whatever other files have changed since. -/
theorem Kept.exists_replace (ht : t₀.Plain) {t t' : Tree} {working : Location} (hk : Kept t₀ t)
    (hk' : Kept t₀ t') (hroot : IsRoot t₀ e l)
    (hsame : t'.get? (l ++ [manifestName]) = t.get? (l ++ [manifestName])) {b : ByteArray}
    (hread : t.read working (Path.ofNames (l ++ [manifestName])) = .ok b) (new : ByteArray) :
    t'.replace working (Path.ofNames (l ++ [manifestName])) new =
      .ok (t'.set (l ++ [manifestName]) (.file new)) := by
  have hnames : AreNames (l ++ [manifestName]) :=
    hroot.names.append (by simpa [AreNames] using manifestName_isName)
  obtain ⟨q, hlocate, hget⟩ := Tree.read_eq_ok_iff.mp hread
  obtain ⟨rfl, hreach⟩ := (Tree.locate_ofNames_iff (hk.plain ht).no_link hnames).mp hlocate
  have hdirs : ∀ k, t'.isDirectory k = t.isDirectory k := by
    intro k
    rw [Bool.eq_iff_iff, Tree.isDirectory_iff, Tree.isDirectory_iff, hk.directory_iff ht,
      hk'.directory_iff ht]
  have hlocate' : t'.locate working true (Path.ofNames (l ++ [manifestName])) = .ok _ :=
    (Tree.locate_ofNames_iff (hk'.plain ht).no_link hnames).mpr ⟨rfl, hreach.congr hdirs⟩
  exact Tree.replace_ofNames (hk'.plain ht).no_link hnames (by decide)
    (Tree.read_eq_ok_iff.mpr ⟨_, hlocate', hsame.trans hget⟩)

/-- **Moving a file back keeps the pristine text**, however it ends.  No backup is made, and if it
ends well the file of that name has none. -/
theorem RestoreStep.kept (ht : t₀.Plain) (hb : t₀.HasNoBackups) {h h' : TreeHost}
    (hk : Kept t₀ h.tree) (hroot : IsRoot t₀ e l) {name : String}
    {r : Except ApplicationError Bool} (hstep : RestoreStep e name h r h') :
    Kept t₀ h'.tree ∧ h'.working = h.working ∧
      (∀ k s, (h'.tree.get? (k ++ [s ++ backupSuffix])).isSome →
        (h.tree.get? (k ++ [s ++ backupSuffix])).isSome) ∧
      ∀ w, r = .ok w → ∀ names k s, (⟨name⟩ : Path).inside? = some names →
        l ++ names = k ++ [s] → h'.tree.get? (k ++ [s ++ backupSuffix]) = none := by
  have hplain := hk.plain ht
  cases hstep with
  | failed hfiles =>
    rw [hfiles.1]
    exact ⟨hk, hfiles.2, fun _ _ hs => hs, by simp⟩
  | missing hplace hrename hfiles =>
    rw [hfiles.1]
    refine ⟨hk, hfiles.2, fun _ _ hs => hs, fun w _ names k s hinside hks => ?_⟩
    obtain ⟨names', hinside', rfl⟩ := (Enclosure.place_eq_ok hroot.root_eq hroot.names).mp hplace
    rw [hinside] at hinside'
    cases hinside'
    rw [hks, Path.backup_ofNames] at hrename
    -- a backup would have been found
    rw [← Option.not_isSome_iff_eq_none]
    intro hsome
    obtain ⟨e, he⟩ := Option.isSome_iff_exists.mp hsome
    obtain ⟨-, b, hfirst, -⟩ := hk.backup k s e he
    obtain ⟨b', hfile⟩ := hk.isFile hfirst
    have hnames := hplain.names _ (by rw [hfile]; rfl)
    exact Tree.rename_ne_notFound hplain hsome hnames .of_backup hrename
  | moved hplace hrename hworking =>
    obtain ⟨names, hinside, rfl⟩ := (Enclosure.place_eq_ok hroot.root_eq hroot.names).mp hplace
    have hall := hroot.names.append (Path.areNames_of_inside? hinside)
    rcases List.eq_nil_or_concat (l ++ names) with hnil | ⟨k, s, hks⟩
    · rw [hnil] at hrename
      unfold Tree.rename at hrename
      obtain ⟨a, -, hrename⟩ := bind_eq_ok.mp hrename
      obtain ⟨c, hc, -⟩ := bind_eq_ok.mp hrename
      exact absurd hc Tree.namedPlace_root
    · rw [List.concat_eq_append] at hks
      rw [hks] at hrename hall
      have hne : k ++ [s ++ backupSuffix] ≠ k ++ [s] := by
        intro heq
        have hlen := congrArg (fun u : String => u.toList.length) (concat_inj heq).2
        simp [backupSuffix] at hlen
      rw [Path.backup_ofNames] at hrename
      obtain ⟨e, he, -, -, -, hmove⟩ :=
        Tree.rename_ofNames hplain.no_link hall.backup hall hne hrename
      obtain ⟨b, hfirst, hget⟩ := hk.get?_move_back ht hb he
      rw [hmove]
      refine ⟨hk.move_back ht hb he, hworking, fun q u hu => ?_,
        fun w _ names' k' s' hinside' hks' => ?_⟩
      · rw [hget] at hu
        split at hu
        · cases hu
        · split at hu
          · rename_i heq
            exact absurd ⟨u, (concat_inj heq).2.symm⟩ (hb k s (by rw [hfirst]; rfl))
          · exact hu
      · rw [hinside] at hinside'
        cases hinside'
        rw [hks] at hks'
        obtain ⟨rfl, rfl⟩ := concat_inj hks'
        rw [hget, if_pos rfl]

end TextPatch
