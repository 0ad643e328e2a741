/-
# The newest of the installed versions

A scan goes through the folders of a directory in the order of their names (`folders`,
`scan_eq`, `folders_ascending`).  Where several of them hold versions of one extension, the last of
those with the highest rank is found (`newest_eq_some_iff`), whatever its place.  So the names of
the folders matter between versions of one rank only: if no two have one rank, the same extension is
found under any other names and in any other order (`find_moved`).

`scan_finds_newest` puts this together with the list of all extensions.
-/
import TextPatch.Proofs.Extensions.Groups
import TextPatch.Proofs.Extensions.Listing
import TextPatch.Proofs.Extensions.Scanning
import TextPatch.Proofs.Versions.Spelling

namespace TextPatch

/-! ## 1. Folders in the order of their names -/

/-- The names of what a directory holds come in ascending order, each of them once. -/
theorem Tree.children_ascending (t : Tree) (l : Location) :
    (t.children l).Pairwise (· < ·) := by
  have hnodup : (t.children l).Nodup :=
    (List.mergeSort_perm _ _).nodup_iff.mpr (nodup_eraseDups _)
  have hsorted : (t.children l).Pairwise fun a b => decide (a ≤ b) = true :=
    List.pairwise_mergeSort (by simpa using fun a b c => le_trans)
      (by simpa using le_total) _
  exact hsorted.imp₂ (fun a b hle hne => lt_of_le_of_ne (of_decide_eq_true hle) hne) hnodup

namespace ExtensionDirectory

/-- A folder in which a scan has found an extension. -/
structure Folder where
  name : String
  extension : ScannedExtension

variable {h h' : TreeHost} {dir root : Path} {f : Folder}

/-- The folders of a directory that hold extensions, in the order of their names. -/
def folders (h : TreeHost) (dir : Path) : List Folder :=
  if h.tree.isDirectoryAt h.working dir then
    (h.tree.subdirectories h.working dir).filterMap fun name =>
      ((inspectRoot (dir.join ⟨name⟩) : OnTree _) h).1.map (Folder.mk name)
  else []

/-- What is found in a directory depends on the files only. -/
theorem inspectRoot_congr (hsame : h.SameFiles h') :
    ((inspectRoot root : OnTree _) h').1 = ((inspectRoot root : OnTree _) h).1 := by
  ext e
  rw [inspectRoot_eq_some_iff, inspectRoot_eq_some_iff]
  exact Holds.congr hsame

theorem inspectRoots_eq : ∀ (roots : List Path) (h : TreeHost),
    ((inspectRoots roots : OnTree _) h).1 =
      roots.filterMap fun root => ((inspectRoot root : OnTree _) h).1
  | [], _ => rfl
  | root :: rest, h => by
    have hsame := inspectRoot_sameFiles root h
    have happend : ((inspectRoots (root :: rest) : OnTree _) h).1 =
        ((inspectRoot root : OnTree _) h).1.toList ++
          ((inspectRoots rest : OnTree _) ((inspectRoot root : OnTree _) h).2).1 := rfl
    rw [happend, inspectRoots_eq rest, List.filterMap_cons]
    simp only [inspectRoot_congr hsame]
    cases ((inspectRoot root : OnTree _) h).1 <;> rfl

/-- A scan finds the extensions of the folders, in the order of the folders' names. -/
theorem scan_eq (dir : Path) (h : TreeHost) :
    ((scan dir : OnTree _) h).1 = (folders h dir).map Folder.extension := by
  unfold folders
  cases hdir : h.tree.isDirectoryAt h.working dir with
  | false =>
    unfold scan
    rw [OnTree.bind_apply, OnTree.isDirectory_apply, hdir]
    rfl
  | true =>
    rw [scan_apply hdir rfl, if_pos rfl, inspectRoots_eq, childPaths, List.filterMap_map,
      List.map_filterMap]
    simp only [Option.map_map, Function.comp_def, Option.map_id']

theorem folders_ascending (h : TreeHost) (dir : Path) :
    (folders h dir).Pairwise fun f g => f.name < g.name := by
  have hnames : (h.tree.subdirectories h.working dir).Pairwise (· < ·) := by
    unfold Tree.subdirectories
    split
    · exact (h.tree.children_ascending _).filter _
    · exact .nil
  unfold folders
  split
  · refine hnames.filterMap _ fun a b hlt f hf g hg => ?_
    obtain ⟨e, -, rfl⟩ := Option.map_eq_some_iff.mp hf
    obtain ⟨e', -, rfl⟩ := Option.map_eq_some_iff.mp hg
    exact hlt
  · exact .nil

/-- Exactly those folders are seen that are directories and hold an extension. -/
theorem mem_folders_iff : f ∈ folders h dir ↔ h.tree.isDirectoryAt h.working dir = true ∧
    f.name ∈ h.tree.subdirectories h.working dir ∧ Holds h (dir.join ⟨f.name⟩) f.extension := by
  unfold folders
  cases hdir : h.tree.isDirectoryAt h.working dir with
  | false => simp
  | true =>
    simp only [if_true, List.mem_filterMap, Option.map_eq_some_iff, inspectRoot_eq_some_iff,
      true_and]
    constructor
    · rintro ⟨name, hname, e, hholds, rfl⟩
      exact ⟨hname, hholds⟩
    · rintro ⟨hname, hholds⟩
      exact ⟨f.name, hname, f.extension, hholds, rfl⟩

/-! ## 2. The newest of several versions -/

variable {es : List ScannedExtension} {e e' a : ScannedExtension}

/-- The rank of an extension is that of its version. -/
def rank (e : ScannedExtension) : VersionKey.Rank := VersionKey.rankOf e.version

theorem newer_eq (a b : ScannedExtension) : newer a b = if rank b < rank a then a else b := by
  have hcompares := VersionKey.compareTo_ofString a.version b.version
  unfold newer rank
  split
  · rename_i hgt
    rw [if_pos (hcompares.eq_gt.mp hgt)]
  · rename_i hne
    rw [if_neg fun hlt => hne (hcompares.eq_gt.mpr hlt)]

/-- An extension is the last of those with the highest rank: what comes before it ranks no higher,
and what comes after it ranks lower. -/
def IsNewest (es : List ScannedExtension) (e : ScannedExtension) : Prop :=
  ∃ before after, es = before ++ e :: after ∧ (∀ x ∈ before, rank x ≤ rank e) ∧
    ∀ x ∈ after, rank x < rank e

theorem IsNewest.mem (hnewest : IsNewest es e) : e ∈ es := by
  obtain ⟨before, after, rfl, -, -⟩ := hnewest
  exact List.mem_append_right before List.mem_cons_self

theorem IsNewest.rank_le (hnewest : IsNewest es e) (ha : a ∈ es) : rank a ≤ rank e := by
  obtain ⟨before, after, rfl, hbefore, hafter⟩ := hnewest
  rcases List.mem_append.mp ha with ha | ha
  · exact hbefore a ha
  · rcases List.mem_cons.mp ha with rfl | ha
    · exact le_rfl
    · exact (hafter a ha).le

/-- One extension more: it is the newest unless the newest so far ranks higher. -/
theorem IsNewest.newer (hnewest : IsNewest es e) (a : ScannedExtension) :
    IsNewest (es ++ [a]) (ExtensionDirectory.newer e a) := by
  rw [newer_eq]
  split
  · rename_i hlt
    obtain ⟨before, after, rfl, hbefore, hafter⟩ := hnewest
    refine ⟨before, after ++ [a], by simp, hbefore, fun x hx => ?_⟩
    rcases List.mem_append.mp hx with hx | hx
    · exact hafter x hx
    · obtain rfl := List.mem_singleton.mp hx
      exact hlt
  · rename_i hle
    exact ⟨es, [], rfl, fun x hx => (hnewest.rank_le hx).trans (not_lt.mp hle), nofun⟩

/-- The newest so far becomes the newest of all. -/
theorem IsNewest.foldl : ∀ {more es : List ScannedExtension} {e : ScannedExtension},
    IsNewest es e → IsNewest (es ++ more) (more.foldl ExtensionDirectory.newer e)
  | [], es, e, hnewest => by
    rw [List.append_nil]
    exact hnewest
  | a :: more, es, e, hnewest => by
    rw [List.append_cons]
    exact (hnewest.newer a).foldl

/-- There is one newest extension at most: of two in different places, the later one would
rank lower than the other, and as high. -/
theorem IsNewest.unique (hnewest : IsNewest es e) (hnewest' : IsNewest es e') : e = e' := by
  have hle := hnewest.rank_le hnewest'.mem
  have hge := hnewest'.rank_le hnewest.mem
  obtain ⟨before, after, rfl, -, hafter⟩ := hnewest
  obtain ⟨before', after', heq, -, hafter'⟩ := hnewest'
  rcases List.append_eq_append_iff.mp heq with ⟨between, -, htail⟩ | ⟨between, -, htail⟩
  · rcases List.cons_eq_append_iff.mp htail with ⟨-, htail⟩ | ⟨between', -, rfl⟩
    · exact (List.cons.inj htail).1.symm
    · exact absurd hge (not_le.mpr (hafter e' (by simp)))
  · rcases List.cons_eq_append_iff.mp htail with ⟨-, htail⟩ | ⟨between', -, rfl⟩
    · exact (List.cons.inj htail).1
    · exact absurd hle (not_le.mpr (hafter' e (by simp)))

/-- **The newest extension is found**: the last of those whose versions rank highest. -/
theorem newest_eq_some_iff : newest es = some e ↔ IsNewest es e := by
  have hfound : ∀ {a es}, IsNewest (a :: es) (es.foldl newer a) := fun {a es} =>
    (show IsNewest [a] a from ⟨[], [], rfl, nofun, nofun⟩).foldl
  cases es with
  | nil => exact ⟨nofun, fun hnewest => absurd hnewest.mem List.not_mem_nil⟩
  | cons a es =>
    constructor
    · rintro ⟨⟩
      exact hfound
    · intro hnewest
      exact congrArg some (hfound.unique hnewest)

/-! ## 3. What is found for a name -/

variable {d d' : ExtensionDirectory} {id : String} {x : InstalledExtension} {fs : List Folder}

/-- Without overrides, what is found for a name is the newest extension of that name. -/
theorem find_eq_some_iff (hnone : d.overrides = []) : d.find id = some x ↔
    ∃ e, IsNewest (d.candidates id) e ∧ x = ⟨id, e.root, d.isActive id⟩ := by
  have hlookup : d.overrides.lookup id = none := by rw [hnone, List.lookup_nil]
  unfold find
  rw [rootOf_of_no_override hlookup, scannedRoot, Option.map_map, Option.map_eq_some_iff]
  simp only [newest_eq_some_iff]
  constructor
  · rintro ⟨e, hnewest, rfl⟩
    exact ⟨e, hnewest, rfl⟩
  · rintro ⟨e, hnewest, rfl⟩
    exact ⟨e, hnewest, rfl⟩

/-- A folder is chosen for a name: among the folders with extensions of that name it has the highest
rank, and the greatest name if there are several of that rank. -/
structure IsChosen (fs : List Folder) (id : String) (f : Folder) : Prop where
  mem : f ∈ fs
  same : SameName f.extension.id id
  best : ∀ g ∈ fs, SameName g.extension.id id → rank g.extension < rank f.extension ∨
    rank g.extension = rank f.extension ∧ g.name ≤ f.name

/-- The newest extension is in the chosen folder, since the folders come in the order of their
names. -/
theorem IsNewest.exists_chosen (hscanned : d.scanned = fs.map Folder.extension)
    (hascending : fs.Pairwise fun f g => f.name < g.name)
    (hnewest : IsNewest (d.candidates id) e) : ∃ f, IsChosen fs id f ∧ f.extension = e := by
  obtain ⟨before, after, hcut, hbefore, hafter⟩ := hnewest
  rw [candidates, hscanned, List.filter_map, List.map_eq_append_iff] at hcut
  obtain ⟨gs, tail, hfilter, rfl, htail⟩ := hcut
  obtain ⟨f, gs', rfl, rfl, rfl⟩ := List.map_eq_cons_iff.mp htail
  have hmem : ∀ g, g ∈ gs ++ f :: gs' ↔ g ∈ fs ∧ SameName g.extension.id id := by
    intro g
    rw [← hfilter, List.mem_filter, Function.comp_apply, equalsIgnoringAsciiCase_iff]
  have hnames : (gs ++ f :: gs').Pairwise fun f g => f.name < g.name :=
    hfilter ▸ hascending.filter _
  obtain ⟨hin, hsame⟩ := (hmem f).mp (by simp)
  refine ⟨f, ⟨hin, hsame, fun g hg hsame' => ?_⟩, rfl⟩
  -- A folder before it may have the same rank, but then its name is smaller; one behind has not.
  rcases List.mem_append.mp ((hmem g).mpr ⟨hg, hsame'⟩) with hg | hg
  · have hlt := (List.pairwise_append.mp hnames).2.2 g hg f List.mem_cons_self
    rcases (hbefore g.extension (List.mem_map_of_mem hg)).lt_or_eq with hrank | hrank
    · exact Or.inl hrank
    · exact Or.inr ⟨hrank, hlt.le⟩
  · rcases List.mem_cons.mp hg with rfl | hg
    · exact Or.inr ⟨rfl, le_rfl⟩
    · exact Or.inl (hafter g.extension (List.mem_map_of_mem hg))

/-! ## 4. Other names of the folders -/

/-- An extension in another directory. -/
def movedTo (place : Path → Path) (e : ScannedExtension) : ScannedExtension :=
  { e with root := place e.root }

/-- **The names of the folders do not matter where no two versions have the same key.**  Wherever
the extensions are moved to, and in whatever order they are scanned there, the same extension is
found. -/
theorem find_moved {place : Path → Path} (hnone : d.overrides = []) (hnone' : d'.overrides = [])
    (hmoved : d'.scanned.Perm (d.scanned.map (movedTo place)))
    (hkeys : ∀ a ∈ d.candidates id, ∀ b ∈ d.candidates id,
      VersionKey.ofString a.version = VersionKey.ofString b.version → a = b) :
    (d'.find id).map InstalledExtension.root =
      (d.find id).map fun x => place x.root := by
  have hmem : ∀ e', e' ∈ d'.candidates id ↔ ∃ e ∈ d.candidates id, movedTo place e = e' := by
    intro e'
    rw [mem_candidates_iff, hmoved.mem_iff, List.mem_map]
    constructor
    · rintro ⟨⟨e, he, rfl⟩, hsame⟩
      exact ⟨e, mem_candidates_iff.mpr ⟨he, hsame⟩, rfl⟩
    · rintro ⟨e, he, rfl⟩
      obtain ⟨he, hsame⟩ := mem_candidates_iff.mp he
      exact ⟨⟨e, he, rfl⟩, hsame⟩
  cases hfind : d.find id with
  | none =>
    cases hfind' : d'.find id with
    | none => rfl
    | some x' =>
      obtain ⟨e', hnewest', -⟩ := (find_eq_some_iff hnone').mp hfind'
      obtain ⟨e, he, -⟩ := (hmem e').mp hnewest'.mem
      have hfound := (isSome_find_iff hnone).mpr ⟨e, mem_candidates_iff.mp he⟩
      rw [hfind] at hfound
      cases hfound
  | some x =>
    obtain ⟨e, hnewest, rfl⟩ := (find_eq_some_iff hnone).mp hfind
    have hthere := (hmem _).mpr ⟨e, hnewest.mem, rfl⟩
    have hfound := (isSome_find_iff hnone').mpr ⟨_, mem_candidates_iff.mp hthere⟩
    obtain ⟨x', hfind'⟩ := Option.isSome_iff_exists.mp hfound
    obtain ⟨e', hnewest', rfl⟩ := (find_eq_some_iff hnone').mp hfind'
    obtain ⟨a, ha, rfl⟩ := (hmem e').mp hnewest'.mem
    -- A version has the same rank wherever it is, so each of the two ranks as high as the other.
    have hge : rank (movedTo place e) ≤ rank (movedTo place a) := hnewest'.rank_le hthere
    have hrank : rank a = rank e := le_antisymm (hnewest.rank_le ha) hge
    obtain rfl := hkeys a ha e hnewest.mem (VersionKey.stringsRank.key.mp hrank)
    rw [hfind']
    rfl

/-! ## 5. Scans -/

/-- What is found and listed after a scan of a directory. -/
structure FindsNewest (h : TreeHost) (dir : Path) (d : ExtensionDirectory) : Prop where
  /-- The scan has gone through the folders in the order of their names. -/
  scanned : d.scanned = (folders h dir).map Folder.extension
  ascending : (folders h dir).Pairwise fun f g => f.name < g.name
  /-- A name is found if and only if an extension of that name has been scanned. -/
  found : ∀ id, (d.find id).isSome ↔ ∃ e ∈ d.scanned, SameName e.id id
  /-- What is found is in the folder of the highest rank, the last one if there are several. -/
  chosen : ∀ id x, d.find id = some x →
    ∃ f, IsChosen (folders h dir) id f ∧ x.root = dir.join ⟨f.name⟩
  /-- If no two folders of a name have the same version key, the names of the folders do not
  matter. -/
  moved : ∀ id, (∀ f ∈ folders h dir, ∀ g ∈ folders h dir, SameName f.extension.id id →
      SameName g.extension.id id →
        VersionKey.ofString f.extension.version = VersionKey.ofString g.extension.version → f = g) →
    ∀ (d' : ExtensionDirectory) (place : Path → Path), d'.overrides = [] →
      d'.scanned.Perm (d.scanned.map (movedTo place)) →
        (d'.find id).map InstalledExtension.root = (d.find id).map fun x => place x.root
  /-- The list has every name once, in the order in which the names have been met. -/
  listed : ListsOnce (d.installed.map InstalledExtension.id) (d.scanned.map ScannedExtension.id)
  /-- Each entry of the list is what is found for its name. -/
  agrees : ∀ x ∈ d.installed, d.find x.id = some x

/-- **A scan finds the newest version of every extension, and each extension is listed once.** -/
theorem scan_finds_newest (h : TreeHost) (dir : Path) (active : List String) :
    VersionKey.StringsRank ∧ FindsNewest h dir ⟨((scan dir : OnTree _) h).1, [], active⟩ := by
  have hascending := folders_ascending h dir
  refine ⟨VersionKey.stringsRank, ⟨scan_eq dir h, hascending, fun id => isSome_find_iff rfl,
    fun id x hfind => ?chosen, fun id hkeys d' place hnone' hmoved => ?moved,
    installed_listsOnce rfl, fun x hx => find_of_mem_installed hx⟩⟩
  case chosen =>
    obtain ⟨e, hnewest, rfl⟩ := (find_eq_some_iff rfl).mp hfind
    obtain ⟨f, hchosen, rfl⟩ := hnewest.exists_chosen (scan_eq dir h) hascending
    exact ⟨f, hchosen, (mem_folders_iff.mp hchosen.mem).2.2.root_eq⟩
  case moved =>
    refine find_moved rfl hnone' hmoved fun a ha b hb hkey => ?_
    obtain ⟨ha, hsame⟩ := mem_candidates_iff.mp ha
    obtain ⟨hb, hsame'⟩ := mem_candidates_iff.mp hb
    simp only [scan_eq] at ha hb
    obtain ⟨f, hf, rfl⟩ := List.mem_map.mp ha
    obtain ⟨g, hg, rfl⟩ := List.mem_map.mp hb
    rw [hkeys f hf g hg hsame hsame' hkey]

end ExtensionDirectory

end TextPatch
