/-
# What changes outside the root of an extension

Applying and restoring patches is meant to leave everything outside the root of the extension alone.
It does not always: the check of a path says where its file leads, but a backup that is made follows
a link under its name, and a file that is written or moved stands where the directories before its
name lead, which may be elsewhere even if the file itself leads back into the root.

* `changes_outside_iff` says exactly when a pass leaves everything outside alone: if no place that
  its file patches touch is outside.  This is so if no link is at the name of a file or of its
  backup.  The manifest is always in the root.
* It says the same of taking patches back, for the places between which files are moved.
* `stray_backup_is_made` is a pass that makes a backup outside, where a dangling link leads.
-/
import TextPatch.Proofs.Extensions.Merging
import TextPatch.Proofs.Extensions.Touching

namespace TextPatch

/-! ## 1. The root -/

/-- **The root of an extension that is open** is a standing directory, if its path starts in one. -/
theorem Opened.exists_root {h : TreeHost} {root : Path} {e : Enclosure} {d : Manifest}
    (ho : Opened h root e d) (hstart : h.tree.Stands (if root.hasRoot then [] else h.working)) :
    ∃ l, h.tree.locate h.working true root = .ok l ∧ e.root = Path.ofNames l ∧
      h.tree.Stands l := by
  obtain ⟨l, hlocate, -, hroot⟩ := ho.root_eq
  refine ⟨l, hlocate, hroot, ?_⟩
  obtain ⟨-, -, -, hwalk⟩ := Tree.locate_eq_ok_iff.mp hlocate
  obtain ⟨links, -, hfollows⟩ := Tree.walk_eq_ok_iff.mp hwalk
  refine (hfollows.stands_or (fun s hs => Path.isName_of_mem_steps hs) hstart).resolve_right ?_
  -- a file holds no manifest
  rintro ⟨k, s, rfl, hk, hs, hdir, hnot⟩
  have hnames : AreNames (k ++ [s]) := hk.names.append (by simpa [AreNames] using hs)
  have hmanifest : AreNames ((k ++ [s]) ++ [manifestName]) :=
    hnames.append (by simpa [AreNames] using manifestName_isName)
  obtain ⟨bytes, text, hread, -, -⟩ := ho.read_eq
  rw [ho.path_eq, hroot, Path.join_manifestFile hnames] at hread
  obtain ⟨-, ks, r, -, hleads, -⟩ := Tree.read_eq_ok_iff_leadsThrough.mp hread
  unfold Tree.LeadsThrough at hleads
  rw [Path.steps_ofNames hmanifest (by simp), if_pos (Path.hasRoot_ofNames _), List.append_assoc,
    List.map_append] at hleads
  have hrest := Tree.Stands.follows_names (q := []) (by simpa using hk) hleads
  cases hrest with
  | name _ _ _ hrest => cases hrest.eq_nil hdir
  | link _ _ hlink _ => exact hnot _ hlink

theorem Opened.exists_stands {h : TreeHost} {root : Path} {e : Enclosure} {d : Manifest}
    (ho : Opened h root e d) (hworking : h.tree.Stands h.working) :
    ∃ l, e.root = Path.ofNames l ∧ h.tree.Stands l := by
  have hstart : h.tree.Stands (if root.hasRoot then [] else h.working) := by
    split
    · exact Tree.stands_nil h.tree
    · exact hworking
  obtain ⟨l, -, hroot, hl⟩ := ho.exists_root hstart
  exact ⟨l, hroot, hl⟩

namespace Pass

variable {T : Pass} {l : Location}

theorem Open.final_path_eq (hopen : T.Open) (hroot : T.enclosure.root = Path.ofNames l)
    (hl : AreNames l) : T.final.path = Path.ofNames (l ++ [manifestName]) := by
  rw [hopen.final_path, hroot, Path.join_manifestFile hl]

/-- The manifest is written in the root. -/
theorem Open.writesManifest (hopen : T.Open) (hroot : T.enclosure.root = Path.ofNames l)
    (hl : T.before.tree.Stands l) {z : Location} (hz : T.WritesManifest z) :
    z = l ++ [manifestName] := by
  obtain ⟨-, b, hnamed⟩ := hz
  rw [hopen.final_path_eq hroot hl.names] at hnamed
  exact ((marked hroot hl).marks.stands hl).namedPlace_eq manifestName_isName hnamed

/-- **The marks of a pass.** -/
theorem Open.marks (hopen : T.Open) (hroot : T.enclosure.root = Path.ofNames l)
    (hl : T.before.tree.Stands l) : Marks l T.Touches T.before T.after := by
  refine (marked hroot hl).marks.append ?_
  rcases T.after_cases with ⟨hwrites, hworking, hreplace⟩ | ⟨hnot, hsame⟩
  · obtain ⟨-, z, hnamed, hdir, htree⟩ := Tree.replace_eq_ok_iff.mp hreplace
    have hz := hopen.writesManifest hroot hl ⟨hwrites, false, hnamed⟩
    have hset : Marks l (· = z) T.tried T.after :=
      .of_set hworking htree (Tree.isDirectory_eq_false hdir) fun hout => by
        rw [hz] at hout
        exact absurd (List.prefix_append _ _) hout
    refine hset.congr fun q => ?_
    unfold WritesManifest
    rw [hnamed]
    constructor
    · rintro ⟨-, b, hq⟩
      exact (Prod.mk.inj (Except.ok.inj hq)).1.symm
    · rintro rfl
      exact ⟨hwrites, false, rfl⟩
  · exact .of_sameFiles hsame fun z hz => hnot hz.1

/-- Where a pass changes files, seen from its root `l`.  Only touched places change, and the manifest
is in the root.  If a file patch touches a place outside, something has changed outside, and only
then.  None does if no link is at the name of a file or of its backup. -/
structure Confined (T : Pass) (l : Location) : Prop where
  frame : ∀ z, ¬ T.Touches z → T.after.tree.get? z = T.before.tree.get? z
  manifest : ∀ z, T.WritesManifest z → z = l ++ [manifestName]
  sameOutside_iff : T.before.SameOutside l T.after ↔
    ∀ x ∈ T.patches, ∀ z, Apply.Touches T.enclosure x.1 x.2 z → l <+: z
  direct : (∀ x ∈ T.patches, Apply.IsDirect T.enclosure x.1 x.2) → T.before.SameOutside l T.after

theorem Open.confined (hopen : T.Open) (hroot : T.enclosure.root = Path.ofNames l)
    (hl : T.before.tree.Stands l) : T.Confined l := by
  have hmanifest : ∀ z, T.WritesManifest z → z = l ++ [manifestName] :=
    fun _ => hopen.writesManifest hroot hl
  have hiff : T.before.SameOutside l T.after ↔
      ∀ x ∈ T.patches, ∀ z, Apply.Touches T.enclosure x.1 x.2 z → l <+: z := by
    rw [(hopen.marks hroot hl).sameOutside_iff]
    constructor
    · intro hinside x hx z hz
      exact hinside z (Or.inl ⟨x, hx, hz⟩)
    · rintro hinside z (⟨x, hx, hz⟩ | hz)
      · exact hinside x hx z hz
      · rw [hmanifest z hz]
        exact List.prefix_append _ _
  refine ⟨(hopen.marks hroot hl).frame, hmanifest, hiff, fun hdirect => hiff.mpr ?_⟩
  intro x hx z hz
  exact hz.inside hroot ((marked hroot hl).stands x hx) (hdirect x hx)

end Pass

/-- Every pass of a chain begins on a host whose working directory stands. -/
theorem Chain.stands {h h' : TreeHost} {Ts : List Pass} (hchain : Chain h Ts h')
    (hworking : h.tree.Stands h.working) : ∀ T ∈ Ts, T.before.tree.Stands T.before.working := by
  induction hchain with
  | nil _ => simp
  | @cons h h' T rest hsame hopen _ ih =>
    have hbefore : T.before.tree.Stands T.before.working := by
      rw [hsame.1, hsame.2]
      exact hworking
    intro U hU
    rcases List.mem_cons.mp hU with rfl | hU
    · exact hbefore
    · refine ih ?_ U hU
      obtain ⟨root, ho⟩ := hopen
      obtain ⟨l, hroot, hl⟩ := ho.exists_stands hbefore
      have hmarks := Pass.Open.marks ⟨root, ho⟩ hroot hl
      rw [hmarks.working_eq]
      exact hmarks.stands hbefore

/-! ## 2. Files that are moved back -/

namespace Restore

/-- The files of a record that are moved back one after the other, each with the host that it
meets. -/
def tried (e : Enclosure) : TreeHost → List String → List (String × TreeHost)
  | _, [] => []
  | h, name :: rest =>
    (name, h) :: match (file e name : OnTree _) h with
      | (.ok _, h') => tried e h' rest
      | (.error _, _) => []

/-- A file is moved back between two places, one of which is `z`. -/
def Moves (e : Enclosure) (name : String) (h : TreeHost) (z : Location) : Prop :=
  ((file e name : OnTree _) h).1 = .ok true ∧ (e.FileAt name h z ∨ e.BackupAt name h z)

/-- A file stands where a name of a record says, and no link. -/
def IsFile (e : Enclosure) (name : String) (h : TreeHost) : Prop :=
  ∀ z, e.FileAt name h z → ∃ b, h.tree.get? z = some (.file b)

/-- What is neither at a touched place nor below one has not changed. -/
def ChangesBelow (touches : Location → Prop) (h h' : TreeHost) : Prop :=
  ∀ z, (∀ q, touches q → ¬ q <+: z) → h'.tree.get? z = h.tree.get? z

variable {e : Enclosure} {h h' : TreeHost} {l z : Location} {name : String}

theorem ChangesBelow.append {P Q : Location → Prop} {h₁ : TreeHost}
    (hfirst : ChangesBelow P h h₁) (hrest : ChangesBelow Q h₁ h') :
    ChangesBelow (fun z => P z ∨ Q z) h h' := by
  intro z hz
  rw [hrest z fun q hq => hz q (Or.inr hq), hfirst z fun q hq => hz q (Or.inl hq)]

/-- Where only places in `l` are touched, nothing changes outside. -/
theorem ChangesBelow.sameOutside {P : Location → Prop} (hchanges : ChangesBelow P h h')
    (hinside : ∀ z, P z → l <+: z) : h.SameOutside l h' :=
  fun z hout => hchanges z fun q hq hqz => hout ((hinside q hq).trans hqz)

/-- **A file that is moved back** changes the two places between which it is moved, and what lies
below them.  If both are in a standing directory, it goes on standing. -/
theorem changesBelow_file {r : Except ApplicationError Bool}
    (hrun : (file e name : OnTree _) h = (r, h')) :
    ChangesBelow (Moves e name h) h h' ∧
      ((∀ z, Moves e name h z → l <+: z) → h.tree.Stands l → h'.tree.Stands l) := by
  have hsameFiles : h.SameFiles h' → ChangesBelow (Moves e name h) h h' ∧
      ((∀ z, Moves e name h z → l <+: z) → h.tree.Stands l → h'.tree.Stands l) := by
    intro hsame
    unfold ChangesBelow
    rw [hsame.1]
    exact ⟨fun z _ => rfl, fun _ hl => hl⟩
  cases restoreStep_file hrun with
  | missing _ _ hfiles => exact hsameFiles hfiles
  | failed hfiles => exact hsameFiles hfiles
  | @moved path _ hplace hrename hworking =>
    obtain ⟨source, target, b, b', hsource, htarget, htree | ⟨hst, hts, htree⟩⟩ :=
      Tree.exists_move_of_rename hrename
    · exact hsameFiles ⟨htree, hworking⟩
    · have hmoves : Moves e name h source ∧ Moves e name h target := by
        unfold Moves
        rw [hrun]
        exact ⟨⟨rfl, Or.inr ⟨path, b, hplace, hsource⟩⟩, ⟨rfl, Or.inl ⟨path, b', hplace, htarget⟩⟩⟩
      have hchanges : ChangesBelow (Moves e name h) h h' := by
        intro z hz
        rw [htree]
        exact Tree.get?_move_ne hst hts (hz source hmoves.1) (hz target hmoves.2)
      refine ⟨hchanges, fun hinside hl => ⟨hl.names, fun q hq => ?_⟩⟩
      -- neither place is the directory itself, for then the other one would lie below it
      have hsource' : ¬ source <+: q := by
        intro hsq
        have heq : l = source := (hinside source hmoves.1).eq_of_length_le (hsq.trans hq).length_le
        obtain ⟨rest, hrest⟩ := hinside target hmoves.2
        rw [← hrest, heq, Tree.below?_append] at hst
        cases hst
      have htarget' : ¬ target <+: q := by
        intro htq
        have heq : l = target := (hinside target hmoves.2).eq_of_length_le (htq.trans hq).length_le
        obtain ⟨rest, hrest⟩ := hinside source hmoves.1
        rw [← hrest, heq, Tree.below?_append] at hts
        cases hts
      rw [Tree.isDirectory_iff, htree, Tree.get?_move_ne hst hts hsource' htarget']
      exact Tree.isDirectory_iff.mp (hl.directories q hq)

theorem changesBelow_files : ∀ {names : List String} {h h' : TreeHost}
    {r : Except ApplicationError (List String × List String)},
    (files e names : OnTree _) h = (r, h') →
      ChangesBelow (fun z => ∃ x ∈ tried e h names, Moves e x.1 x.2 z) h h' ∧
        ((∀ x ∈ tried e h names, ∀ z, Moves e x.1 x.2 z → l <+: z) → h.tree.Stands l →
          h'.tree.Stands l)
  | [], h, h', r, hrun => by
    obtain ⟨-, rfl⟩ := Prod.mk.inj hrun
    exact ⟨fun z _ => rfl, fun _ hl => hl⟩
  | name :: rest, h, h', r, hrun => by
    rw [tried]
    simp only [List.mem_cons, exists_eq_or_imp, forall_eq_or_imp]
    rcases files_cons hrun with ⟨cause, hfile, -⟩ | ⟨b, h₁, r₁, hfile, hrest, -⟩
    · obtain ⟨hchanges, hstands⟩ := changesBelow_file (l := l) hfile
      rw [hfile]
      refine ⟨fun z hz => hchanges z fun q hq => hz q (Or.inl hq), fun hinside hl => ?_⟩
      exact hstands hinside.1 hl
    · obtain ⟨hchanges, hstands⟩ := changesBelow_file (l := l) hfile
      obtain ⟨hchanges', hstands'⟩ := changesBelow_files hrest
      rw [hfile]
      exact ⟨hchanges.append hchanges', fun hinside hl => hstands' hinside.2 (hstands hinside.1 hl)⟩

/-- **A file that stands in the root** is moved back in the root. -/
theorem Moves.inside (hroot : e.root = Path.ofNames l) (hl : h.tree.Stands l)
    (hfile : IsFile e name h) (hmoves : Moves e name h z) : l <+: z := by
  obtain ⟨hr, hz⟩ := hmoves
  rcases hrun : (file e name : OnTree _) h with ⟨r, h'⟩
  rw [hrun] at hr
  obtain rfl : r = .ok true := hr
  obtain ⟨path, hresolve⟩ : ∃ path, ((e.resolve ⟨name⟩ : OnTree _) h).1 = .ok path := by
    rcases hcheck : (e.resolve ⟨name⟩ : OnTree _) h with ⟨place, h₁⟩
    cases place with
    | ok path => exact ⟨path, rfl⟩
    | error cause =>
      unfold file at hrun
      rw [OnTree.bind_apply, hcheck] at hrun
      cases (Prod.mk.inj hrun).1
  have hplace := Enclosure.place_of_resolve hresolve
  cases restoreStep_file hrun with
  | @moved path' _ hplace' hrename hworking =>
    rw [hplace] at hplace'
    obtain rfl := Except.ok.inj hplace'
    obtain ⟨source, target, b, b', hsource, htarget, -⟩ := Tree.exists_move_of_rename hrename
    obtain ⟨n, hn, rfl⟩ := Enclosure.exists_ofNames_of_resolve hroot hl.names hresolve
    obtain ⟨q, s, k, rfl, rfl, hnames⟩ := Tree.exists_names_of_namedPlace hn htarget
    obtain ⟨content, hcontent⟩ := hfile _ ⟨_, b', hplace, htarget⟩
    have hk := Enclosure.below_of_names hroot hl hresolve hnames hcontent
    rcases hz with ⟨path, c, hplace', hnamed⟩ | ⟨path, c, hplace', hnamed⟩
    · rw [hplace] at hplace'
      obtain rfl := Except.ok.inj hplace'
      rw [htarget] at hnamed
      obtain ⟨rfl, -⟩ := Prod.mk.inj (Except.ok.inj hnamed)
      exact hk.trans (List.prefix_append _ _)
    · rw [hplace] at hplace'
      obtain rfl := Except.ok.inj hplace'
      rw [hnames.backup_of_namedPlace hn hnamed]
      exact hk.trans (List.prefix_append _ _)

/-- Files that stand in the root are all moved back in the root. -/
theorem inside_of_isFile (hroot : e.root = Path.ofNames l) : ∀ {names : List String}
    {h h' : TreeHost} {r : Except ApplicationError (List String × List String)},
    h.tree.Stands l → (files e names : OnTree _) h = (r, h') →
      (∀ x ∈ tried e h names, IsFile e x.1 x.2) →
        ∀ x ∈ tried e h names, ∀ z, Moves e x.1 x.2 z → l <+: z
  | [], _, _, _, _, _, _ => by simp [tried]
  | name :: rest, h, h', r, hl, hrun, hall => by
    rw [tried] at hall ⊢
    simp only [List.mem_cons, forall_eq_or_imp] at hall ⊢
    have hfirst : ∀ z, Moves e name h z → l <+: z := fun z => Moves.inside hroot hl hall.1
    refine ⟨hfirst, ?_⟩
    rcases files_cons hrun with ⟨cause, hfile, -⟩ | ⟨b, h₁, r₁, hfile, hrest, -⟩
    · rw [hfile]
      simp
    · rw [hfile] at hall ⊢
      exact inside_of_isFile hroot ((changesBelow_file hfile).2 hfirst hl) hrest hall.2

/-- The emptied manifest is put at the place `z`. -/
def WritesManifest (e : Enclosure) (manifest : Manifest) (h : TreeHost) (z : Location) : Prop :=
  (∃ x, ((files e manifest.appliedFiles : OnTree _) h).1 = .ok x) ∧
    ∃ b, ((files e manifest.appliedFiles : OnTree _) h).2.tree.namedPlace
      ((files e manifest.appliedFiles : OnTree _) h).2.working manifest.path = .ok (z, b)

/-- Taking patches back touches a place. -/
def Touches (e : Enclosure) (manifest : Manifest) (h : TreeHost) (z : Location) : Prop :=
  (∃ x ∈ tried e h manifest.appliedFiles, Moves e x.1 x.2 z) ∨ WritesManifest e manifest h z

/-- Where taking patches back changes files, seen from the root `l`.  Only touched places and what
lies below them change.  Nothing changes outside if files are moved in the root only, and so if the
files of the record stand there and are no links. -/
structure Confined (e : Enclosure) (manifest : Manifest) (l : Location) (h h' : TreeHost) :
    Prop where
  changesBelow : ChangesBelow (Touches e manifest h) h h'
  sameOutside : (∀ x ∈ tried e h manifest.appliedFiles, ∀ z, Moves e x.1 x.2 z → l <+: z) →
    h.SameOutside l h'
  direct : (∀ x ∈ tried e h manifest.appliedFiles, IsFile e x.1 x.2) → h.SameOutside l h'

/-- **Taking patches back** changes nothing, or the extension is opened first, and then changes are
confined as files are moved. -/
theorem confined_extension {root : Path} {r : Except ApplicationError RestoreReport}
    (hworking : h.tree.Stands h.working) (hrun : (extension root : OnTree _) h = (r, h')) :
    h.SameFiles h' ∨ ∃ e manifest l, Opened h root e manifest ∧ e.root = Path.ofNames l ∧
      Confined e manifest l h h' := by
  rcases extension_cases hrun with ⟨hsame, -⟩ | ⟨e, manifest, r₁, h₁, ho, hfiles, hend⟩
  · exact Or.inl hsame
  · obtain ⟨l, hroot, hl⟩ := ho.exists_stands hworking
    obtain ⟨hchanges, hstands⟩ := changesBelow_files (l := l) hfiles
    have hmanifest : ∀ z, WritesManifest e manifest h z ↔
        (∃ x, r₁ = .ok x) ∧ ∃ b, h₁.tree.namedPlace h₁.working manifest.path = .ok (z, b) := by
      intro z
      unfold WritesManifest
      rw [hfiles]
    have hall : ChangesBelow (Touches e manifest h) h h' := by
      refine hchanges.append ?_
      rcases hend with ⟨hsame, -⟩ | ⟨hok, hreplace, -⟩
      · intro z _
        rw [hsame.1]
      · obtain ⟨-, z, hnamed, -, htree⟩ := Tree.replace_eq_ok_iff.mp hreplace
        intro q hq
        rw [htree, Tree.get?_set_ne]
        rintro rfl
        exact hq q ((hmanifest q).mpr ⟨hok, false, hnamed⟩) (List.prefix_refl q)
    have hsameOutside : (∀ x ∈ tried e h manifest.appliedFiles, ∀ z,
        Moves e x.1 x.2 z → l <+: z) → h.SameOutside l h' := by
      intro hinside
      refine hall.sameOutside ?_
      rintro z (⟨x, hx, hz⟩ | hz)
      · exact hinside x hx z hz
      · -- the root stands to the end, so the manifest is in it
        obtain ⟨-, b, hnamed⟩ := (hmanifest z).mp hz
        rw [ho.path_eq, hroot, Path.join_manifestFile hl.names] at hnamed
        rw [(hstands hinside hl).namedPlace_eq manifestName_isName hnamed]
        exact List.prefix_append _ _
    exact Or.inr ⟨e, manifest, l, ho, hroot, hall, hsameOutside,
      fun hdirect => hsameOutside (inside_of_isFile hroot hl hfiles hdirect)⟩

end Restore

/-! ## 3. Outside the root -/

/-- **When everything outside the root stays as it is.**  Runs change files in their passes only,
and every pass is confined; so is taking patches back.  Nothing is asked of the tree but that the
working directory stands: there may be links of any kind. -/
theorem changes_outside_iff {h : TreeHost} (hworking : h.tree.Stands h.working) :
    (∀ runs, Chain h (passesOf runs h) (afterRuns runs h) ∧ ∀ T ∈ passesOf runs h,
      ∃ l, T.enclosure.root = Path.ofNames l ∧ T.Confined l) ∧
    ∀ root r h', (Restore.extension root : OnTree _) h = (r, h') →
      h.SameFiles h' ∨ ∃ e manifest l, Opened h root e manifest ∧ e.root = Path.ofNames l ∧
        Restore.Confined e manifest l h h' := by
  refine ⟨fun runs => ⟨chain_passesOf runs h, fun T hT => ?_⟩, fun root r h' hrun =>
    Restore.confined_extension hworking hrun⟩
  have hchain := chain_passesOf runs h
  obtain ⟨root, ho⟩ := hchain.open_of_mem T hT
  obtain ⟨l, hroot, hl⟩ := ho.exists_stands (hchain.stands hworking T hT)
  exact ⟨l, hroot, Pass.Open.confined ⟨root, ho⟩ hroot hl⟩

/-- An extension in which the backup of a file is a link that leads out and to nothing. -/
def strayTree : Tree where
  entries := [(["x"], .directory), (["x", "package.json"], .file "\x7b\x7d".toUTF8),
    (["x", "a.js"], .file "one".toUTF8), (["x", "a.js.backup"], .link ⟨"../stray.js"⟩)]

theorem strayTree_confined : (Tree.Stands strayTree []) ∧
    ∃ T ∈ passesOf [oneFileRun] (.ofTree strayTree), T.Writes ∧
      ∃ l, T.enclosure.root = Path.ofNames l ∧ T.Confined l := by
  have hworking := Tree.stands_nil strayTree
  have hchecked : (passesOf [oneFileRun] (.ofTree strayTree)).any
      (fun T => decide T.Writes) = true := by
    decide +kernel
  obtain ⟨T, hT, hwrites⟩ := List.any_eq_true.mp hchecked
  exact ⟨hworking, T, hT, of_decide_eq_true hwrites,
    ((changes_outside_iff (h := .ofTree strayTree) hworking).1 [oneFileRun]).2 T hT⟩

/-- **A backup is made outside the root**: it is what the dangling link under its name leads to. -/
theorem stray_backup_is_made :
    ¬ ∀ (runs : List Run) (h : TreeHost), h.tree.Stands h.working → ∀ T ∈ passesOf runs h,
      ∀ l, T.enclosure.root = Path.ofNames l → T.before.SameOutside l T.after := by
  intro hclaim
  have hchecked : (passesOf [oneFileRun] (.ofTree strayTree)).any (fun T =>
      T.enclosure.root == Path.ofNames ["x"] && (T.before.tree.get? ["stray.js"]).isNone &&
        (T.after.tree.get? ["stray.js"]).isSome) = true := by
    decide +kernel
  obtain ⟨T, hT, hparts⟩ := List.any_eq_true.mp hchecked
  rw [Bool.and_eq_true, Bool.and_eq_true] at hparts
  obtain ⟨⟨hroot, hbefore⟩, hafter⟩ := hparts
  have hsame := hclaim _ (.ofTree strayTree) (Tree.stands_nil _) T hT ["x"] (eq_of_beq hroot)
    ["stray.js"] (by decide)
  rw [hsame, Option.isNone_iff_eq_none.mp hbefore] at hafter
  cases hafter

end TextPatch
