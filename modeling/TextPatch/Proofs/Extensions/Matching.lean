/-
# Runs on hosts that look alike

Two hosts are *abreast* of each other if they look the same from the root of an extension, but for
what the manifest holds (`Abreast`).  Steps *match* if they answer alike on such hosts and leave
hosts that are abreast again (`OnTree.Matches`).  File patches match unless they lead to the
manifest (`Apply.filePatches_matches`).  Descriptors match, too, as long as the manifest at hand has
all that is recorded in the two manifests on disk (`Apply.descriptors_matches`).

A host is abreast of itself.  So the same lemmas say what descriptors leave alone on one host: the
manifest, all directories, and everything outside the root.
-/
import TextPatch.Proofs.Extensions.AppliedOnce
import TextPatch.Proofs.Files.Views

namespace TextPatch

/-! ## 1. Steps that match -/

/-- Steps that answer alike on two hosts that are related, and leave related hosts. -/
def OnTree.Matches {α : Type} (R : TreeHost → TreeHost → Prop) (x : OnTree α) : Prop :=
  ∀ h h', R h h' → (x h').1 = (x h).1 ∧ R (x h).2 (x h').2

namespace OnTree.Matches

variable {α β : Type} {R : TreeHost → TreeHost → Prop} {x : OnTree α} {f : α → OnTree β}

theorem pure (a : α) : Matches R (Pure.pure a) := fun _ _ hR => ⟨rfl, hR⟩

/-- What follows may rely on an answer that has been given. -/
theorem bind_of (hx : Matches R x) (hf : ∀ h h', R h h' → Matches R (f (x h).1)) :
    Matches R (x >>= f) := by
  intro h h' hR
  obtain ⟨hanswer, hafter⟩ := hx h h' hR
  rw [bind_apply, bind_apply, hanswer]
  exact hf h h' hR _ _ hafter

theorem bind (hx : Matches R x) (hf : ∀ a, Matches R (f a)) : Matches R (x >>= f) :=
  hx.bind_of fun h _ _ => hf (x h).1

/-- Looking at what is the same on related hosts. -/
theorem look {g : TreeHost → α} (hg : ∀ h h', R h h' → g h' = g h) : Matches R (OnTree.look g) :=
  fun h h' hR => ⟨hg h h' hR, hR⟩

end OnTree.Matches

/-! ## 2. Trees that change in a directory -/

namespace Tree

variable {t t' t₁ t₂ : Tree} {l k : Location} {b c : ByteArray}

/-- The second tree has no links and the same directories as the first, so paths lead to the same
places in it. -/
structure SameWays (t t' : Tree) : Prop where
  directory : ∀ k, t'.isDirectory k = t.isDirectory k
  unlinked : t'.Unlinked

theorem SameWays.trans (a : t.SameWays t₁) (b : t₁.SameWays t₂) : t.SameWays t₂ :=
  ⟨fun k => (b.directory k).trans (a.directory k), b.unlinked⟩

/-- The same paths lead to the same places. -/
theorem SameWays.locate_iff (hways : t.SameWays t') (ht : t.Unlinked) {working r : Location}
    {follow : Bool} {p : Path} :
    t'.locate working follow p = .ok r ↔ t.locate working follow p = .ok r := by
  rw [locate_eq_ok_iff, locate_eq_ok_iff]
  have hnone : ∀ q target, t'.get? q = some (.link target) ↔ t.get? q = some (.link target) :=
    fun q target => iff_of_false (hways.unlinked q target) (ht q target)
  have hwalk : walk t' follow linkLimit (if p.hasRoot then [] else working) p.steps = .ok r ↔
      walk t follow linkLimit (if p.hasRoot then [] else working) p.steps = .ok r :=
    ⟨walk_congr hways.directory hnone,
      walk_congr (fun q => (hways.directory q).symm) fun q target => (hnone q target).symm⟩
  rw [hwalk]

/-- A file is put where no directory is. -/
theorem SameWays.put (ht : t.Unlinked) (hdir : t.isDirectory k = false) :
    t.SameWays (t.set k (.file c)) :=
  ⟨fun _ => isDirectory_set hdir, ht.set (ne_nil_of_isDirectory hdir)⟩

/-- What has changed from one tree to another are files in a directory. -/
structure ChangesIn (l : Location) (t t' : Tree) : Prop where
  ways : t.SameWays t'
  outside : ∀ k, ¬ l <+: k → t'.get? k = t.get? k

theorem ChangesIn.refl (ht : t.Unlinked) : ChangesIn l t t :=
  ⟨⟨fun _ => rfl, ht⟩, fun _ _ => rfl⟩

theorem ChangesIn.put (hchanges : ChangesIn l t t') (hlk : l <+: k)
    (hdir : t'.isDirectory k = false) : ChangesIn l t (t'.set k (.file c)) := by
  refine ⟨hchanges.ways.trans (.put hchanges.ways.unlinked hdir), fun q hq => ?_⟩
  have hne : q ≠ k := by
    rintro rfl
    exact hq hlk
  rw [get?_set_ne _ _ hne]
  exact hchanges.outside q hq

/-- The manifest of the extension in a directory can be reached, and it holds `b`. -/
structure Ready (l : Location) (b : ByteArray) (t : Tree) : Prop where
  names : AreNames l
  unlinked : t.Unlinked
  reaches : t.Reaches (l ++ [manifestName])
  manifest : t.get? (l ++ [manifestName]) = some (.file b)

namespace Ready

theorem isDirectory (hl : Ready l b t) : t.isDirectory l = true := hl.reaches.directory.2

theorem areNames_manifest (hl : Ready l b t) : AreNames (l ++ [manifestName]) :=
  hl.names.append (by simpa [AreNames] using manifestName_isName)

/-- The manifest of an extension that is ready is read. -/
theorem read (hl : Ready l b t) (working : Location) :
    t.read working (Path.ofNames (l ++ [manifestName])) = .ok b :=
  read_eq_ok_iff.mpr ⟨_, (locate_ofNames_iff hl.unlinked hl.areNames_manifest).mpr
    ⟨rfl, hl.reaches⟩, hl.manifest⟩

/-- An extension stays ready where another file is put somewhere. -/
theorem put (hl : Ready l b t) (hdir : t.isDirectory k = false) (hne : k ≠ l ++ [manifestName]) :
    Ready l b (t.set k (.file c)) := by
  have hways : t.SameWays (t.set k (.file c)) := .put hl.unlinked hdir
  exact ⟨hl.names, hways.unlinked, hl.reaches.congr hways.directory,
    (get?_set_ne t _ (Ne.symm hne)).trans hl.manifest⟩

theorem isDirectory_manifest (hl : Ready l b t) : t.isDirectory (l ++ [manifestName]) = false :=
  isDirectory_eq_false (by simp [hl.manifest])

/-- An extension stays ready when its manifest is replaced. -/
theorem put_manifest (hl : Ready l b t) : Ready l c (t.set (l ++ [manifestName]) (.file c)) := by
  have hways : t.SameWays (t.set (l ++ [manifestName]) (.file c)) :=
    .put hl.unlinked hl.isDirectory_manifest
  exact ⟨hl.names, hways.unlinked, hl.reaches.congr hways.directory, get?_set_self t _ (by simp)⟩

end Ready

end Tree

open TextPatch.Tree (ChangesIn PutAlike Ready Sees Similar)

variable {l k : Location} {b b' c : ByteArray} {h₀ h₀' h h' : TreeHost}

/-! ## 3. Hosts that are abreast -/

/-- Two hosts that have come from `h₀` and `h₀'` by changes in the root of an extension, and that
look the same from there, but for the manifests. -/
structure Abreast (l : Location) (b b' : ByteArray) (h₀ h₀' h h' : TreeHost) : Prop where
  ready : Ready l b h.tree
  ready' : Ready l b' h'.tree
  changes : ChangesIn l h₀.tree h.tree
  changes' : ChangesIn l h₀'.tree h'.tree
  working : h.working = h₀.working
  working' : h'.working = h₀'.working
  same : ∀ k, Sees l k → k ≠ l ++ [manifestName] → h'.tree.get? k = h.tree.get? k

namespace Abreast

/-- Two hosts that agree are abreast of each other. -/
theorem of_agreeAt (hl : Ready l b h.tree) (hl' : Ready l b' h'.tree)
    (hsame : ∀ k, Sees l k → k ≠ l ++ [manifestName] → h'.tree.get? k = h.tree.get? k) :
    Abreast l b b' h h' h h' :=
  ⟨hl, hl', .refl hl.unlinked, .refl hl'.unlinked, rfl, rfl, hsame⟩

theorem similar (hR : Abreast l b b' h₀ h₀' h h') :
    Similar l (l ++ [manifestName]) h.tree h'.tree := by
  refine ⟨hR.ready.unlinked, hR.ready'.unlinked, hR.same, ?_, ?_⟩
  · unfold Tree.isDirectory
    rw [hR.ready.manifest, hR.ready'.manifest]
  · rw [hR.ready.manifest, hR.ready'.manifest]
    rfl

theorem of_sameFiles {h₁ h₁' : TreeHost} (hR : Abreast l b b' h₀ h₀' h h')
    (hsame : h.SameFiles h₁) (hsame' : h'.SameFiles h₁') : Abreast l b b' h₀ h₀' h₁ h₁' := by
  obtain ⟨htree, hworking⟩ := hsame
  obtain ⟨htree', hworking'⟩ := hsame'
  constructor
  · rw [htree]
    exact hR.ready
  · rw [htree']
    exact hR.ready'
  · rw [htree]
    exact hR.changes
  · rw [htree']
    exact hR.changes'
  · rw [hworking, hR.working]
  · rw [hworking', hR.working']
  · rw [htree, htree']
    exact hR.same

/-- **Hosts stay abreast** where the same file is put in both. -/
theorem put {r r' : Except IoError Tree} (hR : Abreast l b b' h₀ h₀' h h') (hlk : l <+: k)
    (hne : k ≠ l ++ [manifestName]) (hput : PutAlike k c h.tree h'.tree r r') :
    (h'.withTree r').1 = (h.withTree r).1 ∧
      Abreast l b b' h₀ h₀' (h.withTree r).2 (h'.withTree r').2 := by
  cases hput with
  | failed cause => exact ⟨rfl, hR⟩
  | put hdir =>
    have hdir' : h'.tree.isDirectory k = false := by
      rw [(hR.similar.sameKind (Or.inl hlk)).isDirectory, hdir]
    exact ⟨rfl, hR.ready.put hdir hne, hR.ready'.put hdir' hne, hR.changes.put hlk hdir,
      hR.changes'.put hlk hdir', hR.working, hR.working',
      (hR.similar.set (Tree.ne_nil_of_isDirectory hdir) hne).same⟩

end Abreast

/-! ## 4. Operations on files -/

namespace OnTree.Matches

variable {names : Location} {s : String}

theorem ne_manifest (hne : names ≠ [manifestName]) : l ++ names ≠ l ++ [manifestName] := by
  simpa using hne

/-- Steps that only tell something. -/
theorem silent {x : OnTree Unit} (hx : ∀ h : TreeHost, h.SameFiles (x h).2) :
    Matches (Abreast l b b' h₀ h₀') x :=
  fun h h' hR => ⟨rfl, hR.of_sameFiles (hx h) (hx h')⟩

theorem note (level : Level) (text : String) :
    Matches (Abreast l b b' h₀ h₀') (Host.note level text : OnTree Unit) :=
  silent fun _ => ⟨rfl, rfl⟩

theorem noteAll (level : Level) (notes : List String) :
    Matches (Abreast l b b' h₀ h₀') (Host.noteAll level notes : OnTree Unit) :=
  silent fun h => by
    rw [noteAll_apply]
    exact ⟨rfl, rfl⟩

theorem present (hnames : AreNames (l ++ names)) :
    Matches (Abreast l b b' h₀ h₀') (Host.present (Path.ofNames (l ++ names)) : OnTree Bool) :=
  look fun _ _ hR => hR.similar.present hnames (List.prefix_append l names)

theorem canonicalPath (hnames : AreNames (l ++ names)) :
    Matches (Abreast l b b' h₀ h₀')
      (Host.canonicalPath (Path.ofNames (l ++ names)) : OnTree (Except IoError Path)) :=
  look fun _ _ hR => hR.similar.canonicalPath hnames (List.prefix_append l names)

theorem readText (hnames : AreNames (l ++ names)) (hne : names ≠ [manifestName]) :
    Matches (Abreast l b b' h₀ h₀')
      (Host.readText (Path.ofNames (l ++ names)) : OnTree (Except IoError String)) := by
  intro h h' hR
  have hread : h'.tree.read h'.working (Path.ofNames (l ++ names)) =
      h.tree.read h.working (Path.ofNames (l ++ names)) :=
    hR.similar.read hnames (List.prefix_append l names) (ne_manifest hne)
  rw [readText_apply, readText_apply, hread]
  exact ⟨rfl, hR⟩

theorem write (hnames : AreNames (l ++ names)) (hne : names ≠ [manifestName])
    (content : ByteArray) : Matches (Abreast l b b' h₀ h₀')
      (Host.write (Path.ofNames (l ++ names)) content : OnTree (Except IoError Unit)) := by
  intro h h' hR
  rw [write_apply, write_apply]
  exact hR.put (List.prefix_append l names) (ne_manifest hne)
    (hR.similar.write hnames (List.prefix_append l names))

theorem replace (hnames : AreNames (l ++ (names ++ [s]))) (hne : names ++ [s] ≠ [manifestName])
    (content : ByteArray) : Matches (Abreast l b b' h₀ h₀')
      (Host.replace (Path.ofNames (l ++ (names ++ [s]))) content :
        OnTree (Except IoError Unit)) := by
  intro h h' hR
  rw [replace_apply, replace_apply]
  exact hR.put (List.prefix_append l _) (ne_manifest hne) (hR.similar.replace hnames)

end OnTree.Matches

open OnTree (Matches)

/-! ## 5. File patches -/

variable {e : Enclosure} {names : Location} {s : String}

theorem Path.backup_below (l names : Location) (s : String) :
    (Path.ofNames (l ++ (names ++ [s]))).backup =
      Path.ofNames (l ++ (names ++ [s ++ backupSuffix])) := by
  rw [← List.append_assoc, Path.backup_ofNames, List.append_assoc]

/-- No backup is called like a manifest. -/
theorem backup_ne_manifest : names ++ [s ++ backupSuffix] ≠ [manifestName] := by
  intro h
  have hlast := congrArg List.getLast? h
  rw [List.getLast?_concat] at hlast
  exact manifestName_ne_backup s (Option.some.inj hlast).symm

theorem Backup.ensure_matches (hnames : AreNames (l ++ (names ++ [s]))) (content : ByteArray) :
    Matches (Abreast l b b' h₀ h₀')
      (Backup.ensure (Path.ofNames (l ++ (names ++ [s]))) content :
        OnTree (Except BackupError Bool)) := by
  have hbackup : AreNames (l ++ (names ++ [s ++ backupSuffix])) := by
    rw [← List.append_assoc] at hnames ⊢
    exact hnames.backup
  unfold Backup.ensure Backup.ensureBy
  rw [Path.backup_below]
  refine .bind (.present hbackup) fun there => ?_
  split
  · exact .pure _
  · refine .bind (.write hbackup backup_ne_manifest content) fun made => ?_
    cases made with
    | ok u => exact .bind (.note _ _) fun _ => .pure _
    | error cause => exact .pure _

theorem Enclosure.resolve_matches (he : e.root = Path.ofNames l) (hl : AreNames l)
    (relative : Path) : Matches (Abreast l b b' h₀ h₀')
      (e.resolve relative : OnTree (Except SafetyError Path)) := by
  unfold Enclosure.resolve
  cases hplace : e.place relative with
  | error cause => exact .pure _
  | ok path =>
    obtain ⟨names, hinside, rfl⟩ := (Enclosure.place_eq_ok he hl).mp hplace
    have hnames := hl.append (Path.areNames_of_inside? hinside)
    refine .bind (.present hnames) fun there => ?_
    split
    · unfold Enclosure.confirm
      refine .bind (.canonicalPath hnames) fun canonical => ?_
      cases canonical with
      | error cause => exact .pure _
      | ok canonical => exact .pure _
    · exact .pure _

/-- A file patch leads past the manifest. -/
def FilePatch.AvoidsManifest (p : FilePatch) : Prop :=
  (⟨p.file⟩ : Path).inside? ≠ some [manifestName]

instance (p : FilePatch) : Decidable p.AvoidsManifest :=
  inferInstanceAs (Decidable (_ ≠ _))

namespace Apply

theorem editFile_matches (hnames : AreNames (l ++ (names ++ [s])))
    (hne : names ++ [s] ≠ [manifestName]) (file content : String) (plans : List RulePlan) :
    Matches (Abreast l b b' h₀ h₀')
      (editFile (Path.ofNames (l ++ (names ++ [s]))) file content plans :
        OnTree (Except ApplicationError Bool)) := by
  unfold editFile
  refine .bind (Backup.ensure_matches hnames _) fun backup => ?_
  cases backup with
  | error cause => exact .pure _
  | ok made =>
    refine .bind (.noteAll _ _) fun _ => ?_
    cases applyRules file none content.toList plans with
    | error cause => exact .pure _
    | ok patched =>
      refine .bind (.replace hnames hne _) fun written => ?_
      cases written with
      | error cause => exact .pure _
      | ok u => exact .pure _

theorem patchFile_matches (hnames : AreNames (l ++ names)) (hne : names ≠ [manifestName])
    (p : FilePatch) : Matches (Abreast l b b' h₀ h₀')
      (patchFile (Path.ofNames (l ++ names)) p : OnTree (Except ApplicationError Bool)) := by
  unfold patchFile
  refine .bind_of (.readText hnames hne) fun h h' hR => ?_
  rw [OnTree.readText_apply]
  cases htext : (h.tree.read h.working (Path.ofNames (l ++ names))).bind Host.decodeText with
  | error cause =>
    cases cause with
    | notFound =>
      simp only
      split
      · exact .bind (.note _ _) fun _ => .pure _
      · exact .pure _
    | _ => exact .pure _
  | ok content =>
    -- what has been read is not the root itself
    obtain ⟨bytes, hread, -⟩ := bind_eq_ok.mp htext
    obtain ⟨r, hlocate, hfile⟩ := Tree.read_eq_ok_iff.mp hread
    obtain ⟨rfl, -⟩ := (Tree.locate_ofNames_iff hR.ready.unlinked hnames).mp hlocate
    obtain ⟨before, s, rfl⟩ := (List.eq_nil_or_concat names).resolve_left fun hnil => by
      rw [hnil, List.append_nil, Tree.isDirectory_iff.mp hR.ready.isDirectory] at hfile
      cases hfile
    rw [List.concat_eq_append] at hnames hne ⊢
    simp only
    split
    · exact .pure _
    · cases RulePlan.ofRules false p.rules with
      | error cause => exact .pure _
      | ok plans => exact editFile_matches hnames hne _ _ _

/-- **A file patch** that leads past the manifest matches. -/
theorem filePatch_matches (he : e.root = Path.ofNames l) (hl : AreNames l) {p : FilePatch}
    (hp : p.AvoidsManifest) : Matches (Abreast l b b' h₀ h₀')
      (filePatch e p : OnTree (Except ApplicationError Bool)) := by
  unfold filePatch
  refine .bind_of (Enclosure.resolve_matches he hl _) fun h h' hR => ?_
  rcases hresolve : (e.resolve ⟨p.file⟩ : OnTree _) h with ⟨place, h₁⟩
  cases place with
  | error cause => exact .pure _
  | ok path =>
    obtain ⟨-, hplace⟩ := Enclosure.resolve_apply hresolve
    obtain ⟨names, hinside, rfl⟩ := (Enclosure.place_eq_ok he hl).mp (hplace path rfl)
    refine patchFile_matches (hl.append (Path.areNames_of_inside? hinside)) ?_ p
    rintro rfl
    exact hp hinside

theorem filePatches_matches (he : e.root = Path.ofNames l) (hl : AreNames l) {ps : List FilePatch}
    (hps : ∀ p ∈ ps, p.AvoidsManifest) : Matches (Abreast l b b' h₀ h₀')
      (filePatches e ps : OnTree (Except ApplicationError (List String))) := by
  induction ps with
  | nil => exact .pure _
  | cons p rest ih =>
    refine .bind (filePatch_matches he hl (hps p List.mem_cons_self)) fun r => ?_
    cases r with
    | error cause => exact .pure _
    | ok written =>
      refine .bind (ih fun q hq => hps q (List.mem_cons_of_mem p hq)) fun r₁ => ?_
      cases r₁ with
      | error cause => exact .pure _
      | ok files => exact .pure _

end Apply

/-! ## 6. Descriptors -/

/-- A manifest has all that is recorded in some bytes. -/
def Manifest.Covers (d : Manifest) (b : ByteArray) : Prop :=
  ∀ x, RecordedIn b x → d.contains x = true

namespace Apply

variable {manifest : Manifest} {id identity : String} {d : Descriptor} {source : PatchSource}

/-- What is recorded on disk is recorded in a manifest at hand that covers it. -/
theorem isRecorded_eq (he : e.root = Path.ofNames l) (hl : Ready l b h.tree)
    (hcovers : manifest.Covers b) (identity : String) :
    (isRecorded e manifest identity : OnTree Bool) h = (manifest.contains identity, h) := by
  rcases hrun : (isRecorded e manifest identity : OnTree Bool) h with ⟨r, h₁⟩
  obtain ⟨rfl, hiff⟩ := isRecorded_apply hrun
  refine Prod.ext (Bool.eq_iff_iff.mpr (hiff.trans ⟨?_, Or.inl⟩)) rfl
  rintro (hhand | ⟨fresh, hread, hfresh⟩)
  · exact hhand
  · obtain ⟨c, hc, hrecorded⟩ := exists_recordedIn_iff hread
    rw [he, Path.join_manifestFile hl.names, hl.read] at hc
    cases hc
    exact hcovers identity ((hrecorded identity).mpr hfresh)

/-- **A descriptor matches** if the manifest at hand covers those on disk. -/
theorem descriptor_matches (he : e.root = Path.ofNames l) (hl : AreNames l)
    (hd : ∀ p ∈ d.files, p.AvoidsManifest) (hcovers : manifest.Covers b)
    (hcovers' : manifest.Covers b') : Matches (Abreast l b b' h₀ h₀')
      (descriptor e id identity manifest d :
        OnTree (Manifest × Except ApplicationError PatchResult)) := by
  unfold descriptor
  refine .bind (fun h h' hR => ?_) fun recorded => ?_
  · rw [isRecorded_eq he hR.ready hcovers, isRecorded_eq he hR.ready' hcovers']
    exact ⟨rfl, hR⟩
  · split
    · exact .bind (.note _ _) fun _ => .pure _
    · refine .bind (filePatches_matches he hl hd) fun r => ?_
      cases r with
      | ok files => exact .bind (.note _ _) fun _ => .pure _
      | error cause => exact .bind (.note _ _) fun _ => .pure _

/-- A descriptor takes nothing out of the record. -/
theorem covers_descriptor (hcovers : manifest.Covers b) :
    ((descriptor e id identity manifest d : OnTree _) h).1.1.Covers b :=
  fun x hx => Manifest.contains_of_applied (descriptor_recorded rfl).grows (hcovers x hx)

/-- **Descriptors match** if the manifest at hand covers those on disk. -/
theorem descriptors_matches (he : e.root = Path.ofNames l) (hl : AreNames l)
    {ds : List Descriptor} (hds : ∀ d ∈ ds, ∀ p ∈ d.files, p.AvoidsManifest)
    (hcovers : manifest.Covers b) (hcovers' : manifest.Covers b') :
    Matches (Abreast l b b' h₀ h₀')
      (descriptors e id source manifest ds : OnTree (Manifest × List PatchOutcome)) := by
  induction ds generalizing manifest with
  | nil => exact .pure _
  | cons d rest ih =>
    refine .bind_of (descriptor_matches he hl (hds d List.mem_cons_self) hcovers hcovers')
      fun h h' _ => ?_
    refine .bind (ih (fun q hq => hds q (List.mem_cons_of_mem d hq)) (covers_descriptor hcovers)
      (covers_descriptor hcovers')) fun r => ?_
    exact .pure _

end Apply

end TextPatch
