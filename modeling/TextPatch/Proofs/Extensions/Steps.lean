/-
# What the steps of a run do to files

On a tree of files, a run of the patcher changes files in three places only: where a file patch is
applied, where a manifest is written, and where a file is moved back from its backup.  This file
says of each of them what it finds and what it leaves.

* `fileStep_filePatch` lists the ways in which a file patch can end (`FileStep`): nothing has
  changed, or the file has been read and backed up, and then either left alone or replaced;
* `Apply.openTarget_apply` says what has been seen of an extension that is open;
* `Manifest.write_apply` and `restoreStep_file` do the same for manifests and for restored files.
-/
import TextPatch.Host.OnTree
import TextPatch.Proofs.Files.Plain
import TextPatch.Restore

namespace TextPatch

/-! ## 1. Operations of the host -/

/-- Two hosts with the same files. -/
def TreeHost.SameFiles (h h' : TreeHost) : Prop := h'.tree = h.tree ∧ h'.working = h.working

theorem TreeHost.SameFiles.refl (h : TreeHost) : h.SameFiles h := ⟨rfl, rfl⟩

theorem TreeHost.SameFiles.trans {h h₁ h₂ : TreeHost} (a : h.SameFiles h₁)
    (b : h₁.SameFiles h₂) : h.SameFiles h₂ := ⟨b.1.trans a.1, b.2.trans a.2⟩

namespace OnTree

@[simp] theorem present_apply (p : Path) (h : TreeHost) :
    (Host.present p : OnTree Bool) h = (h.tree.present h.working p, h) := rfl

@[simp] theorem canonicalPath_apply (p : Path) (h : TreeHost) :
    (Host.canonicalPath p : OnTree _) h = (h.tree.canonicalPath h.working p, h) := rfl

theorem change_apply (f : Tree → Location → Except IoError Tree) (h : TreeHost) :
    change f h = h.withTree (f h.tree h.working) := rfl

theorem write_apply (p : Path) (content : ByteArray) (h : TreeHost) :
    (Host.write p content : OnTree _) h = h.withTree (h.tree.write h.working p content) :=
  change_apply (fun t l => t.write l p content) h

theorem copy_apply (p q : Path) (h : TreeHost) :
    (Host.copy p q : OnTree _) h = h.withTree (h.tree.copy h.working p q) :=
  change_apply (fun t l => t.copy l p q) h

theorem rename_apply (p q : Path) (h : TreeHost) :
    (Host.rename p q : OnTree _) h = h.withTree (h.tree.rename h.working p q) :=
  change_apply (fun t l => t.rename l p q) h

theorem replace_apply (p : Path) (content : ByteArray) (h : TreeHost) :
    (Host.replace p content : OnTree _) h =
      h.withTree (h.tree.replace h.working p content) :=
  change_apply (fun t l => t.replace l p content) h

theorem read_apply (p : Path) (h : TreeHost) :
    (Host.read p : OnTree _) h = (h.tree.read h.working p, h) := rfl

/-- A text is read as the bytes of its file are decoded. -/
@[simp] theorem readText_apply (p : Path) (h : TreeHost) :
    (Host.readText p : OnTree _) h =
      ((h.tree.read h.working p).bind Host.decodeText, h) := by
  unfold Host.readText
  rw [bind_apply, read_apply]
  cases h.tree.read h.working p <;> rfl

end OnTree

/-- Bytes that are decoded to a text are the bytes of that text. -/
theorem Host.toUTF8_of_decodeText {bytes : ByteArray} {s : String}
    (h : Host.decodeText bytes = .ok s) : s.toUTF8 = bytes := by
  unfold Host.decodeText at h
  split at h
  · rename_i r hr
    cases h
    unfold String.fromUTF8? at hr
    split at hr
    · cases hr
      rfl
    · cases hr
  · cases h

theorem Host.eq_of_decodeText {s s' : String} (h : Host.decodeText s.toUTF8 = .ok s') : s' = s :=
  String.toByteArray_inj.mp (Host.toUTF8_of_decodeText h)

/-! ## 2. File patches -/

/-- A file that holds `content` has a backup: there was one, or one has been made. -/
inductive BackedUp (t : Tree) (working : Location) (path : Path) (content : ByteArray) :
    Tree → Prop
  | before (h : t.present working path.backup = true) : BackedUp t working path content t
  | now {t' : Tree} (habsent : t.present working path.backup = false)
      (hwrite : t.write working path.backup content = .ok t') : BackedUp t working path content t'

/-- What the rules of a file patch make of a text. -/
def FilePatch.Makes (p : FilePatch) (former new : String) : Prop :=
  ∃ plans patched, RulePlan.ofRules false p.rules = .ok plans ∧
    applyRules p.file none former.toList plans = .ok patched ∧ new = String.ofList patched

/-- How a file patch can end.  Either no file has changed, and none is reported as written; or the
file has been read and backed up, and after that it has been replaced, or the patch has failed. -/
inductive FileStep (e : Enclosure) (p : FilePatch) (h : TreeHost) :
    Except ApplicationError Bool → TreeHost → Prop
  | untouched {r : Except ApplicationError Bool} {h' : TreeHost} (hfiles : h.SameFiles h')
      (hr : r ≠ .ok true) : FileStep e p h r h'
  | failed {path : Path} {content : ByteArray} {cause : ApplicationError} {h' : TreeHost}
      (hplace : e.place ⟨p.file⟩ = .ok path) (hread : h.tree.read h.working path = .ok content)
      (hbackup : BackedUp h.tree h.working path content h'.tree)
      (hworking : h'.working = h.working) : FileStep e p h (.error cause) h'
  | written {path : Path} {content new : ByteArray} {t : Tree} {h' : TreeHost}
      (hplace : e.place ⟨p.file⟩ = .ok path) (hread : h.tree.read h.working path = .ok content)
      (hbackup : BackedUp h.tree h.working path content t)
      (hwrite : t.replace h.working path new = .ok h'.tree)
      (hworking : h'.working = h.working)
      (hmakes : ∃ former made, content = former.toUTF8 ∧ new = made.toUTF8 ∧
        p.Makes former made) : FileStep e p h (.ok true) h'

/-- Making a backup, in whichever way: there is one, or it is refused, or it has been made. -/
theorem Backup.ensureBy_apply {path : Path} {make : OnTree (Except IoError Unit)}
    {made : Except IoError Tree} {h h' : TreeHost} {r : Except BackupError Bool}
    (hmake : make h = h.withTree made) (hrun : (Backup.ensureBy path make : OnTree _) h = (r, h')) :
    (h.tree.present h.working path.backup = true ∧ r = .ok false ∧ h' = h) ∨
      (∃ cause, h.tree.present h.working path.backup = false ∧ made = .error cause ∧
        r = .error (.create path cause) ∧ h' = h) ∨
      (h.tree.present h.working path.backup = false ∧ made = .ok h'.tree ∧ r = .ok true ∧
        h'.working = h.working) := by
  unfold Backup.ensureBy at hrun
  rw [OnTree.bind_apply, OnTree.present_apply] at hrun
  simp only at hrun
  cases hpresent : h.tree.present h.working path.backup with
  | true =>
    rw [hpresent] at hrun
    simp only [if_true, OnTree.pure_apply] at hrun
    obtain ⟨rfl, rfl⟩ := Prod.mk.inj hrun
    exact Or.inl ⟨rfl, rfl, rfl⟩
  | false =>
    rw [hpresent] at hrun
    simp only [Bool.false_eq_true, if_false] at hrun
    rw [OnTree.bind_apply, hmake] at hrun
    cases made with
    | error cause =>
      obtain ⟨rfl, rfl⟩ := Prod.mk.inj hrun
      exact Or.inr (Or.inl ⟨cause, rfl, rfl, rfl, rfl⟩)
    | ok t =>
      simp only [TreeHost.withTree, OnTree.bind_apply, OnTree.note_apply,
        OnTree.pure_apply] at hrun
      obtain ⟨rfl, rfl⟩ := Prod.mk.inj hrun
      exact Or.inr (Or.inr ⟨rfl, rfl, rfl, rfl⟩)

/-- Making a backup with a content. -/
theorem Backup.ensure_apply {path : Path} {content : ByteArray} {h h' : TreeHost}
    {r : Except BackupError Bool}
    (hrun : (Backup.ensure path content : OnTree _) h = (r, h')) :
    (∃ cause, r = .error cause ∧ h.SameFiles h') ∨
      (∃ b, r = .ok b ∧ BackedUp h.tree h.working path content h'.tree ∧
        h'.working = h.working) := by
  rcases Backup.ensureBy_apply (OnTree.write_apply path.backup content h) hrun with
    ⟨hpresent, rfl, rfl⟩ | ⟨cause, -, -, rfl, rfl⟩ | ⟨habsent, hwrite, rfl, hworking⟩
  · exact Or.inr ⟨false, rfl, .before hpresent, rfl⟩
  · exact Or.inl ⟨_, rfl, .refl _⟩
  · exact Or.inr ⟨true, rfl, .now habsent hwrite, hworking⟩

namespace Apply

/-- A file that has been read is backed up before anything else happens to it. -/
theorem fileStep_editFile {e : Enclosure} {p : FilePatch} {path : Path} {content : String}
    {plans : List RulePlan} {h h' : TreeHost} {r : Except ApplicationError Bool}
    (hplace : e.place ⟨p.file⟩ = .ok path)
    (hread : h.tree.read h.working path = .ok content.toUTF8)
    (hplans : RulePlan.ofRules false p.rules = .ok plans)
    (hrun : (editFile path p.file content plans : OnTree _) h = (r, h')) :
    FileStep e p h r h' := by
  unfold editFile at hrun
  rw [OnTree.bind_apply] at hrun
  rcases hensure : (Backup.ensure path content.toUTF8 : OnTree _) h with ⟨b, h₁⟩
  rw [hensure] at hrun
  rcases Backup.ensure_apply hensure with ⟨cause, rfl, hsame⟩ | ⟨b, rfl, hbackup, hworking⟩
  · simp only [OnTree.pure_apply] at hrun
    obtain ⟨rfl, rfl⟩ := Prod.mk.inj hrun
    exact .untouched hsame (by simp)
  · simp only at hrun
    rw [OnTree.bind_apply, OnTree.noteAll_apply] at hrun
    simp only at hrun
    cases hrules : applyRules p.file none content.toList plans with
    | error cause =>
      rw [hrules] at hrun
      simp only [OnTree.pure_apply] at hrun
      obtain ⟨rfl, rfl⟩ := Prod.mk.inj hrun
      exact .failed hplace hread hbackup hworking
    | ok patched =>
      rw [hrules] at hrun
      simp only at hrun
      rw [OnTree.bind_apply, OnTree.replace_apply] at hrun
      simp only [hworking] at hrun
      cases hwrite : h₁.tree.replace h.working path (String.ofList patched).toUTF8 with
      | error cause =>
        rw [hwrite] at hrun
        simp only [TreeHost.withTree, OnTree.pure_apply] at hrun
        obtain ⟨rfl, rfl⟩ := Prod.mk.inj hrun
        exact .failed hplace hread hbackup rfl
      | ok t =>
        rw [hwrite] at hrun
        simp only [TreeHost.withTree, OnTree.pure_apply] at hrun
        obtain ⟨rfl, rfl⟩ := Prod.mk.inj hrun
        exact .written hplace hread hbackup hwrite rfl
          ⟨content, _, rfl, rfl, plans, patched, hplans, hrules, rfl⟩

/-- Answering without a step. -/
theorem fileStep_pure {e : Enclosure} {p : FilePatch} {h h' : TreeHost}
    {r a : Except ApplicationError Bool} (ha : a ≠ .ok true)
    (hrun : (pure a : OnTree _) h = (r, h')) : FileStep e p h r h' := by
  obtain ⟨rfl, rfl⟩ := Prod.mk.inj hrun
  exact .untouched (.refl h) ha

theorem fileStep_patchFile {e : Enclosure} {p : FilePatch} {path : Path} {h h' : TreeHost}
    {r : Except ApplicationError Bool} (hplace : e.place ⟨p.file⟩ = .ok path)
    (hrun : (patchFile path p : OnTree _) h = (r, h')) : FileStep e p h r h' := by
  unfold patchFile at hrun
  rw [OnTree.bind_apply, OnTree.readText_apply] at hrun
  cases htext : (h.tree.read h.working path).bind Host.decodeText with
  | error cause =>
    rw [htext] at hrun
    cases cause with
    | notFound =>
      simp only at hrun
      by_cases hmissing : p.canBeMissing = true
      · rw [if_pos hmissing, OnTree.bind_apply, OnTree.note_apply] at hrun
        obtain ⟨rfl, rfl⟩ := Prod.mk.inj hrun
        exact .untouched ⟨rfl, rfl⟩ (by simp)
      · rw [if_neg hmissing] at hrun
        exact fileStep_pure (by simp) hrun
    | _ => exact fileStep_pure (by simp) hrun
  | ok content =>
    rw [htext] at hrun
    simp only at hrun
    obtain ⟨bytes, hread, hdecode⟩ := bind_eq_ok.mp htext
    rw [← Host.toUTF8_of_decodeText hdecode] at hread
    by_cases hrules : p.rules.isEmpty = true
    · rw [if_pos hrules] at hrun
      exact fileStep_pure (by simp) hrun
    · rw [if_neg hrules] at hrun
      cases hplans : RulePlan.ofRules false p.rules with
      | error cause =>
        rw [hplans] at hrun
        exact fileStep_pure (by simp) hrun
      | ok plans =>
        rw [hplans] at hrun
        exact fileStep_editFile hplace hread hplans hrun

end Apply

/-- Resolving a path changes nothing, and it answers the place that the text of the path names. -/
theorem Enclosure.resolve_apply {e : Enclosure} {relative : Path} {h h' : TreeHost}
    {r : Except SafetyError Path} (hrun : (e.resolve relative : OnTree _) h = (r, h')) :
    h' = h ∧ ∀ path, r = .ok path → e.place relative = .ok path := by
  unfold Enclosure.resolve at hrun
  cases hplace : e.place relative with
  | error cause =>
    rw [hplace] at hrun
    obtain ⟨rfl, rfl⟩ := Prod.mk.inj hrun
    exact ⟨rfl, by simp⟩
  | ok path =>
    rw [hplace] at hrun
    simp only at hrun
    rw [OnTree.bind_apply, OnTree.present_apply] at hrun
    by_cases hpresent : h.tree.present h.working path = true
    · simp only at hrun
      rw [if_pos hpresent, Enclosure.confirm, OnTree.bind_apply,
        OnTree.canonicalPath_apply] at hrun
      cases hcanonical : h.tree.canonicalPath h.working path with
      | error cause =>
        rw [hcanonical] at hrun
        obtain ⟨rfl, rfl⟩ := Prod.mk.inj hrun
        exact ⟨rfl, by simp⟩
      | ok canonical =>
        rw [hcanonical] at hrun
        obtain ⟨rfl, rfl⟩ := Prod.mk.inj hrun
        refine ⟨rfl, fun q hq => ?_⟩
        split at hq
        · exact hq
        · cases hq
    · simp only at hrun
      rw [if_neg hpresent] at hrun
      obtain ⟨rfl, rfl⟩ := Prod.mk.inj hrun
      exact ⟨rfl, fun q hq => hq⟩

/-- **Every way in which a file patch can end.** -/
theorem Apply.fileStep_filePatch {e : Enclosure} {p : FilePatch} {h h' : TreeHost}
    {r : Except ApplicationError Bool} (hrun : (Apply.filePatch e p : OnTree _) h = (r, h')) :
    FileStep e p h r h' := by
  unfold Apply.filePatch at hrun
  rw [OnTree.bind_apply] at hrun
  rcases hresolve : (e.resolve ⟨p.file⟩ : OnTree _) h with ⟨place, h₁⟩
  rw [hresolve] at hrun
  obtain ⟨rfl, hplace⟩ := Enclosure.resolve_apply hresolve
  cases place with
  | error cause => exact Apply.fileStep_pure (by simp) hrun
  | ok path => exact Apply.fileStep_patchFile (hplace path rfl) hrun

/-! ## 3. Manifests -/

/-- The name of the file that holds a manifest. -/
def manifestName : String := "package.json"

theorem manifestName_isName : IsName manifestName := by
  constructor <;> decide

/-- The manifest in the root of an extension. -/
theorem Path.join_manifestFile {l : Location} (hl : AreNames l) :
    (Path.ofNames l).join manifestFile = Path.ofNames (l ++ [manifestName]) :=
  Path.join_ofNames hl manifestName_isName

/-- What has been seen of an extension that is open: its root is the path of a place, and its
manifest has been read from the file of that name. -/
structure Opened (h : TreeHost) (root : Path) (e : Enclosure) (d : Manifest) : Prop where
  root_eq : ∃ l, h.tree.locate h.working true root = .ok l ∧ (h.tree.get? l).isSome ∧
    e.root = Path.ofNames l
  path_eq : d.path = e.root.join manifestFile
  read_eq : ∃ bytes text, h.tree.read h.working d.path = .ok bytes ∧
    Host.decodeText bytes = .ok text ∧ Manifest.ofText d.path text = .ok d

/-- The root is the path without links: since the manifest can be read, it is short enough. -/
theorem Opened.canonicalPath_eq {h : TreeHost} {root : Path} {e : Enclosure} {d : Manifest}
    (ho : Opened h root e d) : h.tree.canonicalPath h.working root = .ok e.root := by
  obtain ⟨l, hlocate, hsome, hroot⟩ := ho.root_eq
  obtain ⟨bytes, text, hread, -, -⟩ := ho.read_eq
  obtain ⟨z, hmanifest, -⟩ := Tree.read_eq_ok_iff.mp hread
  obtain ⟨-, -, hsize, -⟩ := Tree.locate_eq_ok_iff.mp hmanifest
  have hle : e.root.text.utf8ByteSize ≤ d.path.text.utf8ByteSize := by
    rw [ho.path_eq]
    exact Path.utf8ByteSize_le_join e.root (by decide)
  rw [Tree.canonicalPath_eq_ok_iff]
  exact ⟨l, hlocate, hsome, by rw [← hroot]; exact Nat.le_trans hle hsize, hroot⟩

theorem Manifest.path_of_ofText {path : Path} {text : String} {d : Manifest}
    (h : Manifest.ofText path text = .ok d) : d.path = path := by
  unfold Manifest.ofText at h
  split at h
  · cases h
    rfl
  · cases h
  · cases h

/-- Reading a manifest changes nothing. -/
theorem Manifest.read_apply {root : Path} {h h' : TreeHost} {r : Except RecordError Manifest}
    (hrun : (Manifest.read root : OnTree _) h = (r, h')) :
    h' = h ∧ ∀ d, r = .ok d → d.path = root.join manifestFile ∧
      ∃ bytes text, h.tree.read h.working d.path = .ok bytes ∧
        Host.decodeText bytes = .ok text ∧ Manifest.ofText d.path text = .ok d := by
  unfold Manifest.read at hrun
  rw [OnTree.bind_apply, OnTree.readText_apply] at hrun
  cases htext : (h.tree.read h.working (root.join manifestFile)).bind Host.decodeText with
  | error cause =>
    rw [htext] at hrun
    obtain ⟨rfl, rfl⟩ := Prod.mk.inj hrun
    exact ⟨rfl, by simp⟩
  | ok text =>
    rw [htext] at hrun
    obtain ⟨rfl, rfl⟩ := Prod.mk.inj hrun
    obtain ⟨bytes, hread, hdecode⟩ := bind_eq_ok.mp htext
    refine ⟨rfl, fun d hd => ?_⟩
    have hpath := Manifest.path_of_ofText hd
    exact ⟨hpath, bytes, text, by rw [hpath, hread], hdecode, by rw [hpath, hd]⟩

/-- Bytes that hold a manifest are read as it. -/
theorem Manifest.read_of_bytes {root : Path} {h : TreeHost} {bytes : ByteArray} {text : String}
    {d : Manifest} (hbytes : h.tree.read h.working (root.join manifestFile) = .ok bytes)
    (hdecode : Host.decodeText bytes = .ok text)
    (htext : Manifest.ofText (root.join manifestFile) text = .ok d) :
    ((Manifest.read root : OnTree _) h).1 = .ok d := by
  have hread : (h.tree.read h.working (root.join manifestFile)).bind Host.decodeText =
      .ok text := by
    rw [hbytes]
    exact hdecode
  unfold Manifest.read
  rw [OnTree.bind_apply, OnTree.readText_apply, hread]
  simp only
  rw [htext]
  rfl

/-- An extension is opened under its path without links. -/
theorem Apply.openTarget_of_read {root p : Path} {h : TreeHost} {d : Manifest}
    (hcanonical : h.tree.canonicalPath h.working root = .ok p)
    (hmanifest : ((Manifest.read p : OnTree _) h).1 = .ok d) :
    ((Apply.openTarget root : OnTree _) h).1 = .ok (⟨p⟩, d) := by
  unfold Apply.openTarget Enclosure.ofRoot
  rw [OnTree.bind_apply, OnTree.bind_apply, OnTree.canonicalPath_apply, hcanonical]
  simp only [OnTree.pure_apply]
  rw [OnTree.bind_apply]
  rcases hrun : (Manifest.read p : OnTree _) h with ⟨r, h₁⟩
  rw [hrun] at hmanifest
  simp only at hmanifest
  rw [hmanifest]
  rfl

/-- What has been seen of an extension that is open is what opening it answers. -/
theorem Opened.openTarget_eq {h : TreeHost} {root : Path} {e : Enclosure} {d : Manifest}
    (ho : Opened h root e d) : ((Apply.openTarget root : OnTree _) h).1 = .ok (e, d) := by
  obtain ⟨bytes, text, hread, hdecode, htext⟩ := ho.read_eq
  rw [ho.path_eq] at hread htext
  exact Apply.openTarget_of_read ho.canonicalPath_eq (Manifest.read_of_bytes hread hdecode htext)

/-- **Opening an extension changes nothing.** -/
theorem Apply.openTarget_apply {root : Path} {h h' : TreeHost}
    {r : Except ApplicationError (Enclosure × Manifest)}
    (hrun : (Apply.openTarget root : OnTree _) h = (r, h')) :
    h' = h ∧ ∀ e d, r = .ok (e, d) → Opened h root e d := by
  unfold Apply.openTarget Enclosure.ofRoot at hrun
  rw [OnTree.bind_apply, OnTree.bind_apply, OnTree.canonicalPath_apply] at hrun
  cases hcanonical : h.tree.canonicalPath h.working root with
  | error cause =>
    rw [hcanonical] at hrun
    obtain ⟨rfl, rfl⟩ := Prod.mk.inj hrun
    exact ⟨rfl, by simp⟩
  | ok canonical =>
    rw [hcanonical] at hrun
    simp only [OnTree.pure_apply] at hrun
    rw [OnTree.bind_apply] at hrun
    rcases hread : (Manifest.read canonical : OnTree _) h with ⟨m, h₁⟩
    rw [hread] at hrun
    obtain ⟨rfl, hmanifest⟩ := Manifest.read_apply hread
    cases m with
    | error cause =>
      obtain ⟨rfl, rfl⟩ := Prod.mk.inj hrun
      exact ⟨rfl, by simp⟩
    | ok d =>
      obtain ⟨rfl, rfl⟩ := Prod.mk.inj hrun
      refine ⟨rfl, fun e d' heq => ?_⟩
      obtain ⟨rfl, rfl⟩ := Prod.mk.inj (Except.ok.inj heq)
      obtain ⟨hpath, hbytes⟩ := hmanifest d rfl
      refine ⟨?_, hpath, hbytes⟩
      obtain ⟨l, hl, hsome, -, hroot⟩ := Tree.canonicalPath_eq_ok_iff.mp hcanonical
      exact ⟨l, hl, hsome, hroot⟩

/-- Writing a manifest replaces its file, or changes nothing. -/
theorem Manifest.write_apply {d : Manifest} {h h' : TreeHost} {r : Except RecordError Unit}
    (hrun : (d.write : OnTree _) h = (r, h')) :
    (∃ cause, h.tree.replace h.working d.path d.written.toUTF8 = .error cause ∧
        r = .error (.io d.path cause) ∧ h.SameFiles h') ∨
      (h.tree.replace h.working d.path d.written.toUTF8 = .ok h'.tree ∧ r = .ok () ∧
        h'.working = h.working) := by
  unfold Manifest.write at hrun
  rw [OnTree.bind_apply, OnTree.replace_apply] at hrun
  cases hreplace : h.tree.replace h.working d.path d.written.toUTF8 with
  | error cause =>
    rw [hreplace] at hrun
    obtain ⟨rfl, rfl⟩ := Prod.mk.inj hrun
    exact Or.inl ⟨cause, rfl, rfl, .refl h⟩
  | ok t =>
    rw [hreplace] at hrun
    obtain ⟨rfl, rfl⟩ := Prod.mk.inj hrun
    exact Or.inr ⟨rfl, rfl, rfl⟩

/-! ## 4. Restored files -/

/-- How moving a file of the record back can end. -/
inductive RestoreStep (e : Enclosure) (name : String) (h : TreeHost) :
    Except ApplicationError Bool → TreeHost → Prop
  | moved {path : Path} {h' : TreeHost} (hplace : e.place ⟨name⟩ = .ok path)
      (hrename : h.tree.rename h.working path.backup path = .ok h'.tree)
      (hworking : h'.working = h.working) : RestoreStep e name h (.ok true) h'
  | missing {path : Path} {h' : TreeHost} (hplace : e.place ⟨name⟩ = .ok path)
      (hrename : h.tree.rename h.working path.backup path = .error .notFound)
      (hfiles : h.SameFiles h') : RestoreStep e name h (.ok false) h'
  | failed {cause : ApplicationError} {h' : TreeHost} (hfiles : h.SameFiles h') :
      RestoreStep e name h (.error cause) h'

/-- **Every way in which a file can be moved back.** -/
theorem Restore.restoreStep_file {e : Enclosure} {name : String} {h h' : TreeHost}
    {r : Except ApplicationError Bool} (hrun : (Restore.file e name : OnTree _) h = (r, h')) :
    RestoreStep e name h r h' := by
  unfold Restore.file Backup.restore at hrun
  rw [OnTree.bind_apply] at hrun
  rcases hresolve : (e.resolve ⟨name⟩ : OnTree _) h with ⟨place, h₁⟩
  rw [hresolve] at hrun
  obtain ⟨rfl, hplace⟩ := Enclosure.resolve_apply hresolve
  cases place with
  | error cause =>
    obtain ⟨rfl, rfl⟩ := Prod.mk.inj hrun
    exact .failed (.refl h₁)
  | ok path =>
    simp only at hrun
    rw [OnTree.bind_apply, OnTree.bind_apply, OnTree.rename_apply] at hrun
    cases hrename : h₁.tree.rename h₁.working path.backup path with
    | ok t =>
      rw [hrename] at hrun
      obtain ⟨rfl, rfl⟩ := Prod.mk.inj hrun
      exact .moved (hplace path rfl) hrename rfl
    | error cause =>
      rw [hrename] at hrun
      cases cause with
      | notFound =>
        obtain ⟨rfl, rfl⟩ := Prod.mk.inj hrun
        exact .missing (hplace path rfl) hrename ⟨rfl, rfl⟩
      | _ =>
        obtain ⟨rfl, rfl⟩ := Prod.mk.inj hrun
        exact .failed (.refl h₁)

end TextPatch
