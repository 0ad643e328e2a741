/-
# All or nothing

A file patch edits a file in two steps, for the file is backed up first; and it can end in many
ways.  In a tree without links there are three (`Settles`):

* the file has been replaced by what the rules make of it, and there is a backup of it -- the old
  one, or one that holds what the file held;
* nothing has changed;
* the patch has failed, and all that has changed is that there is a backup now of a file that is as
  it was.

A descriptor applies file patches up to the first that fails, each in the tree that the one before
it left.  So a descriptor that fails leaves the effects of the file patches before that one, and at
most such a backup; and it is not recorded (`filePatch_all_or_nothing`).
-/
import TextPatch.Proofs.Extensions.Undo
import TextPatch.Proofs.Files.Beside

namespace TextPatch

/-! ## 1. Files put into plain trees -/

namespace Tree

variable {t t' : Tree} {working k : Location} {path : Path} {s : String} {content : ByteArray}

/-- A plain tree stays one when a file is put into a directory where there is none. -/
theorem Plain.set (ht : t.Plain) (hdir : t.get? k = some .directory) (hs : IsName s)
    (hnot : t.get? (k ++ [s]) ≠ some .directory) (content : ByteArray) :
    (t.set (k ++ [s]) (.file content)).Plain := by
  have hne : k ++ [s] ≠ [] := by simp
  have hget := fun l => get?_set t hne (.file content) l
  constructor
  · intro l target hl
    rw [hget] at hl
    split at hl
    · cases hl
    · exact ht.no_link l target hl
  · intro l hl
    rw [hget] at hl
    split at hl
    · rename_i heq
      rw [heq]
      exact (ht.names k (by rw [hdir]; rfl)).append (by simpa [AreNames] using hs)
    · exact ht.names l hl
  · intro l u hl
    have hparent : t.get? l = some .directory := by
      rw [hget] at hl
      split at hl
      · rename_i heq
        obtain ⟨rfl, -⟩ : l = k ∧ u = s := by simpa using heq
        exact hdir
      · exact ht.parents l u hl
    rw [hget, if_neg, hparent]
    rintro rfl
    exact hnot hparent

/-- Making the backup of a file that is read: there is something, or it holds the content now. -/
theorem Names.backedUp_cases (ht : t.Plain) (h : t.Names working path k s)
    (hbackup : BackedUp t working path content t') :
    t.get? (k ++ [s ++ backupSuffix]) ≠ none ∧ t' = t ∨
      t.get? (k ++ [s ++ backupSuffix]) = none ∧
        t' = t.set (k ++ [s ++ backupSuffix]) (.file content) := by
  -- whatever leads to the backup shows that it breaks no limit
  have hlocate : ∀ {z}, t.locate working true path.backup = .ok z →
      z = k ++ [s ++ backupSuffix] := fun hz =>
    Except.ok.inj (hz.symm.trans
      ((h.backup_of_fits (fits_of_locate hz)).locate_eq (ht.no_link _)))
  cases hbackup with
  | before hpresent =>
    obtain ⟨z, hz, hsome⟩ := present_eq_true_iff.mp hpresent
    obtain rfl := hlocate hz
    exact Or.inl ⟨fun hnone => by simp [hnone] at hsome, rfl⟩
  | now habsent hwrite =>
    obtain ⟨z, hz, -, rfl⟩ := write_eq_ok_iff.mp hwrite
    obtain rfl := hlocate hz
    exact Or.inr ⟨get?_of_not_present habsent hz, rfl⟩

/-- What holds when the backup of a file has been made. -/
theorem Names.backedUp (ht : t.Plain) (h : t.Names working path k s)
    (hbackup : BackedUp t working path content t') :
    t'.Plain ∧ t'.Names working path k s ∧
      t'.get? (k ++ [s ++ backupSuffix]) =
        (t.get? (k ++ [s ++ backupSuffix])).or (some (.file content)) ∧
      ∀ l, l ≠ k ++ [s ++ backupSuffix] → t'.get? l = t.get? l := by
  rcases h.backedUp_cases ht hbackup with ⟨hpresent, rfl⟩ | ⟨habsent, rfl⟩
  · refine ⟨ht, h, ?_, fun _ _ => rfl⟩
    obtain ⟨x, hx⟩ := Option.ne_none_iff_exists'.mp hpresent
    rw [hx, Option.some_or]
  · have hdir := isDirectory_iff.mp h.directory
    have hname : IsName (s ++ backupSuffix) := h.isName.append (by decide) (by decide)
    have hnot : t.isDirectory (k ++ [s ++ backupSuffix]) = false :=
      isDirectory_eq_false (by simp [habsent])
    refine ⟨ht.set hdir hname (by simp [habsent]) content, Unlinked.names_set ht.no_link hnot h,
      ?_, fun l hl => ?_⟩
    · rw [get?_set _ (by simp), if_pos rfl, habsent, Option.none_or]
    · rw [get?_set _ (by simp), if_neg hl]

end Tree

/-! ## 2. One file patch -/

/-- The file of a file patch stands at an entry of a directory, and holds a content. -/
structure FilePatch.StandsAt (p : FilePatch) (e : Enclosure) (h : TreeHost) (k : Location)
    (s : String) (content : ByteArray) : Prop where
  leads : ∃ path, e.place ⟨p.file⟩ = .ok path ∧ h.tree.locate h.working true path = .ok (k ++ [s])
  holds : h.tree.get? (k ++ [s]) = some (.file content)

/-- What a file patch can have done when it ends. -/
inductive Settles (e : Enclosure) (p : FilePatch) (h : TreeHost) :
    Except ApplicationError Bool → TreeHost → Prop
  /-- The file holds what the rules make of it, and there is a backup: the old one, or one of what
  the file held. -/
  | applied {k : Location} {s former new : String} {h' : TreeHost}
      (hfile : p.StandsAt e h k s former.toUTF8) (hmakes : p.Makes former new)
      (hlive : h'.tree.get? (k ++ [s]) = some (.file new.toUTF8))
      (hbackup : h'.tree.get? (k ++ [s ++ backupSuffix]) =
        (h.tree.get? (k ++ [s ++ backupSuffix])).or (some (.file former.toUTF8)))
      (hrest : ∀ l, l ≠ k ++ [s] → l ≠ k ++ [s ++ backupSuffix] →
        h'.tree.get? l = h.tree.get? l)
      (hworking : h'.working = h.working) : Settles e p h (.ok true) h'
  | unchanged {r : Except ApplicationError Bool} {h' : TreeHost} (hr : r ≠ .ok true)
      (hfiles : h.SameFiles h') : Settles e p h r h'
  /-- A backup has been made of a file that is as it was. -/
  | backedUp {k : Location} {s : String} {content : ByteArray} {cause : ApplicationError}
      {h' : TreeHost} (hfile : p.StandsAt e h k s content)
      (habsent : h.tree.get? (k ++ [s ++ backupSuffix]) = none)
      (hbackup : h'.tree.get? (k ++ [s ++ backupSuffix]) = some (.file content))
      (hrest : ∀ l, l ≠ k ++ [s ++ backupSuffix] → h'.tree.get? l = h.tree.get? l)
      (hworking : h'.working = h.working) : Settles e p h (.error cause) h'

/-- **Every way in which a file patch can end**, in a plain tree; the tree stays plain. -/
theorem FileStep.settles {e : Enclosure} {p : FilePatch} {h h' : TreeHost}
    {r : Except ApplicationError Bool} (ht : h.tree.Plain) (hstep : FileStep e p h r h') :
    Settles e p h r h' ∧ h'.tree.Plain := by
  -- a file that has been read stands somewhere, and its backup next to it
  have hstands : ∀ {path content}, e.place ⟨p.file⟩ = .ok path →
      h.tree.read h.working path = .ok content →
        ∃ k s, h.tree.Names h.working path k s ∧ p.StandsAt e h k s content := by
    intro path content hplace hread
    obtain ⟨l, hlocate, hget⟩ := Tree.read_eq_ok_iff.mp hread
    obtain ⟨k, s, rfl, hnames⟩ :=
      ht.exists_names hlocate (Tree.isDirectory_eq_false (by rw [hget]; simp))
    exact ⟨k, s, hnames, ⟨path, hplace, hlocate⟩, hget⟩
  cases hstep with
  | untouched hfiles hr => exact ⟨.unchanged hr hfiles, hfiles.1 ▸ ht⟩
  | failed hplace hread hbackup hworking =>
    obtain ⟨k, s, hnames, hfile⟩ := hstands hplace hread
    obtain ⟨hplain, -, hb, hrest⟩ := hnames.backedUp ht hbackup
    refine ⟨?_, hplain⟩
    rcases hnames.backedUp_cases ht hbackup with ⟨-, hsame⟩ | ⟨habsent, -⟩
    · exact .unchanged (by simp) ⟨hsame, hworking⟩
    · rw [habsent, Option.none_or] at hb
      exact .backedUp hfile habsent hb hrest hworking
  | @written path content new t _ hplace hread hbackup hwrite hworking hmakes =>
    obtain ⟨former, made, rfl, rfl, hmakes⟩ := hmakes
    obtain ⟨k, s, hnames, hfile⟩ := hstands hplace hread
    obtain ⟨hplain, hnames', hb, hrest⟩ := hnames.backedUp ht hbackup
    have hlive : t.get? (k ++ [s]) = some (.file former.toUTF8) := by
      rw [hrest _ (backup_ne_self k s).symm, hfile.holds]
    have hdir := Tree.isDirectory_iff.mp hnames'.directory
    have heq : h'.tree = t.set (k ++ [s]) (.file made.toUTF8) := hnames'.eq_of_replace hwrite
    have hget : ∀ l, h'.tree.get? l = if l = k ++ [s] then some (.file made.toUTF8)
        else t.get? l := fun l => by rw [heq, Tree.get?_set t (by simp)]
    refine ⟨.applied hfile hmakes ?_ ?_ (fun l hl hl' => ?_) hworking, ?_⟩
    · rw [hget, if_pos rfl]
    · rw [hget, if_neg (backup_ne_self k s), hb]
    · rw [hget, if_neg hl, hrest l hl']
    · rw [heq]
      exact hplain.set hdir hnames'.isName (by simp [hlive]) _

/-! ## 3. File patches in order -/

/-- The effects of file patches, each in the tree that the one before it left. -/
inductive Effects (e : Enclosure) :
    (ps : List FilePatch) → (files : List String) → TreeHost → TreeHost → Prop
  | nil (h : TreeHost) : Effects e [] [] h h
  | cons {p : FilePatch} {rest : List FilePatch} {written : Bool} {files : List String}
      {h h₁ h' : TreeHost} (hfirst : Settles e p h (.ok written) h₁)
      (hrest : Effects e rest files h₁ h') :
      Effects e (p :: rest) (if written then p.file :: files else files) h h'

namespace Apply

variable {e : Enclosure} {h h' : TreeHost}

theorem filePatch_settles {p : FilePatch} {r : Except ApplicationError Bool} (ht : h.tree.Plain)
    (hrun : (filePatch e p : OnTree _) h = (r, h')) :
    Settles e p h r h' ∧ h'.tree.Plain :=
  (fileStep_filePatch hrun).settles ht

theorem filePatches_effects : ∀ {ps : List FilePatch} {files : List String} {h h' : TreeHost},
    h.tree.Plain → (filePatches e ps : OnTree _) h = (.ok files, h') →
      Effects e ps files h h' ∧ h'.tree.Plain
  | [], files, h, h', ht, hrun => by
    obtain ⟨hfiles, rfl⟩ := Prod.mk.inj hrun
    obtain rfl := Except.ok.inj hfiles
    exact ⟨.nil _, ht⟩
  | p :: rest, files, h, h', ht, hrun => by
    rcases filePatches_cons hrun with ⟨cause, -, hr⟩ | ⟨written, h₁, r₁, hfile, hrest, hr⟩
    · cases hr
    · obtain ⟨hfirst, ht₁⟩ := filePatch_settles ht hfile
      cases r₁ with
      | error cause => cases hr
      | ok files₁ =>
        obtain rfl := Except.ok.inj hr
        obtain ⟨heffects, ht'⟩ := filePatches_effects ht₁ hrest
        exact ⟨.cons hfirst heffects, ht'⟩

/-- The first file patch that fails ends the row; those before it succeed on their own. -/
theorem filePatches_failed : ∀ {ps : List FilePatch} {cause : ApplicationError} {h h' : TreeHost},
    (filePatches e ps : OnTree _) h = (.error cause, h') →
      ∃ done p rest files h₁, ps = done ++ p :: rest ∧
        (filePatches e done : OnTree _) h = (.ok files, h₁) ∧
          (filePatch e p : OnTree _) h₁ = (.error cause, h')
  | [], cause, h, h', hrun => by
    obtain ⟨hr, -⟩ := Prod.mk.inj hrun
    cases hr
  | p :: rest, cause, h, h', hrun => by
    rcases filePatches_cons hrun with ⟨cause', hfile, hr⟩ | ⟨written, h₁, r₁, hfile, hrest, hr⟩
    · obtain rfl := Except.error.inj hr
      exact ⟨[], p, rest, [], h, rfl, rfl, hfile⟩
    · cases r₁ with
      | ok files => cases hr
      | error cause' =>
        obtain rfl := Except.error.inj hr
        obtain ⟨done, q, rest', files, h₂, rfl, hdone, hq⟩ := filePatches_failed hrest
        refine ⟨p :: done, q, rest', if written then p.file :: files else files, h₂, rfl, ?_, hq⟩
        rw [filePatches, OnTree.bind_apply, hfile]
        simp only [OnTree.bind_apply, hdone, OnTree.pure_apply]

/-! ## 4. Descriptors -/

/-- What a descriptor can have done when it ends: the manifest at hand after it, its result, and the
host. -/
inductive Concludes (e : Enclosure) (id identity : String) (manifest : Manifest) (d : Descriptor)
    (h : TreeHost) : Manifest × Except ApplicationError PatchResult → TreeHost → Prop
  | skipped {h' : TreeHost} (hfiles : h.SameFiles h') :
      Concludes e id identity manifest d h (manifest, .ok (.alreadyApplied id)) h'
  | applied {files : List String} {h₁ h' : TreeHost} (heffects : Effects e d.files files h h₁)
      (hfiles : h₁.SameFiles h') :
      Concludes e id identity manifest d h
        (manifest.record identity files, .ok (.applied id files)) h'
  /-- The file patches before the one that fails leave what they leave on their own, that one at
  most a backup, and those behind it nothing.  The record is as it was. -/
  | failed {done rest : List FilePatch} {p : FilePatch} {files : List String}
      {cause : ApplicationError} {h₁ h₂ h' : TreeHost} (hsplit : d.files = done ++ p :: rest)
      (hdone : (filePatches e done : OnTree _) h = (.ok files, h₁))
      (heffects : Effects e done files h h₁)
      (hfails : (filePatch e p : OnTree _) h₁ = (.error cause, h₂))
      (hsettles : Settles e p h₁ (.error cause) h₂) (hfiles : h₂.SameFiles h') :
      Concludes e id identity manifest d h (manifest, .error cause) h'

theorem descriptor_concludes {id identity : String} {manifest : Manifest} {d : Descriptor}
    {answer : Manifest × Except ApplicationError PatchResult} (ht : h.tree.Plain)
    (hrun : (descriptor e id identity manifest d : OnTree _) h = (answer, h')) :
    Concludes e id identity manifest d h answer h' := by
  obtain ⟨manifest', r⟩ := answer
  rcases descriptor_cases hrun with ⟨-, rfl, rfl, hfiles⟩ | ⟨-, r₁, h₁, hpatches, hfiles, hr⟩
  · exact .skipped hfiles
  · rcases hr with ⟨files, rfl, rfl, rfl⟩ | ⟨cause, rfl, rfl, rfl⟩
    · exact .applied (filePatches_effects ht hpatches).1 hfiles
    · obtain ⟨done, p, rest, files, h₂, hsplit, hdone, hfails⟩ := filePatches_failed hpatches
      obtain ⟨heffects, ht₂⟩ := filePatches_effects ht hdone
      exact .failed hsplit hdone heffects hfails (filePatch_settles ht₂ hfails).1 hfiles

/-- Only identities of descriptors that have been applied are entered into a record. -/
theorem contains_of_descriptors {id x : String} {source : PatchSource} :
    ∀ {ds : List Descriptor} {manifest manifest' : Manifest} {h h' : TreeHost}
      {outcomes : List PatchOutcome},
      (descriptors e id source manifest ds : OnTree _) h = ((manifest', outcomes), h') →
        manifest'.contains x = true →
          manifest.contains x = true ∨ ∃ o ∈ outcomes, o.identity = x ∧ o.isApplied = true
  | [], manifest, manifest', h, h', outcomes, hrun, hx => by
    obtain ⟨hm, -⟩ := Prod.mk.inj hrun
    obtain ⟨rfl, -⟩ := Prod.mk.inj hm
    exact Or.inl hx
  | d :: rest, manifest, manifest', h, h', outcomes, hrun, hx => by
    obtain ⟨manifest₁, r, h₁, outcomes₁, hd, hrest, rfl, -⟩ := descriptors_cons hrun
    rcases contains_of_descriptors hrest hx with hx | ⟨o, ho, hid, happlied⟩
    · rcases descriptor_cases hd with ⟨-, rfl, rfl, -⟩ |
        ⟨hnew, r₁, h₂, -, -, ⟨files, -, rfl, rfl⟩ | ⟨cause, -, rfl, rfl⟩⟩
      · exact Or.inl hx
      · have hfresh : manifest.contains (d.identity source) = false := by
          simpa using fun hc => hnew (Or.inl hc)
        rw [Manifest.contains_iff, Manifest.applied_record hfresh, List.map_append,
          List.mem_append] at hx
        rcases hx with hx | hx
        · exact Or.inl (Manifest.contains_iff.mpr hx)
        · obtain rfl : x = d.identity source := by simpa using hx
          exact Or.inr ⟨_, List.mem_cons_self, rfl, rfl⟩
      · exact Or.inl hx
    · exact Or.inr ⟨o, List.mem_cons_of_mem _ ho, hid, happlied⟩

end Apply

/-- **A file patch is all or nothing**, in every plain tree: what it reports is what it has done.
So a descriptor that fails leaves the effects of the file patches before the one that fails and at
most a backup, and what is recorded in the end has been applied. -/
theorem filePatch_all_or_nothing {h : TreeHost} (ht : h.tree.Plain) (e : Enclosure) :
    (∀ p r h', (Apply.filePatch e p : OnTree _) h = (r, h') → Settles e p h r h') ∧
    (∀ id identity manifest d answer h',
      (Apply.descriptor e id identity manifest d : OnTree _) h = (answer, h') →
        Apply.Concludes e id identity manifest d h answer h') ∧
    ∀ id source manifest ds manifest' outcomes h' x,
      (Apply.descriptors e id source manifest ds : OnTree _) h = ((manifest', outcomes), h') →
        manifest'.contains x = true →
          manifest.contains x = true ∨ ∃ o ∈ outcomes, o.identity = x ∧ o.isApplied = true :=
  ⟨fun _ _ _ hrun => (Apply.filePatch_settles ht hrun).1,
    fun _ _ _ _ _ _ hrun => Apply.descriptor_concludes ht hrun,
    fun _ _ _ _ _ _ _ _ hrun hx => Apply.contains_of_descriptors hrun hx⟩

/-- A descriptor that writes `a.js` and fails at a missing file. -/
def halfFailing : Descriptor :=
  ⟨.extensions (.one "p.x"), [insertTwo "a.js", insertTwo "missing.js"]⟩

theorem halfFailing_concludes : twoFileTree.Plain ∧ ∃ answer h',
    (Apply.descriptor ⟨⟨"/x"⟩⟩ "p.x" "i" ⟨⟨"/x/package.json"⟩, []⟩ halfFailing : OnTree _)
      (.ofTree twoFileTree) = (answer, h') ∧
    answer.2.isOk = false ∧
    (h'.tree.get? ["x", "a.js"]).bind Entry.content? = some "onetwo".toUTF8 ∧
    Apply.Concludes ⟨⟨"/x"⟩⟩ "p.x" "i" ⟨⟨"/x/package.json"⟩, []⟩ halfFailing
      (.ofTree twoFileTree) answer h' := by
  have hcheck : ((Apply.descriptor ⟨⟨"/x"⟩⟩ "p.x" "i" ⟨⟨"/x/package.json"⟩, []⟩ halfFailing :
      OnTree _) (.ofTree twoFileTree)).1.2.isOk = false ∧
      (((Apply.descriptor ⟨⟨"/x"⟩⟩ "p.x" "i" ⟨⟨"/x/package.json"⟩, []⟩ halfFailing : OnTree _)
        (.ofTree twoFileTree)).2.tree.get? ["x", "a.js"]).bind Entry.content? =
          some "onetwo".toUTF8 := by
    decide +kernel
  obtain ⟨-, hdescriptor, -⟩ :=
    filePatch_all_or_nothing (h := .ofTree twoFileTree) twoFileTree_plain ⟨⟨"/x"⟩⟩
  exact ⟨twoFileTree_plain, _, _, rfl, hcheck.1, hcheck.2, hdescriptor _ _ _ _ _ _ rfl⟩

end TextPatch
