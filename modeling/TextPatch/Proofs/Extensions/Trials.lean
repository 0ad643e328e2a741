/-
# Trials in two parts

A *trial* is what descriptors do to an extension that is open (`Apply.trial`); the manifest at hand
is written at the end, if a descriptor has been applied (`Apply.stored`).

A trial can be split (`Apply.trial_split`).  In between, the manifest is written and read again.
That gives the manifest that was at hand (`Apply.openAt_stored`), and the descriptors that follow do
not tell the manifest on disk from the one that was there at first (`Apply.abreast_trial`).
-/
import TextPatch.Proofs.Extensions.Matching
import TextPatch.Proofs.Extensions.Rereading

namespace TextPatch

open TextPatch.Tree (AgreeAt ChangesIn Ready Sees SameWays)

/-! ## 1. Manifests in their files -/

namespace Manifest

/-- A manifest is read from some bytes. -/
def IsIn (d : Manifest) (b : ByteArray) : Prop :=
  ∃ text, Host.decodeText b = .ok text ∧ ofText d.path text = .ok d

variable {d : Manifest} {b : ByteArray}

/-- A manifest has what is recorded in the bytes that it is read from. -/
theorem IsIn.covers (h : d.IsIn b) : d.Covers b := by
  obtain ⟨text, hdecode, htext⟩ := h
  exact fun x hx => (recordedIn_iff hdecode htext).mp hx

/-- A manifest that has been written is read from what has been written. -/
theorem isIn_written (h : d.Exact) : d.IsIn d.written.toUTF8 :=
  ⟨d.written, decodeText_toUTF8 d.written, h.ofText_written⟩

end Manifest

/-! ## 2. Descriptors -/

namespace Apply

variable {e : Enclosure} {id : String} {source : PatchSource}

theorem descriptors_cons_apply (manifest : Manifest) (d : Descriptor) (rest : List Descriptor)
    (h : TreeHost) :
    (descriptors e id source manifest (d :: rest) : OnTree _) h =
      let first := (descriptor e id (d.identity source) manifest d : OnTree _) h
      let others := (descriptors e id source first.1.1 rest : OnTree _) first.2
      ((others.1.1, ⟨d.identity source, id, first.1.2⟩ :: others.1.2), others.2) := rfl

/-- Descriptors can be tried in two parts. -/
theorem descriptors_append (es : List Descriptor) : ∀ (ds : List Descriptor) (manifest : Manifest)
    (h : TreeHost), (descriptors e id source manifest (ds ++ es) : OnTree _) h =
      let first := (descriptors e id source manifest ds : OnTree _) h
      let second := (descriptors e id source first.1.1 es : OnTree _) first.2
      ((second.1.1, first.1.2 ++ second.1.2), second.2)
  | [], _, _ => rfl
  | d :: ds, manifest, h => by
    rw [List.cons_append, descriptors_cons_apply, descriptors_cons_apply]
    simp only
    rw [descriptors_append es ds]
    rfl

/-- Trying descriptors keeps a manifest exact. -/
theorem exact_descriptors : ∀ {ds : List Descriptor} {manifest : Manifest} {h : TreeHost},
    manifest.Exact → ((descriptors e id source manifest ds : OnTree _) h).1.1.Exact
  | [], _, _, hexact => hexact
  | d :: rest, manifest, h, hexact => by
    rw [descriptors_cons_apply]
    suffices hfirst :
        ((descriptor e id (d.identity source) manifest d : OnTree _) h).1.1.Exact from
      exact_descriptors hfirst
    rcases hrun : (descriptor e id (d.identity source) manifest d : OnTree _) h with
      ⟨⟨manifest', r⟩, h'⟩
    rcases descriptor_cases hrun with
      ⟨-, rfl, -, -⟩ | ⟨-, r₁, h₁, -, -, ⟨files, -, rfl, -⟩ | ⟨cause, -, rfl, -⟩⟩
    · exact hexact
    · exact hexact.act (.record _ files)
    · exact hexact

end Apply

/-! ## 3. Extensions that are open -/

/-- Two hosts on which the same paths lead to the same places. -/
structure TreeHost.SamePaths (h h' : TreeHost) : Prop where
  working : h'.working = h.working
  ways : h.tree.SameWays h'.tree

namespace TreeHost.SamePaths

variable {h h' h₁ : TreeHost}

theorem refl (ht : h.tree.Unlinked) : h.SamePaths h := ⟨rfl, fun _ => rfl, ht⟩

theorem trans (a : h.SamePaths h₁) (b : h₁.SamePaths h') : h.SamePaths h' :=
  ⟨b.working.trans a.working, a.ways.trans b.ways⟩

/-- Two hosts that a third has become. -/
theorem symm_trans (a : h.SamePaths h₁) (b : h.SamePaths h') : h₁.SamePaths h' :=
  ⟨b.working.trans a.working.symm,
    fun k => (b.ways.directory k).trans (a.ways.directory k).symm, b.ways.unlinked⟩

theorem of_sameFiles (ht : h.tree.Unlinked) (hsame : h.SameFiles h') : h.SamePaths h' := by
  refine ⟨hsame.2, ?_⟩
  rw [hsame.1]
  exact ⟨fun _ => rfl, ht⟩

theorem locate_iff (hpaths : h.SamePaths h') (ht : h.tree.Unlinked) {p : Path} {l : Location} :
    h'.tree.locate h'.working true p = .ok l ↔ h.tree.locate h.working true p = .ok l := by
  rw [hpaths.working]
  exact hpaths.ways.locate_iff ht

end TreeHost.SamePaths

/-- The extension in a directory is open: its manifest is `d`, which is read from `b`. -/
structure OpenAt (l : Location) (b : ByteArray) (d : Manifest) (h : TreeHost) : Prop where
  ready : Ready l b h.tree
  path : d.path = Path.ofNames (l ++ [manifestName])
  isIn : d.IsIn b

namespace OpenAt

variable {l : Location} {b : ByteArray} {d : Manifest} {h h' : TreeHost} {root : Path}

/-- Its manifest is read. -/
theorem read_eq (hopen : OpenAt l b d h) :
    ((Manifest.read (Path.ofNames l) : OnTree _) h).1 = .ok d := by
  obtain ⟨text, hdecode, htext⟩ := hopen.isIn
  have hpath := Path.join_manifestFile hopen.ready.names
  refine Manifest.read_of_bytes (by rw [hpath, hopen.ready.read]) hdecode ?_
  rw [hpath, ← hopen.path, htext]

/-- It opens as what it is. -/
theorem openTarget_eq (hopen : OpenAt l b d h)
    (hlocate : h.tree.locate h.working true root = .ok l) :
    ((Apply.openTarget root : OnTree _) h).1 = .ok (⟨Path.ofNames l⟩, d) := by
  have hcanonical : h.tree.canonicalPath h.working root = .ok (Path.ofNames l) := by
    obtain ⟨hreaches, hdir⟩ := hopen.ready.reaches.directory
    refine Tree.canonicalPath_eq_ok_iff.mpr ⟨l, hlocate, ?_, hreaches.short, rfl⟩
    rw [Tree.isDirectory_iff.mp hdir]
    rfl
  exact Apply.openTarget_of_read hcanonical hopen.read_eq

/-- What opens is the extension in the directory that the path leads to. -/
theorem exists_of_openTarget {h₀ : TreeHost} (ht : h₀.tree.Plain) (hpaths : h₀.SamePaths h)
    {e : Enclosure} (hopen : ((Apply.openTarget root : OnTree _) h).1 = .ok (e, d)) :
    ∃ l b, h.tree.locate h.working true root = .ok l ∧ e = ⟨Path.ofNames l⟩ ∧ OpenAt l b d h := by
  rcases hrun : (Apply.openTarget root : OnTree _) h with ⟨r, h₁⟩
  rw [hrun] at hopen
  obtain ⟨⟨l, hlocate, -, hroot⟩, hpath, b, text, hread, hdecode, htext⟩ :=
    (Apply.openTarget_apply hrun).2 e d hopen
  have hnames : AreNames l := ht.areNames_of_locate ((hpaths.locate_iff ht.no_link).mp hlocate)
  have hmanifest : AreNames (l ++ [manifestName]) :=
    hnames.append (by simpa [AreNames] using manifestName_isName)
  rw [hroot, Path.join_manifestFile hnames] at hpath
  rw [hpath] at hread
  obtain ⟨r, hr, hfile⟩ := Tree.read_eq_ok_iff.mp hread
  obtain ⟨rfl, hreaches⟩ := (Tree.locate_ofNames_iff hpaths.ways.unlinked hmanifest).mp hr
  exact ⟨l, b, hlocate, by rw [← hroot], ⟨hnames, hpaths.ways.unlinked, hreaches, hfile⟩, hpath,
    text, hdecode, htext⟩

/-- It is open in another tree, too, that agrees with this one. -/
theorem of_agreeAt (hopen : OpenAt l b d h) (hways : h.tree.SameWays h'.tree)
    (hagree : AgreeAt l h.tree h'.tree) : OpenAt l b d h' :=
  ⟨⟨hopen.ready.names, hways.unlinked, hopen.ready.reaches.congr hways.directory,
    (hagree _ (Or.inl (List.prefix_append l _))).trans hopen.ready.manifest⟩, hopen.path,
    hopen.isIn⟩

end OpenAt

/-! ## 4. One extension -/

namespace Apply

variable {l : Location} {b b' : ByteArray} {d : Manifest} {h h' : TreeHost} {id : String}
  {isActive : Bool} {source : PatchSource} {ds es : List Descriptor}

/-- Descriptors all of whose file patches lead past the manifest. -/
def AvoidManifest (ds : List Descriptor) : Prop := ∀ d ∈ ds, ∀ p ∈ d.files, p.AvoidsManifest

/-- What is left of trying descriptors on the extension in a directory: the manifest at hand, the
outcomes and the host. -/
def trial (l : Location) (id : String) (source : PatchSource) (d : Manifest)
    (ds : List Descriptor) (h : TreeHost) : (Manifest × List PatchOutcome) × TreeHost :=
  (descriptors ⟨Path.ofNames l⟩ id source d ds : OnTree _) h

/-- The files after the manifest at hand has been written, if a descriptor has been applied. -/
def stored (l : Location) (r : (Manifest × List PatchOutcome) × TreeHost) : Tree :=
  if r.1.2.any PatchOutcome.isApplied then
    r.2.tree.set (l ++ [manifestName]) (.file r.1.1.written.toUTF8)
  else r.2.tree

theorem path_trial : (trial l id source d ds h).1.1.path = d.path :=
  (descriptors_recorded rfl).path_eq

theorem covers_trial (hcovers : d.Covers b) : (trial l id source d ds h).1.1.Covers b :=
  fun x hx => Manifest.contains_of_applied (descriptors_recorded rfl).grows (hcovers x hx)

theorem trial_unapplied
    (hnone : (trial l id source d ds h).1.2.any PatchOutcome.isApplied = false) :
    (trial l id source d ds h).1.1 = d :=
  (descriptors_recorded rfl).unchanged ((any_isApplied_eq_false rfl).mp hnone)

/-- **Trials on hosts that are abreast** come to the same, and leave hosts that are abreast. -/
theorem abreast_trial (id : String) (source : PatchSource) (hds : AvoidManifest ds)
    (hcovers : d.Covers b) (hcovers' : d.Covers b') (hR : Abreast l b b' h h' h h') :
    (trial l id source d ds h').1 = (trial l id source d ds h).1 ∧
      Abreast l b b' h h' (trial l id source d ds h).2 (trial l id source d ds h').2 :=
  descriptors_matches rfl hR.ready.names hds hcovers hcovers' h h' hR

/-- What a trial leaves alone. -/
theorem abreast_trial_self (id : String) (source : PatchSource) (hopen : OpenAt l b d h)
    (hds : AvoidManifest ds) :
    Abreast l b b h h (trial l id source d ds h).2 (trial l id source d ds h).2 :=
  (abreast_trial id source hds hopen.isIn.covers hopen.isIn.covers
    (.of_agreeAt hopen.ready hopen.ready fun _ _ _ => rfl)).2

/-- **What becomes of an extension that is open**: its descriptors are tried, and the manifest is
written if any has been applied. -/
theorem openedTarget_eq (id : String) (isActive : Bool) (source : PatchSource)
    (hopen : OpenAt l b d h) (hds : AvoidManifest ds) :
    ((openedTarget ⟨Path.ofNames l⟩ d id isActive source ds : OnTree _) h).1.outcomes =
        (trial l id source d ds h).1.2 ∧
      ((openedTarget ⟨Path.ofNames l⟩ d id isActive source ds : OnTree _) h).2.tree =
        stored l (trial l id source d ds h) ∧
      ((openedTarget ⟨Path.ofNames l⟩ d id isActive source ds : OnTree _) h).2.working =
        h.working := by
  rcases hrun : (openedTarget ⟨Path.ofNames l⟩ d id isActive source ds : OnTree _) h with
    ⟨report, h'⟩
  obtain ⟨manifest, outcomes, h₁, htrial, houtcomes, hend⟩ := openedTarget_cases hrun
  have htried : trial l id source d ds h = ((manifest, outcomes), h₁) := htrial
  have hR := abreast_trial_self id source hopen hds
  have hpath : manifest.path = Path.ofNames (l ++ [manifestName]) := by
    have hpath : (trial l id source d ds h).1.1.path = d.path := path_trial
    rw [htried] at hpath
    exact hpath.trans hopen.path
  rw [htried] at hR ⊢
  refine ⟨houtcomes, ?_⟩
  rcases hend with ⟨hnone, rfl, -⟩ | ⟨hany, r, h₂, hwrite, hsame, -⟩
  · exact ⟨(if_neg (by simpa using hnone)).symm, hR.working⟩
  · rcases Manifest.write_apply hwrite with ⟨cause, hfails, -⟩ | ⟨hreplace, -, hworking⟩
    · -- a manifest that can be read can be replaced
      rw [hpath, Tree.replace_ofNames hR.ready.unlinked hR.ready.areNames_manifest (by decide)
        (hR.ready.read h₁.working)] at hfails
      cases hfails
    · rw [hpath, Tree.replace_ofNames hR.ready.unlinked hR.ready.areNames_manifest (by decide)
        (hR.ready.read h₁.working)] at hreplace
      refine ⟨?_, hsame.2.trans (hworking.trans hR.working)⟩
      rw [stored, if_pos hany, hsame.1]
      exact (Except.ok.inj hreplace).symm

/-- Only files in the root change. -/
theorem changesIn_stored (id : String) (source : PatchSource) (hopen : OpenAt l b d h)
    (hds : AvoidManifest ds) :
    ChangesIn l h.tree (stored l (trial l id source d ds h)) := by
  have hR := abreast_trial_self id source hopen hds
  unfold stored
  split
  · exact hR.changes.put (List.prefix_append l _) hR.ready.isDirectory_manifest
  · exact hR.changes

/-- Trees that are alike and whose manifests are the same agree. -/
theorem agreeAt_of_same {t t' : Tree}
    (hsame : ∀ k, Sees l k → k ≠ l ++ [manifestName] → t'.get? k = t.get? k)
    (hmanifest : t'.get? (l ++ [manifestName]) = t.get? (l ++ [manifestName])) :
    AgreeAt l t t' := by
  intro k hk
  by_cases hne : k = l ++ [manifestName]
  · rw [hne, hmanifest]
  · exact hsame k hk hne

/-- An extension that looks the same on two hosts comes to the same on both. -/
theorem agreeAt_stored (id : String) (source : PatchSource) (hopen : OpenAt l b d h)
    (hopen' : OpenAt l b d h') (hds : AvoidManifest ds) (hagree : AgreeAt l h.tree h'.tree) :
    (trial l id source d ds h').1 = (trial l id source d ds h).1 ∧
      AgreeAt l (stored l (trial l id source d ds h)) (stored l (trial l id source d ds h')) := by
  obtain ⟨hanswer, hR⟩ := abreast_trial id source hds hopen.isIn.covers
    hopen'.isIn.covers (.of_agreeAt hopen.ready hopen'.ready fun k hk _ => hagree k hk)
  have htried : AgreeAt l (trial l id source d ds h).2.tree (trial l id source d ds h').2.tree :=
    agreeAt_of_same hR.same (by rw [hR.ready.manifest, hR.ready'.manifest])
  refine ⟨hanswer, ?_⟩
  unfold stored
  rw [hanswer]
  split
  · exact htried.set (by simp)
  · exact htried

/-! ## 5. One extension in two parts -/

/-- What the manifest on disk holds after a trial, if it held `b` before. -/
def storedBytes (b : ByteArray) (r : (Manifest × List PatchOutcome) × TreeHost) : ByteArray :=
  if r.1.2.any PatchOutcome.isApplied then r.1.1.written.toUTF8 else b

/-- **After a trial the extension is open again**, with the manifest that was at hand. -/
theorem openAt_stored (hopen : OpenAt l b d h) (hexact : d.Exact) (hds : AvoidManifest ds)
    (htree : h'.tree = stored l (trial l id source d ds h)) :
    OpenAt l (storedBytes b (trial l id source d ds h)) (trial l id source d ds h).1.1 h' := by
  have hR := abreast_trial_self id source hopen hds
  unfold storedBytes
  unfold stored at htree
  cases hany : (trial l id source d ds h).1.2.any PatchOutcome.isApplied with
  | true =>
    rw [if_pos hany] at htree
    rw [if_pos rfl]
    refine ⟨?_, path_trial.trans hopen.path, Manifest.isIn_written (exact_descriptors hexact)⟩
    rw [htree]
    exact hR.ready.put_manifest
  | false =>
    rw [if_neg (by simp [hany])] at htree
    rw [if_neg (by simp), trial_unapplied hany]
    refine ⟨?_, hopen.path, hopen.isIn⟩
    rw [htree]
    exact hR.ready

theorem trial_append : trial l id source d (ds ++ es) h =
    let first := trial l id source d ds h
    let second := trial l id source first.1.1 es first.2
    ((second.1.1, first.1.2 ++ second.1.2), second.2) :=
  descriptors_append es ds d h

/-- The manifest apart, writing it changes nothing that is seen. -/
theorem get?_stored {r : (Manifest × List PatchOutcome) × TreeHost} {k : Location}
    (hk : k ≠ l ++ [manifestName]) : (stored l r).get? k = r.2.tree.get? k := by
  unfold stored
  split
  · exact Tree.get?_set_ne _ _ hk
  · rfl

/-- **A trial can be split.**  It does not matter that the manifest is written in between. -/
theorem trial_split (hopen : OpenAt l b d h) (hexact : d.Exact) (hds : AvoidManifest ds)
    (hes : AvoidManifest es) (htree : h'.tree = stored l (trial l id source d ds h)) :
    (trial l id source d (ds ++ es) h).1.2 = (trial l id source d ds h).1.2 ++
        (trial l id source (trial l id source d ds h).1.1 es h').1.2 ∧
      AgreeAt l (stored l (trial l id source d (ds ++ es) h))
        (stored l (trial l id source (trial l id source d ds h).1.1 es h')) := by
  have hagain := openAt_stored hopen hexact hds htree
  have hself := abreast_trial_self id source hopen hds
  rw [trial_append]
  dsimp only
  generalize hfirst : trial l id source d ds h = first at *
  -- the second part finds the files as the first part has left them, but for the manifest
  have hbefore : Abreast l b (storedBytes b first) first.2 h' first.2 h' := by
    refine .of_agreeAt hself.ready hagain.ready fun k _ hk => ?_
    rw [htree, get?_stored hk]
  have hcovers : first.1.1.Covers b := hfirst ▸ covers_trial hopen.isIn.covers
  obtain ⟨hanswer, hR⟩ := abreast_trial id source hes hcovers
    hagain.isIn.covers hbefore
  have hunapplied := @trial_unapplied l first.1.1 first.2 id source es
  generalize trial l id source first.1.1 es first.2 = direct at *
  generalize trial l id source first.1.1 es h' = second at *
  refine ⟨by rw [hanswer], agreeAt_of_same (fun k hk hne => ?_) ?_⟩
  · rw [get?_stored hne, get?_stored hne]
    exact hR.same k hk hne
  · unfold stored
    simp only [List.any_append, hanswer]
    cases hany : direct.1.2.any PatchOutcome.isApplied with
    | true => simp [Tree.get?_set_self]
    | false =>
      -- then the manifest at hand is that of the first part
      have hready := hR.ready'.manifest
      rw [hunapplied hany]
      unfold storedBytes at hready
      cases hany₁ : first.1.2.any PatchOutcome.isApplied with
      | true => simpa [hany₁, Tree.get?_set_self] using hready
      | false => simpa [hany₁, hR.ready.manifest] using hready

end Apply

end TextPatch
