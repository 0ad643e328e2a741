/-
# What file patches leave readable

Files may be links here, so a file patch that names one file may change what is read through another
path.  It does not if it *spares* what that path leads to (`Enclosure.Spares`): the place that the
patch names is neither the one that the path leads to nor that of a link on the way there.  Backups
never matter, since they are put where nothing was.

`descriptors_stillReads` carries this through all attempts on an extension.  Where there are no
links, sparing a manifest means no more than not naming it (`Enclosure.spares_of_no_link`).
-/
import TextPatch.Proofs.Extensions.Runs
import TextPatch.Proofs.Files.Links

namespace TextPatch

/-! ## 1. Sparing a path -/

/-- The file patches that are tried one after the other, each with the host that it meets. -/
def Apply.tried (e : Enclosure) : TreeHost → List FilePatch → List (FilePatch × TreeHost)
  | _, [] => []
  | h, p :: rest =>
    (p, h) :: match (filePatch e p : OnTree _) h with
      | (.ok _, h') => tried e h' rest
      | (.error _, _) => []

/-- The file patches that an attempt has tried; there are none if it was skipped. -/
def Attempt.tried (a : Attempt) : List (FilePatch × TreeHost) :=
  if a.outcome.isSkipped then [] else Apply.tried ⟨a.root⟩ a.before a.descriptor.files

/-- The place that a file patch names, where it would put a new file, is neither the one that `m`
leads to nor that of a link on the way there. -/
def Enclosure.Spares (e : Enclosure) (p : FilePatch) (h : TreeHost) (m : Path) : Prop :=
  ∀ path z slashed, e.place ⟨p.file⟩ = .ok path →
    h.tree.namedPlace h.working path = .ok (z, slashed) →
      ∀ links r, h.tree.LeadsThrough h.working m links r → z ∉ links ∧ z ≠ r

/-- Where there are no links, a file patch spares a manifest unless it names the place of it. -/
theorem Enclosure.spares_of_no_link {e : Enclosure} {p : FilePatch} {h : TreeHost}
    {l k : Location} (ht : ∀ q target, h.tree.get? q ≠ some (.link target))
    (he : e.root = Path.ofNames l) (hl : AreNames l) (hk : AreNames k)
    (hp : ∀ names, (⟨p.file⟩ : Path).inside? = some names → l ++ names ≠ k ++ [manifestName]) :
    e.Spares p h ((Path.ofNames k).join manifestFile) := by
  intro path z slashed hplace hnamed links r hleads
  have hmanifest : AreNames (k ++ [manifestName]) :=
    hk.append (by simpa [AreNames] using manifestName_isName)
  rw [Path.join_manifestFile hk] at hleads
  obtain ⟨rfl, rfl⟩ := hleads.ofNames ht hmanifest (by simp)
  refine ⟨by simp, ?_⟩
  obtain ⟨names, hinside, rfl⟩ := (Enclosure.place_eq_ok he hl).mp hplace
  have hnames := hl.append (Path.areNames_of_inside? hinside)
  have hnot := hp names hinside
  rcases List.eq_nil_or_concat (l ++ names) with hnil | ⟨q, s, hq⟩
  · rw [hnil] at hnamed
    exact absurd hnamed Tree.namedPlace_root
  · rw [List.concat_eq_append] at hq
    rw [hq] at hnamed hnames hnot
    obtain ⟨hz, -⟩ := (Tree.namedPlace_ofNames_iff ht hnames).mp hnamed
    obtain ⟨rfl, -⟩ := Prod.mk.inj hz
    exact hnot

/-- All file patches that an attempt has tried spare what `m` leads to. -/
def Attempt.Spares (a : Attempt) (m : Path) : Prop :=
  ∀ x ∈ a.tried, (Enclosure.mk a.root).Spares x.1 x.2 m

/-! ## 2. Attempts that spare a path -/

variable {e : Enclosure} {m : Path} {b : ByteArray} {h h' : TreeHost}

/-- **A file patch that spares what a path leads to** does not change what is read there. -/
theorem FileStep.read {p : FilePatch} {r : Except ApplicationError Bool}
    (hstep : FileStep e p h r h') (hspares : e.Spares p h m)
    (hread : h.tree.read h.working m = .ok b) : h'.tree.read h'.working m = .ok b := by
  cases hstep with
  | untouched hfiles hr =>
    rw [hfiles.1, hfiles.2]
    exact hread
  | failed hplace hread' hbackup hworking =>
    rw [hworking]
    generalize h'.tree = t' at hbackup ⊢
    cases hbackup with
    | before => exact hread
    | now habsent hwrite =>
      obtain ⟨-, -, -, hsame⟩ := Tree.read_of_write habsent hwrite
      exact hsame hread
  | written hplace hread' hbackup hwrite hworking =>
    rw [hworking]
    cases hbackup with
    | before => exact Tree.read_of_replace hwrite hread fun z slashed => hspares _ z slashed hplace
    | now habsent hwrite' =>
      obtain ⟨w, hw, rfl, hsame⟩ := Tree.read_of_write habsent hwrite'
      refine Tree.read_of_replace hwrite (hsame hread) fun z slashed hnamed links r hfollows => ?_
      -- the backup changes neither what the patch names nor where the path leads
      obtain ⟨-, links', r', -, hfollows', -⟩ := Tree.read_eq_ok_iff_leadsThrough.mp hread
      have hw' : h.tree.isDirectory w = false := Tree.isDirectory_eq_false (by rw [hw]; simp)
      have hnot : w ∉ links' :=
        Tree.Follows.not_mem_links hfollows' fun _ => by rw [hw]; simp
      obtain ⟨rfl, rfl⟩ := (hfollows'.set hw' hnot).unique hfollows
      exact hspares _ z slashed hplace (Tree.namedPlace_of_set hw hnamed) links' r' hfollows'

theorem filePatches_read : ∀ {ps : List FilePatch} {h h' : TreeHost}
    {r : Except ApplicationError (List String)},
    (∀ x ∈ Apply.tried e h ps, e.Spares x.1 x.2 m) → h.tree.read h.working m = .ok b →
    (Apply.filePatches e ps : OnTree _) h = (r, h') → h'.tree.read h'.working m = .ok b
  | [], h, h', r, _, hread, hrun => by
    obtain ⟨-, rfl⟩ := Prod.mk.inj hrun
    exact hread
  | p :: rest, h, h', r, hspares, hread, hrun => by
    rw [Apply.tried] at hspares
    have hfirst := hspares (p, h) (by simp)
    rcases Apply.filePatches_cons hrun with ⟨cause, hfile, rfl⟩ | ⟨w, h₁, r₁, hfile, hrest, rfl⟩
    · exact (Apply.fileStep_filePatch hfile).read hfirst hread
    · have hread₁ := (Apply.fileStep_filePatch hfile).read hfirst hread
      rw [hfile] at hspares
      exact filePatches_read (fun x hx => hspares x (List.mem_cons_of_mem _ hx)) hread₁ hrest

/-- An attempt that spares what a path leads to does not change what is read there. -/
theorem descriptor_read {id identity : String} {manifest manifest' : Manifest} {d : Descriptor}
    {r : Except ApplicationError PatchResult}
    (hrun : (Apply.descriptor e id identity manifest d : OnTree _) h = ((manifest', r), h'))
    (hspares : Attempt.Spares ⟨e.root, d, ⟨identity, id, r⟩, h, h'⟩ m)
    (hread : h.tree.read h.working m = .ok b) : h'.tree.read h'.working m = .ok b := by
  rcases Apply.descriptor_cases hrun with ⟨-, -, -, hsame⟩ | ⟨-, r₁, h₁, hfiles, hsame, hr⟩
  · rw [hsame.1, hsame.2]
    exact hread
  · have htried : Attempt.tried ⟨e.root, d, ⟨identity, id, r⟩, h, h'⟩ =
        Apply.tried e h d.files := by
      rcases hr with ⟨files, -, -, rfl⟩ | ⟨cause, -, -, rfl⟩
      · rfl
      · rfl
    unfold Attempt.Spares at hspares
    rw [htried] at hspares
    rw [hsame.1, hsame.2]
    exact filePatches_read hspares hread hfiles

/-- What is read at a path goes on being read there, from any of some attempts on. -/
structure StillReads (m : Path) (as : List Attempt) (h h' : TreeHost) : Prop where
  whole : ∀ b, h.tree.read h.working m = .ok b → h'.tree.read h'.working m = .ok b
  before : ∀ b, h.tree.read h.working m = .ok b →
    ∀ a ∈ as, a.before.tree.read a.before.working m = .ok b
  rest : ∀ a ∈ as, ∀ b, a.before.tree.read a.before.working m = .ok b →
    h'.tree.read h'.working m = .ok b

/-- **Attempts that spare what a path leads to** do not change what is read there. -/
theorem descriptors_stillReads {id : String} {source : PatchSource} :
    ∀ {ds : List Descriptor} {manifest manifest' : Manifest} {h h' : TreeHost}
      {outcomes : List PatchOutcome},
      (Apply.descriptors e id source manifest ds : OnTree _) h = ((manifest', outcomes), h') →
      (∀ a ∈ Apply.attempts e id source manifest h ds, a.Spares m) →
      StillReads m (Apply.attempts e id source manifest h ds) h h'
  | [], manifest, manifest', h, h', outcomes, hrun, _ => by
    obtain ⟨-, rfl⟩ := Prod.mk.inj hrun
    exact ⟨fun _ hread => hread, by simp [Apply.attempts], by simp [Apply.attempts]⟩
  | d :: rest, manifest, manifest', h, h', outcomes, hrun, hspares => by
    obtain ⟨manifest₁, r, h₁, outcomes₁, hd, hrest, -, hlog⟩ := Apply.descriptors_cons hrun
    rw [hlog] at hspares ⊢
    have hone : ∀ b, h.tree.read h.working m = .ok b → h₁.tree.read h₁.working m = .ok b :=
      fun b => descriptor_read hd (hspares _ (by simp))
    have ih := descriptors_stillReads hrest fun a ha => hspares a (List.mem_cons_of_mem _ ha)
    refine ⟨fun b hread => ih.whole b (hone b hread), fun b hread a ha => ?_,
      fun a ha b hread => ?_⟩
    · rcases List.mem_cons.mp ha with rfl | ha
      · exact hread
      · exact ih.before b (hone b hread) a ha
    · rcases List.mem_cons.mp ha with rfl | ha
      · exact ih.whole b (hone b hread)
      · exact ih.rest a ha b hread

end TextPatch
