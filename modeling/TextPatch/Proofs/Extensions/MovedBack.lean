/-
# Files that are moved back

Restoring an extension moves files, one after the other.

* What a path leads to stays the same if no file is moved on its way, or above it
  (`Restore.sameLead_files`).  The way is that on the host which the file meets, since moving the
  files before it may have changed the way.
* A lawful tree stays one (`Restore.lawful_extension`).
-/
import TextPatch.Proofs.Extensions.Confinement
import TextPatch.Proofs.Files.Lawful
import TextPatch.Proofs.Files.Looking

namespace TextPatch

/-! ## 1. What a path leads to -/

/-- A path leads to the same on two hosts. -/
structure TreeHost.SameLead (p : Path) (h h' : TreeHost) : Prop where
  working : h'.working = h.working
  locate : h'.tree.locate h'.working true p = h.tree.locate h.working true p
  get : ∀ l, h.tree.locate h.working true p = .ok l → h'.tree.get? l = h.tree.get? l

namespace TreeHost.SameLead

variable {p : Path} {h h₁ h' : TreeHost}

theorem of_sameFiles (hsame : h.SameFiles h') : h.SameLead p h' := by
  refine ⟨hsame.2, ?_, fun l _ => ?_⟩
  · rw [hsame.1, hsame.2]
  · rw [hsame.1]

theorem trans (a : h.SameLead p h₁) (b : h₁.SameLead p h') : h.SameLead p h' := by
  refine ⟨b.working.trans a.working, b.locate.trans a.locate, fun l hl => ?_⟩
  rw [b.get l (a.locate.trans hl), a.get l hl]

theorem read_eq (hlead : h.SameLead p h') :
    h'.tree.read h'.working p = h.tree.read h.working p := by
  unfold Tree.read
  rw [hlead.locate]
  cases hlocate : h.tree.locate h.working true p with
  | error cause => rfl
  | ok l =>
    simp only [bind, Except.bind]
    rw [hlead.get l hlocate]

end TreeHost.SameLead

/-! ## 2. Files that are moved back -/

namespace Restore

variable {e : Enclosure} {h h' : TreeHost} {name : String} {names : List String} {z : Location}
  {p : Path}

/-- The places between which a file is moved back. -/
def places (e : Enclosure) (name : String) (h : TreeHost) : List Location :=
  match ((file e name : OnTree _) h).1, e.place ⟨name⟩ with
  | .ok true, .ok path =>
    [path, path.backup].filterMap fun p => (h.tree.namedPlace h.working p).toOption.map Prod.fst
  | _, _ => []

theorem mem_places_of_moves (hmoves : Moves e name h z) : z ∈ places e name h := by
  obtain ⟨hfile, ⟨path, b, hplace, hnamed⟩ | ⟨path, b, hplace, hnamed⟩⟩ := hmoves
  · unfold places
    rw [hfile, hplace]
    exact List.mem_filterMap.mpr ⟨path, by simp, by rw [hnamed]; rfl⟩
  · unfold places
    rw [hfile, hplace]
    exact List.mem_filterMap.mpr ⟨path.backup, by simp, by rw [hnamed]; rfl⟩

/-- A file is moved back away from the way of a path. -/
theorem sameLead_file {r : Except ApplicationError Bool}
    (hrun : (file e name : OnTree _) h = (r, h'))
    (hspared : ∀ z, Moves e name h z → ¬ h.tree.OnWay h.working p z) : h.SameLead p h' := by
  have hworking : h'.working = h.working := by
    cases restoreStep_file hrun with
    | moved _ _ hworking => exact hworking
    | missing _ _ hfiles => exact hfiles.2
    | failed hfiles => exact hfiles.2
  have hagree : ∀ v ∈ h.tree.way h.working p, h'.tree.get? v = h.tree.get? v := fun v hv =>
    (changesBelow_file (l := []) hrun).1 v fun q hq hqv => hspared q hq ⟨v, hv, hqv⟩
  refine ⟨hworking, ?_, fun l hl => hagree l (Tree.mem_way_of_locate hl)⟩
  rw [hworking]
  exact Tree.locate_of_way hagree

/-- **Files are moved back away from the way of a path**, each as things are then. -/
theorem sameLead_files : ∀ {names : List String} {h h' : TreeHost}
    {r : Except ApplicationError (List String × List String)},
    (files e names : OnTree _) h = (r, h') →
      (∀ x ∈ tried e h names, ∀ z, Moves e x.1 x.2 z → ¬ x.2.tree.OnWay x.2.working p z) →
        h.SameLead p h'
  | [], h, h', r, hrun, _ => by
    obtain ⟨-, rfl⟩ := Prod.mk.inj hrun
    exact .of_sameFiles (.refl h)
  | name :: rest, h, h', r, hrun, hspared => by
    rw [tried] at hspared
    simp only [List.mem_cons, forall_eq_or_imp] at hspared
    rcases files_cons hrun with ⟨cause, hfile, -⟩ | ⟨b, h₁, r₁, hfile, hrest, -⟩
    · exact sameLead_file hfile hspared.1
    · rw [hfile] at hspared
      exact (sameLead_file hfile hspared.1).trans (sameLead_files hrest hspared.2)

/-- Files that are moved back leave a lawful tree. -/
theorem lawful_files : ∀ {names : List String} {h h' : TreeHost}
    {r : Except ApplicationError (List String × List String)},
    (files e names : OnTree _) h = (r, h') → h.tree.Lawful → h'.tree.Lawful
  | [], h, h', r, hrun, ht => by
    obtain ⟨-, rfl⟩ := Prod.mk.inj hrun
    exact ht
  | name :: rest, h, h', r, hrun, ht => by
    have hstep : ∀ {r : Except ApplicationError Bool} {h₁ : TreeHost},
        (file e name : OnTree _) h = (r, h₁) → h₁.tree.Lawful := by
      intro r h₁ hfile
      cases restoreStep_file hfile with
      | moved _ hrename _ => exact ht.rename hrename
      | missing _ _ hfiles => exact hfiles.1 ▸ ht
      | failed hfiles => exact hfiles.1 ▸ ht
    rcases files_cons hrun with ⟨cause, hfile, -⟩ | ⟨b, h₁, r₁, hfile, hrest, -⟩
    · exact hstep hfile
    · exact lawful_files hrest (hstep hfile)

/-- Taking patches back leaves a lawful tree. -/
theorem lawful_extension {root : Path} {r : Except ApplicationError RestoreReport}
    (hrun : (extension root : OnTree _) h = (r, h')) (ht : h.tree.Lawful) : h'.tree.Lawful := by
  rcases extension_cases hrun with ⟨hsame, -⟩ | ⟨e, manifest, r₁, h₁, -, hfiles, hend⟩
  · exact hsame.1 ▸ ht
  · have ht₁ := lawful_files hfiles ht
    rcases hend with ⟨hsame, -⟩ | ⟨-, hreplace, -⟩
    · exact hsame.1 ▸ ht₁
    · exact ht₁.replace hreplace

end Restore

end TextPatch
