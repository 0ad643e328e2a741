/-
# What is written over a manifest

A pass reads the manifest of its extension when it opens it, and writes it when all descriptors have
been tried.  What it writes is the document that it has read, with the descriptors that have been
applied behind its record (`Pass.grown`); it does not look at the file again.  So what the file
patches of the pass have done to the manifest meanwhile is lost:

* `manifest_write_merges_iff` says when the write is a merge after all, namely exactly if the file
  still holds, key by key, what it held when the extension was opened;
* that is so if no file patch names what the manifest is read from (`Pass.undisturbed_of_spares`);
* `patched_manifest_is_lost` is a pass that takes back an edit which it reports as applied.
-/
import TextPatch.Proofs.Extensions.Passes
import TextPatch.Proofs.Extensions.Pristine
import TextPatch.Proofs.Extensions.Records
import TextPatch.Proofs.Extensions.Spared

namespace TextPatch

/-! ## 1. The manifest at hand -/

/-- Two manifests have the same values under all keys but that of the record. -/
def Manifest.SameOthers (d d' : Manifest) : Prop :=
  ∀ key, key ≠ recordKey → d'.members.get? key = d.members.get? key

/-- Recording touches no other key. -/
theorem Manifest.sameOthers_record (d : Manifest) (identity : String) (files : List String) :
    d.SameOthers (d.record identity files) :=
  fun _ hkey => Members.get?_insert_ne d.members _ hkey

/-- What an attempt adds to the record: the identity of a descriptor that has been applied, with the
files that have been written. -/
def Attempt.entry? (a : Attempt) : Option (String × List String) :=
  match a.outcome.result with
  | .ok (.applied _ files) => some (a.outcome.identity, files)
  | _ => none

/-- A manifest has become another one by attempts: their entries stand behind its record, and
nothing else has changed. -/
structure Grown (manifest manifest' : Manifest) (as : List Attempt) : Prop where
  path_eq : manifest'.path = manifest.path
  others : manifest.SameOthers manifest'
  applied_eq : manifest'.applied = manifest.applied ++ as.filterMap Attempt.entry?

namespace Apply

variable {e : Enclosure} {h h' : TreeHost}

theorem descriptor_grown {id identity : String} {manifest manifest' : Manifest} {d : Descriptor}
    {r : Except ApplicationError PatchResult}
    (hrun : (descriptor e id identity manifest d : OnTree _) h = ((manifest', r), h')) :
    Grown manifest manifest' [⟨e.root, d, ⟨identity, id, r⟩, h, h'⟩] := by
  rcases descriptor_cases hrun with ⟨-, rfl, rfl, -⟩ | ⟨hnew, r₁, h₁, -, -, hr⟩
  · exact ⟨rfl, fun _ _ => rfl, (List.append_nil _).symm⟩
  · rcases hr with ⟨files, -, rfl, rfl⟩ | ⟨cause, -, rfl, rfl⟩
    · refine ⟨rfl, manifest.sameOthers_record identity files, ?_⟩
      rw [Manifest.applied_record (by simpa using fun hc => hnew (Or.inl hc))]
      rfl
    · exact ⟨rfl, fun _ _ => rfl, (List.append_nil _).symm⟩

/-- **Trying descriptors** adds entries to the manifest at hand and does nothing else to it. -/
theorem descriptors_grown {id : String} {source : PatchSource} :
    ∀ {ds : List Descriptor} {manifest manifest' : Manifest} {h h' : TreeHost}
      {outcomes : List PatchOutcome},
      (descriptors e id source manifest ds : OnTree _) h = ((manifest', outcomes), h') →
        Grown manifest manifest' (attempts e id source manifest h ds)
  | [], manifest, manifest', h, h', outcomes, hrun => by
    obtain ⟨hm, -⟩ := Prod.mk.inj hrun
    obtain ⟨rfl, -⟩ := Prod.mk.inj hm
    exact ⟨rfl, fun _ _ => rfl, (List.append_nil _).symm⟩
  | d :: rest, manifest, manifest', h, h', outcomes, hrun => by
    obtain ⟨manifest₁, r, h₁, outcomes₁, hd, hrest, -, hlog⟩ := descriptors_cons hrun
    have hone := descriptor_grown hd
    have ih := descriptors_grown hrest
    refine ⟨ih.path_eq.trans hone.path_eq, fun key hkey => ?_, ?_⟩
    · rw [ih.others key hkey, hone.others key hkey]
    · rw [ih.applied_eq, hone.applied_eq, hlog, List.append_assoc, ← List.filterMap_append,
        List.singleton_append]

end Apply

/-! ## 2. The manifest on disk -/

namespace Pass

variable {T : Pass}

/-- What a pass adds to the record. -/
def entered (T : Pass) : List (String × List String) := T.attempts.filterMap Attempt.entry?

/-- The manifest that is on disk just before that of the pass is written. -/
def Finds (T : Pass) (now : Manifest) : Prop :=
  ((Manifest.read T.enclosure.root : OnTree _) T.tried).1 = .ok now

/-- What a pass writes is what is on disk with the new entries behind the record. -/
def Merges (T : Pass) : Prop :=
  ∀ now, T.Finds now → now.SameOthers T.final ∧ T.final.applied = now.applied ++ T.entered

/-- What is on disk is what was there when the extension was opened. -/
def Undisturbed (T : Pass) : Prop :=
  ∀ now, T.Finds now → T.opened.SameOthers now ∧ now.applied = T.opened.applied

/-- **What a pass writes** is the manifest that it has opened, with the new entries behind the
record. -/
theorem grown (T : Pass) : Grown T.opened T.final T.attempts :=
  Apply.descriptors_grown T.trial_eq

theorem merges_iff (T : Pass) : T.Merges ↔ T.Undisturbed := by
  have hgrown := T.grown
  refine forall_congr' fun now => imp_congr_right fun _ => ?_
  constructor
  · rintro ⟨hothers, happlied⟩
    refine ⟨fun key hkey => ?_, ?_⟩
    · rw [← hothers key hkey, hgrown.others key hkey]
    · rw [hgrown.applied_eq] at happlied
      exact (List.append_cancel_right happlied).symm
  · rintro ⟨hothers, happlied⟩
    refine ⟨fun key hkey => ?_, ?_⟩
    · rw [hgrown.others key hkey, hothers key hkey]
    · rw [hgrown.applied_eq, happlied, entered]

/-- The manifest of a pass stands in the root of its extension. -/
theorem Open.final_path (hopen : T.Open) : T.final.path = T.enclosure.root.join manifestFile := by
  obtain ⟨root, ho⟩ := hopen
  exact T.grown.path_eq.trans ho.path_eq

/-- A manifest that has been written is what can be read then. -/
theorem Open.read_of_writes (hopen : T.Open) (hwrites : T.Writes) {now : Manifest}
    (hnow : T.Finds now) :
    T.after.tree.read T.after.working (T.enclosure.root.join manifestFile) =
      .ok T.final.written.toUTF8 := by
  rcases T.after_cases with ⟨-, hworking, hreplace⟩ | ⟨hnot, -⟩
  · rcases hrun : (Manifest.read T.enclosure.root : OnTree _) T.tried with ⟨r, h'⟩
    obtain ⟨-, hparts⟩ := Manifest.read_apply hrun
    unfold Finds at hnow
    rw [hrun] at hnow
    obtain ⟨hpath, b, text, hread, -, -⟩ := hparts now hnow
    rw [hpath] at hread
    rw [hopen.final_path] at hreplace
    rw [hworking]
    exact (Tree.read_of_replace_end (Path.withoutSlashes_join _ manifestName_isName) hreplace
      hread).1
  · exact absurd hwrites hnot

/-- **Where no file patch names what the manifest is read from**, it is on disk as it was. -/
theorem Open.undisturbed_of_spares (hopen : T.Open)
    (hspares : ∀ a ∈ T.attempts, a.Spares (T.enclosure.root.join manifestFile)) :
    T.Undisturbed := by
  obtain ⟨root, ho⟩ := hopen
  obtain ⟨b, text, hread, hdecode, htext⟩ := ho.read_eq
  intro now hnow
  rw [ho.path_eq] at hread htext
  have hstill := (descriptors_stillReads T.trial_eq hspares).whole b hread
  rcases hrun : (Manifest.read T.enclosure.root : OnTree _) T.tried with ⟨r, h'⟩
  obtain ⟨-, hparts⟩ := Manifest.read_apply hrun
  unfold Finds at hnow
  rw [hrun] at hnow
  obtain ⟨hpath, b', text', hread', hdecode', htext'⟩ := hparts now hnow
  rw [hpath] at hread' htext'
  rw [hstill] at hread'
  cases hread'
  rw [hdecode] at hdecode'
  cases hdecode'
  rw [htext] at htext'
  cases htext'
  exact ⟨fun _ _ => rfl, rfl⟩

/-- What becomes of the manifest in a pass.  What is written is what was opened, with the new
entries behind the record; this is a merge exactly if the file has not been disturbed, which it has
not if no file patch names what it is read from. -/
structure Accounts (T : Pass) : Prop where
  grown : Grown T.opened T.final T.attempts
  written : T.Writes → ∀ now, T.Finds now →
    T.after.tree.read T.after.working (T.enclosure.root.join manifestFile) =
      .ok T.final.written.toUTF8
  merges_iff : T.Merges ↔ T.Undisturbed
  spared : (∀ a ∈ T.attempts, a.Spares (T.enclosure.root.join manifestFile)) → T.Merges

end Pass

/-- **When a manifest is merged and not overwritten**, for every pass of every run. -/
theorem manifest_write_merges_iff (runs : List Run) (h : TreeHost) :
    ∀ T ∈ passesOf runs h, T.Accounts := by
  intro T hT
  have hopen := (chain_passesOf runs h).open_of_mem T hT
  exact ⟨T.grown, fun hwrites now hnow => hopen.read_of_writes hwrites hnow, T.merges_iff,
    fun hspares => T.merges_iff.mpr (hopen.undisturbed_of_spares hspares)⟩

theorem oneFile_accounts : ∃ T ∈ passesOf [oneFileRun] (.ofTree oneFileTree),
    T.Writes ∧ T.Accounts := by
  have hchecked : (passesOf [oneFileRun] (.ofTree oneFileTree)).any
      (fun T => decide T.Writes) = true := by
    decide +kernel
  obtain ⟨T, hT, hwrites⟩ := List.any_eq_true.mp hchecked
  exact ⟨T, hT, of_decide_eq_true hwrites,
    manifest_write_merges_iff [oneFileRun] (.ofTree oneFileTree) T hT⟩

/-! ## 3. A manifest that is patched -/

/-- An extension whose manifest holds a name. -/
def namedTree : Tree where
  entries := [(["x"], .directory),
    (["x", "package.json"], .file "\x7b\"name\": \"old\"\x7d".toUTF8)]

/-- A run of one descriptor that gives the extension another name. -/
def renamingRun : Run where
  find := oneFileRun.find
  source := .here
  set := ⟨[⟨.extensions (.one "p.x"), [⟨"package.json", none,
    [⟨.one "old", none, some "new", some .replace, none, none, none, none⟩]⟩]⟩]⟩

/-- **An edit of a manifest is lost**, though its descriptor is reported as applied: the new name is
on disk when the manifest is written, and the old one is written over it. -/
theorem patched_manifest_is_lost :
    ¬ ∀ (runs : List Run) (h : TreeHost), ∀ T ∈ passesOf runs h, T.Writes → T.Merges := by
  intro hclaim
  have hchecked : (passesOf [renamingRun] (.ofTree namedTree)).any (fun T =>
      decide T.Writes && T.final.stringField "name" == some "old" &&
        ((Manifest.read T.enclosure.root : OnTree _) T.tried).1.toOption.any
          fun now => now.stringField "name" == some "new") = true := by
    decide +kernel
  obtain ⟨T, hT, hparts⟩ := List.any_eq_true.mp hchecked
  rw [Bool.and_eq_true, Bool.and_eq_true] at hparts
  obtain ⟨⟨hwrites, hfinal⟩, hnow⟩ := hparts
  obtain ⟨now, hfinds, hname⟩ := (Option.any_eq_true _ _).mp hnow
  have hmerges := (hclaim _ _ T hT (of_decide_eq_true hwrites) now (eq_ok_of_toOption hfinds)).1
  have hsame : T.final.stringField "name" = now.stringField "name" := by
    unfold Manifest.stringField
    rw [hmerges "name" (by decide)]
  rw [eq_of_beq hfinal, eq_of_beq hname] at hsame
  exact absurd hsame (by decide)

end TextPatch
