/-
# What a scan finds

A scan finds an extension in every directory among the children of a directory that holds a manifest
with a publisher and a name (`FoundIn`, `mem_scan_iff`).  It changes no files, and neither does a
command before it has found the extensions that are known: those of the scan, and the overrides of
the settings (`findExtensions_known`).
-/
import TextPatch.CommandLine.Commands
import TextPatch.Proofs.Extensions.Steps

namespace TextPatch

namespace OnTree

theorem isFile_apply (p : Path) (h : TreeHost) :
    (Host.isFile p : OnTree Bool) h = (h.tree.isFileAt h.working p, h) := rfl

theorem isDirectory_apply (p : Path) (h : TreeHost) :
    (Host.isDirectory p : OnTree Bool) h = (h.tree.isDirectoryAt h.working p, h) := rfl

theorem subdirectories_apply (p : Path) (h : TreeHost) :
    (Host.subdirectories p : OnTree _) h = (h.tree.subdirectories h.working p, h) := rfl

end OnTree

theorem Manifest.read_congr {h h' : TreeHost} (hsame : h.SameFiles h') (root : Path) :
    ((read root : OnTree _) h').1 = ((read root : OnTree _) h).1 := by
  unfold read
  rw [OnTree.bind_apply, OnTree.bind_apply, OnTree.readText_apply, OnTree.readText_apply,
    hsame.1, hsame.2]
  cases (h.tree.read h.working (root.join manifestFile)).bind Host.decodeText <;> rfl

namespace ExtensionDirectory

/-! ## 1. One directory -/

variable {h h' : TreeHost} {root dir : Path} {e : ScannedExtension}

/-- A directory holds a manifest from which an extension is made. -/
structure Holds (h : TreeHost) (root : Path) (e : ScannedExtension) : Prop where
  isFile : h.tree.isFileAt h.working (root.join manifestFile) = true
  manifest : ∃ d, ((Manifest.read root : OnTree _) h).1 = .ok d ∧ ofManifest root d = some e

theorem Holds.unique {e' : ScannedExtension} (a : Holds h root e) (b : Holds h root e') :
    e = e' := by
  obtain ⟨d, hd, he⟩ := a.manifest
  obtain ⟨d', hd', he'⟩ := b.manifest
  obtain rfl := Except.ok.inj (hd.symm.trans hd')
  exact Option.some.inj (he.symm.trans he')

theorem Holds.root_eq (hholds : Holds h root e) : e.root = root := by
  obtain ⟨d, -, he⟩ := hholds.manifest
  unfold ofManifest at he
  simp only [Option.bind_eq_bind, Option.bind_eq_some_iff] at he
  obtain ⟨publisher, -, name, -, he⟩ := he
  cases he
  rfl

/-- **Every way in which a directory is looked into**: it holds an extension, or nothing is found and
at most a note is made. -/
theorem inspectRoot_cases (root : Path) (h : TreeHost) :
    (∃ e, Holds h root e ∧ (inspectRoot root : OnTree _) h = (some e, h)) ∨
      (∀ e, ¬ Holds h root e) ∧
        ∃ journal, (inspectRoot root : OnTree _) h = (none, { h with journal }) := by
  unfold inspectRoot
  rw [OnTree.bind_apply, OnTree.isFile_apply]
  cases hfile : h.tree.isFileAt h.working (root.join manifestFile) with
  | false =>
    refine Or.inr ⟨fun e hholds => ?_, h.journal, rfl⟩
    have := hholds.isFile
    rw [hfile] at this
    cases this
  | true =>
    simp only [if_true]
    rw [OnTree.bind_apply]
    rcases hread : (Manifest.read root : OnTree _) h with ⟨r, h₁⟩
    obtain ⟨rfl, -⟩ := Manifest.read_apply hread
    have hmanifest : ∀ e, Holds h₁ root e → ∃ d, r = .ok d ∧ ofManifest root d = some e := by
      intro e hholds
      obtain ⟨d, hd, he⟩ := hholds.manifest
      rw [hread] at hd
      exact ⟨d, hd, he⟩
    cases r with
    | error cause =>
      refine Or.inr ⟨fun e hholds => ?_, _, rfl⟩
      obtain ⟨d, hd, -⟩ := hmanifest e hholds
      cases hd
    | ok d =>
      cases he : ofManifest root d with
      | none =>
        refine Or.inr ⟨fun e hholds => ?_, h₁.journal, ?_⟩
        · obtain ⟨d', hd, he'⟩ := hmanifest e hholds
          cases hd
          rw [he] at he'
          cases he'
        · simp only [he, OnTree.pure_apply]
      | some e =>
        refine Or.inl ⟨e, ⟨hfile, d, by rw [hread], he⟩, ?_⟩
        simp only [he, OnTree.pure_apply]

/-- Looking into a directory changes no files. -/
theorem inspectRoot_sameFiles (root : Path) (h : TreeHost) :
    h.SameFiles ((inspectRoot root : OnTree _) h).2 := by
  rcases inspectRoot_cases root h with ⟨e, -, hrun⟩ | ⟨-, journal, hrun⟩
  · rw [hrun]
    exact .refl h
  · rw [hrun]
    exact ⟨rfl, rfl⟩

/-- Where an extension is found, nothing is noted. -/
theorem Holds.inspectRoot_eq (hholds : Holds h root e) :
    (inspectRoot root : OnTree _) h = (some e, h) := by
  rcases inspectRoot_cases root h with ⟨e', hholds', hrun⟩ | ⟨hnot, -⟩
  · rw [hrun, hholds.unique hholds']
  · exact absurd hholds (hnot e)

theorem inspectRoot_eq_some_iff :
    ((inspectRoot root : OnTree _) h).1 = some e ↔ Holds h root e := by
  refine ⟨fun he => ?_, fun hholds => by rw [hholds.inspectRoot_eq]⟩
  rcases inspectRoot_cases root h with ⟨e', hholds, hrun⟩ | ⟨-, journal, hrun⟩
  · rw [hrun] at he
    cases he
    exact hholds
  · rw [hrun] at he
    cases he

/-! ## 2. The children of a directory -/

theorem Holds.congr (hsame : h.SameFiles h') : Holds h' root e ↔ Holds h root e := by
  constructor
  · rintro ⟨hfile, hmanifest⟩
    rw [hsame.1, hsame.2] at hfile
    rw [Manifest.read_congr hsame] at hmanifest
    exact ⟨hfile, hmanifest⟩
  · rintro ⟨hfile, hmanifest⟩
    refine ⟨?_, ?_⟩
    · rw [hsame.1, hsame.2]
      exact hfile
    · rw [Manifest.read_congr hsame]
      exact hmanifest

theorem inspectRoots_sameFiles : ∀ (roots : List Path) (h : TreeHost),
    h.SameFiles ((inspectRoots roots : OnTree _) h).2
  | [], h => .refl h
  | root :: rest, h =>
    (inspectRoot_sameFiles root h).trans (inspectRoots_sameFiles rest _)

/-- Directories are looked into one after the other. -/
theorem mem_inspectRoots_iff : ∀ {roots : List Path} {h : TreeHost},
    e ∈ ((inspectRoots roots : OnTree _) h).1 ↔ ∃ root ∈ roots, Holds h root e
  | [], h => by simp [inspectRoots]
  | root :: rest, h => by
    have happend : ((inspectRoots (root :: rest) : OnTree _) h).1 =
        ((inspectRoot root : OnTree _) h).1.toList ++
          ((inspectRoots rest : OnTree _) ((inspectRoot root : OnTree _) h).2).1 := rfl
    rw [happend, List.mem_append, mem_inspectRoots_iff, Option.mem_toList,
      inspectRoot_eq_some_iff]
    simp only [Holds.congr (inspectRoot_sameFiles root h), List.mem_cons, exists_eq_or_imp]

/-- A scan of a directory finds an extension: one of its children is a directory, no link, and holds
it. -/
structure FoundIn (h : TreeHost) (dir : Path) (e : ScannedExtension) : Prop where
  isDirectory : h.tree.isDirectoryAt h.working dir = true
  child : ∃ name ∈ h.tree.subdirectories h.working dir, e.root = dir.join ⟨name⟩
  holds : Holds h e.root e

/-- The children of a directory, as paths. -/
def childPaths (h : TreeHost) (dir : Path) : List Path :=
  (h.tree.subdirectories h.working dir).map fun name => dir.join ⟨name⟩

/-- A scan of a directory looks into its children, and notes how many extensions it has found. -/
theorem scan_apply {scanned : List ScannedExtension} {h₁ : TreeHost}
    (hdir : h.tree.isDirectoryAt h.working dir = true)
    (hrun : (inspectRoots (childPaths h dir) : OnTree _) h = (scanned, h₁)) :
    (scan dir : OnTree _) h = (scanned, { h₁ with journal := h₁.journal ++
      [.note .debug (s!"found {scanned.length} extension(s) in " ++ dir.text)] }) := by
  unfold scan
  rw [OnTree.bind_apply, OnTree.isDirectory_apply, hdir]
  simp only [if_true]
  rw [OnTree.bind_apply, OnTree.subdirectories_apply, OnTree.bind_apply]
  unfold childPaths at hrun
  simp only [hrun]
  rfl

/-- **What a scan finds.** -/
theorem mem_scan_iff (dir : Path) (h : TreeHost) :
    h.SameFiles ((scan dir : OnTree _) h).2 ∧
      ∀ e, e ∈ ((scan dir : OnTree _) h).1 ↔ FoundIn h dir e := by
  cases hdir : h.tree.isDirectoryAt h.working dir with
  | false =>
    unfold scan
    rw [OnTree.bind_apply, OnTree.isDirectory_apply, hdir]
    refine ⟨⟨rfl, rfl⟩, fun e => ⟨nofun, fun hfound => ?_⟩⟩
    have hfalse := hfound.isDirectory
    rw [hdir] at hfalse
    cases hfalse
  | true =>
    have hsame := inspectRoots_sameFiles (childPaths h dir) h
    rw [scan_apply hdir rfl]
    refine ⟨⟨hsame.1, hsame.2⟩, fun e => mem_inspectRoots_iff.trans ⟨?_, ?_⟩⟩
    · rintro ⟨root, hroot, hholds⟩
      obtain ⟨name, hname, rfl⟩ := List.mem_map.mp hroot
      have heq := hholds.root_eq
      exact ⟨hdir, ⟨name, hname, heq⟩, heq ▸ hholds⟩
    · rintro ⟨-, ⟨name, hname, heq⟩, hholds⟩
      exact ⟨e.root, List.mem_map.mpr ⟨name, hname, heq.symm⟩, hholds⟩

end ExtensionDirectory

namespace CommandLine

/-! ## 3. The extensions that are known -/

theorem expandAll_apply : ∀ (paths : List (String × Path)) (h : TreeHost),
    (expandAll paths : OnTree _) h = (paths.map fun x => (x.1, x.2.expandHome h.home), h)
  | [], _ => rfl
  | (id, path) :: rest, h => by
    have hstep : (expandAll ((id, path) :: rest) : OnTree _) h =
        ((id, path.expandHome h.home) :: ((expandAll rest : OnTree _) h).1,
          ((expandAll rest : OnTree _) h).2) := rfl
    rw [hstep, expandAll_apply rest h]
    rfl

theorem extensionsDir_snd (s : Settings) (dir : Option Path) (h : TreeHost) :
    ((extensionsDir s dir : OnTree _) h).2 = h := by
  cases dir <;> rfl

/-- What is known once the extensions have been found: nothing has changed, the overrides are those
of the settings, and the scanned extensions are those that a directory holds. -/
structure Known (s : Settings) (dir : Option Path) (h : TreeHost) (d : ExtensionDirectory)
    (h' : TreeHost) : Prop where
  files : h.SameFiles h'
  overrides_eq : d.overrides = s.extensionPaths.map fun x => (x.1, x.2.expandHome h.home)
  scanned : ∃ place, ((extensionsDir s dir : OnTree _) h).1 = some place ∧
    ∀ e, e ∈ d.scanned ↔ ExtensionDirectory.FoundIn h place e

theorem findExtensions_known {s : Settings} {dir : Option Path} {h h' : TreeHost}
    {d : ExtensionDirectory} (hrun : (findExtensions s dir : OnTree _) h = (.ok d, h')) :
    Known s dir h d h' := by
  unfold findExtensions at hrun
  rw [OnTree.bind_apply, extensionsDir_snd] at hrun
  cases hdir : ((extensionsDir s dir : OnTree _) h).1 with
  | none =>
    rw [hdir] at hrun
    cases (Prod.mk.inj hrun).1
  | some place =>
    rw [hdir] at hrun
    simp only at hrun
    rw [OnTree.bind_apply, expandAll_apply, OnTree.bind_apply] at hrun
    obtain ⟨hd, rfl⟩ := Prod.mk.inj hrun
    obtain rfl := Except.ok.inj hd
    obtain ⟨hsame, hiff⟩ := ExtensionDirectory.mem_scan_iff place h
    exact ⟨hsame, rfl, place, hdir, hiff⟩

end CommandLine

end TextPatch
