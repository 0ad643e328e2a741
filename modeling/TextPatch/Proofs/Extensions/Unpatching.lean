/-
# Taking all patches back

`unpatch` without names has a *turn* for every extension that is known: for every override, and for
the newest extension that the scan has found under any other name.  In its turn an extension whose
record is not empty is restored.

* A turn that goes well leaves its own extension without a record (`Turn.unpatched_own`), since the
  last thing it does is to write the emptied manifest.
* No turn gives another extension a record by what it writes: that is always an emptied manifest.
  But it moves files, and so it can put a manifest with a record where another one was.  A turn
  leaves an extension alone if it moves nothing on the way to its manifest
  (`Turn.unpatched_other`).
* `runUnpatch_empties` puts the turns of a run together.
* `records_left` has an extension that the scan finds and that has no turn, one that is named by a
  link which its own turn moves, and one whose manifest is moved back after its turn.
-/
import TextPatch.CommandLine.Commands
import TextPatch.Proofs.Extensions.Finding
import TextPatch.Proofs.Extensions.MovedBack
import TextPatch.Proofs.Extensions.Records
import TextPatch.Proofs.Extensions.Scanning

namespace TextPatch

namespace CommandLine

/-! ## 1. Records -/

/-- Bytes hold a manifest whose record is not empty. -/
def HoldsRecord (b : ByteArray) : Prop :=
  ∃ path text d, Host.decodeText b = .ok text ∧ Manifest.ofText path text = .ok d ∧ d.applied ≠ []

/-- An emptied manifest holds no record. -/
theorem not_holdsRecord_clear {d : Manifest} (hd : d.Distinct) :
    ¬ HoldsRecord d.clear.written.toUTF8 := by
  rintro ⟨path, text, d', hdecode, htext, happlied⟩
  obtain rfl := Host.eq_of_decodeText hdecode
  rw [Manifest.applied_of_written hd.clear htext, Manifest.applied_clear] at happlied
  exact happlied rfl

/-- An extension has a record that can be read and is not empty. -/
def Patched (root : Path) (h : TreeHost) : Prop := ((isPatched root : OnTree _) h).1 = true

instance (root : Path) (h : TreeHost) : Decidable (Patched root h) :=
  inferInstanceAs (Decidable (_ = true))

section

variable {root : Path} {h h' : TreeHost}

theorem isPatched_snd (root : Path) (h : TreeHost) : ((isPatched root : OnTree _) h).2 = h := by
  unfold isPatched
  rw [OnTree.bind_apply]
  rcases hread : (Manifest.read root : OnTree _) h with ⟨r, h₁⟩
  obtain ⟨rfl, -⟩ := Manifest.read_apply hread
  cases r <;> rfl

/-- Where there is a record, its bytes can be read. -/
theorem Patched.exists_read (hp : Patched root h) :
    ∃ b, h.tree.read h.working (root.join manifestFile) = .ok b ∧ HoldsRecord b := by
  unfold Patched isPatched at hp
  rw [OnTree.bind_apply] at hp
  rcases hread : (Manifest.read root : OnTree _) h with ⟨r, h₁⟩
  obtain ⟨rfl, hparts⟩ := Manifest.read_apply hread
  rw [hread] at hp
  cases r with
  | error cause => cases hp
  | ok d =>
    obtain ⟨hpath, b, text, hbytes, hdecode, htext⟩ := hparts d rfl
    rw [hpath] at hbytes
    refine ⟨b, hbytes, d.path, text, d, hdecode, htext, fun hnil => ?_⟩
    have hp : (!d.applied.isEmpty) = true := hp
    rw [hnil] at hp
    cases hp

/-- Bytes with a record make a record where they are read. -/
theorem patched_of_read {b : ByteArray}
    (hread : h.tree.read h.working (root.join manifestFile) = .ok b) (hb : HoldsRecord b) :
    Patched root h := by
  obtain ⟨path, text, d, hdecode, htext, happlied⟩ := hb
  have hmembers : Manifest.ofText (root.join manifestFile) text =
      .ok ⟨root.join manifestFile, d.members⟩ := by
    unfold Manifest.ofText at htext ⊢
    split at htext
    · cases htext
      rfl
    · cases htext
    · cases htext
  have hmanifest := Manifest.read_of_bytes hread hdecode hmembers
  have hsome : (!d.applied.isEmpty) = true := by simpa using happlied
  unfold Patched isPatched
  rw [OnTree.bind_apply]
  rcases hrun : (Manifest.read root : OnTree _) h with ⟨r, h₁⟩
  rw [hrun] at hmanifest
  simp only at hmanifest
  rw [hmanifest]
  exact hsome

/-- What is read is an emptied manifest, or was read before: a record has been there before. -/
theorem Patched.before_set {z : Location} {d : Manifest} (hz : z ≠ []) (hd : d.Distinct)
    (htree : h'.tree = h.tree.set z (.file d.clear.written.toUTF8))
    (hworking : h'.working = h.working) (hp : Patched root h') : Patched root h := by
  obtain ⟨b, hread, hb⟩ := hp.exists_read
  rw [htree, hworking] at hread
  rcases Tree.read_of_set hz hread with rfl | hbefore
  · exact absurd hb (not_holdsRecord_clear hd)
  · exact patched_of_read hbefore hb

theorem Patched.of_sameLead (hlead : h.SameLead (root.join manifestFile) h')
    (hp : Patched root h') : Patched root h := by
  obtain ⟨b, hread, hb⟩ := hp.exists_read
  rw [hlead.read_eq] at hread
  exact patched_of_read hread hb

end

/-! ## 2. Turns -/

theorem printLines_sameFiles (c : Channel) : ∀ (ls : List String) (h : TreeHost),
    h.SameFiles ((printLines c ls : OnTree _) h).2
  | [], h => .refl h
  | s :: ls, h => by
    have hstep : (printLines c (s :: ls) : OnTree Unit) =
        (Host.printLine c s >>= fun _ => printLines c ls) := rfl
    have hfirst : h.SameFiles ((Host.printLine c s : OnTree Unit) h).2 := ⟨rfl, rfl⟩
    rw [hstep, OnTree.bind_apply]
    exact hfirst.trans (printLines_sameFiles c ls _)

/-- The turn of an extension: the host that it meets. -/
structure Turn where
  extension : InstalledExtension
  host : TreeHost

namespace Turn

variable {T : Turn}

/-- The root of the extension. -/
def root (T : Turn) : Path := T.extension.root

/-- The host after a turn. -/
def after (T : Turn) : TreeHost := ((unpatchOne T.extension : OnTree _) T.host).2

/-- The places between which a turn moves files, each with the host that the file meets. -/
def moves (T : Turn) : List (TreeHost × Location) :=
  if Patched T.root T.host then
    match ((Apply.openTarget T.root : OnTree _) T.host).1 with
    | .ok (e, manifest) =>
      (Restore.tried e T.host manifest.appliedFiles).flatMap fun x =>
        (Restore.places e x.1 x.2).map fun z => (x.2, z)
    | .error _ => []
  else []

/-- A turn moves nothing that is on the way of a path, or above a place on it. -/
def Spares (T : Turn) (p : Path) : Prop := ∀ m ∈ T.moves, ¬ m.1.tree.OnWay m.1.working p m.2

instance (T : Turn) (p : Path) : Decidable (T.Spares p) :=
  inferInstanceAs (Decidable (∀ m ∈ T.moves, ¬ m.1.tree.OnWay m.1.working p m.2))

/-- Where an extension is restored, it goes well. -/
def Succeeds (T : Turn) : Prop :=
  Patched T.root T.host → ((Restore.extension T.root : OnTree _) T.host).1.isOk = true

instance (T : Turn) : Decidable T.Succeeds :=
  inferInstanceAs (Decidable (_ → _))

/-- **Every way in which a turn can pass**: nothing happens, or the extension is restored. -/
theorem after_cases (T : Turn) :
    (¬ Patched T.root T.host ∧ T.after = T.host) ∨
      Patched T.root T.host ∧ ∃ r h₁, (Restore.extension T.root : OnTree _) T.host = (r, h₁) ∧
        h₁.SameFiles T.after := by
  unfold after unpatchOne
  rw [OnTree.bind_apply, isPatched_snd]
  cases hp : ((isPatched T.extension.root : OnTree _) T.host).1 with
  | false => exact Or.inl ⟨by unfold Patched root; rw [hp]; simp, rfl⟩
  | true =>
    rcases hrun : (Restore.extension T.root : OnTree _) T.host with ⟨r, h₁⟩
    refine Or.inr ⟨hp, r, h₁, rfl, ?_⟩
    rw [if_pos rfl, OnTree.bind_apply, show T.extension.root = T.root from rfl, hrun]
    cases r with
    | error cause => exact ⟨rfl, rfl⟩
    | ok report =>
      simp only [OnTree.bind_apply, OnTree.pure_apply]
      exact printLines_sameFiles _ _ h₁

theorem lawful_after (ht : T.host.tree.Lawful) : T.after.tree.Lawful := by
  rcases T.after_cases with ⟨-, hafter⟩ | ⟨-, r, h₁, hrun, hsame⟩
  · rwa [hafter]
  · exact hsame.1 ▸ Restore.lawful_extension hrun ht

/-- A turn that spares a path spares it whenever it moves a file. -/
theorem Spares.of_opened {p : Path} (hspares : T.Spares p) (hp : Patched T.root T.host)
    {e : Enclosure} {manifest : Manifest} (ho : Opened T.host T.root e manifest) :
    ∀ x ∈ Restore.tried e T.host manifest.appliedFiles, ∀ z, Restore.Moves e x.1 x.2 z →
      ¬ x.2.tree.OnWay x.2.working p z := by
  intro x hx z hz
  refine hspares (x.2, z) ?_
  unfold moves
  rw [if_pos hp, ho.openTarget_eq]
  exact List.mem_flatMap.mpr
    ⟨x, hx, List.mem_map.mpr ⟨z, Restore.mem_places_of_moves hz, rfl⟩⟩

/-- **A turn gives no other extension a record**, unless it moves something on the way to its
manifest. -/
theorem unpatched_other {q : Path} (hspares : T.Spares (q.join manifestFile))
    (hnot : ¬ Patched q T.host) : ¬ Patched q T.after := by
  rcases T.after_cases with ⟨-, hafter⟩ | ⟨hp, r, h₁, hrun, hsame⟩
  · rwa [hafter]
  · have hlead : ∀ {h h' : TreeHost}, h.SameFiles h' → Patched q h' → Patched q h :=
      fun hfiles => Patched.of_sameLead (.of_sameFiles hfiles)
    refine fun hq => hnot ?_
    have hq := hlead hsame hq
    rcases Restore.extension_cases hrun with
      ⟨hfiles, -⟩ | ⟨e, manifest, r₁, h₂, ho, hfiles, hend⟩
    · exact hlead hfiles hq
    · -- the manifest that is written is an emptied one
      have hmoved : T.host.SameLead (q.join manifestFile) h₂ :=
        Restore.sameLead_files hfiles (hspares.of_opened hp ho)
      refine Patched.of_sameLead hmoved ?_
      rcases hend with ⟨hfiles', -⟩ | ⟨-, hreplace, hworking⟩
      · exact hlead hfiles' hq
      · obtain ⟨-, z, hnamed, -, htree⟩ := Tree.replace_eq_ok_iff.mp hreplace
        obtain ⟨k, s, rfl, -, -⟩ := Tree.entryway_of_namedPlace hnamed
        obtain ⟨b, text, -, -, htext⟩ := ho.read_eq
        exact hq.before_set (by simp) (Manifest.distinct_of_ofText htext) htree hworking

/-- **A turn that goes well leaves its extension without a record**, unless it moves something on
the way to its directory. -/
theorem unpatched_own (ht : T.host.tree.Lawful) (hok : T.Succeeds) (hspares : T.Spares T.root) :
    ¬ Patched T.root T.after := by
  rcases T.after_cases with ⟨hnot, hafter⟩ | ⟨hp, r, h₁, hrun, hsame⟩
  · rwa [hafter]
  · intro hpatched
    have hr := hok hp
    rw [hrun] at hr
    cases r with
    | error cause => cases hr
    | ok report =>
      rcases Restore.extension_cases hrun with
        ⟨-, hnot⟩ | ⟨e, manifest, r₁, h₂, ho, hfiles, ⟨-, hnot⟩ | ⟨-, hreplace, hworking⟩⟩
      · exact hnot report rfl
      · exact hnot report rfl
      · obtain ⟨bytes, text, hbytes, -, htext⟩ := ho.read_eq
        obtain ⟨q, hlocate, -, -⟩ := ho.root_eq
        obtain ⟨l, hlocate, hroot, hl⟩ := ho.exists_root (ht.stands_start hlocate)
        -- the directory is still there when the manifest is written
        have hmoved := Restore.sameLead_files hfiles (hspares.of_opened hp ho)
        have hlocate₂ : h₂.tree.locate h₂.working true T.root = .ok l :=
          hmoved.locate.trans hlocate
        have hl₂ : h₂.tree.Stands l := by
          refine (Restore.lawful_files hfiles ht).stands ?_
          rw [Tree.isDirectory_iff, hmoved.get l hlocate]
          exact Tree.isDirectory_iff.mp hl.isDirectory
        obtain ⟨-, z, hnamed, -, htree⟩ := Tree.replace_eq_ok_iff.mp hreplace
        rw [ho.path_eq, hroot, Path.join_manifestFile hl.names] at hnamed
        obtain rfl := hl₂.namedPlace_eq manifestName_isName hnamed
        -- so that is what is read
        obtain ⟨b, hread, hb⟩ := (hpatched.of_sameLead (.of_sameFiles hsame)).exists_read
        rw [htree, hworking] at hread
        obtain rfl := Tree.read_join_of_set manifestName_isName hlocate₂ hread
        exact not_holdsRecord_clear (Manifest.distinct_of_ofText htext) hb

end Turn

/-! ## 3. Runs -/

/-- The turns of some extensions, one after the other. -/
def turns : List InstalledExtension → TreeHost → List Turn
  | [], _ => []
  | x :: xs, h => ⟨x, h⟩ :: turns xs (Turn.after ⟨x, h⟩)

section

variable {xs : List InstalledExtension} {h : TreeHost}

theorem unpatchEach_cons_snd (x : InstalledExtension) (xs : List InstalledExtension)
    (h : TreeHost) : ((unpatchEach (x :: xs) : OnTree _) h).2 =
      ((unpatchEach xs : OnTree _) (Turn.after ⟨x, h⟩)).2 := rfl

/-- Every extension has a turn. -/
theorem exists_turn {x : InstalledExtension} : ∀ {xs : List InstalledExtension} {h : TreeHost},
    x ∈ xs → ∃ before T after, turns xs h = before ++ T :: after ∧ T.extension = x
  | y :: xs, h, hx => by
    rcases List.mem_cons.mp hx with rfl | hx
    · exact ⟨[], ⟨x, h⟩, turns xs _, rfl, rfl⟩
    · obtain ⟨before, T, after, heq, hT⟩ := exists_turn (h := Turn.after ⟨y, h⟩) hx
      exact ⟨⟨y, h⟩ :: before, T, after, by rw [turns, heq]; rfl, hT⟩

/-- Turns give no extension a record that they spare. -/
theorem unpatched_of_spared {q : Path} : ∀ {xs : List InstalledExtension} {h : TreeHost},
    (∀ T ∈ turns xs h, T.Spares (q.join manifestFile)) → ¬ Patched q h →
      ¬ Patched q ((unpatchEach xs : OnTree _) h).2
  | [], _, _, hnot => hnot
  | x :: xs, h, hspared, hnot => by
    rw [turns] at hspared
    obtain ⟨hfirst, hrest⟩ := List.forall_mem_cons.mp hspared
    rw [unpatchEach_cons_snd]
    exact unpatched_of_spared hrest (Turn.unpatched_other (T := ⟨x, h⟩) hfirst hnot)

/-- **An extension that has had its turn** has no record in the end, if the turn went well and
nothing has been moved on its way since. -/
theorem unpatched_of_turn {T : Turn} {after : List Turn} :
    ∀ {xs : List InstalledExtension} {h : TreeHost} {before : List Turn}, h.tree.Lawful →
      turns xs h = before ++ T :: after → T.Succeeds → T.Spares T.root →
        (∀ U ∈ after, U.Spares (T.root.join manifestFile)) →
          ¬ Patched T.root ((unpatchEach xs : OnTree _) h).2
  | [], h, before, _, heq, _, _, _ => by simp [turns] at heq
  | x :: xs, h, [], ht, heq, hok, hown, hlater => by
    rw [turns, List.nil_append] at heq
    obtain ⟨rfl, rfl⟩ := List.cons.inj heq
    rw [unpatchEach_cons_snd]
    exact unpatched_of_spared hlater (Turn.unpatched_own ht hok hown)
  | x :: xs, h, U :: before, ht, heq, hok, hown, hlater => by
    rw [turns, List.cons_append] at heq
    obtain ⟨-, heq⟩ := List.cons.inj heq
    rw [unpatchEach_cons_snd]
    exact unpatched_of_turn (Turn.lawful_after (T := ⟨x, h⟩) ht) heq hok hown hlater

end

/-! ## 4. The command -/

/-- An extension has a turn, and it has no record in the end unless files are moved on its way: in
that turn on the way to its directory, or in a later one on the way to its manifest. -/
def Emptied (ts : List Turn) (root : Path) (h' : TreeHost) : Prop :=
  ∃ before T after, ts = before ++ T :: after ∧ T.root = root ∧
    (T.Spares root → (∀ U ∈ after, U.Spares (root.join manifestFile)) → ¬ Patched root h')

/-- What taking all patches back comes to: the extensions that are known, `d`, are those of the
settings and of the directory, and all overrides are emptied, and of every other name the newest
extension that the scan has found. -/
structure EmptiesAll (s : Settings) (dir : Option Path) (h : TreeHost) (d : ExtensionDirectory)
    (h₀ h' : TreeHost) : Prop where
  known : Known s dir h d h₀
  overrides : ∀ id root, d.overrides.lookup id = some root →
    Emptied (turns d.installed h₀) root h'
  scanned : ∀ e ∈ d.scanned, d.HasNoOverride e.id →
    ExtensionDirectory.newest (d.candidates e.id) = some e →
      Emptied (turns d.installed h₀) e.root h'

/-- What `unpatch` without names leaves. -/
theorem runUnpatch_apply {s : Settings} {dir : Option Path} {h h₀ : TreeHost}
    {d : ExtensionDirectory} (hfind : (findExtensions s dir : OnTree _) h = (.ok d, h₀)) :
    ((runUnpatch s [] dir : OnTree _) h).1 = .ok 0 ∧
      ((unpatchEach d.installed : OnTree _) h₀).2.SameFiles
        ((runUnpatch s [] dir : OnTree _) h).2 := by
  unfold runUnpatch
  rw [OnTree.bind_apply, hfind]
  simp only
  rw [OnTree.bind_apply]
  have hselected : (selected d [] : OnTree _) h₀ = (d.installed, h₀) := rfl
  rw [hselected, OnTree.bind_apply]
  cases ((unpatchEach d.installed : OnTree _) h₀).1 with
  | true => exact ⟨rfl, rfl, rfl⟩
  | false => exact ⟨rfl, rfl, rfl⟩

/-- **Taking all patches back** empties the record of every override, and of every other name that
of the newest extension that the scan has found, if no extension that is restored fails. -/
theorem runUnpatch_empties {s : Settings} {dir : Option Path} {h h₀ : TreeHost}
    {d : ExtensionDirectory} (ht : h.tree.Lawful)
    (hfind : (findExtensions s dir : OnTree _) h = (.ok d, h₀))
    (hok : ∀ T ∈ turns d.installed h₀, T.Succeeds) :
    ((runUnpatch s [] dir : OnTree _) h).1 = .ok 0 ∧
      EmptiesAll s dir h d h₀ ((runUnpatch s [] dir : OnTree _) h).2 := by
  have hknown := findExtensions_known hfind
  obtain ⟨hcode, hsame⟩ := runUnpatch_apply hfind
  have ht₀ : h₀.tree.Lawful := hknown.files.1 ▸ ht
  have hemptied : ∀ x ∈ d.installed,
      Emptied (turns d.installed h₀) x.root ((runUnpatch s [] dir : OnTree _) h).2 := by
    intro x hx
    obtain ⟨before, T, after, hturns, rfl⟩ := exists_turn (h := h₀) hx
    refine ⟨before, T, after, hturns, rfl, fun hown hlater hpatched => ?_⟩
    have hT : T ∈ turns d.installed h₀ := by simp [hturns]
    exact unpatched_of_turn ht₀ hturns (hok T hT) hown hlater
      (hpatched.of_sameLead (.of_sameFiles hsame))
  refine ⟨hcode, hknown, fun id root hroot => ?_, fun e he hnone hnewest => ?_⟩
  · exact hemptied _ (ExtensionDirectory.mem_installed_of_override hroot)
  · have hroot : d.scannedRoot e.id = some e.root := by
      unfold ExtensionDirectory.scannedRoot
      rw [hnewest]
      rfl
    obtain ⟨x, hx, hxroot⟩ := ExtensionDirectory.exists_installed_of_scanned he hnone hroot
    exact hxroot ▸ hemptied x hx

/-! ## 5. What is left -/

/-- The text of a manifest whose record names files. -/
def recordText (files : String) : String :=
  "\x7b\"customPatches-appliedPatches\":\x7b\"i\":[" ++ files ++ "]\x7d\x7d"

/-- Two versions of an extension, both with a record.  Inside the newer one lies another extension,
whose manifest has a backup from the time when it had a record, too.  A third one is named by a link
in it, and the backup of the link leads to the older version. -/
def versionsTree : Tree where
  entries := [(["exts"], .directory), (["exts", "a"], .directory), (["exts", "b"], .directory),
    (["exts", "b", "sub"], .directory), (["dev"], .directory),
    (["exts", "a", "package.json"], .file ("\x7b\"publisher\":\"p\",\"name\":\"x\"," ++
      "\"version\":\"1.0.0\",\"customPatches-appliedPatches\":\x7b\"i\":[]\x7d\x7d").toUTF8),
    (["exts", "b", "package.json"], .file ("\x7b\"publisher\":\"p\",\"name\":\"x\"," ++
      "\"version\":\"2.0.0\",\"customPatches-appliedPatches\":" ++
      "\x7b\"i\":[\"sub/package.json\"]\x7d\x7d").toUTF8),
    (["exts", "b", "sub", "package.json"], .file (recordText "").toUTF8),
    (["exts", "b", "sub", "package.json.backup"], .file (recordText "").toUTF8),
    (["dev", "package.json"], .file (recordText "\"l\"").toUTF8), (["dev", "l"], .link ⟨"."⟩),
    (["dev", "l.backup"], .link ⟨"../exts/a"⟩)]

theorem versionsTree_lawful : versionsTree.Lawful := Tree.lawful_of_isLawful (by decide +kernel)

/-- Settings that name the other two extensions. -/
def versionsSettings : Settings :=
  { Settings.default with extensionPaths := [("p.y", ⟨"dev/l"⟩), ("p.z", ⟨"exts/b/sub"⟩)] }

theorem versionsTree_subdirectories : versionsTree.subdirectories [] ⟨"exts"⟩ = ["a", "b"] := by
  have hlocate : versionsTree.locate [] true ⟨"exts"⟩ = .ok ["exts"] := rfl
  have hchildren : versionsTree.children ["exts"] = ["a", "b"] := by
    unfold Tree.children
    rw [show (versionsTree.entries.filterMap _).eraseDups = ["a", "b"] by decide +kernel]
    exact List.mergeSort_of_pairwise (by decide)
  unfold Tree.subdirectories
  rw [hlocate]
  simp only
  rw [hchildren]
  decide +kernel

/-- The extensions that are known there. -/
def versionsKnown : ExtensionDirectory where
  scanned := [⟨"p.x", "1.0.0", ⟨"exts/a"⟩⟩, ⟨"p.x", "2.0.0", ⟨"exts/b"⟩⟩]
  overrides := [("p.y", ⟨"dev/l"⟩), ("p.z", ⟨"exts/b/sub"⟩)]
  active := []

/-- The host once they are known. -/
def versionsMet : TreeHost :=
  { TreeHost.ofTree versionsTree with journal := [.note .debug "found 2 extension(s) in exts"] }

theorem versionsTree_childPaths :
    ExtensionDirectory.childPaths (.ofTree versionsTree) ⟨"exts"⟩ =
      [⟨"exts/a"⟩, ⟨"exts/b"⟩] := by
  have hnames : (TreeHost.ofTree versionsTree).tree.subdirectories
      (TreeHost.ofTree versionsTree).working ⟨"exts"⟩ = ["a", "b"] := versionsTree_subdirectories
  unfold ExtensionDirectory.childPaths
  rw [hnames]
  decide +kernel

/-- Both versions are found. -/
theorem versionsTree_inspected :
    (ExtensionDirectory.inspectRoots [⟨"exts/a"⟩, ⟨"exts/b"⟩] : OnTree _) (.ofTree versionsTree) =
      (versionsKnown.scanned, .ofTree versionsTree) := by
  have hfirst : (ExtensionDirectory.inspectRoot ⟨"exts/a"⟩ : OnTree _) (.ofTree versionsTree) =
      (some ⟨"p.x", "1.0.0", ⟨"exts/a"⟩⟩, .ofTree versionsTree) :=
    (ExtensionDirectory.inspectRoot_eq_some_iff.mp (by decide +kernel)).inspectRoot_eq
  have hsecond : (ExtensionDirectory.inspectRoot ⟨"exts/b"⟩ : OnTree _) (.ofTree versionsTree) =
      (some ⟨"p.x", "2.0.0", ⟨"exts/b"⟩⟩, .ofTree versionsTree) :=
    (ExtensionDirectory.inspectRoot_eq_some_iff.mp (by decide +kernel)).inspectRoot_eq
  simp only [ExtensionDirectory.inspectRoots, OnTree.bind_apply, hfirst, hsecond]
  rfl

theorem versionsTree_found :
    (findExtensions versionsSettings (some ⟨"exts"⟩) : OnTree _) (.ofTree versionsTree) =
      (.ok versionsKnown, versionsMet) := by
  have hdir : (TreeHost.ofTree versionsTree).tree.isDirectoryAt
      (TreeHost.ofTree versionsTree).working ⟨"exts"⟩ = true := rfl
  have hplace : (extensionsDir versionsSettings (some ⟨"exts"⟩) : OnTree _) (.ofTree versionsTree) =
      (some ⟨"exts"⟩, .ofTree versionsTree) := rfl
  have hscan := ExtensionDirectory.scan_apply hdir
    (versionsTree_childPaths ▸ versionsTree_inspected)
  unfold findExtensions
  rw [OnTree.bind_apply, hplace]
  simp only
  rw [OnTree.bind_apply, expandAll_apply, OnTree.bind_apply, hscan]
  rfl

/-- Every turn goes well, and none moves anything on the way to the newer version. -/
theorem versionsKnown_turns : ∀ T ∈ turns versionsKnown.installed versionsMet,
    T.Succeeds ∧ T.Spares ⟨"exts/b"⟩ ∧ T.Spares (Path.join ⟨"exts/b"⟩ manifestFile) := by
  decide +kernel

/-- The extension that comes last has no record in the end. -/
theorem newer_version_emptied :
    versionsTree.Lawful ∧
    (findExtensions versionsSettings (some ⟨"exts"⟩) : OnTree _) (.ofTree versionsTree) =
      (.ok versionsKnown, versionsMet) ∧
    (∀ T ∈ turns versionsKnown.installed versionsMet, T.Succeeds) ∧
    Patched ⟨"exts/b"⟩ versionsMet ∧
    ∃ h', (runUnpatch versionsSettings [] (some ⟨"exts"⟩) : OnTree _) (.ofTree versionsTree) =
        (.ok 0, h') ∧
      EmptiesAll versionsSettings (some ⟨"exts"⟩) (.ofTree versionsTree) versionsKnown versionsMet
        h' ∧
      ¬ Patched ⟨"exts/b"⟩ h' := by
  have hturns : ∀ T ∈ turns versionsKnown.installed versionsMet, T.Succeeds :=
    fun T hT => (versionsKnown_turns T hT).1
  obtain ⟨hcode, hempties⟩ := runUnpatch_empties versionsTree_lawful versionsTree_found hturns
  refine ⟨versionsTree_lawful, versionsTree_found, hturns, by decide +kernel, _,
    Prod.ext hcode rfl, hempties, ?_⟩
  obtain ⟨before, T, after, heq, hroot, hemptied⟩ :=
    hempties.scanned ⟨"p.x", "2.0.0", ⟨"exts/b"⟩⟩ (by decide +kernel) (by decide +kernel)
      (by decide +kernel)
  have hspares : ∀ U ∈ before ++ T :: after,
      U.Spares ⟨"exts/b"⟩ ∧ U.Spares (Path.join ⟨"exts/b"⟩ manifestFile) :=
    heq ▸ fun U hU => (versionsKnown_turns U hU).2
  exact hemptied (hspares T (by simp)).1 fun U hU => (hspares U (by simp [hU])).2

/-- The older version keeps its record, and so do both overrides: one because its link is moved back
in its own turn, the other because its manifest is moved back in a later one. -/
theorem records_left :
    (findExtensions versionsSettings (some ⟨"exts"⟩) : OnTree _) (.ofTree versionsTree) =
      (.ok versionsKnown, versionsMet) ∧
    (∀ T ∈ turns versionsKnown.installed versionsMet, T.Succeeds) ∧
    ∃ h', (runUnpatch versionsSettings [] (some ⟨"exts"⟩) : OnTree _) (.ofTree versionsTree) =
        (.ok 0, h') ∧
      (∃ e ∈ versionsKnown.scanned, Patched e.root h') ∧
      ∀ x ∈ versionsKnown.overrides, Patched x.2 h' := by
  refine ⟨versionsTree_found, fun T hT => (versionsKnown_turns T hT).1, ?_⟩
  obtain ⟨hcode, hsame⟩ := runUnpatch_apply versionsTree_found
  have hleft : ∀ root ∈ ⟨"exts/a"⟩ :: versionsKnown.overrides.map Prod.snd,
      Patched root ((unpatchEach versionsKnown.installed : OnTree _) versionsMet).2 := by
    decide +kernel
  have hback : ∀ {h h' : TreeHost} {root : Path}, h.SameFiles h' → Patched root h →
      Patched root h' := fun hsame hp => hp.of_sameLead (.of_sameFiles ⟨hsame.1.symm, hsame.2.symm⟩)
  exact ⟨_, Prod.ext hcode rfl,
    ⟨⟨"p.x", "1.0.0", ⟨"exts/a"⟩⟩, by decide +kernel, hback hsame (hleft _ (by simp))⟩,
    fun x hx => hback hsame (hleft _ (List.mem_cons_of_mem _ (List.mem_map_of_mem hx)))⟩

end CommandLine

end TextPatch
