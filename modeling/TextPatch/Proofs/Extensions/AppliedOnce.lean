/-
# What is recorded is not applied again

Over any runs, a descriptor that is in the record of an extension, or that has been reported for it
as applied, is skipped from then on and changes no file (`recorded_never_applied_again`).  So each
identity is applied at most once to an extension, and then it is in the manifest that is on disk
when the runs end.

Files may be links here.  What the proof needs is that no file patch replaces the file that a
manifest is read from, or a link on the way to it (`Attempt.Spares`); without that, a manifest can
lose its record between two runs (`linked_manifest_forgets`).

The manifest of one extension may be read through the manifest of another one.  When the other one
is written, its record holds what the first one has held (`Tree.read_of_replace_end`), so what is
known stays known (`Manifest.known_of_write`).
-/
import TextPatch.Proofs.Extensions.Pristine
import TextPatch.Proofs.Extensions.Spared

namespace TextPatch

variable {e : Enclosure} {m : Path} {b : ByteArray} {h h' : TreeHost}

/-! ## 1. What is known of an identity -/

/-- Whatever manifest some bytes are read as, an identity is in its record. -/
def RecordedIn (b : ByteArray) (x : String) : Prop :=
  ∀ path text d, Host.decodeText b = .ok text → Manifest.ofText path text = .ok d →
    d.contains x = true

/-- Some bytes are a manifest as it is written, and an identity is in its record. -/
def WrittenIn (b : ByteArray) (x : String) : Prop :=
  ∃ d : Manifest, d.Distinct ∧ d.contains x = true ∧ b = d.written.toUTF8

/-- A manifest that has been written is read with what is in its record. -/
theorem WrittenIn.recordedIn {x : String} (hb : WrittenIn b x) : RecordedIn b x := by
  obtain ⟨d, hd, hx, rfl⟩ := hb
  intro path text d' hdecode htext
  obtain rfl := Host.eq_of_decodeText hdecode
  rw [Manifest.contains_iff, Manifest.applied_of_written hd htext, ← Manifest.contains_iff]
  exact hx

/-- The bytes that a manifest has been read from have in the record what the manifest has. -/
theorem recordedIn_iff {text x : String} {d : Manifest} {path : Path}
    (hdecode : Host.decodeText b = .ok text) (htext : Manifest.ofText path text = .ok d) :
    RecordedIn b x ↔ d.contains x = true := by
  constructor
  · exact fun hb => hb path text d hdecode htext
  · intro hx path' text' d' hdecode' htext'
    rw [hdecode] at hdecode'
    cases hdecode'
    unfold Manifest.ofText at htext htext'
    split at htext
    · rename_i members hparse
      rw [hparse] at htext'
      cases htext
      cases htext'
      exact hx
    · cases htext
    · cases htext

/-- A manifest that can be read is read from bytes that have the same record. -/
theorem exists_recordedIn_iff {root : Path} {d : Manifest}
    (hd : ((Manifest.read root : OnTree _) h).1 = .ok d) :
    ∃ b, h.tree.read h.working (root.join manifestFile) = .ok b ∧
      ∀ x, RecordedIn b x ↔ d.contains x = true := by
  rcases hrun : (Manifest.read root : OnTree _) h with ⟨r, h'⟩
  rw [hrun] at hd
  obtain ⟨-, hparts⟩ := Manifest.read_apply hrun
  obtain ⟨hpath, b, text, hread, hdecode, htext⟩ := hparts d hd
  rw [hpath] at hread
  exact ⟨b, hread, fun x => recordedIn_iff hdecode htext⟩

/-- An identity is in the record that `m` leads to. -/
def Known (h : TreeHost) (m : Path) (x : String) : Prop :=
  ∃ b, h.tree.read h.working m = .ok b ∧ RecordedIn b x

/-- An identity is in the record of a manifest that has been written where `m` leads to. -/
def OnDisk (h : TreeHost) (m : Path) (x : String) : Prop :=
  ∃ b, h.tree.read h.working m = .ok b ∧ WrittenIn b x

theorem OnDisk.known {x : String} (hx : OnDisk h m x) : Known h m x := by
  obtain ⟨b, hread, hb⟩ := hx
  exact ⟨b, hread, hb.recordedIn⟩

/-! ## 2. Attempts on one extension -/

/-- A descriptor has been skipped, and no file has changed. -/
def Attempt.Skipped (a : Attempt) : Prop :=
  a.outcome.isSkipped = true ∧ a.after.tree = a.before.tree

/-- A descriptor has been applied, or it had been before. -/
def Attempt.Settled (a : Attempt) : Prop :=
  a.outcome.isApplied = true ∨ a.outcome.isSkipped = true

/-- What becomes of attempts on an extension that starts with a manifest and ends with another. -/
structure SettlesOnce (manifest manifest' : Manifest) (as : List Attempt) : Prop where
  skips : ∀ x, manifest.contains x = true → ∀ a ∈ as, a.outcome.identity = x → a.Skipped
  later : as.Pairwise fun a a' =>
    a.outcome.identity = a'.outcome.identity → a.Settled → a'.Skipped
  settled : ∀ a ∈ as, a.Settled → manifest'.contains a.outcome.identity = true

/-- One attempt.  The manifest at hand has what is recorded on disk. -/
theorem descriptor_settlesOnce {id identity : String} {manifest manifest' : Manifest}
    {d : Descriptor} {r : Except ApplicationError PatchResult}
    (hrun : (Apply.descriptor e id identity manifest d : OnTree _) h = ((manifest', r), h'))
    (hread : h.tree.read h.working (e.root.join manifestFile) = .ok b)
    (hdisk : ∀ x, RecordedIn b x → manifest.contains x = true) :
    SettlesOnce manifest manifest' [⟨e.root, d, ⟨identity, id, r⟩, h, h'⟩] := by
  -- what is read now is what is at hand
  have hhand : Apply.IsRecorded h e manifest identity → manifest.contains identity = true := by
    rintro (hc | ⟨fresh, hfresh, hc⟩)
    · exact hc
    · obtain ⟨b', hb', hiff⟩ := exists_recordedIn_iff hfresh
      rw [hread] at hb'
      cases hb'
      exact hdisk identity ((hiff identity).mpr hc)
  constructor
  · intro x hx a ha hidentity
    obtain rfl := List.mem_singleton.mp ha
    subst hidentity
    rcases Apply.descriptor_cases hrun with ⟨-, -, rfl, hsame⟩ | ⟨hnew, -⟩
    · exact ⟨rfl, hsame.1⟩
    · exact absurd (Or.inl hx) hnew
  · exact List.pairwise_singleton _ _
  · intro a ha hsettled
    obtain rfl := List.mem_singleton.mp ha
    rcases Apply.descriptor_cases hrun with ⟨hrec, rfl, -, -⟩ | ⟨hnew, r₁, h₁, -, -, hr⟩
    · exact hhand hrec
    · rcases hr with ⟨files, -, -, rfl⟩ | ⟨cause, -, -, rfl⟩
      · have hentry := (Apply.descriptor_recorded hrun).entered _ (List.mem_singleton_self _) id
          files rfl
        exact Manifest.contains_iff.mpr (List.mem_map_of_mem hentry)
      · rcases hsettled with h | h <;> cases h

/-- **Among the attempts on one extension that is open, each identity settles once.** -/
theorem descriptors_settlesOnce {id : String} {source : PatchSource} :
    ∀ {ds : List Descriptor} {manifest manifest' : Manifest} {h h' : TreeHost}
      {outcomes : List PatchOutcome},
      (Apply.descriptors e id source manifest ds : OnTree _) h = ((manifest', outcomes), h') →
      (∀ a ∈ Apply.attempts e id source manifest h ds, a.Spares (e.root.join manifestFile)) →
      h.tree.read h.working (e.root.join manifestFile) = .ok b →
      (∀ x, RecordedIn b x → manifest.contains x = true) →
      SettlesOnce manifest manifest' (Apply.attempts e id source manifest h ds)
  | [], manifest, manifest', h, h', outcomes, hrun, _, _, _ => by
    rw [Apply.attempts]
    exact ⟨by simp, .nil, by simp⟩
  | d :: rest, manifest, manifest', h, h', outcomes, hrun, hspares, hread, hdisk => by
    obtain ⟨manifest₁, r, h₁, outcomes₁, hd, hrest, -, hlog⟩ := Apply.descriptors_cons hrun
    rw [hlog] at hspares ⊢
    have hread₁ := descriptor_read hd (hspares _ (by simp)) hread
    have hone := descriptor_settlesOnce hd hread hdisk
    have hgrows : ∀ x, manifest.contains x = true → manifest₁.contains x = true := fun x hx =>
      Manifest.contains_of_applied (Apply.descriptor_recorded hd).grows hx
    have ih := descriptors_settlesOnce hrest
      (fun a ha => hspares a (List.mem_cons_of_mem _ ha)) hread₁
      (fun x hx => hgrows x (hdisk x hx))
    constructor
    · intro x hx a ha hidentity
      rcases List.mem_cons.mp ha with rfl | ha
      · exact hone.skips x hx _ (by simp) hidentity
      · exact ih.skips x (hgrows x hx) a ha hidentity
    · refine List.pairwise_cons.mpr ⟨fun a ha hidentity hsettled => ?_, ih.later⟩
      exact ih.skips _ (hone.settled _ (by simp) hsettled) a ha hidentity.symm
    · intro a ha hsettled
      rcases List.mem_cons.mp ha with rfl | ha
      · exact Manifest.contains_of_applied (Apply.descriptors_recorded hrest).grows
          (hone.settled _ (by simp) hsettled)
      · exact ih.settled a ha hsettled

/-! ## 3. Attempts on several extensions -/

/-- An attempt tries a descriptor with the identity `x` on the extension at a root. -/
def Attempt.Of (a : Attempt) (root : Path) (x : String) : Prop :=
  a.root = root ∧ a.outcome.identity = x

/-- An attempt shows that the extension at a root has `x`: it is in the record on disk when the
attempt begins, or the attempt settles it. -/
def Attempt.Shows (a : Attempt) (root : Path) (x : String) : Prop :=
  Known a.before (root.join manifestFile) x ∨ a.Of root x ∧ a.Settled

/-- What becomes of `x` on the extension at a root, from the host `h` to the host `h'`. -/
structure Once (root : Path) (x : String) (as : List Attempt) (h h' : TreeHost) : Prop where
  known : Known h (root.join manifestFile) x → Known h' (root.join manifestFile) x
  onDisk : OnDisk h (root.join manifestFile) x → OnDisk h' (root.join manifestFile) x
  before : Known h (root.join manifestFile) x →
    ∀ a ∈ as, Known a.before (root.join manifestFile) x
  itself : ∀ a ∈ as, Known a.before (root.join manifestFile) x → a.Of root x → a.Skipped
  later : as.Pairwise fun a a' => a.Shows root x → a'.Of root x → a'.Skipped
  shows : ∀ a ∈ as, a.Shows root x → Known h' (root.join manifestFile) x
  applied : ∀ a ∈ as, a.Of root x → a.outcome.isApplied = true →
    OnDisk h' (root.join manifestFile) x

variable {root : Path} {x : String}

/-- Nothing becomes of `x` where nothing changes. -/
theorem Once.of_sameFiles (hsame : h.SameFiles h') : Once root x [] h h' where
  known := by
    unfold Known
    rw [hsame.1, hsame.2]
    exact fun hx => hx
  onDisk := by
    unfold OnDisk
    rw [hsame.1, hsame.2]
    exact fun hx => hx
  before := by simp
  itself := by simp
  later := .nil
  shows := by simp
  applied := by simp

theorem Once.append {as bs : List Attempt} {h₁ : TreeHost} (a : Once root x as h h₁)
    (b : Once root x bs h₁ h') : Once root x (as ++ bs) h h' where
  known hx := b.known (a.known hx)
  onDisk hx := b.onDisk (a.onDisk hx)
  before hx y hy := by
    rcases List.mem_append.mp hy with hy | hy
    · exact a.before hx y hy
    · exact b.before (a.known hx) y hy
  itself y hy := by
    rcases List.mem_append.mp hy with hy | hy
    · exact a.itself y hy
    · exact b.itself y hy
  later := by
    refine List.pairwise_append.mpr ⟨a.later, b.later, fun y hy z hz hshows => ?_⟩
    exact b.itself z hz (b.before (a.shows y hy hshows) z hz)
  shows y hy hshows := by
    rcases List.mem_append.mp hy with hy | hy
    · exact b.known (a.shows y hy hshows)
    · exact b.shows y hy hshows
  applied y hy hof happlied := by
    rcases List.mem_append.mp hy with hy | hy
    · exact b.onDisk (a.applied y hy hof happlied)
    · exact b.applied y hy hof happlied

/-- The manifest of an extension that is open is written, after attempts on it.  What is known stays
known, even where it is read through that manifest. -/
theorem Manifest.known_of_write {manifest : Manifest}
    (hpath : manifest.path = e.root.join manifestFile) (hdistinct : manifest.Distinct)
    (hread : h.tree.read h.working (e.root.join manifestFile) = .ok b)
    (hgrows : ∀ y, RecordedIn b y → manifest.contains y = true)
    (hwrite : h.tree.replace h.working manifest.path manifest.written.toUTF8 = .ok h'.tree)
    (hworking : h'.working = h.working) :
    (∀ y, manifest.contains y = true → OnDisk h' (e.root.join manifestFile) y) ∧
      ∀ m y, (Known h m y → Known h' m y) ∧ (OnDisk h m y → OnDisk h' m y) := by
  rw [hpath] at hwrite
  have hslashes : Tree.withoutSlashes (e.root.join manifestFile) =
      (e.root.join manifestFile, false) := Path.withoutSlashes_join e.root manifestName_isName
  obtain ⟨hnow, hothers⟩ := Tree.read_of_replace_end hslashes hwrite hread
  have hwritten : ∀ y, manifest.contains y = true → WrittenIn manifest.written.toUTF8 y :=
    fun y hy => ⟨manifest, hdistinct, hy, rfl⟩
  unfold Known OnDisk
  rw [hworking]
  refine ⟨fun y hy => ⟨_, hnow, hwritten y hy⟩, fun m y => ⟨?_, ?_⟩⟩
  · rintro ⟨c, hc, hy⟩
    rcases hothers hc with hsame | ⟨hnew, rfl⟩
    · exact ⟨c, hsame, hy⟩
    · exact ⟨_, hnew, (hwritten y (hgrows y hy)).recordedIn⟩
  · rintro ⟨c, hc, hy⟩
    rcases hothers hc with hsame | ⟨hnew, rfl⟩
    · exact ⟨c, hsame, hy⟩
    · exact ⟨_, hnew, hwritten y (hgrows y hy.recordedIn)⟩

/-- No descriptor is reported as applied to an extension that has a failure of its own, so all
manifests that had to be written have been. -/
def ApplyReport.Records (report : ApplyReport) : Prop :=
  ∀ o ∈ report.outcomes, o.isApplied = true → ∀ cause, (o.target, cause) ∉ report.targetErrors

/-- Where manifests can be written, the one of an extension that is open is written if a descriptor
has been applied. -/
theorem Apply.openedTarget_of_records {id : String} {isActive : Bool} {source : PatchSource}
    {manifest : Manifest} {ds : List Descriptor} {report : ApplyReport}
    (hrun : (openedTarget e manifest id isActive source ds : OnTree _) h = (report, h'))
    (hrecords : report.Records) :
    ∃ manifest₁ outcomes h₁,
      (descriptors e id source manifest ds : OnTree _) h = ((manifest₁, outcomes), h₁) ∧
        ((∀ a ∈ attempts e id source manifest h ds, a.outcome.isApplied = false) ∧ h' = h₁ ∨
          h₁.tree.replace h₁.working manifest₁.path manifest₁.written.toUTF8 = .ok h'.tree ∧
            h'.working = h₁.working) := by
  obtain ⟨manifest₁, outcomes, h₁, hrun₁, rfl, hend⟩ := openedTarget_cases hrun
  refine ⟨manifest₁, _, h₁, hrun₁, ?_⟩
  rcases hend with ⟨hnone, rfl, -⟩ | ⟨hany, r, h₂, hwrite, hsame, hr⟩
  · exact Or.inl ⟨(any_isApplied_eq_false hrun₁).mp hnone, rfl⟩
  · right
    rcases Manifest.write_apply hwrite with ⟨cause, -, rfl, -⟩ | ⟨hreplace, -, hworking⟩
    · -- a failure to write is reported, and so is what has been applied
      rcases hr with ⟨hok, -⟩ | ⟨cause, -, herrors⟩
      · cases hok
      obtain ⟨o, hmem, happlied⟩ := List.any_eq_true.mp hany
      have htarget : o.target = id := by
        rw [← outcome_attempts hrun₁] at hmem
        obtain ⟨a, ha, rfl⟩ := List.mem_map.mp hmem
        exact (root_of_mem_attempts ha).2
      refine absurd ?_ (hrecords o hmem happlied (.record cause))
      rw [herrors, htarget]
      exact List.mem_singleton_self _
    · rw [← hsame.1] at hreplace
      exact ⟨hreplace, hsame.2.trans hworking⟩

/-- All attempts spare the manifest of the extension at a root, and each the one of its own. -/
def SparesManifests (root : Path) (as : List Attempt) : Prop :=
  ∀ a ∈ as, a.Spares (root.join manifestFile) ∧ a.Spares (a.root.join manifestFile)

/-- Attempts on an extension that is open, up to where its manifest has been written.  `b` is what
the manifest has been read from. -/
theorem Once.of_settlesOnce {manifest manifest' : Manifest} {as : List Attempt} {h₁ : TreeHost}
    (hroots : ∀ a ∈ as, a.root = e.root)
    (hreads : StillReads (root.join manifestFile) as h h₁)
    (hown : StillReads (e.root.join manifestFile) as h h₁)
    (hread : h.tree.read h.working (e.root.join manifestFile) = .ok b)
    (hdisk : ∀ y, RecordedIn b y ↔ manifest.contains y = true)
    (hsettles : SettlesOnce manifest manifest' as)
    (hknown : Known h₁ (root.join manifestFile) x → Known h' (root.join manifestFile) x)
    (honDisk : OnDisk h₁ (root.join manifestFile) x → OnDisk h' (root.join manifestFile) x)
    (hsettled : e.root = root → manifest'.contains x = true →
      Known h' (root.join manifestFile) x)
    (happlied : ∀ a ∈ as, a.Of root x → a.outcome.isApplied = true →
      OnDisk h' (root.join manifestFile) x) :
    Once root x as h h' := by
  -- what an attempt on the extension finds on disk has been at hand from the start
  have hskips : ∀ a ∈ as, Known a.before (root.join manifestFile) x →
      ∀ a' ∈ as, a'.Of root x → a'.Skipped := by
    rintro a ha ⟨c, hc, hx⟩ a' ha' ⟨hroot, hidentity⟩
    obtain rfl := (hroots a' ha').symm.trans hroot
    have hb := hown.before b hread a ha
    rw [hc] at hb
    cases hb
    exact hsettles.skips x ((hdisk x).mp hx) a' ha' hidentity
  constructor
  · rintro ⟨c, hc, hx⟩
    exact hknown ⟨c, hreads.whole c hc, hx⟩
  · rintro ⟨c, hc, hx⟩
    exact honDisk ⟨c, hreads.whole c hc, hx⟩
  · rintro ⟨c, hc, hx⟩ a ha
    exact ⟨c, hreads.before c hc a ha, hx⟩
  · exact fun a ha hx => hskips a ha hx a ha
  · refine hsettles.later.imp_of_mem fun {a a'} ha ha' hlater hshows hof => ?_
    rcases hshows with hx | ⟨hof₀, hsettled₀⟩
    · exact hskips a ha hx a' ha' hof
    · exact hlater (hof₀.2.trans hof.2.symm) hsettled₀
  · rintro a ha (⟨c, hc, hx⟩ | ⟨⟨hroot, rfl⟩, hsettled₀⟩)
    · exact hknown ⟨c, hreads.rest a ha c hc, hx⟩
    · exact hsettled ((hroots a ha).symm.trans hroot) (hsettles.settled a ha hsettled₀)
  · exact happlied

/-- **The group of an extension.** -/
theorem Once.group {find : String → Option InstalledExtension} {source : PatchSource}
    {id : String} {ds : List Descriptor} {report : ApplyReport}
    (hrun : (Apply.group find source id ds : OnTree _) h = (report, h'))
    (hspares : SparesManifests root (Apply.groupAttempts find source id ds h))
    (hrecords : report.Records) : Once root x (Apply.groupAttempts find source id ds h) h h' := by
  rcases Apply.group_cases hrun with ⟨hnone, hsame, -⟩ | ⟨ext, e, manifest, -, ho, hlog, hopened⟩
  · rw [hnone]
    exact .of_sameFiles hsame
  obtain ⟨b, text, hread, hdecode, htext⟩ := ho.read_eq
  have hdistinct := Manifest.distinct_of_ofText htext
  have hdisk : ∀ y, RecordedIn b y ↔ manifest.contains y = true :=
    fun y => recordedIn_iff hdecode htext
  rw [ho.path_eq] at hread
  obtain ⟨manifest₁, outcomes, h₁, hrun₁, hend⟩ := Apply.openedTarget_of_records hopened hrecords
  rw [hlog] at hspares ⊢
  have hroots : ∀ a ∈ Apply.attempts e id source manifest h ds, a.root = e.root :=
    fun a ha => (Apply.root_of_mem_attempts ha).1
  have hspares' : ∀ a ∈ Apply.attempts e id source manifest h ds,
      a.Spares (e.root.join manifestFile) := by
    intro a ha
    rw [← hroots a ha]
    exact (hspares a ha).2
  have hreads := descriptors_stillReads hrun₁ fun a ha => (hspares a ha).1
  have hown := descriptors_stillReads hrun₁ hspares'
  have hsettles := descriptors_settlesOnce hrun₁ hspares' hread fun y => (hdisk y).mp
  have hrec := Apply.descriptors_recorded hrun₁
  rcases hend with ⟨hnone, rfl⟩ | ⟨hreplace, hworking⟩
  · refine .of_settlesOnce hroots hreads hown hread hdisk hsettles (fun hx => hx) (fun hx => hx)
      (fun hroot hx => ?_) fun a ha _ happlied => ?_
    · rw [hrec.unchanged hnone] at hx
      rw [← hroot]
      exact ⟨b, hown.whole b hread, (hdisk x).mpr hx⟩
    · rw [hnone a ha] at happlied
      cases happlied
  · obtain ⟨hwritten, hstays⟩ := Manifest.known_of_write (hrec.path_eq.trans ho.path_eq)
      (hrec.distinct hdistinct) (hown.whole b hread)
      (fun y hy => Manifest.contains_of_applied hrec.grows ((hdisk y).mp hy)) hreplace hworking
    have honDisk : e.root = root → manifest₁.contains x = true →
        OnDisk h' (root.join manifestFile) x := by
      rintro rfl hx
      exact hwritten x hx
    refine .of_settlesOnce hroots hreads hown hread hdisk hsettles (hstays _ x).1 (hstays _ x).2
      (fun hroot hx => (honDisk hroot hx).known) fun a ha hof happlied => ?_
    have hx := hsettles.settled a ha (Or.inl happlied)
    rw [hof.2] at hx
    exact honDisk ((hroots a ha).symm.trans hof.1) hx

/-- The groups of a run. -/
theorem Once.groups {find : String → Option InstalledExtension} {source : PatchSource} :
    ∀ {gs : List (String × List Descriptor)} {h h' : TreeHost} {report : ApplyReport},
      (Apply.groups find source gs : OnTree _) h = (report, h') →
      SparesManifests root (Apply.groupsAttempts find source h gs) → report.Records →
      Once root x (Apply.groupsAttempts find source h gs) h h'
  | [], h, h', report, hrun, _, _ => by
    obtain ⟨-, rfl⟩ := Prod.mk.inj hrun
    exact .of_sameFiles (.refl h)
  | (id, ds) :: rest, h, h', report, hrun, hspares, hrecords => by
    obtain ⟨report₁, h₁, report₂, hgroup, hrest, rfl, hlog⟩ := Apply.groups_cons hrun
    rw [hlog] at hspares ⊢
    have hfirst : report₁.Records := fun o ho happlied cause hmem =>
      hrecords o (List.mem_append_left _ ho) happlied cause (List.mem_append_left _ hmem)
    have hsecond : report₂.Records := fun o ho happlied cause hmem =>
      hrecords o (List.mem_append_right _ ho) happlied cause (List.mem_append_right _ hmem)
    have hone := Once.group (x := x) hgroup (fun a ha => hspares a (List.mem_append_left _ ha))
      hfirst
    exact hone.append (Once.groups hrest (fun a ha => hspares a (List.mem_append_right _ ha))
      hsecond)

/-- Each run writes the manifests that it has to write. -/
def RecordsAll : List Run → TreeHost → Prop
  | [], _ => True
  | r :: rest, h => (r.report h).Records ∧ RecordsAll rest (r.after h)

/-- **Runs one after the other.** -/
theorem Once.runs : ∀ {runs : List Run} {h : TreeHost}, SparesManifests root (attemptsOf runs h) →
    RecordsAll runs h → Once root x (attemptsOf runs h) h (afterRuns runs h)
  | [], h, _, _ => .of_sameFiles (.refl h)
  | r :: rest, h, hspares, ⟨hfirst, hrest⟩ => by
    rw [attemptsOf] at hspares ⊢
    have hone : Once root x (r.attempts h) h (r.after h) :=
      Once.groups (Prod.eta (r.result h)).symm
        (fun a ha => hspares a (List.mem_append_left _ ha)) hfirst
    exact hone.append (Once.runs (fun a ha => hspares a (List.mem_append_right _ ha)) hrest)

/-! ## 4. What is reported -/

/-- The manifest of the extension at a root can be read, and has `x` in its record. -/
def HasRecord (h : TreeHost) (root : Path) (x : String) : Prop :=
  ∃ d, ((Manifest.read root : OnTree _) h).1 = .ok d ∧ d.contains x = true

theorem HasRecord.known (hx : HasRecord h root x) : Known h (root.join manifestFile) x := by
  obtain ⟨d, hd, hx⟩ := hx
  obtain ⟨b, hread, hiff⟩ := exists_recordedIn_iff hd
  exact ⟨b, hread, (hiff x).mpr hx⟩

/-- The manifest that is read from what is on disk has the record on disk. -/
theorem OnDisk.contains {d : Manifest} (hx : OnDisk h (root.join manifestFile) x)
    (hd : ((Manifest.read root : OnTree _) h).1 = .ok d) : d.contains x = true := by
  obtain ⟨c, hc, hx⟩ := hx.known
  obtain ⟨b, hread, hiff⟩ := exists_recordedIn_iff hd
  rw [hc] at hread
  cases hread
  exact (hiff x).mp hx

instance (a : Attempt) (root : Path) (x : String) : Decidable (a.Of root x) :=
  inferInstanceAs (Decidable (a.root = root ∧ a.outcome.identity = x))

/-- What becomes of the descriptors that are tried on the extension at a root.  The attempts are all
those that are reported (`Run.outcome_attempts`), from the host `h` to the host `h'`. -/
structure AppliedOnce (root : Path) (as : List Attempt) (h h' : TreeHost) : Prop where
  /-- What is in the record at first is skipped. -/
  recorded : ∀ x, HasRecord h root x → ∀ a ∈ as, a.Of root x → a.Skipped
  /-- So is what is in the record when the attempt begins, -/
  found : ∀ x, ∀ a ∈ as, HasRecord a.before root x → a.Of root x → a.Skipped
  /-- or was when an earlier one began, and what an earlier one has applied or skipped. -/
  later : ∀ x, as.Pairwise fun a a' =>
    HasRecord a.before root x ∨ a.Of root x ∧ a.Settled → a'.Of root x → a'.Skipped
  once : ∀ x, as.countP (fun a => decide (a.Of root x) && a.outcome.isApplied) ≤ 1
  /-- What has been applied is in the manifest that is on disk at last. -/
  written : ∀ x, ∀ a ∈ as, a.Of root x → a.outcome.isApplied = true →
    (∃ d : Manifest, d.contains x = true ∧
      h'.tree.read h'.working (root.join manifestFile) = .ok d.written.toUTF8) ∧
    ∀ d, ((Manifest.read root : OnTree _) h').1 = .ok d → d.contains x = true

theorem countP_le_one {α : Type} {p : α → Bool} : ∀ {as : List α},
    as.Pairwise (fun a b => p a = true → p b = false) → as.countP p ≤ 1
  | [], _ => by simp
  | a :: as, h => by
    obtain ⟨hfirst, hrest⟩ := List.pairwise_cons.mp h
    rw [List.countP_cons]
    cases ha : p a with
    | false => simpa using countP_le_one hrest
    | true =>
      have hnone : as.countP p = 0 :=
        List.countP_eq_zero.mpr fun b hb => by simp [hfirst b hb ha]
      simp [hnone]

/-- **What is recorded is never applied again**, in the same run or in a later one. -/
theorem recorded_never_applied_again {h : TreeHost} (root : Path) (runs : List Run)
    (hspares : SparesManifests root (attemptsOf runs h)) (hrecords : RecordsAll runs h) :
    AppliedOnce root (attemptsOf runs h) h (afterRuns runs h) := by
  have honce : ∀ x, Once root x (attemptsOf runs h) h (afterRuns runs h) :=
    fun x => Once.runs hspares hrecords
  have hlater : ∀ x, (attemptsOf runs h).Pairwise fun a a' =>
      HasRecord a.before root x ∨ a.Of root x ∧ a.Settled → a'.Of root x → a'.Skipped :=
    fun x => (honce x).later.imp fun hpair hshows => hpair (hshows.imp_left HasRecord.known)
  refine ⟨fun x hx a ha => ?_, fun x a ha hx => ?_, hlater, fun x => ?_, fun x a ha hof happ => ?_⟩
  · exact (honce x).itself a ha ((honce x).before hx.known a ha)
  · exact (honce x).itself a ha hx.known
  · refine countP_le_one ((hlater x).imp fun {a a'} hpair hfirst => ?_)
    rw [Bool.and_eq_true, decide_eq_true_iff] at hfirst
    by_cases hof : a'.Of root x
    · have hskipped := (hpair (Or.inr ⟨hfirst.1, Or.inl hfirst.2⟩) hof).1
      have hnot : a'.outcome.isApplied = false := by
        unfold PatchOutcome.isSkipped at hskipped
        unfold PatchOutcome.isApplied
        split at hskipped
        · rename_i hresult
          rw [hresult]
        · cases hskipped
      rw [hnot, Bool.and_false]
    · rw [decide_eq_false hof, Bool.false_and]
  · have hdisk := (honce x).applied a ha hof happ
    refine ⟨?_, fun d hd => hdisk.contains hd⟩
    obtain ⟨c, hc, d, -, hx, rfl⟩ := hdisk
    exact ⟨d, hx, hc⟩

/-- Whether runs report no failure of a whole extension. -/
def reportsNoTargetErrors : List Run → TreeHost → Bool
  | [], _ => true
  | r :: rest, h => (r.report h).targetErrors.isEmpty && reportsNoTargetErrors rest (r.after h)

theorem recordsAll_of_reportsNoTargetErrors : ∀ {runs : List Run} {h : TreeHost},
    reportsNoTargetErrors runs h = true → RecordsAll runs h
  | [], _, _ => trivial
  | r :: rest, h, hnone => by
    obtain ⟨hfirst, hrest⟩ := (Bool.and_eq_true _ _).mp hnone
    refine ⟨fun o _ _ cause hmem => ?_, recordsAll_of_reportsNoTargetErrors hrest⟩
    rw [List.isEmpty_iff.mp hfirst] at hmem
    cases hmem

theorem oneFile_checked :
    reportsNoTargetErrors [oneFileRun, oneFileRun] (.ofTree oneFileTree) = true ∧
      ((attemptsOf [oneFileRun, oneFileRun] (.ofTree oneFileTree)).all fun a =>
        decide (a.root = ⟨"/x"⟩) &&
          a.tried.all fun x => x.2.tree.isPlain && decide (x.1.file = "a.js")) = true := by
  decide +kernel

theorem oneFile_sparesManifests :
    SparesManifests ⟨"/x"⟩ (attemptsOf [oneFileRun, oneFileRun] (.ofTree oneFileTree)) := by
  intro a ha
  have hone := List.all_eq_true.mp oneFile_checked.2 a ha
  rw [Bool.and_eq_true, decide_eq_true_iff, List.all_eq_true] at hone
  obtain ⟨hroot, htried⟩ := hone
  have hplace : (⟨"/x"⟩ : Path) = Path.ofNames ["x"] := by decide +kernel
  have hnames : AreNames ["x"] := by decide
  have hspares : a.Spares ((⟨"/x"⟩ : Path).join manifestFile) := by
    intro x hx
    have hx := htried x hx
    rw [Bool.and_eq_true, decide_eq_true_iff] at hx
    have hplain := Tree.plain_of_isPlain hx.1
    rw [hplace]
    refine Enclosure.spares_of_no_link hplain.no_link (hroot.trans hplace) hnames hnames ?_
    have hinside : (⟨"a.js"⟩ : Path).inside? = some ["a.js"] := by decide +kernel
    intro names hnames
    rw [hx.2, hinside] at hnames
    cases hnames
    decide
  exact ⟨hspares, hroot ▸ hspares⟩

theorem oneFile_recordsAll : RecordsAll [oneFileRun, oneFileRun] (.ofTree oneFileTree) :=
  recordsAll_of_reportsNoTargetErrors oneFile_checked.1

theorem oneFile_appliedOnce :
    SparesManifests ⟨"/x"⟩ (attemptsOf [oneFileRun, oneFileRun] (.ofTree oneFileTree)) ∧
      RecordsAll [oneFileRun, oneFileRun] (.ofTree oneFileTree) ∧
        AppliedOnce ⟨"/x"⟩ (attemptsOf [oneFileRun, oneFileRun] (.ofTree oneFileTree))
          (.ofTree oneFileTree) (afterRuns [oneFileRun, oneFileRun] (.ofTree oneFileTree)) :=
  ⟨oneFile_sparesManifests, oneFile_recordsAll,
    recorded_never_applied_again ⟨"/x"⟩ _ oneFile_sparesManifests oneFile_recordsAll⟩

/-! ## 5. A manifest that is a link -/

/-- The identity of the descriptor of `oneFileSet`. -/
def oneFileIdentity : String := "local-5e528b674510339694748f4d62c602eb"

/-- An extension whose manifest is a link to a file with another name.  The descriptor of
`oneFileSet` is in the record. -/
def linkedTree : Tree where
  entries := [(["x"], .directory), (["x", "package.json"], .link ⟨"manifest.json"⟩),
    (["x", "manifest.json"], .file ("\x7b\"customPatches-appliedPatches\": \x7b\"" ++
      oneFileIdentity ++ "\": []\x7d\x7d").toUTF8),
    (["x", "a.js"], .file "one".toUTF8)]

/-- A run of a descriptor that gives the key of the record another name, and fails after that. -/
def forgettingRun : Run where
  find := oneFileRun.find
  source := .here
  set := ⟨[⟨.extensions (.one "p.x"), [⟨"manifest.json", none,
    [⟨.one "customPatches", none, some "Old", none, none, none, none, none⟩]⟩,
    insertTwo "missing.js"]⟩]⟩

/-- **A manifest that is a link can lose its record**, though no file patch names a manifest: what
the link leads to may be patched by its own name. -/
theorem linked_manifest_forgets :
    ¬ ∀ (h : TreeHost) (root : Path) (runs : List Run), (∀ r ∈ runs, r.set.Ordinary) →
      RecordsAll runs h → AppliedOnce root (attemptsOf runs h) h (afterRuns runs h) := by
  intro hclaim
  have hordinary : ∀ r ∈ [forgettingRun, oneFileRun], r.set.Ordinary := by decide +kernel
  have hchecked : reportsNoTargetErrors [forgettingRun, oneFileRun] (.ofTree linkedTree) = true ∧
      ((attemptsOf [forgettingRun, oneFileRun] (.ofTree linkedTree)).any fun a =>
        decide (a.Of ⟨"/x"⟩ oneFileIdentity) && !a.outcome.isSkipped) = true := by
    decide +kernel
  have hfirst : HasRecord (.ofTree linkedTree) ⟨"/x"⟩ oneFileIdentity := by
    have hcheck : (((Manifest.read ⟨"/x"⟩ : OnTree _) (.ofTree linkedTree)).1.toOption.any
        fun d => d.contains oneFileIdentity) = true := by
      decide +kernel
    obtain ⟨d, hd, hx⟩ := (Option.any_eq_true _ _).mp hcheck
    exact ⟨d, eq_ok_of_toOption hd, hx⟩
  obtain ⟨a, ha, hof⟩ := List.any_eq_true.mp hchecked.2
  rw [Bool.and_eq_true, decide_eq_true_iff, Bool.not_eq_true'] at hof
  have honce := hclaim (.ofTree linkedTree) ⟨"/x"⟩ _ hordinary
    (recordsAll_of_reportsNoTargetErrors hchecked.1)
  have hskipped := (honce.recorded _ hfirst a ha hof.1).1
  rw [hof.2] at hskipped
  cases hskipped

end TextPatch
