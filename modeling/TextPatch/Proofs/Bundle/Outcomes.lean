/-
# What a bundled run comes to

Under a provider that gives a fixed answer for a script and its text, nothing that happens to the
host matters to a run over the script.  So what the descriptors come to is a function of the answer
and the pristine text alone: `settle`, which is written here without the host.

* `descriptors_eq` shows that the run computes it, and leaves all files alone meanwhile;
* `openScript_cases` and `writeScript_cases` say what happens to files before and after;
* `patchSet_cases` puts the three together, and `ending_of_opened` goes on from a script that has
  been opened.
-/
import TextPatch.Bundle
import TextPatch.Proofs.Extensions.Steps

namespace TextPatch.Bundle

open SourceMap (Document)

/-! ## 1. Descriptors without the host -/

/-- What there is to know about the source map of a script. -/
abbrev Answer := Except SourceMapError Document

/-- The source map for rules, if they need it. -/
def mapOf (answer : Answer) (plans : List RulePlan) : Except SourceMapError (Option Document) :=
  if plans.any RulePlan.usesSourceMap then answer.map some else .ok none

/-- The text after checked rules. -/
def editRules (file : String) (document : Option Document) (text : Text) (plans : List RulePlan) :
    Except ApplicationError Text :=
  match applyRules file (document.map fun d => d.lookup file) text plans with
  | .error cause => .error (.edit file cause)
  | .ok text => .ok text

/-- The text after a file patch. -/
def editFile (answer : Answer) (text : Text) (p : FilePatch) : Except ApplicationError Text :=
  match RulePlan.ofRules true p.rules with
  | .error cause => .error (.edit p.file (.resolve cause))
  | .ok plans =>
    match mapOf answer plans with
    | .error cause => .error (.edit p.file (.sourceMap cause))
    | .ok document => editRules p.file document text plans

/-- The text after file patches. -/
def editFiles (answer : Answer) : Text → List FilePatch → Except ApplicationError Text
  | text, [] => .ok text
  | text, p :: rest => editFile answer text p >>= fun text => editFiles answer text rest

/-- What descriptors come to. -/
structure Settled where
  output : Text
  applied : Nat
  failures : List (Nat × ApplicationError)

/-- What descriptors come to, the first of which has the number `index`. -/
def settle (answer : Answer) : Text → Nat → List Descriptor → Settled
  | text, _, [] => ⟨text, 0, []⟩
  | text, index, d :: rest =>
    match editFiles answer text d.files with
    | .ok patched =>
      let others := settle answer patched (index + 1) rest
      { others with applied := others.applied + 1 }
    | .error cause =>
      let others := settle answer text (index + 1) rest
      { others with failures := (index, cause) :: others.failures }

/-- The report on a run that has started from a text. -/
def reportOn (answer : Answer) (pristine : Text) (s : PatchSet) : BundleReport :=
  let settled := settle answer pristine 0 s.forBundledScript
  ⟨settled.applied, settled.failures, pristine, settled.output⟩

/-! ## 2. Providers with a fixed answer -/

/-- A provider whose answer depends on the path and the text of the script only, and which leaves
all files alone. -/
structure Answering (provider : SourceMap.Provider OnTree) (answer : Path → Text → Answer) :
    Prop where
  answer_eq : ∀ script text h, (provider script text h).1 = answer script text
  sameFiles : ∀ script text (h : TreeHost), h.SameFiles (provider script text h).2

/-- What a session knows of the source map is what its provider would answer. -/
structure Session.Knows (s : Session OnTree) (answer : Answer) : Prop where
  asked : ∀ h, (s.provider s.script s.pristine h).1 = answer ∧
    h.SameFiles (s.provider s.script s.pristine h).2
  known : ∀ d, s.known = some d → answer = .ok d

section

variable {s : Session OnTree} {answer : Answer} {h : TreeHost}

theorem Session.map_eq_answer (hs : s.Knows answer) :
    (s.map h).1 = answer ∧ h.SameFiles (s.map h).2 := by
  unfold Session.map
  cases hk : s.known with
  | some d => exact ⟨(hs.known d hk).symm, .refl h⟩
  | none =>
    have hask := hs.asked h
    rcases hp : s.provider s.script s.pristine h with ⟨a, h₁⟩
    rw [hp] at hask
    simp only [OnTree.bind_apply]
    rw [hp]
    obtain ⟨rfl, hsame⟩ := hask
    cases a with
    | error cause => exact ⟨rfl, hsame⟩
    | ok d => exact ⟨rfl, hsame.trans ⟨rfl, rfl⟩⟩

theorem Session.mapFor_eq_mapOf (hs : s.Knows answer) (plans : List RulePlan) :
    (s.mapFor plans h).1 = mapOf answer plans ∧ h.SameFiles (s.mapFor plans h).2 := by
  unfold Session.mapFor mapOf
  split
  · have hmap := Session.map_eq_answer (h := h) hs
    simp only [OnTree.bind_apply, OnTree.pure_apply]
    exact ⟨by rw [hmap.1], hmap.2⟩
  · exact ⟨rfl, .refl h⟩

theorem runRules_eq (file : String) (document : Option Document) (text : Text)
    (plans : List RulePlan) :
    ((runRules file document text plans : OnTree _) h).1 = editRules file document text plans ∧
      h.SameFiles ((runRules file document text plans : OnTree _) h).2 := by
  unfold runRules editRules
  simp only [OnTree.bind_apply, OnTree.noteAll_apply]
  cases applyRules file (document.map fun d => d.lookup file) text plans <;>
    exact ⟨rfl, rfl, rfl⟩

/-- A file patch comes to what it comes to without the host, and the session knows the same map
afterwards. -/
theorem filePatch_eq (hs : s.Knows answer) (text : Text) (p : FilePatch) :
    (filePatch s text p h).1.1.Knows answer ∧
      (filePatch s text p h).1.2 = editFile answer text p ∧
        h.SameFiles (filePatch s text p h).2 := by
  unfold filePatch editFile
  cases RulePlan.ofRules true p.rules with
  | error cause => exact ⟨hs, rfl, .refl h⟩
  | ok plans =>
    have hmap := Session.mapFor_eq_mapOf (h := h) hs plans
    rcases hrun : s.mapFor plans h with ⟨a, h₁⟩
    rw [hrun] at hmap
    simp only [OnTree.bind_apply]
    rw [hrun]
    obtain ⟨ha, hsame⟩ := hmap
    simp only at ha
    rw [← ha]
    rcases a with cause | (_ | d)
    · exact ⟨hs, rfl, hsame⟩
    · have hrules := runRules_eq (h := h₁) p.file none text plans
      exact ⟨hs, hrules.1, hsame.trans hrules.2⟩
    · have hrules := runRules_eq (h := h₁) p.file (some d) text plans
      refine ⟨⟨hs.asked, fun d' hd' => ?_⟩, hrules.1, hsame.trans hrules.2⟩
      -- a map that has been handed out is the answer
      obtain rfl := Option.some.inj hd'
      unfold mapOf at ha
      split at ha
      · cases answer with
        | error cause => cases ha
        | ok e =>
          cases ha
          rfl
      · cases ha

theorem filePatches_eq : ∀ (files : List FilePatch) {s : Session OnTree} {h : TreeHost},
    s.Knows answer → ∀ text : Text,
      (filePatches s text files h).1.1.Knows answer ∧
        (filePatches s text files h).1.2 = editFiles answer text files ∧
          h.SameFiles (filePatches s text files h).2
  | [], s, h, hs, text => ⟨hs, rfl, .refl h⟩
  | p :: rest, s, h, hs, text => by
    have hhere := filePatch_eq (h := h) hs text p
    rw [filePatches, editFiles]
    simp only [OnTree.bind_apply]
    rcases hrun : filePatch s text p h with ⟨⟨s₁, r⟩, h₁⟩
    rw [hrun] at hhere
    obtain ⟨hknows, hr, hsame⟩ := hhere
    simp only at hknows hr hsame
    rw [← hr]
    cases r with
    | error cause => exact ⟨hknows, rfl, hsame⟩
    | ok t =>
      obtain ⟨hknows', hr', hsame'⟩ := filePatches_eq rest (h := h₁) hknows t
      exact ⟨hknows', hr', hsame.trans hsame'⟩

/-- **Descriptors come to what they come to without the host**, and leave all files alone. -/
theorem descriptors_eq : ∀ (ds : List Descriptor) {s : Session OnTree} {h : TreeHost}
    (index : Nat), s.Knows answer → ∀ text : Text,
      (descriptors s text index ds h).1 =
          ((settle answer text index ds).output, (settle answer text index ds).applied,
            (settle answer text index ds).failures) ∧
        h.SameFiles (descriptors s text index ds h).2
  | [], s, h, index, hs, text => ⟨rfl, .refl h⟩
  | d :: rest, s, h, index, hs, text => by
    have hhere := filePatches_eq (h := h) d.files hs text
    rw [descriptors, settle]
    simp only [OnTree.bind_apply]
    rcases hrun : filePatches s text d.files h with ⟨⟨s₁, r⟩, h₁⟩
    rw [hrun] at hhere
    obtain ⟨hknows, hr, hsame⟩ := hhere
    simp only at hknows hr hsame
    rw [← hr]
    cases r with
    | ok patched =>
      obtain ⟨hrest, hsame'⟩ := descriptors_eq rest (h := h₁) (index + 1) hknows patched
      simp only [OnTree.pure_apply, OnTree.bind_apply]
      exact ⟨by rw [hrest], hsame.trans hsame'⟩
    | error cause =>
      simp only [OnTree.pure_apply, OnTree.bind_apply, OnTree.note_apply]
      obtain ⟨hrest, hsame'⟩ := descriptors_eq rest
        (h := { h₁ with journal := h₁.journal ++ [.note .debug
          (s!"bundled script patch #{index} failed: " ++ cause.message)] }) (index + 1) hknows text
      exact ⟨by rw [hrest], hsame.trans ⟨hsame'.1, hsame'.2⟩⟩

end

/-! ## 3. Before and after the descriptors -/

/-- The pristine text of a script as it stands on a host. -/
def pristineIn (h : TreeHost) (script : Path) : Except BundleError Text :=
  let file := if h.tree.present h.working script.backup then script.backup else script
  match (h.tree.read h.working file).bind Host.decodeText with
  | .error cause => .error (.io file cause)
  | .ok text => .ok text.toList

theorem pristineFile_apply (script : Path) (h : TreeHost) :
    (pristineFile script : OnTree _) h =
      (if h.tree.present h.working script.backup then script.backup else script, h) := by
  unfold pristineFile
  rw [OnTree.bind_apply, OnTree.present_apply]
  simp only
  split <;> rfl

theorem readPristine_apply (script : Path) (h : TreeHost) :
    (readPristine script : OnTree _) h = (pristineIn h script, h) := by
  unfold readPristine pristineIn
  rw [OnTree.bind_apply, pristineFile_apply]
  simp only [OnTree.bind_apply, OnTree.readText_apply]
  generalize (h.tree.read h.working _).bind Host.decodeText = x
  cases x <;> rfl

/-- How a script can be opened for a run that is not dry: it has a backup, or one is refused, or one
is made. -/
inductive Opening (script : Path) (h : TreeHost) : Except BundleError Text → TreeHost → Prop
  | kept (hpresent : h.tree.present h.working script.backup = true) :
      Opening script h (pristineIn h script) h
  | refused {cause : IoError} (habsent : h.tree.present h.working script.backup = false)
      (hcopy : h.tree.copy h.working script script.backup = .error cause) :
      Opening script h (.error (.backup (.create script cause))) h
  | copied {h' : TreeHost} (habsent : h.tree.present h.working script.backup = false)
      (hcopy : h.tree.copy h.working script script.backup = .ok h'.tree)
      (hworking : h'.working = h.working) : Opening script h (pristineIn h' script) h'

theorem openScript_dry (script : Path) (h : TreeHost) :
    (openScript script true : OnTree _) h = (pristineIn h script, h) :=
  readPristine_apply script h

/-- **Every way in which a script can be opened.** -/
theorem openScript_cases {script : Path} {h h' : TreeHost} {r : Except BundleError Text}
    (hrun : (openScript script false : OnTree _) h = (r, h')) : Opening script h r h' := by
  unfold openScript Backup.ensureCopy at hrun
  rw [if_neg (by simp), OnTree.bind_apply] at hrun
  rcases hensure : (Backup.ensureBy script (Host.copy script script.backup) : OnTree _) h
    with ⟨b, h₁⟩
  rw [hensure] at hrun
  rcases Backup.ensureBy_apply (OnTree.copy_apply script script.backup h) hensure with
    ⟨hpresent, rfl, rfl⟩ | ⟨cause, habsent, hcopy, rfl, rfl⟩ | ⟨habsent, hcopy, rfl, hworking⟩
  · simp only at hrun
    rw [readPristine_apply] at hrun
    obtain ⟨rfl, rfl⟩ := Prod.mk.inj hrun
    exact .kept hpresent
  · obtain ⟨rfl, rfl⟩ := Prod.mk.inj hrun
    exact .refused habsent hcopy
  · simp only at hrun
    rw [readPristine_apply] at hrun
    obtain ⟨rfl, rfl⟩ := Prod.mk.inj hrun
    exact .copied habsent hcopy hworking

section

variable {script : Path} {h : TreeHost}

/-- A script that has a backup is read from it. -/
theorem openScript_of_present (hpresent : h.tree.present h.working script.backup = true) :
    (openScript script false : OnTree _) h = (pristineIn h script, h) := by
  rcases hopen : (openScript script false : OnTree _) h with ⟨x, h₁⟩
  cases openScript_cases hopen with
  | kept _ => rfl
  | refused habsent _ =>
    rw [hpresent] at habsent
    cases habsent
  | copied habsent _ _ =>
    rw [hpresent] at habsent
    cases habsent

/-- A script whose backup is refused is not opened. -/
theorem openScript_of_refused {cause : IoError}
    (habsent : h.tree.present h.working script.backup = false)
    (hcopy : h.tree.copy h.working script script.backup = .error cause) :
    (openScript script false : OnTree _) h = (.error (.backup (.create script cause)), h) := by
  rcases hopen : (openScript script false : OnTree _) h with ⟨x, h₁⟩
  cases openScript_cases hopen with
  | kept hpresent =>
    rw [habsent] at hpresent
    cases hpresent
  | refused _ hcopy' => rw [Except.error.inj (hcopy.symm.trans hcopy')]
  | copied _ hcopy' _ => cases hcopy.symm.trans hcopy'

/-- A script without a backup is read once one is made. -/
theorem exists_openScript_of_copied {t : Tree}
    (habsent : h.tree.present h.working script.backup = false)
    (hcopy : h.tree.copy h.working script script.backup = .ok t) :
    ∃ h₁, (openScript script false : OnTree _) h = (pristineIn h₁ script, h₁) ∧ h₁.tree = t ∧
      h₁.working = h.working := by
  rcases hopen : (openScript script false : OnTree _) h with ⟨x, h₁⟩
  cases openScript_cases hopen with
  | kept hpresent =>
    rw [habsent] at hpresent
    cases hpresent
  | refused _ hcopy' => cases hcopy.symm.trans hcopy'
  | copied _ hcopy' hworking =>
    exact ⟨h₁, rfl, Except.ok.inj (hcopy'.symm.trans hcopy), hworking⟩

end

/-- How a run can end once it has a report. -/
inductive Ending (script : Path) (report : BundleReport) (h : TreeHost) :
    Bool → Except BundleError BundleReport → TreeHost → Prop
  | dry {h' : TreeHost} (hfiles : h.SameFiles h') : Ending script report h true (.ok report) h'
  | written {h' : TreeHost}
      (hreplace : h.tree.replace h.working script (String.ofList report.output).toUTF8 =
        .ok h'.tree)
      (hworking : h'.working = h.working) : Ending script report h false (.ok report) h'
  | refused {cause : IoError} {h' : TreeHost}
      (hreplace : h.tree.replace h.working script (String.ofList report.output).toUTF8 =
        .error cause)
      (hfiles : h.SameFiles h') : Ending script report h false (.error (.io script cause)) h'

theorem writeScript_cases {script : Path} {report : BundleReport} {h h' : TreeHost}
    {r : Except BundleError BundleReport}
    (hrun : (writeScript script report : OnTree _) h = (r, h')) :
    Ending script report h false r h' := by
  unfold writeScript at hrun
  rw [OnTree.bind_apply, OnTree.replace_apply] at hrun
  cases hreplace : h.tree.replace h.working script (String.ofList report.output).toUTF8 with
  | error cause =>
    rw [hreplace] at hrun
    obtain ⟨rfl, rfl⟩ := Prod.mk.inj hrun
    exact .refused hreplace (.refl h)
  | ok t =>
    rw [hreplace] at hrun
    simp only [TreeHost.withTree, OnTree.bind_apply, OnTree.note_apply, OnTree.pure_apply] at hrun
    obtain ⟨rfl, rfl⟩ := Prod.mk.inj hrun
    exact .written hreplace rfl

/-- A run whose script can be replaced ends with its report. -/
theorem Ending.of_replace_eq {script : Path} {report : BundleReport} {h h' : TreeHost} {t : Tree}
    {r : Except BundleError BundleReport} (hend : Ending script report h false r h')
    (hreplaced : h.tree.replace h.working script (String.ofList report.output).toUTF8 = .ok t) :
    r = .ok report ∧ h'.tree = t ∧ h'.working = h.working := by
  cases hend with
  | written hreplace hworking =>
    rw [hreplaced] at hreplace
    exact ⟨rfl, (Except.ok.inj hreplace).symm, hworking⟩
  | refused hreplace _ =>
    rw [hreplaced] at hreplace
    cases hreplace

theorem Ending.of_sameFiles {script : Path} {report : BundleReport} {h h₁ h' : TreeHost}
    {dryRun : Bool} {r : Except BundleError BundleReport} (hsame : h.SameFiles h₁)
    (hend : Ending script report h₁ dryRun r h') : Ending script report h dryRun r h' := by
  cases hend with
  | dry hfiles => exact .dry (hsame.trans hfiles)
  | written hreplace hworking =>
    rw [hsame.1, hsame.2] at hreplace
    exact .written hreplace (hworking.trans hsame.2)
  | refused hreplace hfiles =>
    rw [hsame.1, hsame.2] at hreplace
    exact .refused hreplace (hsame.trans hfiles)

/-- **Every run over a script** under a fixed answer: the script cannot be opened, or the run ends
with the report that the answer and the pristine text make. -/
theorem patchSet_cases {script : Path} {s : PatchSet} {provider : SourceMap.Provider OnTree}
    {answer : Path → Text → Answer} {dryRun : Bool} {h h' : TreeHost}
    {r : Except BundleError BundleReport} (hprovider : Answering provider answer)
    (hrun : (patchSet script s provider dryRun : OnTree _) h = (r, h')) :
    (∃ e, (openScript script dryRun : OnTree _) h = (.error e, h') ∧ r = .error e) ∨
      ∃ pristine h₁, (openScript script dryRun : OnTree _) h = (.ok pristine, h₁) ∧
        Ending script (reportOn (answer script pristine) pristine s) h₁ dryRun r h' := by
  unfold patchSet at hrun
  rw [OnTree.bind_apply] at hrun
  rcases hopen : (openScript script dryRun : OnTree _) h with ⟨e | pristine, h₁⟩
  · rw [hopen] at hrun
    obtain ⟨rfl, rfl⟩ := Prod.mk.inj hrun
    exact Or.inl ⟨e, rfl, rfl⟩
  · rw [hopen] at hrun
    simp only at hrun
    refine Or.inr ⟨pristine, h₁, rfl, ?_⟩
    have hknows : Session.Knows ⟨script, pristine, provider, none⟩ (answer script pristine) :=
      ⟨fun h => ⟨hprovider.answer_eq _ _ h, hprovider.sameFiles _ _ h⟩, by simp⟩
    obtain ⟨hds, hsame⟩ := descriptors_eq (h := h₁) s.forBundledScript 0 hknows pristine
    rw [OnTree.bind_apply] at hrun
    rcases hrun₂ : descriptors ⟨script, pristine, provider, none⟩ pristine 0 s.forBundledScript h₁
      with ⟨settled, h₂⟩
    rw [hrun₂] at hrun hds hsame
    simp only at hrun hds hsame
    subst hds
    refine Ending.of_sameFiles hsame ?_
    cases dryRun with
    | true =>
      obtain ⟨rfl, rfl⟩ := Prod.mk.inj hrun
      exact .dry (.refl _)
    | false => exact writeScript_cases hrun

/-- A run over a script that has been opened makes its report on what was read. -/
theorem ending_of_opened {script : Path} {s : PatchSet} {provider : SourceMap.Provider OnTree}
    {answer : Path → Text → Answer} {dryRun : Bool} {h h₁ h' : TreeHost}
    {r : Except BundleError BundleReport} {pristine : Text} (hprovider : Answering provider answer)
    (hopened : (openScript script dryRun : OnTree _) h = (.ok pristine, h₁))
    (hrun : (patchSet script s provider dryRun : OnTree _) h = (r, h')) :
    Ending script (reportOn (answer script pristine) pristine s) h₁ dryRun r h' := by
  rcases patchSet_cases hprovider hrun with ⟨e, hopen, -⟩ | ⟨pristine', h₁', hopen, hend⟩
  · cases hopened.symm.trans hopen
  · obtain ⟨hpristine, rfl⟩ := Prod.mk.inj (hopened.symm.trans hopen)
    cases hpristine
    exact hend

end TextPatch.Bundle
