/-
# Passes over extensions

A *pass* is what a run does to one extension: it is opened, the descriptors of its group are tried
on it, and its manifest is written if any of them has been applied.  `passesOf` lists the passes of
several runs.  They account for all that the runs do to files: nothing changes before the first
pass, between two of them or after the last one (`chain_passesOf`), and every attempt belongs to one
of them (`attemptsOf_eq`).
-/
import TextPatch.Proofs.Extensions.Runs

namespace TextPatch

/-! ## 1. One extension -/

/-- An extension that is open, with what is going to be tried on it. -/
structure Pass where
  id : String
  source : PatchSource
  descriptors : List Descriptor
  isActive : Bool
  enclosure : Enclosure
  /-- The manifest as it was read when the extension was opened. -/
  opened : Manifest
  /-- The host on which the extension was opened. -/
  before : TreeHost

namespace Pass

/-- What is left once all descriptors have been tried: the manifest at hand, and the host. -/
def trial (T : Pass) : (Manifest × List PatchOutcome) × TreeHost :=
  (Apply.descriptors T.enclosure T.id T.source T.opened T.descriptors : OnTree _) T.before

/-- The manifest that a pass has at hand in the end. -/
def final (T : Pass) : Manifest := T.trial.1.1

/-- The host once all descriptors have been tried, before the manifest is written. -/
def tried (T : Pass) : TreeHost := T.trial.2

/-- The host after a pass. -/
def after (T : Pass) : TreeHost :=
  ((Apply.openedTarget T.enclosure T.opened T.id T.isActive T.source T.descriptors : OnTree _)
    T.before).2

/-- The attempts of a pass. -/
def attempts (T : Pass) : List Attempt :=
  Apply.attempts T.enclosure T.id T.source T.opened T.before T.descriptors

/-- The extension of a pass has been opened on the host before it. -/
def Open (T : Pass) : Prop := ∃ root, Opened T.before root T.enclosure T.opened

/-- A pass writes its manifest: a descriptor has been applied, and the file can be replaced. -/
def Writes (T : Pass) : Prop :=
  T.attempts.any (fun a => a.outcome.isApplied) = true ∧
    ((T.final.write : OnTree _) T.tried).1.isOk = true

instance (T : Pass) : Decidable T.Writes :=
  inferInstanceAs (Decidable (_ ∧ _))

theorem trial_eq (T : Pass) :
    (Apply.descriptors T.enclosure T.id T.source T.opened T.descriptors : OnTree _) T.before =
      ((T.final, T.trial.1.2), T.tried) := rfl

/-- **What a pass does once all descriptors have been tried**: it replaces the manifest, or it
leaves all files alone. -/
theorem after_cases (T : Pass) :
    (T.Writes ∧ T.after.working = T.tried.working ∧
      T.tried.tree.replace T.tried.working T.final.path T.final.written.toUTF8 =
        .ok T.after.tree) ∨
    ¬ T.Writes ∧ T.tried.SameFiles T.after := by
  rcases hrun : (Apply.openedTarget T.enclosure T.opened T.id T.isActive T.source T.descriptors :
    OnTree _) T.before with ⟨report, h'⟩
  have hafter : T.after = h' := by rw [after, hrun]
  obtain ⟨manifest, outcomes, h₁, htrial, -, hend⟩ := Apply.openedTarget_cases hrun
  have happlied : outcomes.any PatchOutcome.isApplied =
      T.attempts.any fun a => a.outcome.isApplied := by
    rw [← Apply.outcome_attempts htrial, List.any_map]
    rfl
  rw [T.trial_eq] at htrial
  obtain ⟨hm, rfl⟩ := Prod.mk.inj htrial
  obtain ⟨rfl, -⟩ := Prod.mk.inj hm
  rw [hafter]
  unfold Writes
  rw [← happlied]
  rcases hend with ⟨hnone, rfl, -⟩ | ⟨hany, r, h₂, hwrite, hsame, -⟩
  · exact Or.inr ⟨by simp [hnone], .refl _⟩
  · rw [hwrite]
    rcases Manifest.write_apply hwrite with ⟨cause, -, rfl, hsame'⟩ | ⟨hreplace, rfl, hworking⟩
    · exact Or.inr ⟨by simp [Except.isOk, Except.toBool], hsame'.trans hsame⟩
    · rw [← hsame.1] at hreplace
      exact Or.inl ⟨⟨hany, rfl⟩, hsame.2.trans hworking, hreplace⟩

end Pass

/-! ## 2. Runs -/

namespace Apply

/-- The pass over the extension of a group; there is none if it cannot be opened. -/
def groupPasses (find : String → Option InstalledExtension) (source : PatchSource) (id : String)
    (ds : List Descriptor) (h : TreeHost) : List Pass :=
  match find id with
  | none => []
  | some extension =>
    match ((openTarget extension.root : OnTree _) h).1 with
    | .error _ => []
    | .ok (e, manifest) => [⟨id, source, ds, extension.isActive, e, manifest, h⟩]

/-- The passes over the extensions of several groups. -/
def groupsPasses (find : String → Option InstalledExtension) (source : PatchSource) :
    TreeHost → List (String × List Descriptor) → List Pass
  | _, [] => []
  | h, (id, ds) :: rest =>
    groupPasses find source id ds h ++
      groupsPasses find source ((group find source id ds : OnTree _) h).2 rest

end Apply

/-- The passes of a run. -/
def Run.passes (r : Run) (h : TreeHost) : List Pass :=
  Apply.groupsPasses r.find r.source h r.set.groups

/-- The passes of several runs. -/
def passesOf : List Run → TreeHost → List Pass
  | [], _ => []
  | r :: rest, h => r.passes h ++ passesOf rest (r.after h)

/-- Passes one after the other.  From the host before them to the one after them, no file changes
but in a pass. -/
inductive Chain : TreeHost → List Pass → TreeHost → Prop
  | nil {h h' : TreeHost} (hsame : h.SameFiles h') : Chain h [] h'
  | cons {h h' : TreeHost} {T : Pass} {rest : List Pass} (hsame : h.SameFiles T.before)
      (hopen : T.Open) (hrest : Chain T.after rest h') : Chain h (T :: rest) h'

theorem Chain.of_sameFiles {h h₁ h' : TreeHost} {Ts : List Pass} (hsame : h.SameFiles h₁)
    (hchain : Chain h₁ Ts h') : Chain h Ts h' := by
  cases hchain with
  | nil hsame' => exact .nil (hsame.trans hsame')
  | cons hsame' hopen hrest => exact .cons (hsame.trans hsame') hopen hrest

theorem Chain.append {h h₁ h' : TreeHost} {Ts Us : List Pass} (hfirst : Chain h Ts h₁)
    (hrest : Chain h₁ Us h') : Chain h (Ts ++ Us) h' := by
  induction hfirst with
  | nil hsame => exact hrest.of_sameFiles hsame
  | cons hsame hopen _ ih => exact .cons hsame hopen (ih hrest)

theorem Chain.open_of_mem {h h' : TreeHost} {Ts : List Pass} (hchain : Chain h Ts h') :
    ∀ T ∈ Ts, T.Open := by
  induction hchain with
  | nil _ => simp
  | cons _ hopen _ ih =>
    intro T hT
    rcases List.mem_cons.mp hT with rfl | hT
    · exact hopen
    · exact ih T hT

namespace Apply

variable {find : String → Option InstalledExtension} {source : PatchSource} {h h' : TreeHost}

theorem chain_groupPasses {id : String} {ds : List Descriptor} {report : ApplyReport}
    (hrun : (group find source id ds : OnTree _) h = (report, h')) :
    Chain h (groupPasses find source id ds h) h' := by
  unfold group at hrun
  unfold groupPasses
  cases hfind : find id with
  | none =>
    rw [hfind] at hrun
    obtain ⟨-, rfl⟩ := Prod.mk.inj hrun
    exact .nil ⟨rfl, rfl⟩
  | some extension =>
    rw [hfind] at hrun
    simp only at hrun
    unfold target at hrun
    rw [OnTree.bind_apply] at hrun
    rcases hopen : (openTarget extension.root : OnTree _) h with ⟨r, h₁⟩
    rw [hopen] at hrun
    obtain ⟨rfl, hopened⟩ := openTarget_apply hopen
    cases r with
    | error cause =>
      obtain ⟨-, rfl⟩ := Prod.mk.inj hrun
      simp only [hopen]
      exact .nil ⟨rfl, rfl⟩
    | ok opened =>
      obtain ⟨e, manifest⟩ := opened
      simp only [hopen]
      refine .cons (.refl _) ⟨extension.root, hopened e manifest rfl⟩ (.nil ?_)
      unfold Pass.after
      simp only at hrun ⊢
      rw [hrun]
      exact .refl _

theorem chain_groupsPasses : ∀ {gs : List (String × List Descriptor)} {h h' : TreeHost}
    {report : ApplyReport}, (groups find source gs : OnTree _) h = (report, h') →
      Chain h (groupsPasses find source h gs) h'
  | [], h, h', report, hrun => by
    obtain ⟨-, rfl⟩ := Prod.mk.inj hrun
    exact .nil (.refl _)
  | (id, ds) :: rest, h, h', report, hrun => by
    obtain ⟨report₁, h₁, report₂, hgroup, hrest, -, -⟩ := groups_cons hrun
    rw [groupsPasses, hgroup]
    exact (chain_groupPasses hgroup).append (chain_groupsPasses hrest)

/-- Every attempt belongs to a pass. -/
theorem groupAttempts_eq (id : String) (ds : List Descriptor) (h : TreeHost) :
    groupAttempts find source id ds h =
      (groupPasses find source id ds h).flatMap Pass.attempts := by
  unfold groupAttempts groupPasses
  cases find id with
  | none => rfl
  | some extension =>
    simp only
    cases ((openTarget extension.root : OnTree _) h).1 with
    | error cause => rfl
    | ok opened => simp [Pass.attempts]

theorem groupsAttempts_eq : ∀ (gs : List (String × List Descriptor)) (h : TreeHost),
    groupsAttempts find source h gs = (groupsPasses find source h gs).flatMap Pass.attempts
  | [], _ => rfl
  | (id, ds) :: rest, h => by
    rw [groupsAttempts, groupsPasses, List.flatMap_append, groupAttempts_eq,
      groupsAttempts_eq rest]

end Apply

/-- **Runs change files in their passes only.** -/
theorem chain_passesOf : ∀ (runs : List Run) (h : TreeHost),
    Chain h (passesOf runs h) (afterRuns runs h)
  | [], h => .nil (.refl h)
  | r :: rest, h =>
    (Apply.chain_groupsPasses (Prod.eta (r.result h)).symm).append (chain_passesOf rest (r.after h))

/-- **Every attempt of some runs belongs to one of their passes.** -/
theorem attemptsOf_eq : ∀ (runs : List Run) (h : TreeHost),
    attemptsOf runs h = (passesOf runs h).flatMap Pass.attempts
  | [], _ => rfl
  | r :: rest, h => by
    rw [attemptsOf, passesOf, List.flatMap_append, attemptsOf_eq rest, Run.attempts, Run.passes,
      Apply.groupsAttempts_eq]

end TextPatch
