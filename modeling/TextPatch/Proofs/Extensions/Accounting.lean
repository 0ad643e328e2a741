/-
# What a report accounts for

A run answers for each mention of an extension exactly once (`report_accounts_for_mentions`).

* If the extension is not installed, each mention is reported as such.
* If it cannot be opened when the run comes to it, one failure of the extension as a whole stands
  for all mentions.
* Otherwise the descriptors that mention it are tried in order, and each attempt is reported.  A
  failure of the whole extension is added only if the manifest had to be written and could not be.

The reports on the extensions come one behind the other, in the order of the first mentions.  A
restart is needed exactly if something has been applied to an extension that is active.
-/
import Mathlib.Data.List.Forall2
import TextPatch.Proofs.Extensions.Groups

namespace TextPatch

/-! ## 1. One extension -/

namespace Pass

/-- The failures of an extension as a whole that a pass reports: the manifest had to be written and
could not be. -/
def errors (T : Pass) : List ApplicationError :=
  if T.attempts.any fun a => a.outcome.isApplied then
    match ((T.final.write : OnTree _) T.tried).1 with
    | .ok () => []
    | .error cause => [.record cause]
  else []

/-- What a pass reports. -/
theorem report_eq (T : Pass) :
    ((Apply.openedTarget T.enclosure T.opened T.id T.isActive T.source T.descriptors : OnTree _)
      T.before).1 = ⟨T.attempts.map Attempt.outcome, T.errors.map fun cause => (T.id, cause),
        T.attempts.any (fun a => a.outcome.isApplied) && T.isActive⟩ := by
  have houtcomes : T.trial.1.2 = T.attempts.map Attempt.outcome :=
    (Apply.outcome_attempts T.trial_eq).symm
  have happlied : T.trial.1.2.any PatchOutcome.isApplied =
      T.attempts.any fun a => a.outcome.isApplied := by
    rw [houtcomes, List.any_map]
    rfl
  unfold Apply.openedTarget errors
  rw [OnTree.bind_apply, T.trial_eq, ← happlied, ← houtcomes]
  by_cases hany : T.trial.1.2.any PatchOutcome.isApplied = true
  · simp only [if_pos hany]
    rw [OnTree.bind_apply]
    rcases hwrite : (T.final.write : OnTree _) T.tried with ⟨r, h₁⟩
    cases r with
    | ok u => simp [hany]
    | error cause => simp [hany]
  · simp only [if_neg hany]
    simp [hany]

end Pass

/-- The report on a descriptor that has been tried on an extension. -/
structure PatchOutcome.Tells (o : PatchOutcome) (id : String) (source : PatchSource)
    (d : Descriptor) : Prop where
  identity : o.identity = d.identity source
  target : o.target = id
  result : (∃ files, o.result = .ok (.applied id files)) ∨ o.result = .ok (.alreadyApplied id) ∨
    ∃ cause, o.result = .error cause

/-- **Descriptors are reported in the order in which they are tried**, each once. -/
theorem Apply.tells_attempts (e : Enclosure) (id : String) (source : PatchSource) :
    ∀ (ds : List Descriptor) (manifest : Manifest) (h : TreeHost),
      List.Forall₂ (fun d o => PatchOutcome.Tells o id source d) ds
        ((attempts e id source manifest h ds).map Attempt.outcome)
  | [], _, _ => .nil
  | d :: rest, manifest, h => by
    rcases hrun : (descriptor e id (d.identity source) manifest d : OnTree _) h with
      ⟨⟨manifest₁, r⟩, h₁⟩
    rw [attempts, List.map_cons, hrun]
    refine .cons ⟨rfl, rfl, ?_⟩ (tells_attempts e id source rest manifest₁ h₁)
    rcases descriptor_cases hrun with ⟨-, -, rfl, -⟩ | ⟨-, r₁, h₂, -, -, hr⟩
    · exact Or.inr (Or.inl rfl)
    · rcases hr with ⟨files, -, -, rfl⟩ | ⟨cause, -, -, rfl⟩
      · exact Or.inl ⟨files, rfl⟩
      · exact Or.inr (Or.inr ⟨cause, rfl⟩)

/-! ## 2. Restarts -/

/-- Something has been applied to an extension that is active. -/
def ApplyReport.ChangesActive (report : ApplyReport)
    (find : String → Option InstalledExtension) : Prop :=
  ∃ o ∈ report.outcomes, o.isApplied = true ∧ ∃ x, find o.target = some x ∧ x.isActive = true

namespace Apply

variable (find : String → Option InstalledExtension) (source : PatchSource)

theorem group_needsRestart (id : String) (ds : List Descriptor) (h : TreeHost) :
    ((group find source id ds : OnTree _) h).1.needsRestart = true ↔
      ((group find source id ds : OnTree _) h).1.ChangesActive find := by
  unfold ApplyReport.ChangesActive
  rcases group_apply find source id ds h with
    ⟨-, hreport⟩ | ⟨x, hfind, ⟨cause, -, hreport⟩ | ⟨e, manifest, -, hrun⟩⟩
  · rw [hreport]
    simp [notInstalled, PatchOutcome.isApplied]
  · rw [hreport]
    simp
  · have hreport := Pass.report_eq ⟨id, source, ds, x.isActive, e, manifest, h⟩
    simp only at hreport
    rw [hrun, hreport, Bool.and_eq_true, List.any_eq_true]
    constructor
    · rintro ⟨⟨a, ha, happlied⟩, hactive⟩
      refine ⟨a.outcome, List.mem_map_of_mem ha, happlied, x, ?_, hactive⟩
      rw [(root_of_mem_attempts ha).2, hfind]
    · rintro ⟨o, ho, happlied, x', hx', hactive⟩
      obtain ⟨a, ha, rfl⟩ := List.mem_map.mp ho
      rw [(root_of_mem_attempts ha).2, hfind] at hx'
      cases hx'
      exact ⟨⟨a, ha, happlied⟩, hactive⟩

/-- **A restart is needed exactly if an active extension has changed.** -/
theorem groups_needsRestart : ∀ (gs : List (String × List Descriptor)) (h : TreeHost),
    ((groups find source gs : OnTree _) h).1.needsRestart = true ↔
      ((groups find source gs : OnTree _) h).1.ChangesActive find
  | [], _ => by simp [groups, ApplyReport.empty, ApplyReport.ChangesActive]
  | (id, ds) :: rest, h => by
    have hfirst := group_needsRestart find source id ds h
    have hrest := groups_needsRestart rest ((group find source id ds : OnTree _) h).2
    rw [groups_cons_apply]
    unfold ApplyReport.ChangesActive ApplyReport.merge at *
    simp only [Bool.or_eq_true, hfirst, hrest, List.mem_append, or_and_right, exists_or]

end Apply

/-! ## 3. Runs -/

namespace Run

/-- The host on which a run comes to an extension. -/
def comesTo (r : Run) (h : TreeHost) (id : String) : TreeHost :=
  Apply.comesTo r.find r.source r.set.groups id h

/-- The pass of a run over an extension that is open. -/
def passOver (r : Run) (h : TreeHost) (id : String) (x : InstalledExtension) (e : Enclosure)
    (manifest : Manifest) : Pass :=
  ⟨id, r.source, r.set.naming id, x.isActive, e, manifest, r.comesTo h id⟩

/-- What a run reports of the extensions that are mentioned. -/
structure AccountsForMentions (r : Run) (h : TreeHost) : Prop where
  /-- Reports come in the order of the first mentions, and there is nothing else in them. -/
  in_order : (r.report h).InOrder r.set.named
  /-- An extension that is not installed is reported once for each mention. -/
  not_installed : ∀ id, r.find id = none →
    (r.report h).outcomesOf id = (r.set.naming id).map (fun d =>
      ⟨d.identity r.source, id, .ok (.targetNotInstalled id)⟩) ∧ (r.report h).errorsOf id = []
  /-- One that cannot be opened is reported once. -/
  not_opened : ∀ id ∈ r.set.named, ∀ x cause, r.find id = some x →
    ((Apply.openTarget x.root : OnTree _) (r.comesTo h id)).1 = .error cause →
      (r.report h).outcomesOf id = [] ∧ (r.report h).errorsOf id = [cause]
  /-- On another one each mention is tried, and reported, in the order of the document. -/
  tried : ∀ id ∈ r.set.named, ∀ x e manifest, r.find id = some x →
    ((Apply.openTarget x.root : OnTree _) (r.comesTo h id)).1 = .ok (e, manifest) →
      (r.report h).outcomesOf id = (r.passOver h id x e manifest).attempts.map Attempt.outcome ∧
        List.Forall₂ (fun d o => PatchOutcome.Tells o id r.source d) (r.set.naming id)
            ((r.report h).outcomesOf id) ∧
          (r.report h).errorsOf id = (r.passOver h id x e manifest).errors
  /-- So an extension that is not closed is reported once for each time that it is mentioned. -/
  count : ∀ id, (∀ x, r.find id = some x →
      ((Apply.openTarget x.root : OnTree _) (r.comesTo h id)).1.isOk = true) →
    ((r.report h).outcomesOf id).length =
      (r.set.forExtensions.flatMap fun d => d.target.extensionIds).count id
  restart : (r.report h).needsRestart = true ↔ (r.report h).ChangesActive r.find

end Run

namespace Run

variable (r : Run) (h : TreeHost)

theorem keys_groups : r.set.groups.map Prod.fst = r.set.named := by
  rw [r.set.groups_eq, List.map_map]
  exact List.map_id _

/-- What is reported of an extension that is mentioned is what its group reports. -/
theorem report_of_mem_named {id : String} (hid : id ∈ r.set.named) :
    (r.report h).outcomesOf id =
        ((Apply.group r.find r.source id (r.set.naming id) : OnTree _)
          (r.comesTo h id)).1.outcomes ∧
      (r.report h).errorsOf id = ((Apply.group r.find r.source id (r.set.naming id) : OnTree _)
        (r.comesTo h id)).1.targetErrors.map Prod.snd := by
  refine Apply.groups_of_mem r.find r.source h (r.keys_groups ▸ r.set.nodup_named) ?_
  rw [r.set.groups_eq]
  exact List.mem_map_of_mem hid

/-- Nothing is reported of an extension that is not mentioned. -/
theorem report_of_not_mem_named {id : String} (hid : id ∉ r.set.named) :
    (r.report h).outcomesOf id = [] ∧ (r.report h).errorsOf id = [] ∧ r.set.naming id = [] := by
  obtain ⟨houtcomes, herrors⟩ := Apply.groups_none r.find r.source h (r.keys_groups ▸ hid)
  refine ⟨houtcomes, herrors, ?_⟩
  rw [PatchSet.naming, List.map_eq_nil_iff, List.filter_eq_nil_iff]
  intro m hm heq
  refine hid (List.mem_eraseDups.mpr ?_)
  rw [← of_decide_eq_true heq]
  exact List.mem_map_of_mem hm

theorem report_of_not_installed {id : String} (hfind : r.find id = none) :
    (r.report h).outcomesOf id = (r.set.naming id).map (fun d =>
      ⟨d.identity r.source, id, .ok (.targetNotInstalled id)⟩) ∧ (r.report h).errorsOf id = [] := by
  by_cases hid : id ∈ r.set.named
  · obtain ⟨houtcomes, herrors⟩ := r.report_of_mem_named h hid
    rcases Apply.group_apply r.find r.source id (r.set.naming id) (r.comesTo h id) with
      ⟨-, hreport⟩ | ⟨x, hx, -⟩
    · rw [houtcomes, herrors, hreport]
      exact ⟨rfl, rfl⟩
    · rw [hfind] at hx
      cases hx
  · obtain ⟨houtcomes, herrors, hnaming⟩ := r.report_of_not_mem_named h hid
    rw [houtcomes, hnaming]
    exact ⟨rfl, herrors⟩

theorem report_of_not_opened {id : String} (hid : id ∈ r.set.named) {x : InstalledExtension}
    {cause : ApplicationError} (hfind : r.find id = some x)
    (hopen : ((Apply.openTarget x.root : OnTree _) (r.comesTo h id)).1 = .error cause) :
    (r.report h).outcomesOf id = [] ∧ (r.report h).errorsOf id = [cause] := by
  obtain ⟨houtcomes, herrors⟩ := r.report_of_mem_named h hid
  rcases Apply.group_apply r.find r.source id (r.set.naming id) (r.comesTo h id) with
    ⟨hnone, -⟩ | ⟨x', hx', ⟨cause', hopen', hreport⟩ | ⟨e, manifest, hopen', -⟩⟩
  · rw [hfind] at hnone
    cases hnone
  · rw [hfind] at hx'
    cases hx'
    rw [hopen] at hopen'
    cases hopen'
    rw [houtcomes, herrors, hreport]
    exact ⟨rfl, rfl⟩
  · rw [hfind] at hx'
    cases hx'
    rw [hopen] at hopen'
    cases hopen'

theorem report_of_opened {id : String} (hid : id ∈ r.set.named) {x : InstalledExtension}
    {e : Enclosure} {manifest : Manifest} (hfind : r.find id = some x)
    (hopen : ((Apply.openTarget x.root : OnTree _) (r.comesTo h id)).1 = .ok (e, manifest)) :
    (r.report h).outcomesOf id = (r.passOver h id x e manifest).attempts.map Attempt.outcome ∧
      (r.report h).errorsOf id = (r.passOver h id x e manifest).errors := by
  obtain ⟨houtcomes, herrors⟩ := r.report_of_mem_named h hid
  rcases Apply.group_apply r.find r.source id (r.set.naming id) (r.comesTo h id) with
    ⟨hnone, -⟩ | ⟨x', hx', ⟨cause', hopen', -⟩ | ⟨e', manifest', hopen', hrun⟩⟩
  · rw [hfind] at hnone
    cases hnone
  · rw [hfind] at hx'
    cases hx'
    rw [hopen] at hopen'
    cases hopen'
  · rw [hfind] at hx'
    cases hx'
    rw [hopen] at hopen'
    cases hopen'
    have hreport := (r.passOver h id x e manifest).report_eq
    unfold passOver at hreport ⊢
    simp only at hreport
    rw [houtcomes, herrors, hrun, hreport, List.map_map]
    exact ⟨rfl, List.map_id _⟩

end Run

/-- **Each mention of an extension is accounted for exactly once.** -/
theorem report_accounts_for_mentions (r : Run) (h : TreeHost) : r.AccountsForMentions h := by
  have htells : ∀ id x e manifest, List.Forall₂ (fun d o => PatchOutcome.Tells o id r.source d)
      (r.set.naming id) ((r.passOver h id x e manifest).attempts.map Attempt.outcome) :=
    fun id x e manifest => Apply.tells_attempts e id r.source _ manifest (r.comesTo h id)
  constructor
  · rw [← r.keys_groups]
    exact Apply.groups_inOrder r.find r.source h (r.keys_groups ▸ r.set.nodup_named)
  · exact fun id => r.report_of_not_installed h
  · exact fun id hid x cause => r.report_of_not_opened h hid
  · intro id hid x e manifest hfind hopen
    obtain ⟨houtcomes, herrors⟩ := r.report_of_opened h hid hfind hopen
    exact ⟨houtcomes, houtcomes ▸ htells id x e manifest, herrors⟩
  · intro id hopens
    rw [← PatchSet.length_naming]
    by_cases hid : id ∈ r.set.named
    · cases hfind : r.find id with
      | none => rw [(r.report_of_not_installed h hfind).1, List.length_map]
      | some x =>
        have hok := hopens x hfind
        rcases hopen : ((Apply.openTarget x.root : OnTree _) (r.comesTo h id)).1 with
          cause | ⟨e, manifest⟩
        · rw [hopen] at hok
          cases hok
        · rw [(r.report_of_opened h hid hfind hopen).1]
          exact (htells id x e manifest).length_eq.symm
    · obtain ⟨houtcomes, -, hnaming⟩ := r.report_of_not_mem_named h hid
      rw [houtcomes, hnaming]
      rfl
  · exact Apply.groups_needsRestart r.find r.source r.set.groups h

end TextPatch
