/-
# Paths with the same components

Two texts may be one path: repeated slashes, a slash at the end and steps to the same place are no
components.  They are not nothing, either, since a slash at the end asks for a directory.  So of two
paths with the same components one may lead somewhere and the other nowhere; but if both lead
somewhere, it is to the same place (`locate_of_components`).

A step to the same place is all by which the steps of such paths differ (`Path.moves_of_components`),
and a walk does not move there (`Follows.unique_of_moves`).
-/
import TextPatch.Proofs.Files.Normalised
import TextPatch.Proofs.Files.Standing

namespace TextPatch

/-! ## 1. Steps that lead on -/

namespace Step

/-- The component of a step that leads on. -/
def component? : Step → Option Path.Component
  | .here => none
  | .up => some .up
  | .name s => some (.name s)

/-- The components of steps. -/
def moves (steps : List Step) : List Path.Component := steps.filterMap component?

theorem component?_ofPiece (t : Text) : component? (ofPiece t) = Path.Component.ofPiece? t := by
  unfold ofPiece Path.Component.ofPiece?
  split
  · rfl
  · split <;> rfl

/-- Steps lead on where the pieces of their path count. -/
theorem moves_ofPieces : ∀ ts : List Text,
    moves (ofPieces ts) = ts.filterMap Path.Component.ofPiece?
  | [] => rfl
  | [t] => by
    unfold moves
    simp only [ofPieces, List.filterMap_cons, component?_ofPiece, List.filterMap_nil]
  | t :: u :: ts => by
    have ih := moves_ofPieces (u :: ts)
    rw [ofPieces, List.filterMap_cons]
    · split
      · rename_i ht
        rw [ih, ht]
        rfl
      · unfold moves at ih ⊢
        rw [List.filterMap_cons, component?_ofPiece, ih]
    · simp

theorem moves_append (steps steps' : List Step) :
    moves (steps ++ steps') = moves steps ++ moves steps' := List.filterMap_append

/-- Before the first step that leads on, there are only steps to the same place. -/
theorem exists_of_moves_cons {steps : List Step} {c : Path.Component} {cs : List Path.Component}
    (h : moves steps = c :: cs) : ∃ n step rest,
      steps = List.replicate n .here ++ step :: rest ∧ component? step = some c ∧
        moves rest = cs := by
  induction steps with
  | nil => cases h
  | cons step steps ih =>
    cases hstep : component? step with
    | none =>
      have hhere : step = .here := by
        cases step <;> first | rfl | cases hstep
      unfold moves at h ih
      rw [List.filterMap_cons, hstep] at h
      obtain ⟨n, step', rest, rfl, hc, hcs⟩ := ih h
      exact ⟨n + 1, step', rest, by rw [hhere, List.replicate_succ, List.cons_append], hc, hcs⟩
    | some c' =>
      unfold moves at h
      rw [List.filterMap_cons, hstep] at h
      obtain ⟨rfl, rfl⟩ := List.cons.inj h
      exact ⟨0, step, steps, rfl, hstep, rfl⟩

/-- Where no step leads on, there are only steps to the same place. -/
theorem eq_replicate_of_moves {steps : List Step} (h : moves steps = []) :
    steps = List.replicate steps.length .here := by
  refine List.eq_replicate_of_mem fun step hstep => ?_
  have hnone := List.filterMap_eq_nil_iff.mp h step hstep
  cases step <;> first | rfl | cases hnone

end Step

namespace Path

variable {p q : Path}

/-- Whether a component leads on. -/
def Component.leadsOn : Component → Bool
  | .root => false
  | .here => false
  | .up => true
  | .name _ => true

theorem leadsOn_of_mem {ts : List Text} {c : Component}
    (h : c ∈ ts.filterMap Component.ofPiece?) : c.leadsOn = true := by
  obtain ⟨t, -, ht⟩ := List.mem_filterMap.mp h
  unfold Component.ofPiece? at ht
  split at ht
  · cases ht
  · split at ht <;>
    · cases ht
      rfl

/-- The steps of a path lead on as its components do. -/
theorem filter_components (p : Path) :
    p.components.filter Component.leadsOn = Step.moves p.steps := by
  have hmoves : Step.moves p.steps = p.pieces.filterMap Component.ofPiece? :=
    Step.moves_ofPieces p.pieces
  have hall : (p.pieces.filterMap Component.ofPiece?).filter Component.leadsOn =
      p.pieces.filterMap Component.ofPiece? :=
    List.filter_eq_self.mpr fun c hc => leadsOn_of_mem hc
  rw [hmoves]
  unfold components
  simp only
  split
  · rw [List.filter_cons_of_neg (by decide), hall]
  · split
    · rw [List.filter_cons_of_neg (by decide), hall]
    · exact hall

/-- **Paths with the same components** start at the same place, and their steps lead on alike. -/
theorem moves_of_components (h : p.components = q.components) :
    p.hasRoot = q.hasRoot ∧ Step.moves p.steps = Step.moves q.steps := by
  constructor
  · rw [Bool.eq_iff_iff, ← root_mem_components_iff, ← root_mem_components_iff, h]
  · rw [← filter_components, ← filter_components, h]

end Path

/-! ## 2. Walks -/

namespace Tree

variable {t : Tree} {working l l' r r' : Location} {links links' : List Location}
  {steps steps' : List Step} {p q : Path}

/-- A walk past steps to the same place. -/
theorem Follows.of_replicate {n : Nat} (h : Follows t links l (List.replicate n .here ++ steps) r) :
    Follows t links l steps r := by
  obtain ⟨q, ks, ms, rfl, hhere, hrest⟩ := follows_append h
  obtain ⟨rfl, rfl⟩ := follows_here hhere
  rwa [List.nil_append]

/-- **Steps that lead on alike** lead from a place to one place at most. -/
theorem Follows.unique_of_moves (h : Follows t links l steps r) (h' : Follows t links' l steps' r')
    (hmoves : Step.moves steps = Step.moves steps') : r = r' := by
  induction h generalizing links' steps' r' with
  | done l =>
    rw [Step.eq_replicate_of_moves hmoves.symm] at h'
    exact (follows_here h').2.symm
  | here _ _ ih => exact ih h' hmoves
  | up _ _ ih =>
    obtain ⟨n, step, rest, rfl, hstep, hrest⟩ := Step.exists_of_moves_cons hmoves.symm
    cases step <;> cases hstep
    cases h'.of_replicate with
    | up _ hfollows => exact ih hfollows hrest.symm
  | name _ _ hnot _ ih =>
    obtain ⟨n, step, rest, rfl, hstep, hrest⟩ := Step.exists_of_moves_cons hmoves.symm
    cases step <;> cases hstep
    cases h'.of_replicate with
    | name _ _ _ hfollows => exact ih hfollows hrest.symm
    | link _ _ hlink _ => exact absurd hlink (hnot _)
  | link _ _ hlink _ ih =>
    obtain ⟨n, step, rest, rfl, hstep, hrest⟩ := Step.exists_of_moves_cons hmoves.symm
    cases step <;> cases hstep
    cases h'.of_replicate with
    | name _ _ hnot _ => exact absurd hlink (hnot _)
    | link _ _ hlink' hfollows =>
      rw [hlink] at hlink'
      cases hlink'
      refine ih hfollows ?_
      rw [Step.moves_append, Step.moves_append, hrest]
      rfl

/-- **Paths with the same components** that both lead somewhere lead to the same place. -/
theorem locate_of_components (hcomponents : p.components = q.components)
    (hp : t.locate working true p = .ok l) (hq : t.locate working true q = .ok l') : l = l' := by
  obtain ⟨hroot, hmoves⟩ := Path.moves_of_components hcomponents
  obtain ⟨-, -, -, hwalk⟩ := locate_eq_ok_iff.mp hp
  obtain ⟨-, -, -, hwalk'⟩ := locate_eq_ok_iff.mp hq
  obtain ⟨links, -, hfollows⟩ := walk_eq_ok_iff.mp hwalk
  obtain ⟨links', -, hfollows'⟩ := walk_eq_ok_iff.mp hwalk'
  rw [← hroot] at hfollows'
  exact hfollows.unique_of_moves hfollows' hmoves

end Tree

end TextPatch
