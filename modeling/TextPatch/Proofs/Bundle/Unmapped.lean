/-
# Runs that need no source map

A run over the bundled script asks for the source map only when a rule needs it.  Whoever provides
the map must not be able to tell more than that from a run: a run none of whose rules needs the map
is the same run under every provider, with the same report, the same files and the same notes.

The argument follows the code from the rules up.  `filePatch_eq_unmapped` is the step: a file patch
without such a rule hands its session on as it got it, and does what `unmappedFile` does, which
knows no session.  `descriptors_congr` carries this through all descriptors of a set.  None of it
depends on the host, so it is said of every lawful monad that has the operations of one.
-/
import TextPatch.Bundle
import TextPatch.Proofs.Bundle.Failures
import TextPatch.Proofs.Edits.References

namespace TextPatch

/-! ## 1. Rules that have not been checked yet -/

/-- Whether a rule for the bundled script needs the source map.  A rule that fails its check needs
nothing. -/
def EditRule.usesSourceMap (rule : EditRule) : Bool :=
  match RulePlan.ofRule rule true with
  | .ok p => p.usesSourceMap
  | .error _ => false

def FilePatch.usesSourceMap (p : FilePatch) : Bool := p.rules.any EditRule.usesSourceMap

def Descriptor.usesSourceMap (d : Descriptor) : Bool := d.files.any FilePatch.usesSourceMap

/-- Checked rules need the source map just if the rules did. -/
theorem any_usesSourceMap_of_ofRules {rules : List EditRule} {plans : List RulePlan}
    (h : RulePlan.ofRules true rules = .ok plans) :
    plans.any RulePlan.usesSourceMap = rules.any EditRule.usesSourceMap := by
  induction rules generalizing plans with
  | nil =>
    cases h
    rfl
  | cons rule rules ih =>
    rw [RulePlan.ofRules, List.mapM_cons] at h
    obtain ⟨p, hp, h⟩ := bind_eq_ok.mp h
    obtain ⟨rest, hrest, h⟩ := bind_eq_ok.mp h
    cases h
    rw [List.any_cons, List.any_cons, ih hrest, EditRule.usesSourceMap, hp]

namespace Bundle

variable {m : Type → Type} [Monad m] [Host m]

/-! ## 2. File patches -/

/-- Applies a file patch without a source map. -/
def unmappedFile (text : Text) (p : FilePatch) : m (Except ApplicationError Text) :=
  match RulePlan.ofRules true p.rules with
  | .error cause => return .error (.edit p.file (.resolve cause))
  | .ok plans => runRules p.file none text plans

/-- Applies file patches without a source map, up to the first that fails. -/
def unmappedFiles (text : Text) : List FilePatch → m (Except ApplicationError Text)
  | [] => return .ok text
  | p :: rest => do
    match ← unmappedFile text p with
    | .error cause => return .error cause
    | .ok text => unmappedFiles text rest

variable [LawfulMonad m]

/-- **A file patch that needs no source map** leaves the session alone and does not look at it. -/
theorem filePatch_eq_unmapped {p : FilePatch} (hp : p.usesSourceMap = false) (s : Session m)
    (text : Text) : filePatch s text p = (fun r => (s, r)) <$> unmappedFile text p := by
  unfold filePatch unmappedFile
  cases hrules : RulePlan.ofRules true p.rules with
  | error cause => exact (map_pure _ _).symm
  | ok plans =>
    have hnone : s.mapFor plans = pure (.ok none) := by
      rw [Session.mapFor, any_usesSourceMap_of_ofRules hrules]
      exact if_neg (by rw [← FilePatch.usesSourceMap, hp]; exact Bool.false_ne_true)
    simp only [hnone, pure_bind]
    exact bind_pure_comp _ _

theorem filePatches_eq_unmapped {files : List FilePatch}
    (hfiles : files.any FilePatch.usesSourceMap = false) (s : Session m) (text : Text) :
    filePatches s text files = (fun r => (s, r)) <$> unmappedFiles text files := by
  induction files generalizing text with
  | nil => exact (map_pure _ _).symm
  | cons p rest ih =>
    obtain ⟨hp, hrest⟩ := Bool.or_eq_false_iff.mp hfiles
    rw [filePatches, unmappedFiles, filePatch_eq_unmapped hp, bind_map_left, map_bind]
    refine congrArg _ (funext fun r => ?_)
    cases r with
    | error cause => exact (map_pure _ _).symm
    | ok t => exact ih hrest t

/-! ## 3. Descriptors and runs -/

/-- Descriptors that need no source map do the same in every session. -/
theorem descriptors_congr {ds : List Descriptor} (hds : ∀ d ∈ ds, d.usesSourceMap = false)
    (s s' : Session m) (text : Text) (index : Nat) :
    descriptors s text index ds = descriptors s' text index ds := by
  induction ds generalizing text index with
  | nil => rfl
  | cons d rest ih =>
    have hd : d.files.any FilePatch.usesSourceMap = false := hds d List.mem_cons_self
    have hrest := ih fun e he => hds e (List.mem_cons_of_mem d he)
    rw [descriptors, descriptors, filePatches_eq_unmapped hd s, filePatches_eq_unmapped hd s',
      bind_map_left, bind_map_left]
    refine congrArg _ (funext fun r => ?_)
    cases r with
    | ok patched => simp only [hrest patched]
    | error cause => simp only [hrest text]

/-- What a provider can tell from a run: nothing, unless a rule needs the source map.  Checked rules
come to the same with any lookup as with none; a run over a set comes to the same under any two
providers; and in any session, whatever it knows and whoever it asks, a descriptor does the same
to a text. -/
structure TellsNothing (m : Type → Type) [Monad m] [Host m] : Prop where
  rules : ∀ (file : String) (text : Text) (plans : List RulePlan),
    (∀ p ∈ plans, p.usesSourceMap = false) → ∀ lookup : Lookup,
      applyRules file (some lookup) text plans = applyRules file none text plans
  runs : ∀ (script : Path) (s : PatchSet) (dryRun : Bool),
    (∀ d ∈ s.forBundledScript, d.usesSourceMap = false) →
      ∀ provider provider' : SourceMap.Provider m,
        patchSet script s provider dryRun = patchSet script s provider' dryRun
  descriptor : ∀ d : Descriptor, d.usesSourceMap = false → ∀ text : Text,
    ∃ run : m (Except ApplicationError Text), ∀ s : Session m,
      filePatches s text d.files = (fun r => (s, r)) <$> run

/-- **Leaving the source map out cannot be observed.** -/
theorem source_map_unobservable : TellsNothing m := by
  constructor
  · intro file text plans hplans lookup
    exact applyRules_eq_without_lookup hplans file (some lookup) text
  · intro script s dryRun hs provider provider'
    unfold patchSet
    refine congrArg _ (funext fun opened => ?_)
    cases opened with
    | error e => rfl
    | ok pristine =>
      simp only [descriptors_congr hs ⟨script, pristine, provider, none⟩
        ⟨script, pristine, provider', none⟩]
  · intro d hd text
    exact ⟨unmappedFiles text d.files, fun s => filePatches_eq_unmapped hd s text⟩

/-- A set whose insert text stops just before it would be a reference. -/
def plainSet : PatchSet where
  descriptors := [⟨.bundledScript true, [⟨"s.ts", none,
    [⟨.one "a", none, some "\x7b\x7bc\x7d", none, none, none, none, none⟩]⟩]⟩]

/-- On `plainSet`, a provider that has the map and one that has none cannot be told apart. -/
theorem plainSet_tells_nothing : LawfulMonad OnTree ∧
    (∀ d ∈ plainSet.forBundledScript, d.usesSourceMap = false) ∧
      ∀ dryRun, (patchSet ⟨"/x.js"⟩ plainSet (SourceMap.fixed (.ok cutMap)) dryRun : OnTree _) =
        patchSet ⟨"/x.js"⟩ plainSet (SourceMap.fixed (.error .unavailable)) dryRun := by
  have hplain : ∀ d ∈ plainSet.forBundledScript, d.usesSourceMap = false := by decide +kernel
  exact ⟨inferInstance, hplain,
    fun dryRun => source_map_unobservable.runs ⟨"/x.js"⟩ plainSet dryRun hplain _ _⟩

end Bundle

end TextPatch
