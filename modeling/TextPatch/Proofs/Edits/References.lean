/-
# What a rule asks the source map

A rule asks the source map in two places: for the needles in double braces that its search begins
with, and for the references in its insert text.  Whether it will ask is decided beforehand, by a
look at the needles and the insert text (`RulePlan.usesSourceMap`).

`usesSourceMap_eq_false_iff` says that this decision is exact.  A rule that needs no source map comes
to the same in both places, whatever lookup it is given or if it is given none; and a rule that needs
one does not.  For insert texts this rests on `flatMap_written`: the parts of a text make up the
text, so a text without a reference among its parts is put in as it stands.
-/
import TextPatch.Edit
import TextPatch.Proofs.Run

namespace TextPatch

/-! ## 1. The parts of insert texts -/

namespace Insertion

/-- A part of an insert text as it is written. -/
def Piece.written : Piece → Text
  | .char c => [c]
  | .reference inner => '\x7b' :: '\x7b' :: (inner ++ ['\x7d', '\x7d'])

theorem closing?_eq_some {t inner rest : Text} (h : closing? t = some (inner, rest)) :
    t = inner ++ '\x7d' :: '\x7d' :: rest := by
  fun_induction closing? t generalizing inner rest with
  | case1 => cases h
  | case2 t =>
    obtain ⟨rfl, rfl⟩ := Prod.mk.inj (Option.some.inj h)
    rfl
  | case3 => cases h
  | case4 c t _ _ ih =>
    obtain ⟨⟨i, r⟩, hir, he⟩ := Option.map_eq_some_iff.mp h
    obtain ⟨rfl, rfl⟩ := Prod.mk.inj he
    rw [List.cons_append, ← ih hir]

theorem reference?_eq_some {t inner rest : Text} (h : reference? t = some (inner, rest)) :
    t = (Piece.reference inner).written ++ rest := by
  unfold reference? at h
  split at h
  · rw [closing?_eq_some h]
    simp [Piece.written]
  · cases h

/-- **The parts of a text make up the text.** -/
theorem flatMap_written (t : Text) : (pieces t).flatMap Piece.written = t := by
  fun_induction pieces t with
  | case1 => rfl
  | case2 c t inner rest h ih =>
    rw [List.flatMap_cons, ih, ← reference?_eq_some h]
  | case3 c t _ ih =>
    rw [List.flatMap_cons, ih]
    rfl

variable {name : Text → Except SourceMapError String} {ps : List Piece}

/-- Parts without a reference are put in as they are written. -/
theorem render_of_no_reference (hps : ∀ inner, .reference inner ∉ ps) :
    render name ps = .ok (ps.flatMap Piece.written) := by
  induction ps with
  | nil => rfl
  | cons piece ps ih =>
    cases piece with
    | char c =>
      rw [render, ih fun inner hmem => hps inner (List.mem_cons_of_mem _ hmem)]
      rfl
    | reference inner => exact absurd List.mem_cons_self (hps inner)

/-- A reference has no text if it has no name. -/
theorem render_of_reference {inner : Text} (cause : SourceMapError) (h : .reference inner ∈ ps) :
    render (fun _ => .error cause) ps = .error cause := by
  induction ps with
  | nil => cases h
  | cons piece ps ih =>
    cases piece with
    | char c =>
      have hrest : Piece.reference inner ∈ ps := by simpa using h
      rw [render, ih hrest]
      rfl
    | reference _ => rfl

theorem hasReference_iff {t : Text} :
    hasReference t = true ↔ ∃ inner, .reference inner ∈ pieces t := by
  rw [hasReference, List.any_eq_true]
  constructor
  · rintro ⟨piece, hmem, hpiece⟩
    cases piece with
    | char c => cases hpiece
    | reference inner => exact ⟨inner, hmem⟩
  · rintro ⟨inner, hmem⟩
    exact ⟨.reference inner, hmem, rfl⟩

/-- A text without a reference is put in as it stands. -/
theorem expand_of_no_reference {s : SearchSpec} {raw : Text} (generated : Text)
    (lookup : Option Lookup) (h : s.sourceMapped = true → hasReference raw = false) :
    expand s generated lookup raw = .ok raw := by
  unfold expand
  cases lookup with
  | none => rfl
  | some lookup =>
    simp only
    split
    · rename_i hmapped
      rw [render_of_no_reference fun inner hmem => ?_, flatMap_written]
      rw [hasReference_iff.mpr ⟨inner, hmem⟩] at h
      cases h hmapped
    · rfl

end Insertion

/-! ## 2. Rules -/

namespace RulePlan

/-- A rule for which it makes no difference what a lookup answers, or whether there is one. -/
structure IgnoresLookups (p : RulePlan) : Prop where
  identifier_eq : ∀ text lookup, p.search.identifier text lookup = .ok none
  insertion_eq : ∀ text lookup, p.insertion text lookup = .ok (p.insertText.map String.toList)

variable {p : RulePlan}

theorem usesSourceMap_eq_false : p.usesSourceMap = false ↔ p.search.sourceNeedles = [] ∧
    (p.search.sourceMapped = true →
      ∀ t, p.insertText = some t → Insertion.hasReference t.toList = false) := by
  unfold usesSourceMap
  cases p.search.sourceMapped <;> cases p.insertText <;> simp

/-- **Whether a rule needs the source map is decided exactly.**  It needs none just if it makes no
difference to it what a lookup answers. -/
theorem usesSourceMap_eq_false_iff : p.usesSourceMap = false ↔ p.IgnoresLookups := by
  rw [usesSourceMap_eq_false]
  constructor
  · rintro ⟨hneedles, hreferences⟩
    refine ⟨fun text lookup => by simp [SearchSpec.identifier, hneedles], fun text lookup => ?_⟩
    unfold insertion
    cases hinsert : p.insertText with
    | none => rfl
    | some raw =>
      simp only
      rw [Insertion.expand_of_no_reference text lookup fun hmapped => hreferences hmapped raw hinsert]
      rfl
  · rintro ⟨hidentifier, hinsertion⟩
    constructor
    · -- without a lookup, needles in double braces are an error
      have hnone := hidentifier [] none
      unfold SearchSpec.identifier at hnone
      split at hnone
      · rename_i hempty
        simpa using hempty
      · cases hnone
    · intro hmapped raw hraw
      -- with a lookup that fails, so is a reference
      have hfailing := hinsertion [] (some fun _ _ => .error .unavailable)
      rw [Bool.eq_false_iff]
      intro hreference
      obtain ⟨inner, hmem⟩ := Insertion.hasReference_iff.mp hreference
      have hrender := Insertion.render_of_reference .unavailable hmem
      unfold insertion Insertion.expand at hfailing
      rw [hraw] at hfailing
      simp only [hmapped, if_true] at hfailing
      have hname : Insertion.nameIn p.search [] (fun _ _ => .error .unavailable) =
          fun _ => .error .unavailable := rfl
      rw [hname, hrender] at hfailing
      cases hfailing

/-- A rule that ignores lookups comes to what it comes to without one. -/
theorem IgnoresLookups.applyRule_eq (hp : p.IgnoresLookups) (file : String) (text : Text)
    (lookup : Option Lookup) : applyRule file text p lookup = applyRule file text p none := by
  have hresolve : p.search.resolve file text lookup = p.search.resolve file text none := by
    unfold SearchSpec.resolve
    rw [hp.identifier_eq text lookup, hp.identifier_eq text none]
  unfold applyRule
  rw [hresolve, hp.insertion_eq text lookup, hp.insertion_eq text none]

end RulePlan

/-- **Rules that need no source map come to the same with any lookup.** -/
theorem applyRules_eq_without_lookup {plans : List RulePlan}
    (hplans : ∀ p ∈ plans, p.usesSourceMap = false) (file : String) (lookup : Option Lookup)
    (text : Text) : applyRules file lookup text plans = applyRules file none text plans := by
  induction plans generalizing text with
  | nil => rfl
  | cons p plans ih =>
    have hp := RulePlan.usesSourceMap_eq_false_iff.mp (hplans p List.mem_cons_self)
    rw [applyRules, applyRules, hp.applyRule_eq file text lookup]
    exact congrArg _ (funext fun t => ih (fun q hq => hplans q (List.mem_cons_of_mem p hq)) t)

end TextPatch
