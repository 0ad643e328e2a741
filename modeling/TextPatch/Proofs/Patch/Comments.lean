/-
# Comments do not change a patch set

A text that holds a patch set holds the same one after blanks and whole comments have been put
between its elements, anywhere and any number of times (`load_ignores_comments`): a text is read by
its tokens alone.

No comment is looked for inside a string.  Each string of the set stands at its place in the
document that the tokens spell, and there it is what its literal stands for, whatever slashes, stars,
quotes or backslashes it holds.
-/
import TextPatch.Proofs.Json.Answers
import TextPatch.Proofs.Json.Grammar
import TextPatch.Proofs.Patch.Strings

namespace TextPatch

/-! ## 1. Putting blanks and comments into a text -/

namespace Json

/-- The second text is the first one with blanks and comments put between its elements. -/
inductive Inserted : Text → Text → Prop
  | nil : Inserted [] []
  | unended {body : Text} (h : '\n' ∉ body) : Inserted ('/' :: '/' :: body) ('/' :: '/' :: body)
  /-- An element of the first text. -/
  | keep {e : Element} {t t' : Text} (hproper : e.Proper) (hends : e.EndsAt t)
      (h : Inserted t t') : Inserted (e.text ++ t) (e.text ++ t')
  /-- A blank or a comment is put in. -/
  | put {e : Element} {t t' : Text} (hproper : e.Proper) (hgap : e.token? = none)
      (h : Inserted t t') : Inserted t (e.text ++ t')

/-- Blanks and comments begin with no character that a number or a word goes on with. -/
theorem Element.head?_gap {e : Element} (hproper : e.Proper) (hgap : e.token? = none)
    {t : Text} {c : Char} (hc : (e.text ++ t).head? = some c) : isAtomChar c = false := by
  cases e with
  | blank d =>
    cases hc
    exact not_isAtomChar_of_isBlank hproper
  | line body =>
    cases hc
    decide
  | block body =>
    cases hc
    decide
  | token k => cases hgap

theorem Inserted.head? {t t' : Text} (h : Inserted t t') {c : Char} (hc : t'.head? = some c) :
    isAtomChar c = false ∨ t.head? = some c := by
  cases h with
  | nil => exact Or.inr hc
  | unended _ => exact Or.inr hc
  | @keep e t t' hproper _ _ =>
    obtain ⟨d, w, htext⟩ := List.exists_cons_of_ne_nil hproper.text_ne_nil
    rw [htext] at hc ⊢
    exact Or.inr hc
  | put hproper hgap _ => exact Or.inl (Element.head?_gap hproper hgap hc)

/-- An element that is at its end in the first text is so in the second one. -/
theorem Inserted.endsAt {e : Element} {t t' : Text} (h : Inserted t t') (hends : e.EndsAt t) :
    e.EndsAt t' := by
  cases e with
  | token k =>
    cases k with
    | atom word =>
      intro c hc
      rcases h.head? hc with hnone | hhead
      · exact hnone
      · exact hends c hhead
    | mark d => trivial
    | literal body => trivial
  | _ => trivial

/-- **Both texts have the same tokens.** -/
theorem Inserted.lexed {t t' : Text} (h : Inserted t t') :
    ∃ es es', Lexed es t ∧ Lexed es' t' ∧ tokens es' = tokens es := by
  induction h with
  | nil => exact ⟨[], [], .nil, .nil, rfl⟩
  | unended hbody => exact ⟨[], [], .unended hbody, .unended hbody, rfl⟩
  | @keep e t t' hproper hends h ih =>
    obtain ⟨es, es', hes, hes', htokens⟩ := ih
    refine ⟨e :: es, e :: es', .cons hproper hends hes, .cons hproper (h.endsAt hends) hes', ?_⟩
    unfold tokens at *
    rw [List.filterMap_cons, List.filterMap_cons, htokens]
  | @put e t t' hproper hgap _ ih =>
    obtain ⟨es, es', hes, hes', htokens⟩ := ih
    have hends : e.EndsAt t' := by
      cases e with
      | token k => cases hgap
      | _ => trivial
    refine ⟨es, e :: es', hes, .cons hproper hends hes', ?_⟩
    unfold tokens at *
    rw [List.filterMap_cons, hgap, htokens]

/-- Nothing need be put in. -/
theorem Lexed.inserted {es : List Element} {t : Text} (h : Lexed es t) : Inserted t t := by
  induction h with
  | nil => exact .nil
  | unended hbody => exact .unended hbody
  | cons hproper hends _ ih => exact .keep hproper hends ih

end Json

/-! ## 2. Reading a text by its tokens -/

namespace PatchSet

open Json

/-- A text is read as the document that its tokens spell. -/
theorem readDocument_eq_ok_iff {es : List Element} {t : Text} (h : Lexed es t) {v : Json} :
    readDocument t = .ok v ↔ Spells Read.deepest (tokens es) v := by
  obtain ⟨hbroken, hspaced⟩ := h.spaced
  unfold readDocument
  simp only [hbroken]
  exact parse_eq_ok_iff hspaced

/-- A text that is read is not broken by its comments. -/
theorem exists_lexed_of_readDocument {t : Text} {v : Json} (h : readDocument t = .ok v) :
    ∃ es, Lexed es t := by
  refine exists_lexed ?_
  unfold readDocument at h
  simp only at h
  cases hbroken : (stripComments t).2 with
  | false => rfl
  | true =>
    rw [hbroken] at h
    obtain ⟨⟨w, rest⟩, -, h⟩ := bind_eq_ok.mp h
    simp only at h
    split at h
    · cases h
    · cases h

/-- The document that a set is read from. -/
theorem document_of_load {t : Text} {s : PatchSet} (h : load t = .ok s) :
    ∃ v, readDocument t = .ok v ∧ ∃ ds, ofDocument v = .ok ds ∧ s = ⟨ds⟩ := by
  unfold load at h
  split at h
  · cases h
  · rename_i v hv
    obtain ⟨ds, hds, h⟩ := bind_eq_ok.mp h
    refine ⟨v, hv, ds, hds, ?_⟩
    unfold validated at h
    simp only at h
    split at h
    · cases h
      rfl
    · cases h

/-- Texts with the same tokens hold the same set. -/
theorem load_congr {es es' : List Element} {t t' : Text} {s : PatchSet} (h : load t = .ok s)
    (ht : Lexed es t) (ht' : Lexed es' t') (htokens : tokens es' = tokens es) :
    load t' = .ok s := by
  obtain ⟨v, hv, -⟩ := document_of_load h
  have hv' : readDocument t' = .ok v := by
    rw [readDocument_eq_ok_iff ht', htokens]
    exact (readDocument_eq_ok_iff ht).mp hv
  unfold load at h ⊢
  rw [hv']
  rwa [hv] at h

/-! ## 3. What a text means -/

/-- What a text that holds a set means does not depend on its blanks and comments. -/
structure MeantBy (s : PatchSet) (t : Text) : Prop where
  /-- The text is made of elements; between any two of them something can be put in. -/
  divided : ∃ es, Lexed es t
  insertion : ∀ t', Inserted t t' → load t' = .ok s
  /-- The strings of the set are what the literals of the text stand for, each at its place. -/
  strings : ∀ es, Lexed es t →
    ∃ v, Spells Read.deepest (tokens es) v ∧ s.StandsIn v

/-- **Comments do not change what a text means**, and strings are taken as they are written. -/
theorem load_ignores_comments {t : Text} {s : PatchSet} (h : load t = .ok s) : s.MeantBy t := by
  obtain ⟨v, hv, ds, hds, rfl⟩ := document_of_load h
  refine ⟨exists_lexed_of_readDocument hv, fun t' ht' => ?_, fun es hes => ⟨v, ?_, ?_⟩⟩
  · obtain ⟨es, es', hes, hes', htokens⟩ := ht'.lexed
    exact load_congr h hes hes' htokens
  · exact (readDocument_eq_ok_iff hes).mp hv
  · obtain ⟨-, hspaced⟩ := hes.spaced
    have hparse : parse (stripComments t).1 = .ok v :=
      (parse_eq_ok_iff hspaced).mpr ((readDocument_eq_ok_iff hes).mp hv)
    exact standsIn_of_ofDocument (distinct_of_parse hparse) hds

/-- A document with comments, and with strings that look like comments. -/
def commentedDocument : Text :=
  ("// patches\n[\x7b\"target\": \x7b\"extension\": \"p.x\"\x7d, /* inline **/ \"patches\":" ++
    "[\x7b\"file\": \"a//b.js\", \"patches\": [\x7b\"search\": \"/* \\\"one\\\" */\", " ++
    "\"insertText\": \"\\u002f/\"\x7d]\x7d]\x7d] // end").toList

/-- The set that this document holds. -/
def commentedSet : PatchSet where
  descriptors := [⟨.extensions (.one "p.x"), [⟨"a//b.js", none, [⟨.one "/* \"one\" */", none,
    some "//", none, none, none, none, none⟩]⟩]⟩]

theorem commentedSet_meant :
    load commentedDocument = .ok commentedSet ∧ commentedSet.MeantBy commentedDocument := by
  have hload : load commentedDocument = .ok commentedSet := eq_ok_of_toOption (by decide +kernel)
  exact ⟨hload, load_ignores_comments hload⟩

end PatchSet

end TextPatch
