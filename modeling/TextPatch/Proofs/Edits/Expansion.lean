/-
# References in insert texts

A reference is a text in double braces, without a line feed between them.  An insert text is read
from left to right: what stands before the first reference is copied, the reference is as short as
it can be, and reading goes on behind it (`Divided`).  Every text is divided in exactly one way
(`exists_divided`, `Divided.unique`), and the division says nothing of how it is found.

`insertion_expands` is what comes of a division under a lookup: the copied parts with the names of
the references between them, or the error of the first reference that has no name.  Nothing of the
text is lost, so names that are the references themselves give the text again.
-/
import TextPatch.Proofs.Edits.References
import TextPatch.Proofs.Search.Grammar

namespace TextPatch

namespace Insertion

/-! ## 1. References in a text -/

/-- A reference stands in a text behind `before` and in front of `after`. -/
structure HasReferenceAt (t before inner after : Text) : Prop where
  stands : t = before ++ ((Piece.reference inner).written ++ after)
  one_line : '\n' ∉ inner

/-- The first reference of a text: no other one begins farther left, and none that begins where it
does is shorter. -/
structure IsFirstReference (t before inner after : Text) : Prop extends
    HasReferenceAt t before inner after where
  leftmost : ∀ b i a, HasReferenceAt t b i a → before.length ≤ b.length
  shortest : ∀ i a, HasReferenceAt t before i a → inner.length ≤ i.length

/-- A text is divided into references, each with what is copied before it, and what is copied behind
the last one. -/
inductive Divided : Text → List (Text × Text) → Text → Prop
  | plain {t : Text} (h : ∀ b i a, ¬ HasReferenceAt t b i a) : Divided t [] t
  | reference {t before inner after last : Text} {refs : List (Text × Text)}
      (h : IsFirstReference t before inner after) (hrest : Divided after refs last) :
      Divided t ((before, inner) :: refs) last

variable {t before inner after last : Text} {refs : List (Text × Text)}

/-- There is only one first reference. -/
theorem IsFirstReference.unique {before' inner' after' : Text}
    (h : IsFirstReference t before inner after) (h' : IsFirstReference t before' inner' after') :
    before = before' ∧ inner = inner' ∧ after = after' := by
  obtain rfl : before = before' := by
    have hlength := Nat.le_antisymm (h.leftmost _ _ _ h'.toHasReferenceAt)
      (h'.leftmost _ _ _ h.toHasReferenceAt)
    exact (List.append_inj (h.stands.symm.trans h'.stands) hlength).1
  have hrest := List.append_cancel_left (h.stands.symm.trans h'.stands)
  have hlength := Nat.le_antisymm (h.shortest _ _ h'.toHasReferenceAt)
    (h'.shortest _ _ h.toHasReferenceAt)
  obtain ⟨hwritten, rfl⟩ := List.append_inj hrest (by simp [Piece.written, hlength])
  exact ⟨rfl, by simpa [Piece.written] using hwritten, rfl⟩

/-- **A text is divided in one way only.** -/
theorem Divided.unique {refs' : List (Text × Text)} {last' : Text} (h : Divided t refs last)
    (h' : Divided t refs' last') : refs = refs' ∧ last = last' := by
  induction h generalizing refs' last' with
  | plain hnone =>
    cases h' with
    | plain _ => exact ⟨rfl, rfl⟩
    | reference hfirst _ => exact absurd hfirst.toHasReferenceAt (hnone _ _ _)
  | reference hfirst _ ih =>
    cases h' with
    | plain hnone => exact absurd hfirst.toHasReferenceAt (hnone _ _ _)
    | reference hfirst' hrest' =>
      obtain ⟨rfl, rfl, rfl⟩ := hfirst.unique hfirst'
      obtain ⟨rfl, rfl⟩ := ih hrest'
      exact ⟨rfl, rfl⟩

/-! ## 2. How references are found -/

/-- Behind opening braces, the reader stops at the first closing ones. -/
theorem closing?_shortest {u rest : Text} (h : closing? u = some (inner, rest)) :
    '\n' ∉ inner ∧ ∀ i a, u = i ++ '\x7d' :: '\x7d' :: a → inner.length ≤ i.length := by
  fun_induction closing? u generalizing inner rest with
  | case1 => cases h
  | case2 t =>
    obtain ⟨rfl, rfl⟩ := Prod.mk.inj (Option.some.inj h)
    simp
  | case3 => cases h
  | case4 c t hopen hc ih =>
    obtain ⟨⟨i, r⟩, hir, he⟩ := Option.map_eq_some_iff.mp h
    obtain ⟨rfl, rfl⟩ := Prod.mk.inj he
    obtain ⟨hline, hshortest⟩ := ih hir
    refine ⟨by simp [Ne.symm hc, hline], fun j a hj => ?_⟩
    cases j with
    | nil =>
      obtain ⟨rfl, rfl⟩ := List.cons.inj hj
      exact absurd rfl (hopen a rfl)
    | cons d j => exact Nat.succ_le_succ (hshortest j a (List.cons.inj hj).2)

/-- It reads on up to a line feed or the end of the text. -/
theorem mem_of_closing?_eq_none {u i a : Text} (h : closing? u = none)
    (hu : u = i ++ '\x7d' :: '\x7d' :: a) : '\n' ∈ i := by
  fun_induction closing? u generalizing i with
  | case1 => simp at hu
  | case2 t => cases h
  | case3 t hopen =>
    cases i with
    | nil => cases hu
    | cons d i =>
      obtain ⟨rfl, -⟩ := List.cons.inj hu
      exact List.mem_cons_self
  | case4 c t hopen hc ih =>
    cases i with
    | nil =>
      obtain ⟨rfl, rfl⟩ := List.cons.inj hu
      exact absurd rfl (hopen a rfl)
    | cons d i => exact List.mem_cons_of_mem d (ih (by simpa using h) (List.cons.inj hu).2)

/-- A reference that is read where a text begins is its first one. -/
theorem isFirstReference_of_reference? (h : reference? t = some (inner, after)) :
    IsFirstReference t [] inner after := by
  have hstands := reference?_eq_some h
  unfold reference? at h
  split at h
  · rename_i u
    obtain ⟨hline, hshortest⟩ := closing?_shortest h
    refine ⟨⟨hstands, hline⟩, fun b i a _ => Nat.zero_le _, fun i a hi => ?_⟩
    have hu := hi.stands
    simp only [Piece.written, List.nil_append, List.cons_append, List.append_assoc,
      List.cons.injEq, true_and] at hu
    exact hshortest i a hu
  · cases h

/-- Where no reference is read, none begins. -/
theorem not_hasReferenceAt_of_reference? (h : reference? t = none) (i a : Text) :
    ¬ HasReferenceAt t [] i a := by
  intro hi
  have ht := hi.stands
  simp only [Piece.written, List.nil_append, List.cons_append, List.append_assoc] at ht
  subst ht
  exact hi.one_line (mem_of_closing?_eq_none h rfl)

theorem hasReferenceAt_cons {c d : Char} {b i a : Text} :
    HasReferenceAt (c :: t) (d :: b) i a ↔ c = d ∧ HasReferenceAt t b i a := by
  constructor
  · rintro ⟨hstands, hline⟩
    obtain ⟨rfl, ht⟩ := List.cons.inj hstands
    exact ⟨rfl, ht, hline⟩
  · rintro ⟨rfl, rfl, hline⟩
    exact ⟨rfl, hline⟩

/-- Where no reference begins, the first one of the rest is the first one. -/
theorem IsFirstReference.cons {c : Char} (h : IsFirstReference t before inner after)
    (hnone : ∀ i a, ¬ HasReferenceAt (c :: t) [] i a) :
    IsFirstReference (c :: t) (c :: before) inner after where
  toHasReferenceAt := hasReferenceAt_cons.mpr ⟨rfl, h.toHasReferenceAt⟩
  leftmost b i a hi := by
    cases b with
    | nil => exact absurd hi (hnone i a)
    | cons d b => exact Nat.succ_le_succ (h.leftmost b i a (hasReferenceAt_cons.mp hi).2)
  shortest i a hi := h.shortest i a (hasReferenceAt_cons.mp hi).2

/-- The parts of a text that is divided. -/
def dividedPieces (refs : List (Text × Text)) (last : Text) : List Piece :=
  refs.flatMap (fun r => r.1.map .char ++ [.reference r.2]) ++ last.map .char

/-- **The parts of a text are those of its division.** -/
theorem exists_divided (t : Text) :
    ∃ refs last, Divided t refs last ∧ pieces t = dividedPieces refs last := by
  fun_induction pieces t with
  | case1 => exact ⟨[], [], .plain fun b i a h => by simpa [Piece.written] using h.stands, rfl⟩
  | case2 c t inner rest href ih =>
    obtain ⟨refs, last, hrest, hpieces⟩ := ih
    refine ⟨([], inner) :: refs, last, .reference (isFirstReference_of_reference? href) hrest, ?_⟩
    rw [hpieces]
    rfl
  | case3 c t href ih =>
    have hnone := not_hasReferenceAt_of_reference? href
    obtain ⟨refs, last, hdivided, hpieces⟩ := ih
    rw [hpieces]
    cases hdivided with
    | plain hplain =>
      refine ⟨[], c :: t, .plain fun b i a h => ?_, rfl⟩
      cases b with
      | nil => exact hnone i a h
      | cons d b => exact hplain b i a (hasReferenceAt_cons.mp h).2
    | reference hfirst hrest => exact ⟨_, _, .reference (hfirst.cons hnone) hrest, rfl⟩

/-- What is copied and the references of a text make it up. -/
theorem Divided.eq_written (h : Divided t refs last) :
    t = refs.flatMap (fun r => r.1 ++ (Piece.reference r.2).written) ++ last := by
  induction h with
  | plain _ => rfl
  | reference hfirst _ ih =>
    rw [List.flatMap_cons, List.append_assoc, ← ih, List.append_assoc]
    exact hfirst.stands

/-! ## 3. Names for references -/

variable {name : Text → Except SourceMapError String}

theorem render_chars (t : Text) (ps : List Piece) :
    render name (t.map .char ++ ps) = (render name ps).map (t ++ ·) := by
  induction t with
  | nil => cases hps : render name ps <;> simp [hps, Except.map]
  | cons c t ih =>
    rw [List.map_cons, List.cons_append, render, ih]
    cases render name ps <;> rfl

/-- A part that is copied, and a reference. -/
theorem render_reference (before inner : Text) (ps : List Piece) :
    render name (before.map .char ++ .reference inner :: ps) =
      (name inner).bind fun n => (render name ps).map (before ++ n.toList ++ ·) := by
  rw [render_chars, render]
  cases name inner with
  | error e => rfl
  | ok n => cases render name ps <;> simp [bind, Except.bind, Except.map, pure, Except.pure]

theorem dividedPieces_cons (r : Text × Text) (refs : List (Text × Text)) (last : Text) :
    dividedPieces (r :: refs) last =
      r.1.map .char ++ .reference r.2 :: dividedPieces refs last := by
  simp [dividedPieces]

/-- **Names take the place of references**, if all have one. -/
theorem render_eq_ok {nameOf : Text → String} (hnames : ∀ r ∈ refs, name r.2 = .ok (nameOf r.2)) :
    render name (dividedPieces refs last) =
      .ok (refs.flatMap (fun r => r.1 ++ (nameOf r.2).toList) ++ last) := by
  induction refs with
  | nil =>
    have hchars : render name (last.map .char ++ []) = .ok (last ++ []) := render_chars last []
    simpa [dividedPieces] using hchars
  | cons r refs ih =>
    rw [dividedPieces_cons, render_reference, hnames r List.mem_cons_self,
      ih fun q hq => hnames q (List.mem_cons_of_mem r hq)]
    simp [Except.bind, Except.map]

/-- The first reference without a name gives the error. -/
theorem render_eq_error {named others : List (Text × Text)} {r : Text × Text}
    {cause : SourceMapError} (hnamed : ∀ q ∈ named, ∃ n, name q.2 = .ok n)
    (hr : name r.2 = .error cause) :
    render name (dividedPieces (named ++ r :: others) last) = .error cause := by
  induction named with
  | nil =>
    rw [List.nil_append, dividedPieces_cons, render_reference, hr]
    rfl
  | cons q named ih =>
    obtain ⟨n, hn⟩ := hnamed q List.mem_cons_self
    rw [List.cons_append, dividedPieces_cons, render_reference, hn,
      ih fun x hx => hnamed x (List.mem_cons_of_mem q hx)]
    rfl

/-- Names that each reference has are the values of one function. -/
theorem exists_nameOf (hall : ∀ r ∈ refs, ∃ n, name r.2 = .ok n) :
    ∃ nameOf : Text → String, ∀ r ∈ refs, name r.2 = .ok (nameOf r.2) := by
  refine ⟨fun inner => (name inner).toOption.getD "", fun r hr => ?_⟩
  obtain ⟨n, hn⟩ := hall r hr
  simp only [hn, Except.toOption, Option.getD_some]

theorem render_eq_ok_iff {out : Text} : render name (dividedPieces refs last) = .ok out ↔
    ∃ nameOf : Text → String, (∀ r ∈ refs, name r.2 = .ok (nameOf r.2)) ∧
      out = refs.flatMap (fun r => r.1 ++ (nameOf r.2).toList) ++ last := by
  constructor
  · intro hout
    rcases all_ok_or_first_error (fun r => name r.2) refs with
      hall | ⟨named, r, others, cause, rfl, hnamed, hr⟩
    · obtain ⟨nameOf, hnames⟩ := exists_nameOf hall
      rw [render_eq_ok hnames] at hout
      exact ⟨nameOf, hnames, (Except.ok.inj hout).symm⟩
    · rw [render_eq_error hnamed hr] at hout
      cases hout
  · rintro ⟨nameOf, hnames, rfl⟩
    exact render_eq_ok hnames

theorem render_eq_error_iff {cause : SourceMapError} :
    render name (dividedPieces refs last) = .error cause ↔
      ∃ named r others, refs = named ++ r :: others ∧ (∀ q ∈ named, ∃ n, name q.2 = .ok n) ∧
        name r.2 = .error cause := by
  constructor
  · intro herror
    rcases all_ok_or_first_error (fun r => name r.2) refs with
      hall | ⟨named, r, others, cause', rfl, hnamed, hr⟩
    · obtain ⟨nameOf, hnames⟩ := exists_nameOf hall
      rw [render_eq_ok hnames] at herror
      cases herror
    · obtain rfl := Except.error.inj ((render_eq_error hnamed hr).symm.trans herror)
      exact ⟨named, r, others, rfl, hnamed, hr⟩
  · rintro ⟨named, r, others, rfl, hnamed, hr⟩
    exact render_eq_error hnamed hr

end Insertion

/-! ## 4. Insert texts of rules -/

namespace RulePlan

open Insertion

/-- What becomes of the insert text `raw` of a rule in a text, under a lookup: how it is divided,
what stands in the place of its references, and what happens if one of them has no name. -/
structure Expands (p : RulePlan) (raw text : Text) (lookup : Lookup) : Prop where
  /-- The insert text is divided, in one way. -/
  divided : ∃ refs last, Divided raw refs last ∧
    ∀ refs' last', Divided raw refs' last' → refs = refs' ∧ last = last'
  /-- It makes a text exactly if all references have a name, and then they are replaced by it. -/
  ok_iff : ∀ refs last, Divided raw refs last → ∀ out,
    p.insertion text (some lookup) = .ok (some out) ↔
      ∃ nameOf : Text → String,
        (∀ r ∈ refs, ∃ n, lookup text (p.search.sourceNeedles ++ [String.ofList r.2]) =
          .ok ⟨n, nameOf r.2⟩) ∧
        out = refs.flatMap (fun r => r.1 ++ (nameOf r.2).toList) ++ last
  /-- Otherwise the first reference that has none gives the error. -/
  error_iff : ∀ refs last, Divided raw refs last → ∀ error,
    p.insertion text (some lookup) = .error error ↔
      ∃ named r others cause, refs = named ++ r :: others ∧
        (∀ q ∈ named, ∃ i, lookup text (p.search.sourceNeedles ++ [String.ofList q.2]) = .ok i) ∧
        lookup text (p.search.sourceNeedles ++ [String.ofList r.2]) = .error cause ∧
        error = .sourceMap cause
  /-- If each reference stands for itself, the insert text stays as it is. -/
  identity : (∀ inner, ∃ n, lookup text (p.search.sourceNeedles ++ [String.ofList inner]) =
      .ok ⟨n, String.ofList (Piece.reference inner).written⟩) →
    p.insertion text (some lookup) = .ok (some raw)

variable {p : RulePlan} {rule : EditRule}

/-- What checking a rule keeps of it. -/
theorem ofRule_eq_ok {sourceMapped : Bool} (h : ofRule rule sourceMapped = .ok p) :
    p.insertText = rule.insertText ∧ p.search.sourceMapped = sourceMapped := by
  obtain ⟨search, hsearch, hp⟩ := bind_eq_ok.mp h
  cases hp
  exact ⟨rfl, (SearchSpec.represents_of_ofSearch hsearch).sourceMapped_eq⟩

/-- The name of a reference is that of the identifier that is found for it. -/
theorem nameIn_eq_ok_iff {text : Text} {lookup : Lookup} {inner : Text} {name : String} :
    nameIn p.search text lookup inner = .ok name ↔
      ∃ n, lookup text (p.search.sourceNeedles ++ [String.ofList inner]) = .ok ⟨n, name⟩ := by
  unfold nameIn
  cases lookup text (p.search.sourceNeedles ++ [String.ofList inner]) with
  | error cause => simp [Except.map]
  | ok i =>
    obtain ⟨n, s⟩ := i
    simp [Except.map]

theorem nameIn_eq_error_iff {text : Text} {lookup : Lookup} {inner : Text}
    {cause : SourceMapError} : nameIn p.search text lookup inner = .error cause ↔
      lookup text (p.search.sourceNeedles ++ [String.ofList inner]) = .error cause := by
  unfold nameIn
  cases lookup text (p.search.sourceNeedles ++ [String.ofList inner]) <;> simp [Except.map]

/-- A reference has a name if an identifier is found for it. -/
theorem isNamed_iff {text : Text} {lookup : Lookup} {inner : Text} :
    (∃ name, nameIn p.search text lookup inner = .ok name) ↔
      ∃ i, lookup text (p.search.sourceNeedles ++ [String.ofList inner]) = .ok i := by
  constructor
  · rintro ⟨name, h⟩
    obtain ⟨n, hn⟩ := nameIn_eq_ok_iff.mp h
    exact ⟨⟨n, name⟩, hn⟩
  · rintro ⟨⟨n, name⟩, h⟩
    exact ⟨name, nameIn_eq_ok_iff.mpr ⟨n, h⟩⟩

theorem expanded_eq_ok_iff {r : Except SourceMapError Text} {out : Text} :
    (r.mapError EditError.sourceMap).map some = .ok (some out) ↔ r = .ok out := by
  cases r with
  | error cause => exact ⟨nofun, nofun⟩
  | ok t =>
    constructor
    · intro h
      rw [Option.some.inj (Except.ok.inj h)]
    · rintro ⟨⟩
      rfl

theorem expanded_eq_error_iff {r : Except SourceMapError Text} {error : EditError} :
    (r.mapError EditError.sourceMap).map some = .error error ↔
      ∃ cause, r = .error cause ∧ error = .sourceMap cause := by
  cases r with
  | error cause =>
    constructor
    · exact fun h => ⟨cause, rfl, (Except.error.inj h).symm⟩
    · rintro ⟨_, ⟨⟩, rfl⟩
      rfl
  | ok t =>
    constructor
    · exact nofun
    · rintro ⟨_, ⟨⟩, _⟩

/-- The insert text of a rule for the bundled script is made of its division. -/
theorem insertion_eq {raw : String} (hp : ofRule rule true = .ok p)
    (hraw : rule.insertText = some raw) {refs : List (Text × Text)} {last : Text}
    (hdivided : Divided raw.toList refs last) (text : Text) (lookup : Lookup) :
    p.insertion text (some lookup) =
      ((render (nameIn p.search text lookup) (dividedPieces refs last)).mapError
        EditError.sourceMap).map some := by
  obtain ⟨hinsert, hmapped⟩ := ofRule_eq_ok hp
  obtain ⟨refs', last', hdivided', hpieces⟩ := exists_divided raw.toList
  obtain ⟨rfl, rfl⟩ := hdivided.unique hdivided'
  unfold insertion
  rw [hinsert, hraw]
  simp only [expand, hmapped, if_true, hpieces]
  cases render (nameIn p.search text lookup) (dividedPieces refs last) <;> rfl

/-- **References in the insert text of a rule for the bundled script are replaced by their names,
and nothing else is touched.** -/
theorem insertion_expands {raw : String} (hp : ofRule rule true = .ok p)
    (hraw : rule.insertText = some raw) (text : Text) (lookup : Lookup) :
    p.Expands raw.toList text lookup := by
  have hok : ∀ refs last, Divided raw.toList refs last → ∀ out,
      p.insertion text (some lookup) = .ok (some out) ↔
        render (nameIn p.search text lookup) (dividedPieces refs last) = .ok out := by
    intro refs last hdivided out
    rw [insertion_eq hp hraw hdivided, expanded_eq_ok_iff]
  constructor
  · obtain ⟨refs, last, hdivided, -⟩ := exists_divided raw.toList
    exact ⟨refs, last, hdivided, fun _ _ h => hdivided.unique h⟩
  · intro refs last hdivided out
    rw [hok refs last hdivided, render_eq_ok_iff]
    simp only [nameIn_eq_ok_iff]
  · intro refs last hdivided error
    rw [insertion_eq hp hraw hdivided]
    simp only [expanded_eq_error_iff, render_eq_error_iff, nameIn_eq_error_iff, isNamed_iff]
    constructor
    · rintro ⟨cause, ⟨named, r, others, hrefs, hall, hr⟩, he⟩
      exact ⟨named, r, others, cause, hrefs, hall, hr, he⟩
    · rintro ⟨named, r, others, cause, hrefs, hall, hr, he⟩
      exact ⟨cause, ⟨named, r, others, hrefs, hall, hr⟩, he⟩
  · intro hself
    obtain ⟨refs, last, hdivided, -⟩ := exists_divided raw.toList
    rw [hok refs last hdivided, render_eq_ok_iff]
    refine ⟨fun inner => String.ofList (Piece.reference inner).written,
      fun r _ => nameIn_eq_ok_iff.mpr (hself r.2), ?_⟩
    simp only [String.toList_ofList]
    exact hdivided.eq_written

/-- A rule for the bundled script whose insert text has two references, one behind an opening brace
that is not part of it, and braces that are not closed on their line. -/
def twoReferences : EditRule where
  search := .many ["\x7b\x7bhost\x7d\x7d", "world"]
  searchMode := none
  insertText := some "\x7b\x7b\x7btesting\x7d\x7d+\x7b\x7b\x7d\x7d\x7d \x7b\x7bé\n\x7d\x7d"
  insertMode := none
  insertOffset := none
  removeRange := none
  removeRangeAfter := none
  patchOptional := none

/-- A lookup that knows the name of `{testing` and of the empty reference. -/
def namesFor : Lookup := fun _ needles =>
  if needles = ["host", "\x7btesting"] then .ok ⟨0, "t"⟩
  else if needles = ["host", ""] then .ok ⟨4, "o"⟩
  else .error .unavailable

theorem twoReferences_expands : ∃ p raw, ofRule twoReferences true = .ok p ∧
    twoReferences.insertText = some raw ∧ p.Expands raw.toList [] namesFor ∧
    p.insertion [] (some namesFor) =
      .ok (some "t+o\x7d \x7b\x7bé\n\x7d\x7d".toList) := by
  obtain ⟨p, hp⟩ : ∃ p, ofRule twoReferences true = .ok p := ⟨_, rfl⟩
  refine ⟨p, _, hp, rfl, insertion_expands hp rfl [] namesFor, ?_⟩
  cases hp
  exact eq_ok_of_toOption (by decide +kernel)

end RulePlan

end TextPatch
