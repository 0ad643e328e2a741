/-
# Inserting at matches

A rule that only inserts (`RulePlan.OnlyInserts`) puts its insert text before or behind every match,
`insertOffset` bytes further on: at the *place* of the match (`RulePlan.placeOf`), an offset in the
text as it was.  `Text.Filled` says what that should come to without any edits: the text is
copied, and at each place stands a copy of the insert text.

* While places ascend, all that has been inserted lies before the next one, so the shift moves it to
  where it now is, and the checks of a splice mean what they mean for the text as it was
  (`insertAt_of_cut`, `exists_piece_of_insertAt`).
* `foldlM_inserts` carries that through all matches, and `applyRule_inserts` reads it as a statement
  about rules: they go well exactly if every place is one of the text, and fill it then.
* An `insertOffset` may be any word, so a place may be so far behind the text that its sum wraps
  around.  It comes out negative then, and the rule fails as it should (`applyRuleWords_eq`).

Matches ascend, and so do their places if all matches have the same length.  Those of a literal do.
-/
import TextPatch.Proofs.Edits.Errors
import TextPatch.Proofs.Edits.Overflow
import TextPatch.Proofs.Edits.Replacement
import TextPatch.Proofs.Search.Collection
import TextPatch.Proofs.Search.Words

namespace TextPatch

/-! ## 1. Places of a text -/

namespace Text

/-- An offset lies in a text, and between two of its characters or at one of its ends. -/
def HasPlace (t : Text) (n : Int) : Prop :=
  0 ≤ n ∧ n ≤ t.byteLength ∧ t.isBoundary n.toNat = true

instance (t : Text) (n : Int) : Decidable (t.HasPlace n) :=
  inferInstanceAs (Decidable (_ ∧ _))

theorem hasPlace_iff {t : Text} {n : Int} :
    t.HasPlace n ↔ ∃ before after : Text, t = before ++ after ∧ (before.byteLength : Int) = n := by
  unfold HasPlace isBoundary
  constructor
  · rintro ⟨hpos, -, hsome⟩
    obtain ⟨⟨before, after⟩, hcut⟩ := Option.isSome_iff_exists.mp hsome
    obtain ⟨ht, hlen⟩ := splitAt?_eq_some_iff.mp hcut
    exact ⟨before, after, ht, by omega⟩
  · rintro ⟨before, after, rfl, rfl⟩
    refine ⟨by omega, by rw [byteLength_append]; omega, ?_⟩
    rw [Int.toNat_natCast, splitAt?_append]
    rfl

/-- From byte `offset` of a text on, a copy of `newText` stands at each of some places, which are
offsets in the text as it was; all else has been copied. -/
inductive Filled (newText : Text) : (offset : Int) → (places : List Int) → Text → Text → Prop
  | rest (offset : Int) (t : Text) : Filled newText offset [] t t
  | copy {offset : Int} {places : List Int} {t out : Text} (piece : Text)
      (h : Filled newText (offset + piece.byteLength) places t out) :
      Filled newText offset ((offset + piece.byteLength) :: places) (piece ++ t)
        (piece ++ newText ++ out)

/-- The text without the copies at some places: each is deleted where it stands once those before
it are gone. -/
def withoutCopies (newText : Text) (t : Text) (places : List Int) : Except SpliceError Text :=
  places.foldlM (fun t n => (Splice.remove n.toNat (n.toNat + newText.byteLength)).apply t) t

/-- **Deleting the copies gives the text back**, whatever stands before it. -/
theorem Filled.withoutCopies_eq {newText t out : Text} {offset : Int} {places : List Int}
    (h : Filled newText offset places t out) : ∀ {u : Text}, (u.byteLength : Int) = offset →
      withoutCopies newText (u ++ out) places = .ok (u ++ t) := by
  induction h with
  | rest offset t => exact fun _ => rfl
  | @copy offset places t out piece h ih =>
    intro u hu
    have hplace : (offset + piece.byteLength).toNat = (u ++ piece).byteLength := by
      rw [byteLength_append]
      omega
    have hfirst := Splice.apply_cut (u ++ piece) newText out []
    have hrest := ih (u := u ++ piece) (by rw [byteLength_append]; omega)
    unfold withoutCopies at hrest ⊢
    rw [List.foldlM_cons, hplace]
    simp only [List.append_assoc, List.append_nil] at hfirst hrest ⊢
    exact bind_eq_ok.mpr ⟨_, hfirst, hrest⟩

end Text

/-- What insertions of `newText` at some places of a text come to: they go well exactly if all of
them are places of the text.  Then they fill the text with copies, and without the copies the result
is the text again. -/
structure Inserts (newText : Text) (places : List Int) (text : Text)
    (result : Except EditError Text) : Prop where
  succeeds_iff : (∃ out, result = .ok out) ↔ ∀ n ∈ places, text.HasPlace n
  filled : ∀ out, result = .ok out → Text.Filled newText 0 places text out
  withoutCopies : ∀ out, result = .ok out → Text.withoutCopies newText out places = .ok text

/-! ## 2. One insertion -/

namespace Edited

/-- Puts a text at an offset of the text as it was, moved by what it has grown so far. -/
def insertAt (newText : Text) (e : Edited) (place : Int) : Except EditError Edited :=
  e.splice (place + e.shift) (place + e.shift) newText

variable {u before rest newText : Text} {shift : Int}

/-- What has been edited so far ends where `before` ended in the text as it was. -/
def EndsAt (u before : Text) (shift : Int) : Prop :=
  (u.byteLength : Int) = before.byteLength + shift

/-- **At a place behind all that has been edited**, the text is put there, and what has been edited
now ends with it. -/
theorem insertAt_of_cut (hu : EndsAt u before shift) (piece rest newText : Text) :
    insertAt newText ⟨u ++ (piece ++ rest), shift⟩ (before.byteLength + piece.byteLength) =
        .ok ⟨u ++ piece ++ newText ++ rest, shift + newText.byteLength⟩ ∧
      EndsAt (u ++ piece ++ newText) (before ++ piece) (shift + newText.byteLength) := by
  unfold EndsAt at hu ⊢
  have hplace : (before.byteLength : Int) + piece.byteLength + shift = (u ++ piece).byteLength := by
    rw [Text.byteLength_append]
    omega
  have hsplice := splice_cut ⟨u ++ (piece ++ rest), shift⟩ (u ++ piece) [] rest (by simp) newText
  simp only [Text.byteLength_nil, Int.natCast_zero, Int.add_zero, Int.sub_zero] at hsplice
  refine ⟨?_, ?_⟩
  · unfold insertAt
    rw [hplace]
    exact hsplice
  · simp only [Text.byteLength_append]
    omega

/-- What goes well puts the text at a cut of what is there. -/
theorem exists_cut_of_insertAt {e e' : Edited} {place : Int}
    (h : insertAt newText e place = .ok e') :
    ∃ w v : Text, e.text = w ++ v ∧ (w.byteLength : Int) = place + e.shift := by
  obtain ⟨start, hstart, h⟩ := bind_eq_ok.mp h
  obtain ⟨stop, -, h⟩ := bind_eq_ok.mp h
  have hle := offset_eq_ok hstart
  simp only at h
  split at h
  · cases h
  · rename_i r hsplice
    obtain ⟨w, old, v, ht, -, hw, -⟩ := Splice.apply_eq_ok hsplice
    refine ⟨w, old ++ v, by rw [ht, List.append_assoc], ?_⟩
    simp only at hw
    omega

/-- **Only at such a place** can a text be put behind what has been edited. -/
theorem exists_piece_of_insertAt {e' : Edited} {place : Int} (hu : EndsAt u before shift)
    (hplace : before.byteLength ≤ place) (h : insertAt newText ⟨u ++ rest, shift⟩ place = .ok e') :
    ∃ piece rest', rest = piece ++ rest' ∧ place = before.byteLength + piece.byteLength := by
  obtain ⟨w, v, ht, hw⟩ := exists_cut_of_insertAt h
  unfold EndsAt at hu
  simp only at ht hw
  obtain ⟨piece, rfl, rfl⟩ := Text.exists_of_append_eq ht (by omega)
  refine ⟨piece, v, rfl, ?_⟩
  rw [Text.byteLength_append] at hw
  omega

/-! ## 3. One insertion after the other -/

/-- A place behind `before` is one of what follows. -/
theorem exists_piece_of_hasPlace {place : Int} (hplace : before.byteLength ≤ place)
    (h : (before ++ rest).HasPlace place) :
    ∃ piece rest', rest = piece ++ rest' ∧ place = before.byteLength + piece.byteLength := by
  obtain ⟨w, v, ht, hw⟩ := Text.hasPlace_iff.mp h
  obtain ⟨piece, rfl, rfl⟩ := Text.exists_of_append_eq ht (by omega)
  refine ⟨piece, v, rfl, ?_⟩
  rw [Text.byteLength_append] at hw
  omega

/-- **Insertions at ascending places** go well exactly if all of them are places of the text as it
was, and fill it then.  The induction is on the places; what carries it is that all edits so far end
before the next place. -/
theorem foldlM_inserts (newText : Text) : ∀ {places : List Int} {u before : Text} {shift : Int}
    (rest : Text), EndsAt u before shift → (∀ n ∈ places, (before.byteLength : Int) ≤ n) →
      places.Pairwise (· ≤ ·) →
      ((∃ e, places.foldlM (insertAt newText) ⟨u ++ rest, shift⟩ = .ok e) ↔
        ∀ n ∈ places, (before ++ rest).HasPlace n) ∧
      ∀ e, places.foldlM (insertAt newText) ⟨u ++ rest, shift⟩ = .ok e →
        ∃ out, e.text = u ++ out ∧ Text.Filled newText before.byteLength places rest out
  | [], u, before, shift, rest, _, _, _ => by
    refine ⟨by simp [pure, Except.pure], fun e he => ?_⟩
    cases he
    exact ⟨rest, rfl, .rest _ _⟩
  | n :: places, u, before, shift, rest, hu, hbehind, hascend => by
    obtain ⟨hn, hplaces⟩ := List.forall_mem_cons.mp hbehind
    obtain ⟨hle, hascend'⟩ := List.pairwise_cons.mp hascend
    rw [List.foldlM_cons, List.forall_mem_cons]
    by_cases hcut : ∃ piece rest', rest = piece ++ rest' ∧
        n = before.byteLength + piece.byteLength
    · obtain ⟨piece, rest, rfl, rfl⟩ := hcut
      obtain ⟨hfirst, hu'⟩ := insertAt_of_cut hu piece rest newText
      have hplace : (before ++ (piece ++ rest)).HasPlace (before.byteLength + piece.byteLength) :=
        Text.hasPlace_iff.mpr ⟨before ++ piece, rest, by simp, by simp⟩
      have hbehind' : ∀ k ∈ places, ((before ++ piece).byteLength : Int) ≤ k := by
        intro k hk
        rw [Text.byteLength_append]
        exact hle k hk
      obtain ⟨hiff, hfilled⟩ := foldlM_inserts newText rest hu' hbehind' hascend'
      have htext : before ++ piece ++ rest = before ++ (piece ++ rest) := List.append_assoc ..
      rw [htext] at hiff
      rw [hfirst]
      refine ⟨⟨fun hok => ⟨hplace, hiff.mp hok⟩, fun hall => hiff.mpr hall.2⟩, fun e he => ?_⟩
      obtain ⟨out, htext, hout⟩ := hfilled e he
      refine ⟨piece ++ newText ++ out, by simpa using htext, .copy piece ?_⟩
      rwa [Text.byteLength_append] at hout
    · have hfails : ∀ e, ¬ (insertAt newText ⟨u ++ rest, shift⟩ n >>=
          fun e => places.foldlM (insertAt newText) e) = .ok e := by
        intro e he
        obtain ⟨e₁, hfirst, -⟩ := bind_eq_ok.mp he
        exact hcut (exists_piece_of_insertAt hu hn hfirst)
      refine ⟨⟨fun ⟨e, he⟩ => absurd he (hfails e), fun hall => ?_⟩, fun e he =>
        absurd he (hfails e)⟩
      exact absurd (exists_piece_of_hasPlace hn hall.1) hcut

/-- If a place lies before the text, the first of ascending places does: nothing is put there. -/
theorem not_inserts_of_neg (newText text : Text) {places : List Int}
    (hascend : places.Pairwise (· ≤ ·)) (hneg : ∃ n ∈ places, n < 0) :
    (¬ ∀ n ∈ places, text.HasPlace n) ∧
      ∀ e, places.foldlM (insertAt newText) (ofText text) ≠ .ok e := by
  obtain ⟨n, hn, hlt⟩ := hneg
  refine ⟨fun hall => absurd (hall n hn).1 (by omega), fun e he => ?_⟩
  cases places with
  | nil => cases hn
  | cons first places =>
    have hfirst : first < 0 := by
      rcases List.mem_cons.mp hn with rfl | htail
      · exact hlt
      · have := (List.pairwise_cons.mp hascend).1 n htail
        omega
    rw [List.foldlM_cons] at he
    obtain ⟨e₁, hinsert, -⟩ := bind_eq_ok.mp he
    obtain ⟨w, v, -, hw⟩ := exists_cut_of_insertAt hinsert
    simp only [ofText, Int.add_zero] at hw
    omega

/-- Insertions at ascending places of a text that has not been edited yet. -/
theorem inserts_of_ascending (newText text : Text) {places : List Int}
    (hascend : places.Pairwise (· ≤ ·)) :
    Inserts newText places text
      ((places.foldlM (insertAt newText) (ofText text)).map Edited.text) := by
  have hboth : ((∃ e, places.foldlM (insertAt newText) (ofText text) = .ok e) ↔
        ∀ n ∈ places, text.HasPlace n) ∧
      ∀ e, places.foldlM (insertAt newText) (ofText text) = .ok e →
        Text.Filled newText 0 places text e.text := by
    by_cases hstart : ∀ n ∈ places, 0 ≤ n
    · have hu : EndsAt [] [] 0 := by simp [EndsAt]
      obtain ⟨hiff, hfilled⟩ := foldlM_inserts newText text hu hstart hascend
      refine ⟨hiff, fun e he => ?_⟩
      obtain ⟨out, htext, hout⟩ := hfilled e he
      rwa [htext]
    · obtain ⟨hplaces, hfails⟩ := not_inserts_of_neg newText text hascend (by simpa using hstart)
      exact ⟨⟨fun ⟨e, he⟩ => absurd he (hfails e), fun hall => absurd hall hplaces⟩,
        fun e he => absurd he (hfails e)⟩
  obtain ⟨hiff, hfilled⟩ := hboth
  cases hfold : places.foldlM (insertAt newText) (ofText text) with
  | error cause =>
    refine ⟨?_, nofun, nofun⟩
    rw [← hiff, hfold]
    simp [Except.map]
  | ok e =>
    have hout := hfilled e hfold
    refine ⟨⟨fun _ => hiff.mp ⟨e, hfold⟩, fun _ => ⟨e.text, rfl⟩⟩, ?_, ?_⟩
    · rintro out ⟨⟩
      exact hout
    · rintro out ⟨⟩
      exact hout.withoutCopies_eq (u := []) rfl

end Edited

/-! ## 4. Rules -/

/-- A rule that inserts before or behind its matches, and does nothing else. -/
structure RulePlan.OnlyInserts (p : RulePlan) : Prop where
  mode_ne : p.insertMode ≠ .replace
  range_eq : p.removeRange = none
  rangeAfter_eq : p.removeRangeAfter = none

/-- Where the insert text of a rule goes, as an offset in the text as it was. -/
def RulePlan.placeOf (p : RulePlan) (m : Match) : Int :=
  m.start + p.insertOffset.toInt + if p.insertMode = .after then (m.length : Int) else 0

/-- Such a rule inserts at the place of a match. -/
theorem Edited.editAt_eq_insertAt {p : RulePlan} (hp : p.OnlyInserts) (newText : Text) (e : Edited)
    (m : Match) : editAt p (some newText) e m = insertAt newText e (p.placeOf m) := by
  have hrange : p.insertRange (m.start + e.shift) m.length =
      (p.placeOf m + e.shift, p.placeOf m + e.shift) := by
    unfold RulePlan.insertRange RulePlan.placeOf
    cases hmode : p.insertMode with
    | before => simp only [Prod.mk.injEq, reduceCtorEq, if_false]; omega
    | after => simp only [Prod.mk.injEq, if_true]; omega
    | replace => exact absurd hmode hp.mode_ne
  have hinsert : e.insert p (m.start + e.shift) m.length (some newText) =
      insertAt newText e (p.placeOf m) := by
    rw [insert_some, hrange]
    rfl
  simp only [editAt, hp.range_eq, hp.rangeAfter_eq, remove]
  exact hinsert

variable {p : RulePlan} {file : String} {text newText : Text} {lookup : Option Lookup}
  {r : Resolution}

/-- A rule that only inserts does so at the places of its matches, one after the other. -/
theorem applyRule_of_inserts (hp : p.OnlyInserts)
    (hresolve : p.search.resolve file text lookup = .ok r)
    (hinsertion : p.insertion text lookup = .ok (some newText)) :
    applyRule file text p lookup =
      ((r.found.map p.placeOf).foldlM (Edited.insertAt newText) (Edited.ofText text)).map
        Edited.text := by
  rw [applyRule_of_resolve hresolve hinsertion, List.foldlM_map]
  congr 2
  exact funext fun e => funext fun m => Edited.editAt_eq_insertAt hp newText e m

/-- A rule that inserts at ascending places. -/
theorem applyRule_ascending (hp : p.OnlyInserts)
    (hresolve : p.search.resolve file text lookup = .ok r)
    (hinsertion : p.insertion text lookup = .ok (some newText))
    (hascend : (r.found.map p.placeOf).Pairwise (· ≤ ·)) :
    Inserts newText (r.found.map p.placeOf) text (applyRule file text p lookup) := by
  rw [applyRule_of_inserts hp hresolve hinsertion]
  exact Edited.inserts_of_ascending newText text hascend

/-- The places of a rule ascend with its matches, if it puts its text before them or if all of them
have the same length. -/
theorem RulePlan.places_ascend {ms : List Match} (hms : ms.Pairwise (·.start < ·.start))
    (hlength : p.insertMode = .after → ∃ n, ∀ m ∈ ms, m.length = n) :
    (ms.map p.placeOf).Pairwise (· ≤ ·) := by
  refine List.pairwise_map.mpr (hms.imp_of_mem fun {m m'} hm hm' hlt => ?_)
  unfold placeOf
  split
  · rename_i hafter
    obtain ⟨n, hn⟩ := hlength hafter
    have hfirst := hn m hm
    have hsecond := hn m' hm'
    omega
  · omega

/-- **Insertions land where they were asked for.**  A rule that only inserts, before its matches
whatever its search or behind them if the last regular needle is a literal, goes well exactly if the
places of all matches lie in the text, between two characters or at an end.  Then the result is
the text with a copy of the insert text at each of these places, and deleting the copies gives the
text back.  Done on 64-bit words, whatever word `insertOffset` is, the rule has the same result. -/
theorem applyRule_inserts (hrange : p.removeRange = none) (hrangeAfter : p.removeRangeAfter = none)
    (hmode : p.insertMode = .before ∨
      p.insertMode = .after ∧ ∃ w, p.search.needles.getLast? = some (.literal w))
    (hresolve : p.search.resolve file text lookup = .ok r)
    (hinsertion : p.insertion text lookup = .ok (some newText)) :
    Inserts newText (r.found.map p.placeOf) text (applyRule file text p lookup) ∧
      (SearchSpec.Within lookup text →
        text.byteLength + r.found.length * newText.byteLength < 2 ^ 62 →
        applyRuleWords file text p lookup = applyRule file text p lookup) := by
  have hp : p.OnlyInserts := by
    refine ⟨fun hreplace => ?_, hrange, hrangeAfter⟩
    rcases hmode with hbefore | ⟨hafter, -⟩
    · exact absurd (hreplace.symm.trans hbefore) (by decide)
    · exact absurd (hreplace.symm.trans hafter) (by decide)
  refine ⟨applyRule_ascending hp hresolve hinsertion
    (RulePlan.places_ascend (SearchSpec.increasing_of_resolve hresolve) fun hafter => ?_),
    fun hlookup hfits => applyRuleWords_eq hlookup fun r' insertion hr' hi => ?_⟩
  · rcases hmode with hbefore | ⟨-, w, hlast⟩
    · exact absurd (hafter.symm.trans hbefore) (by decide)
    · exact ⟨w.byteLength, fun m hm =>
        (Needle.occurs_literal_iff.mp (SearchSpec.occurs_of_resolve hlast hresolve m hm)).2⟩
  · obtain rfl := Except.ok.inj (hresolve.symm.trans hr')
    obtain rfl := Except.ok.inj (hinsertion.symm.trans hi)
    exact hfits

/-- A rule that puts an arrow into the middle of every two `é`. -/
def splitPairs : RulePlan where
  search := ⟨[], [.literal ['é', 'é']], true, false, false, "\"éé\""⟩
  insertText := some "→"
  insertMode := .after
  insertOffset := -2
  removeRange := none
  removeRangeAfter := none

/-- The text `ééé` with its two pairs, the second of which starts within the first. -/
theorem splitPairs_inserts :
    splitPairs.search.needles.getLast? = some (.literal ['é', 'é']) ∧
    splitPairs.search.resolve "f" ['é', 'é', 'é'] none = .ok ⟨[⟨0, 4⟩, ⟨2, 4⟩], none⟩ ∧
    splitPairs.insertion ['é', 'é', 'é'] none = .ok (some ['→']) ∧
    Inserts ['→'] [2, 4] ['é', 'é', 'é'] (applyRule "f" ['é', 'é', 'é'] splitPairs none) ∧
    applyRuleWords "f" ['é', 'é', 'é'] splitPairs none =
      applyRule "f" ['é', 'é', 'é'] splitPairs none ∧
    applyRule "f" ['é', 'é', 'é'] splitPairs none = .ok ['é', '→', 'é', '→', 'é'] := by
  have hresolve : splitPairs.search.resolve "f" ['é', 'é', 'é'] none =
      .ok ⟨[⟨0, 4⟩, ⟨2, 4⟩], none⟩ := eq_ok_of_toOption (by decide +kernel)
  have hinsertion : splitPairs.insertion ['é', 'é', 'é'] none = .ok (some ['→']) :=
    eq_ok_of_toOption (by decide +kernel)
  obtain ⟨hinserts, hwords⟩ :=
    applyRule_inserts rfl rfl (.inr ⟨rfl, ['é', 'é'], rfl⟩) hresolve hinsertion
  exact ⟨rfl, hresolve, hinsertion, hinserts, hwords nofun (by decide),
    eq_ok_of_toOption (by decide +kernel)⟩

end TextPatch
