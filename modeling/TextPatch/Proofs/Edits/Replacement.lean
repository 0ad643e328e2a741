/-
# Replacing matches

A rule that only replaces writes its insert text over every match and asks for nothing else
(`RulePlan.OnlyReplaces`).  What such a rule should come to is said without any edits:
`Text.overwrite` copies the text and puts the new text where the matches are, all at once.  Where no
match reaches into the next, the two agree (`applyRule_disjoint`): each match with what stands
before it is a window of the text, and the windows are edited one by one.
-/
import TextPatch.Proofs.Edits.Windows
import TextPatch.Proofs.Search.Exhaustive

namespace TextPatch

/-! ## 1. Writing over several parts of a text at once -/

namespace Text

/-- The text with `newText` in the place of every match.  The matches follow one another from byte
`start` on; what stands between them is copied. -/
def overwrite (t newText : Text) : (start : Nat) → List Match → Text
  | start, [] => t.between start t.byteLength
  | start, m :: ms =>
    t.between start m.start ++ newText ++ overwrite t newText (m.start + m.length) ms

example : overwrite "a-b--c".toList "é".toList 0 [⟨1, 1⟩, ⟨3, 2⟩] = "aébéc".toList := by decide

/-- With no matches left, the rest of the text is copied. -/
theorem overwrite_nil (u v newText : Text) : (u ++ v).overwrite newText u.byteLength [] = v := by
  have h := between_append u v []
  rw [List.append_nil] at h
  rwa [overwrite, byteLength_append]

/-- A match replaces the part that it covers, and the others follow behind it. -/
theorem overwrite_cons (before u w v newText : Text) (ms : List Match) :
    (before ++ u ++ w ++ v).overwrite newText before.byteLength
        (⟨(before ++ u).byteLength, w.byteLength⟩ :: ms) =
      u ++ newText ++
        (before ++ u ++ w ++ v).overwrite newText (before ++ u ++ w).byteLength ms := by
  have h := between_append before u (w ++ v)
  rw [← List.append_assoc] at h
  rw [overwrite]
  simp only [byteLength_append] at h ⊢
  rw [h]

/-- Written over the only match, the text is copied on both sides of it. -/
theorem overwrite_singleton (u w v newText : Text) :
    (u ++ w ++ v).overwrite newText 0 [⟨u.byteLength, w.byteLength⟩] = u ++ newText ++ v := by
  have hcons := overwrite_cons [] u w v newText []
  rw [overwrite_nil] at hcons
  exact hcons

end Text

/-! ## 2. Rules that only replace -/

/-- A rule that writes its insert text over its matches, and does nothing else. -/
structure RulePlan.OnlyReplaces (p : RulePlan) : Prop where
  mode_eq : p.insertMode = .replace
  offset_eq : p.insertOffset = 0
  range_eq : p.removeRange = none
  rangeAfter_eq : p.removeRangeAfter = none

/-- A plan that writes `newText` over the matches of one needle. -/
structure RulePlan.Overwrites (p : RulePlan) (n : Needle) (newText : String) : Prop where
  onlyReplaces : p.OnlyReplaces
  insertText_eq : p.insertText = some newText
  sources_eq : p.search.sourceNeedles = []
  needles_eq : p.search.needles = [n]

/-- A rule that writes `newText` over its matches, and asks for nothing else. -/
structure EditRule.WritesOver (rule : EditRule) (newText : String) : Prop where
  insertText_eq : rule.insertText = some newText
  insertMode_eq : rule.insertMode = some .replace
  offset_eq : rule.insertOffset = none
  range_eq : rule.removeRange = none
  rangeAfter_eq : rule.removeRangeAfter = none

/-- Such a rule, checked, is such a plan, if its search is for one needle. -/
theorem EditRule.WritesOver.exists_plan {rule : EditRule} {newText : String}
    (h : rule.WritesOver newText) {sourceMapped : Bool} {s : SearchSpec} {n : Needle}
    (hsearch : SearchSpec.ofSearch rule.search (rule.searchMode.getD .single)
      (rule.patchOptional.getD false) sourceMapped = .ok s)
    (hsources : s.sourceNeedles = []) (hneedles : s.needles = [n]) :
    ∃ p, RulePlan.ofRule rule sourceMapped = .ok p ∧ p.search = s ∧ p.Overwrites n newText := by
  refine ⟨⟨s, some newText, .replace, 0, none, none⟩, ?_, rfl, ⟨rfl, rfl, rfl, rfl⟩, rfl, hsources,
    hneedles⟩
  simp only [RulePlan.ofRule, hsearch, bind, Except.bind, pure, Except.pure, h.insertText_eq,
    h.insertMode_eq, h.offset_eq, h.range_eq, h.rangeAfter_eq]
  rfl

/-- Without a lookup, the insert text stays as it is. -/
theorem RulePlan.Overwrites.insertion_eq {p : RulePlan} {n : Needle} {newText : String}
    (hp : p.Overwrites n newText) (text : Text) :
    p.insertion text none = .ok (some newText.toList) := by
  simp [insertion, hp.insertText_eq, Insertion.expand]

/-- If such a plan goes on for all matches, and the needle occurs, its search lists all
occurrences. -/
theorem RulePlan.Overwrites.exists_listing {p : RulePlan} {n : Needle} {newText : String}
    (hp : p.Overwrites n newText) (he : p.search.exhaustive = true) {file : String} {text : Text}
    {lookup : Option Lookup} (hexists : ∃ m, n.Occurs text m) :
    ∃ found, p.search.resolve file text lookup = .ok ⟨found, none⟩ ∧ n.Listing text 0 found := by
  obtain ⟨m, hm⟩ := hexists
  have hi : p.search.identifier text lookup = .ok none :=
    SearchSpec.identifier_eq_none hp.sources_eq
  exact SearchSpec.resolve_exhaustive hp.needles_eq hi he hm (by simp)

variable {p : RulePlan} {file : String} {text newText : Text} {lookup : Option Lookup}
  {r : Resolution}

namespace Edited

/-- A splice of an edited text over one of its parts. -/
theorem splice_cut (e : Edited) (u w v : Text) (ht : e.text = u ++ w ++ v) (newText : Text) :
    e.splice u.byteLength (u.byteLength + w.byteLength) newText =
      .ok ⟨u ++ newText ++ v, e.shift + ((newText.byteLength : Int) - w.byteLength)⟩ := by
  have hinside : u.byteLength + w.byteLength ≤ e.text.byteLength := by
    rw [ht, Text.byteLength_append, Text.byteLength_append]
    omega
  have hstart : offset e.text u.byteLength = .ok u.byteLength :=
    offset_of_le (Nat.le_trans (Nat.le_add_right _ _) hinside)
  have hstop : offset e.text ((u.byteLength : Int) + w.byteLength) =
      .ok (u.byteLength + w.byteLength) := offset_of_le hinside
  refine bind_eq_ok.mpr ⟨_, hstart, bind_eq_ok.mpr ⟨_, hstop, ?_⟩⟩
  rw [ht]
  simp only [Splice.apply_cut, Splice.growth]
  exact congrArg Except.ok (congrArg (Edited.mk _) (by omega))

/-- Writes over a match, moved by what the text has grown so far. -/
def writeOver (newText : Text) (e : Edited) (m : Match) : Except EditError Edited :=
  e.splice (m.start + e.shift) (m.start + e.shift + m.length) newText

/-- Such a rule writes over the match. -/
theorem editAt_eq_writeOver (hp : p.OnlyReplaces) (newText : Text) :
    editAt p (some newText) = writeOver newText := by
  funext e m
  have hrange : p.insertRange (m.start + e.shift) m.length =
      (m.start + e.shift, m.start + e.shift + m.length) := by
    simp only [RulePlan.insertRange, hp.mode_eq, hp.offset_eq, Int64.toInt_zero, Int.add_zero]
  have hinsert : e.insert p (m.start + e.shift) m.length (some newText) =
      e.splice (m.start + e.shift) (m.start + e.shift + m.length) newText := by
    rw [insert_some, hrange]
  simp only [editAt, writeOver, hp.range_eq, hp.rangeAfter_eq, remove]
  exact hinsert

/-- In a text that has not been edited, it replaces the match. -/
theorem editAt_replaces (hp : p.OnlyReplaces) (u w v newText : Text) :
    editAt p (some newText) (ofText (u ++ w ++ v)) ⟨u.byteLength, w.byteLength⟩ =
      .ok ⟨u ++ newText ++ v, 0 + ((newText.byteLength : Int) - w.byteLength)⟩ := by
  rw [editAt_eq_writeOver hp]
  simp only [writeOver, ofText, Int.add_zero]
  exact splice_cut (ofText (u ++ w ++ v)) u w v rfl newText

/-- A match and what stands before it are a window. -/
theorem InWindows.cons_replaces (hp : p.OnlyReplaces) {before u w newText : Text} {ms : List Match}
    {ws results : List Text}
    (h : InWindows p (some newText) (before ++ u ++ w).byteLength ms ws results) :
    InWindows p (some newText) before.byteLength
      (⟨(before ++ u).byteLength, w.byteLength⟩ :: ms) ((u ++ w) :: ws)
      ((u ++ newText) :: results) := by
  have hedit := editAt_replaces hp u w [] newText
  simp only [List.append_nil] at hedit
  refine .cons (m := ⟨(before ++ u).byteLength, w.byteLength⟩) (w := u ++ w)
    (e := ⟨u ++ newText, 0 + ((newText.byteLength : Int) - w.byteLength)⟩) ?_ ?_ ?_ ?_
  · simp only [Text.byteLength_append]
    omega
  · simp only [Text.byteLength_append]
    omega
  · rwa [Text.byteLength_append, Nat.add_sub_cancel_left]
  · rwa [List.append_assoc, Text.byteLength_append] at h

/-- **Matches that do not reach into each other have windows**: each with what stands before it,
and behind the last one there is a rest.  The windows become the overwritten text. -/
theorem inWindows_of_disjoint (hp : p.OnlyReplaces) (newText : Text) :
    ∀ {ms : List Match} {before rest : Text},
      (∀ m ∈ ms, before.byteLength ≤ m.start ∧ m.LiesIn (before ++ rest)) →
      ms.Pairwise (fun m m' => m.start + m.length ≤ m'.start) →
        ∃ ws results v, rest = ws.flatten ++ v ∧
          InWindows p (some newText) before.byteLength ms ws results ∧
          (before ++ rest).overwrite newText before.byteLength ms = results.flatten ++ v
  | [], before, rest, _, _ =>
    ⟨[], [], rest, rfl, .nil before.byteLength, Text.overwrite_nil before rest newText⟩
  | ⟨start, length⟩ :: ms, before, rest, hms, hdisjoint => by
    obtain ⟨hle, u, w, v, ht, rfl, rfl⟩ := hms _ List.mem_cons_self
    obtain ⟨hfirst, hothers⟩ := List.pairwise_cons.mp hdisjoint
    rw [List.append_assoc] at ht
    obtain ⟨e, rfl, rfl⟩ := Text.exists_of_append_eq ht hle
    have hrest : ∀ m ∈ ms, (before ++ e ++ w).byteLength ≤ m.start ∧
        m.LiesIn (before ++ e ++ w ++ v) := by
      intro m hm
      refine ⟨?_, ?_⟩
      · rw [Text.byteLength_append]
        exact hfirst m hm
      · simpa only [List.append_assoc] using (hms m (List.mem_cons_of_mem _ hm)).2
    obtain ⟨ws, results, v', rfl, hwindows, hoverwrite⟩ :=
      inWindows_of_disjoint hp newText hrest hothers
    have hcons := Text.overwrite_cons before e w (ws.flatten ++ v') newText ms
    rw [hoverwrite] at hcons
    refine ⟨(e ++ w) :: ws, (e ++ newText) :: results, v', by simp, hwindows.cons_replaces hp, ?_⟩
    simpa only [List.flatten_cons, List.append_assoc] using hcons

end Edited

/-- **A rule that only replaces writes over all its matches at once**, if none of them reaches into
the next. -/
theorem applyRule_disjoint (hp : p.OnlyReplaces)
    (hresolve : p.search.resolve file text lookup = .ok r)
    (hinsertion : p.insertion text lookup = .ok (some newText))
    (hlies : ∀ m ∈ r.found, m.LiesIn text)
    (hdisjoint : r.found.Pairwise (fun m m' => m.start + m.length ≤ m'.start)) :
    applyRule file text p lookup = .ok (text.overwrite newText 0 r.found) := by
  have hms : ∀ m ∈ r.found, Text.byteLength [] ≤ m.start ∧ m.LiesIn ([] ++ text) :=
    fun m hm => ⟨Nat.zero_le _, hlies m hm⟩
  obtain ⟨ws, results, v, rfl, hwindows, hoverwrite⟩ :=
    Edited.inWindows_of_disjoint hp newText hms hdisjoint
  have hstart : (Text.byteLength [] : Int) = (0 : Nat) + 0 := rfl
  obtain ⟨e, hfold, htext⟩ := Edited.foldlM_windows hwindows v hstart
  rw [applyRule_of_resolve hresolve hinsertion, Edited.ofText]
  simp only [List.nil_append, Text.byteLength_nil] at hfold htext hoverwrite
  rw [hfold, hoverwrite]
  exact congrArg Except.ok htext

end TextPatch
