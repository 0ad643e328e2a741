/-
# Inserting behind nested matches

A rule that inserts behind the matches of a pattern puts each copy of its text where the match ends,
moved by all that has been inserted so far.  Matches ascend by where they start, but a match of a
pattern may end before an earlier one does: it lies inside that one.  What has been inserted behind
the outer match then counts for the inner one, too, although it does not lie before it.

* While ends ascend, every copy stands behind its match (`applyRule_inserts` of
  `TextPatch.Proofs.Edits.Insertions` says so of places in general).
* If they do not, some copy does not: `Edited.ascending_of_copies`.  Before a character of the text
  there is at most one copy for each end up to it (`Edited.exists_room_of_foldlM`), and before the
  character at the end of the inner match there is one too few.

So `applyRule_behind` says when insertions behind matches are where they should be: exactly if the
ends ascend.  It is a matter of counting copies, so the text that is inserted must not share
characters with the text that it is inserted into.
-/
import TextPatch.Proofs.Edits.Insertions

namespace TextPatch

/-! ## 1. Room before a character -/

namespace Text

/-- A text in which copies of `newText` stand at some places of `text`, in whichever order the
places are listed. -/
def HasCopies (newText : Text) (places : List Int) (text out : Text) : Prop :=
  ∃ sorted, sorted.Perm places ∧ Filled newText 0 sorted text out

/-- The characters that are not from `newText`. -/
def own (newText : Text) (t : Text) : Text := t.filter fun c => !newText.contains c

variable {newText before after t u v w x y out : Text} {room : Nat}

@[simp] theorem own_append : own newText (u ++ v) = own newText u ++ own newText v :=
  List.filter_append ..

@[simp] theorem own_self : own newText newText = [] := by
  simp [own]

theorem own_eq_self (h : ∀ c ∈ newText, c ∉ t) : own newText t = t := by
  refine List.filter_eq_self.mpr fun c hc => ?_
  simpa using fun hmem => h c hmem hc

/-- Apart from characters of `newText`, a text is `before` and `after`, and the first character of
`after` stands in it `room` bytes further on than in these two. -/
def Spread (newText before after : Text) (room : Nat) (w : Text) : Prop :=
  ∃ u v, w = u ++ v ∧ own newText u = before ∧ own newText v = after ∧ v.head? = after.head? ∧
    u.byteLength = before.byteLength + room

/-- The room before a character is determined. -/
theorem Spread.room_le {room' : Nat} (h : Spread newText before after room w)
    (h' : Spread newText before after room' w) : room' ≤ room := by
  obtain ⟨u, v, rfl, hu, hv, hhead, hlen⟩ := h
  obtain ⟨u', v', hw, hu', hv', hhead', hlen'⟩ := h'
  refine Nat.le_of_not_lt fun hlt => ?_
  obtain ⟨piece, rfl, rfl⟩ := exists_of_append_eq hw (by omega)
  have hpiece : own newText piece = [] := by
    rw [own_append, hu] at hu'
    simpa using hu'
  cases piece with
  | nil =>
    rw [List.append_nil] at hlen'
    omega
  | cons c piece =>
    -- the character that follows is one of `after`, so it is no copy
    have hc : c ∈ own newText (c :: piece ++ v') := by
      rw [hv]
      refine List.mem_of_mem_head? ?_
      rw [← hhead]
      rfl
    have hnot : c ∉ newText := by simpa using (List.mem_filter.mp hc).2
    have hmem : c ∈ newText := by
      simpa using List.filter_eq_nil_iff.mp hpiece c List.mem_cons_self
    exact hnot hmem

/-- A copy that is put before the character takes room; one that is put behind it does not. -/
theorem Spread.insert (h : Spread newText before after room (x ++ y)) :
    if x.byteLength ≤ before.byteLength + room then
      Spread newText before after (room + newText.byteLength) (x ++ newText ++ y)
    else Spread newText before after room (x ++ newText ++ y) := by
  obtain ⟨u, v, hw, hu, hv, hhead, hlen⟩ := h
  split
  · rename_i hle
    obtain ⟨piece, rfl, rfl⟩ := exists_of_append_eq hw (by omega)
    rw [own_append] at hu
    rw [byteLength_append] at hlen
    refine ⟨x ++ newText ++ piece, v, by simp, by simpa using hu, hv, hhead, ?_⟩
    simp only [byteLength_append]
    omega
  · rename_i hlt
    obtain ⟨piece, rfl, rfl⟩ := exists_of_append_eq hw.symm (by omega)
    rw [own_append] at hv
    refine ⟨u, piece ++ newText ++ y, by simp, hu, by simpa using hv, ?_, hlen⟩
    cases piece with
    | nil => exact absurd (by simp [hlen]) hlt
    | cons c piece => exact hhead

/-- Copies at places before a character take room, and no other ones do. -/
theorem Filled.spread {offset : Int} {places : List Int} (hfresh : ∀ c ∈ newText, c ∉ t)
    (h : Filled newText offset places t out) :
    own newText out = t ∧ (∀ n ∈ places, offset ≤ n) ∧ ∀ before after, t = before ++ after →
      Spread newText before after
        (newText.byteLength * places.countP (· ≤ offset + before.byteLength)) out := by
  induction h with
  | rest offset t =>
    refine ⟨own_eq_self hfresh, by simp, ?_⟩
    rintro before after rfl
    have hown : own newText before ++ own newText after = before ++ after := by
      rw [← own_append, own_eq_self hfresh]
    have hbefore : own newText before = before :=
      own_eq_self fun c hc hmem => hfresh c hc (List.mem_append_left _ hmem)
    have hafter : own newText after = after :=
      own_eq_self fun c hc hmem => hfresh c hc (List.mem_append_right _ hmem)
    exact ⟨before, after, rfl, hbefore, hafter, rfl, by simp⟩
  | @copy offset places t out piece h ih =>
    have hpiece : own newText piece = piece :=
      own_eq_self fun c hc hmem => hfresh c hc (List.mem_append_left _ hmem)
    obtain ⟨hown, hbehind, hspread⟩ :=
      ih fun c hc hmem => hfresh c hc (List.mem_append_right _ hmem)
    refine ⟨by simp [hpiece, hown], ?_, fun before after ht => ?_⟩
    · refine List.forall_mem_cons.mpr ⟨by omega, fun n hn => ?_⟩
      have := hbehind n hn
      omega
    by_cases hle : piece.byteLength ≤ before.byteLength
    · -- the copy stands before the character
      obtain ⟨rest, rfl, rfl⟩ := exists_of_append_eq ht hle
      obtain ⟨u, v, rfl, hu, hv, hhead, hlen⟩ := hspread rest after rfl
      refine ⟨piece ++ newText ++ u, v, by simp, by simp [hpiece, hu], hv, hhead, ?_⟩
      have hcount : offset + (piece.byteLength : Int) + rest.byteLength =
          offset + (piece ++ rest).byteLength := by
        rw [byteLength_append]
        omega
      rw [hcount] at hlen
      rw [List.countP_cons_of_pos (by simp only [decide_eq_true_eq, byteLength_append]; omega),
        Nat.mul_succ]
      simp only [byteLength_append] at hlen ⊢
      omega
    · -- it stands behind it, and so do all others
      obtain ⟨rest, rfl, rfl⟩ := exists_of_append_eq ht.symm (by omega)
      have hnone : (((offset + (before ++ rest).byteLength) :: places).countP
          (· ≤ offset + before.byteLength)) = 0 := by
        rw [List.countP_eq_zero]
        intro n hn
        have hle : offset + ((before ++ rest).byteLength : Int) ≤ n := by
          rcases List.mem_cons.mp hn with rfl | hn
          · exact Int.le_refl _
          · exact hbehind n hn
        simp only [decide_eq_true_eq]
        omega
      have hbefore : own newText before = before :=
        own_eq_self fun c hc hmem => hfresh c hc (by simp [hmem])
      have hrest : own newText rest = rest :=
        own_eq_self fun c hc hmem => hfresh c hc (by simp [hmem])
      refine ⟨before, rest ++ newText ++ out, by simp, hbefore, by simp [hrest, hown], ?_, ?_⟩
      · cases rest with
        | nil => simp at hle
        | cons c rest => rfl
      · rw [hnone]
        omega

end Text

namespace Edited

variable {newText before after : Text} {e e' : Edited} {place : Int} {places : List Int}
  {room : Nat}

/-- What goes well puts the text at a cut of what is there. -/
theorem insertAt_eq_ok (h : insertAt newText e place = .ok e') :
    ∃ x y : Text, e.text = x ++ y ∧ e'.text = x ++ newText ++ y ∧
      (x.byteLength : Int) = place + e.shift ∧ e'.shift = e.shift + newText.byteLength := by
  obtain ⟨start, hstart, h⟩ := bind_eq_ok.mp h
  obtain ⟨stop, hstop, h⟩ := bind_eq_ok.mp h
  have hle := offset_eq_ok hstart
  obtain rfl : start = stop := Except.ok.inj (hstart.symm.trans hstop)
  simp only at h
  split at h
  · cases h
  · rename_i r hsplice
    cases h
    obtain ⟨x, old, y, ht, hr, hx, -, hold⟩ := Splice.apply_eq_ok hsplice
    simp only [Nat.sub_self] at hx hold
    obtain rfl := Text.byteLength_eq_zero.mp hold
    refine ⟨x, y, by simpa using ht, hr, by omega, ?_⟩
    simp [Splice.growth]

/-- A copy that is put somewhere takes room before a character, or it does not and stands there
with all that has been inserted and does not stand before it: `gap` bytes at least. -/
theorem room_of_insertAt {gap : Int} (hspread : Text.Spread newText before after room e.text)
    (hroom : room + gap ≤ e.shift) (h : insertAt newText e place = .ok e') :
    (Text.Spread newText before after room e'.text ∧
        room + (gap + newText.byteLength) ≤ e'.shift) ∨
      place + gap ≤ before.byteLength ∧
        Text.Spread newText before after (room + newText.byteLength) e'.text ∧
          (room + newText.byteLength : Nat) + gap ≤ e'.shift := by
  obtain ⟨x, y, htext, htext', hx, hshift⟩ := insertAt_eq_ok h
  rw [htext] at hspread
  have hinsert := hspread.insert
  rw [← htext'] at hinsert
  split at hinsert
  · exact Or.inr ⟨by omega, hinsert, by omega⟩
  · exact Or.inl ⟨hinsert, by omega⟩

/-- **Before a character there is at most one copy for each place up to it.**  The induction is on
the places; what carries it is the gap, which never closes. -/
theorem exists_room_of_foldlM {gap : Int} (hgap : 0 ≤ gap) :
    ∀ {places : List Int} {e : Edited} {room : Nat},
      Text.Spread newText before after room e.text → room + gap ≤ e.shift →
      places.foldlM (insertAt newText) e = .ok e' →
      ∃ room', Text.Spread newText before after room' e'.text ∧ room' + gap ≤ e'.shift ∧
        room' ≤ room + newText.byteLength * places.countP (· ≤ (before.byteLength : Int))
  | [], e, room, hspread, hroom, h => by
    obtain rfl : e = e' := Except.ok.inj h
    exact ⟨room, hspread, hroom, by simp⟩
  | place :: places, e, room, hspread, hroom, h => by
    rw [List.foldlM_cons] at h
    obtain ⟨e₁, hfirst, h⟩ := bind_eq_ok.mp h
    rcases room_of_insertAt hspread hroom hfirst with ⟨hspread₁, hroom₁⟩ | ⟨hle, hspread₁, hroom₁⟩
    · obtain ⟨room', hspread', hroom', hcount⟩ :=
        exists_room_of_foldlM hgap hspread₁ (by omega) h
      refine ⟨room', hspread', hroom', Nat.le_trans hcount (Nat.add_le_add_left ?_ _)⟩
      exact Nat.mul_le_mul_left _ (List.sublist_cons_self ..).countP_le
    · obtain ⟨room', hspread', hroom', hcount⟩ := exists_room_of_foldlM hgap hspread₁ hroom₁ h
      refine ⟨room', hspread', hroom', ?_⟩
      rw [List.countP_cons_of_pos (by simp only [decide_eq_true_eq]; omega), Nat.mul_succ]
      omega

/-- Places that do not ascend have a later one that is smaller. -/
theorem exists_descent : ∀ {places : List Int}, ¬ places.Pairwise (· ≤ ·) →
    ∃ first n middle m rest, places = first ++ n :: (middle ++ m :: rest) ∧ m < n
  | [], h => absurd List.Pairwise.nil h
  | n :: places, h => by
    by_cases hsmaller : ∃ m ∈ places, m < n
    · obtain ⟨m, hm, hlt⟩ := hsmaller
      obtain ⟨middle, rest, rfl⟩ := List.append_of_mem hm
      exact ⟨[], n, middle, m, rest, rfl, hlt⟩
    · have hle : ∀ m ∈ places, n ≤ m := fun m hm =>
        Int.not_lt.mp fun hlt => hsmaller ⟨m, hm, hlt⟩
      have hrest : ¬ places.Pairwise (· ≤ ·) := fun hp => h (List.pairwise_cons.mpr ⟨hle, hp⟩)
      obtain ⟨first, k, middle, m, rest, rfl, hlt⟩ := exists_descent hrest
      exact ⟨n :: first, k, middle, m, rest, rfl, hlt⟩

/-- **Where a place is followed by a smaller one, a copy is missing** before the character at the
smaller one: when its copy is put there, the one for the greater place does not stand before it. -/
theorem exists_less_room (hnew : newText ≠ []) {first middle rest : List Int} {n : Int}
    (hplaces : places = first ++ n :: (middle ++ (before.byteLength : Int) :: rest))
    (hlt : before.byteLength < n) (hspread : Text.Spread newText before after 0 e.text)
    (hshift : 0 ≤ e.shift) (h : places.foldlM (insertAt newText) e = .ok e') :
    ∃ room, Text.Spread newText before after room e'.text ∧
      room < newText.byteLength * places.countP (· ≤ (before.byteLength : Int)) := by
  have hpos : 0 < newText.byteLength := Text.byteLength_pos hnew
  subst hplaces
  rw [List.foldlM_append] at h
  obtain ⟨e₁, hfirst, h⟩ := bind_eq_ok.mp h
  rw [List.foldlM_cons] at h
  obtain ⟨e₂, hn, h⟩ := bind_eq_ok.mp h
  rw [List.foldlM_append] at h
  obtain ⟨e₃, hmiddle, h⟩ := bind_eq_ok.mp h
  rw [List.foldlM_cons] at h
  obtain ⟨e₄, hm, hrest⟩ := bind_eq_ok.mp h
  obtain ⟨room₁, hspread₁, hroom₁, hle₁⟩ :=
    exists_room_of_foldlM (Int.le_refl 0) hspread (by omega) hfirst
  -- the copy at the greater place opens a gap
  obtain ⟨hspread₂, hroom₂⟩ :=
    (room_of_insertAt hspread₁ hroom₁ hn).resolve_right fun ⟨hle, _, _⟩ => by omega
  obtain ⟨room₃, hspread₃, hroom₃, hle₃⟩ :=
    exists_room_of_foldlM (by omega) hspread₂ hroom₂ hmiddle
  -- so the copy at the smaller one comes too far behind
  obtain ⟨hspread₄, hroom₄⟩ :=
    (room_of_insertAt hspread₃ hroom₃ hm).resolve_right fun ⟨hle, _, _⟩ => by omega
  obtain ⟨room, hspread', -, hle₅⟩ :=
    exists_room_of_foldlM (by omega) hspread₄ hroom₄ hrest
  refine ⟨room, hspread', ?_⟩
  rw [List.countP_append, List.countP_cons_of_neg (by simp only [decide_eq_true_eq]; omega),
    List.countP_append, List.countP_cons_of_pos (by simp)]
  simp only [Nat.mul_add, Nat.mul_one]
  omega

/-- **Copies stand at their places only if these ascend**, if they share no character with the
text. -/
theorem ascending_of_copies {text : Text} (hnew : newText ≠ []) (hfresh : ∀ c ∈ newText, c ∉ text)
    (hplaces : ∀ n ∈ places, text.HasPlace n)
    (h : places.foldlM (insertAt newText) (ofText text) = .ok e')
    (hcopies : Text.HasCopies newText places text e'.text) : places.Pairwise (· ≤ ·) := by
  refine Classical.byContradiction fun hdescend => ?_
  obtain ⟨first, n, middle, m, rest, heq, hlt⟩ := exists_descent hdescend
  obtain ⟨before, after, rfl, rfl⟩ := Text.hasPlace_iff.mp (hplaces m (by simp [heq]))
  have hstart : Text.Spread newText before after 0 (before ++ after) :=
    ⟨before, after, rfl,
      Text.own_eq_self fun c hc hmem => hfresh c hc (List.mem_append_left _ hmem),
      Text.own_eq_self fun c hc hmem => hfresh c hc (List.mem_append_right _ hmem), rfl, rfl⟩
  obtain ⟨room, hspread, hroom⟩ := exists_less_room hnew heq hlt hstart (Int.le_refl 0) h
  obtain ⟨sorted, hperm, hfilled⟩ := hcopies
  obtain ⟨-, -, hfull⟩ := hfilled.spread hfresh
  have hle := hspread.room_le (hfull before after rfl)
  simp only [Int.zero_add, hperm.countP_eq] at hle
  omega

end Edited

/-! ## 3. Rules that insert behind their matches -/

/-- A rule that inserts right behind its matches, and does nothing else. -/
structure RulePlan.InsertsBehind (p : RulePlan) : Prop where
  mode_eq : p.insertMode = .after
  offset_eq : p.insertOffset = 0
  range_eq : p.removeRange = none
  rangeAfter_eq : p.removeRangeAfter = none

/-- Where a match ends. -/
def Match.stop (m : Match) : Int := m.start + m.length

theorem Match.LiesIn.hasPlace_stop {m : Match} {text : Text} (h : m.LiesIn text) :
    text.HasPlace m.stop := by
  obtain ⟨u, w, v, rfl, hu, hw⟩ := h
  refine Text.hasPlace_iff.mpr ⟨u ++ w, v, rfl, ?_⟩
  rw [Text.byteLength_append, Match.stop]
  omega

variable {p : RulePlan} {file : String} {text newText : Text} {lookup : Option Lookup}
  {r : Resolution} {n : Needle}

theorem RulePlan.InsertsBehind.placeOf_eq (hp : p.InsertsBehind) : p.placeOf = Match.stop := by
  funext m
  rw [placeOf, Match.stop, hp.offset_eq, Int64.toInt_zero, if_pos hp.mode_eq]
  omega

theorem RulePlan.InsertsBehind.onlyInserts (hp : p.InsertsBehind) : p.OnlyInserts :=
  ⟨fun hreplace => absurd (hp.mode_eq.symm.trans hreplace) (by decide), hp.range_eq,
    hp.rangeAfter_eq⟩

/-- The copies that a rule puts behind its matches stand there. -/
def CopiesFollow (newText : Text) (r : Resolution) (text : Text)
    (result : Except EditError Text) : Prop :=
  ∃ out, result = .ok out ∧ Text.HasCopies newText (r.found.map Match.stop) text out

/-- **Copies follow their matches while the matches end in order.**  A rule that inserts right
behind its matches, whatever its last needle is, goes well and gives the text with a copy behind
every match if each match ends where the one before it does or later.  If the copies share no
character with the text, it does so only then: a match that ends before an earlier one has its copy
put too far behind, or is refused. -/
theorem applyRule_behind (hp : p.InsertsBehind) (hlast : p.search.needles.getLast? = some n)
    (hresolve : p.search.resolve file text lookup = .ok r)
    (hinsertion : p.insertion text lookup = .ok (some newText)) :
    ((r.found.map Match.stop).Pairwise (· ≤ ·) →
      CopiesFollow newText r text (applyRule file text p lookup)) ∧
    (newText ≠ [] → (∀ c ∈ newText, c ∉ text) →
      (CopiesFollow newText r text (applyRule file text p lookup) ↔
        (r.found.map Match.stop).Pairwise (· ≤ ·))) := by
  have hplaces : ∀ n ∈ r.found.map Match.stop, text.HasPlace n := by
    intro n hn
    obtain ⟨m, hm, rfl⟩ := List.mem_map.mp hn
    exact (SearchSpec.occurs_of_resolve hlast hresolve m hm).liesIn.hasPlace_stop
  have hascending : (r.found.map Match.stop).Pairwise (· ≤ ·) →
      CopiesFollow newText r text (applyRule file text p lookup) := by
    intro hascend
    rw [← hp.placeOf_eq] at hascend hplaces
    have hinserts := applyRule_ascending hp.onlyInserts hresolve hinsertion hascend
    obtain ⟨out, hout⟩ := hinserts.succeeds_iff.mpr hplaces
    refine ⟨out, hout, _, .refl _, ?_⟩
    rw [← hp.placeOf_eq]
    exact hinserts.filled out hout
  refine ⟨hascending, fun hnew hfresh => ⟨?_, hascending⟩⟩
  rintro ⟨out, hout, hcopies⟩
  rw [applyRule_of_inserts hp.onlyInserts hresolve hinsertion, hp.placeOf_eq] at hout
  cases hfold : (r.found.map Match.stop).foldlM (Edited.insertAt newText) (Edited.ofText text) with
  | error cause =>
    rw [hfold] at hout
    cases hout
  | ok e =>
    rw [hfold] at hout
    cases hout
    exact Edited.ascending_of_copies hnew hfresh hplaces hfold hcopies

/-! ## 4. Matches of different lengths -/

/-- A rule that inserts `newText` behind all matches of a pattern. -/
def insertBehindAll (token newText : String) : EditRule where
  search := .one token
  searchMode := some .regex
  insertText := some newText
  insertMode := none
  insertOffset := none
  removeRange := none
  removeRangeAfter := none
  patchOptional := none

/-- Whether a rule is checked to a plan that inserts behind its matches, finds these matches in a
text and has the insert text as it is written. -/
def insertBehindAll.finds (token newText : String) (text : Text) (found : List Match) : Bool :=
  (RulePlan.ofRule (insertBehindAll token newText) false).toOption.any fun p =>
    decide (p.insertMode = .after ∧ p.insertOffset = 0 ∧ p.removeRange = none ∧
      p.removeRangeAfter = none ∧ (p.search.needles.getLast?.isSome = true) ∧
      (p.search.resolve "f" text none).toOption = some ⟨found, none⟩ ∧
      (p.insertion text none).toOption = some (some newText.toList))

theorem insertBehindAll.exists_plan {token newText : String} {text : Text} {found : List Match}
    (h : insertBehindAll.finds token newText text found = true) :
    ∃ p n, RulePlan.ofRule (insertBehindAll token newText) false = .ok p ∧ p.InsertsBehind ∧
      p.search.needles.getLast? = some n ∧ p.search.resolve "f" text none = .ok ⟨found, none⟩ ∧
      p.insertion text none = .ok (some newText.toList) := by
  unfold finds at h
  cases hplan : RulePlan.ofRule (insertBehindAll token newText) false with
  | error e =>
    rw [hplan] at h
    cases h
  | ok p =>
    rw [hplan] at h
    obtain ⟨hmode, hoffset, hrange, hrangeAfter, hlast, hresolve, hinsertion⟩ :=
      of_decide_eq_true (p := _ ∧ _) h
    obtain ⟨n, hn⟩ := Option.isSome_iff_exists.mp hlast
    exact ⟨p, n, rfl, ⟨hmode, hoffset, hrange, hrangeAfter⟩, hn, eq_ok_of_toOption hresolve,
      eq_ok_of_toOption hinsertion⟩

/-- The matches of `aé?|b` in `aéab` have different lengths, and end in order. -/
theorem orderly_copies_follow : ∃ p n,
    RulePlan.ofRule (insertBehindAll "/aé?|b/g" "X") false = .ok p ∧ p.InsertsBehind ∧
    p.search.needles.getLast? = some n ∧
    p.search.resolve "f" ['a', 'é', 'a', 'b'] none = .ok ⟨[⟨0, 3⟩, ⟨3, 1⟩, ⟨4, 1⟩], none⟩ ∧
    p.insertion ['a', 'é', 'a', 'b'] none = .ok (some ['X']) ∧
    CopiesFollow ['X'] ⟨[⟨0, 3⟩, ⟨3, 1⟩, ⟨4, 1⟩], none⟩ ['a', 'é', 'a', 'b']
      (applyRule "f" ['a', 'é', 'a', 'b'] p none) := by
  have hfinds : insertBehindAll.finds "/aé?|b/g" "X" ['a', 'é', 'a', 'b']
      [⟨0, 3⟩, ⟨3, 1⟩, ⟨4, 1⟩] = true := by decide +kernel
  obtain ⟨p, n, hplan, hp, hlast, hresolve, hinsertion⟩ := insertBehindAll.exists_plan hfinds
  exact ⟨p, n, hplan, hp, hlast, hresolve, hinsertion,
    ((applyRule_behind hp hlast hresolve hinsertion).2 (by simp) (by simp)).mpr (by decide)⟩

/-- **The copy of an inner match is misplaced.**  In `abc` the pattern `abc|b` matches the whole
text and the `b` in it.  Both copies come to stand behind the whole text. -/
theorem inner_copy_misplaced : ∃ p n,
    RulePlan.ofRule (insertBehindAll "/abc|b/g" "X") false = .ok p ∧ p.InsertsBehind ∧
    p.search.needles.getLast? = some n ∧
    p.search.resolve "f" ['a', 'b', 'c'] none = .ok ⟨[⟨0, 3⟩, ⟨1, 1⟩], none⟩ ∧
    p.insertion ['a', 'b', 'c'] none = .ok (some ['X']) ∧
    applyRule "f" ['a', 'b', 'c'] p none = .ok ['a', 'b', 'c', 'X', 'X'] ∧
    Text.HasCopies ['X'] [3, 2] ['a', 'b', 'c'] ['a', 'b', 'X', 'c', 'X'] ∧
    ¬ CopiesFollow ['X'] ⟨[⟨0, 3⟩, ⟨1, 1⟩], none⟩ ['a', 'b', 'c']
      (applyRule "f" ['a', 'b', 'c'] p none) := by
  have hfinds : insertBehindAll.finds "/abc|b/g" "X" ['a', 'b', 'c'] [⟨0, 3⟩, ⟨1, 1⟩] = true := by
    decide +kernel
  obtain ⟨p, n, hplan, hp, hlast, hresolve, hinsertion⟩ := insertBehindAll.exists_plan hfinds
  have hfold : ([⟨0, 3⟩, ⟨1, 1⟩].map Match.stop).foldlM (Edited.insertAt ['X'])
      (Edited.ofText ['a', 'b', 'c']) = .ok ⟨['a', 'b', 'c', 'X', 'X'], 2⟩ :=
    eq_ok_of_toOption (by decide +kernel)
  have hresult : applyRule "f" ['a', 'b', 'c'] p none = .ok ['a', 'b', 'c', 'X', 'X'] := by
    rw [applyRule_of_inserts hp.onlyInserts hresolve hinsertion, hp.placeOf_eq]
    exact congrArg (Except.map Edited.text) hfold
  have hcopies : Text.HasCopies ['X'] [3, 2] ['a', 'b', 'c'] ['a', 'b', 'X', 'c', 'X'] :=
    ⟨[2, 3], .swap _ _ _, .copy ['a', 'b'] (.copy ['c'] (.rest _ []))⟩
  refine ⟨p, n, hplan, hp, hlast, hresolve, hinsertion, hresult, hcopies, ?_⟩
  rintro ⟨out, hout, hfollow⟩
  obtain rfl := Except.ok.inj (hresult.symm.trans hout)
  have hascend := Edited.ascending_of_copies (by simp) (by simp) (by decide) hfold hfollow
  exact absurd hascend (by decide)

end TextPatch
