/-
# How versions are spelled

A string is a version exactly if it is spelled as one (`Version.ofString?_eq_some_iff`): three
numbers below `2 ^ 64` with dots between them; then the identifiers of the pre-release behind a
hyphen, if there are any; then those of the build behind a plus sign, if there are any.  No number
has leading zeros but those in a build.

The reading takes from the text what it can and never goes back.  That is no loss, since what
follows a part of a version never begins with a character that could go on with the part (`Ends`).

Whether a string is a version decides first how it ranks (`VersionKey.stringsRank`).
-/
import TextPatch.Proofs.Versions.Ranks

namespace TextPatch

namespace Version

/-! ## 1. Runs of characters -/

/-- A text does not begin with a character of a kind. -/
def Ends (p : Char → Bool) (t : Text) : Prop := ∀ c, t.head? = some c → p c = false

variable {p : Char → Bool} {t u ds : Text}

theorem takeWhile_append_of_ends (hds : ∀ c ∈ ds, p c = true) (hu : Ends p u) :
    (ds ++ u).takeWhile p = ds := by
  rw [List.takeWhile_append_of_pos hds, List.append_right_eq_self]
  cases u with
  | nil => rfl
  | cons c u => rw [List.takeWhile_cons, hu c rfl, if_neg Bool.false_ne_true]

/-- A text is cut where its first run ends. -/
theorem run_cut (p : Char → Bool) (t : Text) :
    t = t.takeWhile p ++ t.drop (t.takeWhile p).length ∧ (∀ c ∈ t.takeWhile p, p c = true) ∧
      Ends p (t.drop (t.takeWhile p).length) := by
  have hcut := List.takeWhile_append_dropWhile (p := p) (l := t)
  have hdrop : t.drop (t.takeWhile p).length = t.dropWhile p := by
    have h := congrArg (List.drop (t.takeWhile p).length) hcut
    rw [List.drop_left] at h
    exact h.symm
  rw [hdrop]
  refine ⟨hcut.symm, List.all_eq_true.mp List.all_takeWhile, fun c hc => ?_⟩
  have hnot := List.head?_dropWhile_not p t
  rw [hc] at hnot
  exact hnot

/-! ## 2. Numbers -/

/-- Digits are the number of a version. -/
structure IsNumber (ds : Text) (n : ℕ) : Prop where
  ne_nil : ds ≠ []
  digits : ∀ c ∈ ds, c.isDigit = true
  unpadded : ds.head? = some '0' → ds.length = 1
  value : Text.numberIn 10 ds = n
  lt : n < UInt64.size

/-- What keeps a run of digits from being the number of a version. -/
theorem isNumber_iff (hds : ∀ c ∈ ds, c.isDigit = true) : IsNumber ds (Text.numberIn 10 ds) ↔
    ¬ (ds.isEmpty || (ds.head? == some '0' && ds.length != 1) ||
      decide (UInt64.size ≤ Text.numberIn 10 ds)) = true := by
  simp only [Bool.or_eq_true, Bool.and_eq_true, not_or, not_and, List.isEmpty_iff, beq_iff_eq,
    bne_iff_ne, ne_eq, not_not, decide_eq_true_eq, not_le]
  constructor
  · intro h
    exact ⟨⟨h.ne_nil, h.unpadded⟩, h.lt⟩
  · rintro ⟨⟨hne, hunpadded⟩, hlt⟩
    exact ⟨hne, hds, hunpadded, rfl, hlt⟩

/-- A number is read exactly where its digits stand and no digit follows. -/
theorem number?_eq_some_iff {n : ℕ} : number? t = some (n, u) ↔
    ∃ ds, IsNumber ds n ∧ t = ds ++ u ∧ Ends Char.isDigit u := by
  constructor
  · intro h
    obtain ⟨hcut, hdigits, hends⟩ := run_cut Char.isDigit t
    obtain ⟨hguard, hread⟩ := Option.ite_none_left_eq_some.mp h
    obtain ⟨rfl, rfl⟩ := Prod.mk.inj (Option.some.inj hread)
    exact ⟨_, (isNumber_iff hdigits).mpr hguard, hcut, hends⟩
  · rintro ⟨ds, hnumber, rfl, hends⟩
    obtain rfl := hnumber.value
    unfold number?
    simp only [takeWhile_append_of_ends hnumber.digits hends, List.drop_left]
    exact if_neg ((isNumber_iff hnumber.digits).mp hnumber)

/-! ## 3. Identifiers -/

/-- A text is an identifier. -/
structure IsIdentifier (i : Text) : Prop where
  ne_nil : i ≠ []
  chars : ∀ c ∈ i, isIdentifierChar c = true

/-- Identifiers with dots between them. -/
def dotted (ids : List String) : Text := ['.'].intercalate (ids.map String.toList)

/-- Whether a character may stand in identifiers with dots between them. -/
def isDottedChar (c : Char) : Bool := isIdentifierChar c || c == '.'

theorem isDottedChar_of_mem_dotted {ids : List String} {c : Char}
    (h : ∀ i ∈ ids, IsIdentifier i.toList) (hc : c ∈ dotted ids) : isDottedChar c = true := by
  unfold isDottedChar
  rcases Text.mem_intercalate hc with rfl | ⟨f, hf, hc⟩
  · rfl
  · obtain ⟨i, hi, rfl⟩ := List.mem_map.mp hf
    rw [(h i hi).chars c hc, Bool.true_or]

theorem dot_not_mem {i : Text} (h : IsIdentifier i) : '.' ∉ i := by
  intro hdot
  exact absurd (h.chars '.' hdot) (by decide)

theorem identifiers?_eq (check : Text → Bool) (t : Text) : identifiers? check t =
    if (Text.fields '.' (t.takeWhile isDottedChar)).all fun i => !i.isEmpty && check i then
      some ((Text.fields '.' (t.takeWhile isDottedChar)).map String.ofList,
        t.drop (t.takeWhile isDottedChar).length)
    else none := rfl

/-- Identifiers are read exactly where they stand with dots between them, all pass the check, and
nothing follows that could belong to them. -/
theorem identifiers?_eq_some_iff {check : Text → Bool} {ids : List String} :
    identifiers? check t = some (ids, u) ↔ ids ≠ [] ∧
      (∀ i ∈ ids, IsIdentifier i.toList ∧ check i.toList = true) ∧ t = dotted ids ++ u ∧
        Ends isDottedChar u := by
  rw [identifiers?_eq]
  constructor
  · intro h
    obtain ⟨hcut, hchars, hends⟩ := run_cut isDottedChar t
    obtain ⟨hall, hread⟩ := Option.ite_none_right_eq_some.mp h
    obtain ⟨rfl, rfl⟩ := Prod.mk.inj (Option.some.inj hread)
    have hfields := Text.intercalate_fields '.' (t.takeWhile isDottedChar)
    refine ⟨?_, ?_, ?_, hends⟩
    · intro hnil
      exact Text.fields_ne_nil '.' _ (List.map_eq_nil_iff.mp hnil)
    · intro i hi
      obtain ⟨f, hf, rfl⟩ := List.mem_map.mp hi
      rw [String.toList_ofList]
      have hcheck := List.all_eq_true.mp hall f hf
      rw [Bool.and_eq_true, Bool.not_eq_true', List.isEmpty_eq_false_iff] at hcheck
      refine ⟨⟨hcheck.1, fun c hc => ?_⟩, hcheck.2⟩
      have hmem : c ∈ t.takeWhile isDottedChar := hfields ▸ Text.mem_intercalate_of_mem hf hc
      have hdotted := hchars c hmem
      unfold isDottedChar at hdotted
      rcases Bool.or_eq_true_iff.mp hdotted with hid | hdot
      · exact hid
      · obtain rfl := eq_of_beq hdot
        exact absurd hc (Text.not_mem_of_mem_fields hf)
    · unfold dotted
      rw [List.map_map, String.toList_comp_ofList, List.map_id, hfields]
      exact hcut
  · rintro ⟨hne, hids, rfl, hends⟩
    have hchars : ∀ c ∈ dotted ids, isDottedChar c = true := fun c hc =>
      isDottedChar_of_mem_dotted (fun i hi => (hids i hi).1) hc
    have hdot : ∀ f ∈ ids.map String.toList, '.' ∉ f := by
      intro f hf
      obtain ⟨i, hi, rfl⟩ := List.mem_map.mp hf
      exact dot_not_mem (hids i hi).1
    have hfields : Text.fields '.' (dotted ids) = ids.map String.toList :=
      Text.fields_intercalate (by simpa using hne) hdot
    have hall : ((ids.map String.toList).all fun i => !i.isEmpty && check i) = true := by
      rw [List.all_eq_true]
      intro f hf
      obtain ⟨i, hi, rfl⟩ := List.mem_map.mp hf
      rw [(hids i hi).2, List.isEmpty_eq_false_iff.mpr (hids i hi).1.ne_nil]
      rfl
    rw [takeWhile_append_of_ends hchars hends, hfields, if_pos hall, List.drop_left, List.map_map,
      String.ofList_comp_toList, List.map_id]

/-- The text of identifiers behind a mark.  Without identifiers there is no mark. -/
def marked (mark : Char) : List String → Text
  | [] => []
  | ids => mark :: dotted ids

theorem marked_of_ne_nil {mark : Char} {ids : List String} (h : ids ≠ []) :
    marked mark ids = mark :: dotted ids := by
  cases ids with
  | nil => exact absurd rfl h
  | cons => rfl

theorem behind?_eq_some_iff {mark : Char} : behind? mark t = some u ↔ t = mark :: u := by
  cases t with
  | nil => exact ⟨nofun, nofun⟩
  | cons c t => simp [behind?, eq_comm]

theorem behind?_eq_none_iff {mark : Char} : behind? mark t = none ↔ t.head? ≠ some mark := by
  cases t with
  | nil => exact ⟨fun _ => nofun, fun _ => rfl⟩
  | cons c t => simp [behind?, eq_comm]

/-- The identifiers behind a mark, if it stands there, and what follows them. -/
def markedIdentifiers? (mark : Char) (check : Text → Bool) (t : Text) :
    Option (List String × Text) :=
  match behind? mark t with
  | some t => identifiers? check t
  | none => some ([], t)

theorem markedIdentifiers?_bind {α : Type} (mark : Char) (check : Text → Bool) (t : Text)
    (f : List String × Text → Option α) : (markedIdentifiers? mark check t).bind f =
      match behind? mark t with
      | some t => (identifiers? check t).bind f
      | none => f ([], t) := by
  unfold markedIdentifiers?
  cases behind? mark t <;> rfl

/-- Identifiers behind a mark are read exactly where they stand.  There are none exactly where the
mark does not stand. -/
theorem markedIdentifiers?_eq_some_iff {mark : Char} {check : Text → Bool} {ids : List String} :
    markedIdentifiers? mark check t = some (ids, u) ↔
      (∀ i ∈ ids, IsIdentifier i.toList ∧ check i.toList = true) ∧ t = marked mark ids ++ u ∧
        (ids = [] → u.head? ≠ some mark) ∧ (ids ≠ [] → Ends isDottedChar u) := by
  unfold markedIdentifiers?
  cases hbehind : behind? mark t with
  | none =>
    have hhead := behind?_eq_none_iff.mp hbehind
    constructor
    · rintro ⟨⟩
      exact ⟨nofun, rfl, fun _ => hhead, fun hne => absurd rfl hne⟩
    · rintro ⟨-, rfl, -, -⟩
      by_cases hne : ids = []
      · subst hne
        rfl
      · rw [marked_of_ne_nil hne] at hhead
        exact absurd rfl hhead
  | some w =>
    obtain rfl := behind?_eq_some_iff.mp hbehind
    simp only [identifiers?_eq_some_iff]
    constructor
    · rintro ⟨hne, hids, rfl, hends⟩
      rw [marked_of_ne_nil hne]
      exact ⟨hids, rfl, fun hnil => absurd hnil hne, fun _ => hends⟩
    · rintro ⟨hids, ht, hnil, hends⟩
      have hne : ids ≠ [] := by
        rintro rfl
        exact hnil rfl (congrArg List.head? ht.symm)
      rw [marked_of_ne_nil hne] at ht
      exact ⟨hne, hids, List.tail_eq_of_cons_eq ht, hends hne⟩

/-- What follows a mark does not go on with what stands before it. -/
theorem ends_marked {mark : Char} {ids : List String} (hmark : p mark = false) (hu : Ends p u) :
    Ends p (marked mark ids ++ u) := by
  cases ids with
  | nil => exact hu
  | cons i ids =>
    rintro c ⟨⟩
    exact hmark

theorem ends_nil : Ends p [] := nofun

/-! ## 4. Versions -/

/-- A text spells a version. -/
structure Spells (t : Text) (v : Version) : Prop where
  numbers : ∃ major minor patch, IsNumber major v.major ∧ IsNumber minor v.minor ∧
    IsNumber patch v.patch ∧ t = major ++ '.' :: (minor ++ '.' :: (patch ++
      (marked '-' v.pre ++ marked '+' v.build)))
  pre : ∀ i ∈ v.pre, IsIdentifier i.toList ∧ hasNoPadding i.toList = true
  build : ∀ i ∈ v.build, IsIdentifier i.toList

theorem ofString?_eq (s : String) : ofString? s = (do
    let (major, t) ← number? s.toList
    let (minor, t) ← number? (← behind? '.' t)
    let (patch, t) ← number? (← behind? '.' t)
    let (pre, t) ← markedIdentifiers? '-' hasNoPadding t
    let (build, t) ← markedIdentifiers? '+' (fun _ => true) t
    if t.isEmpty then some ⟨major, minor, patch, pre, build⟩ else none) := by
  simp only [Option.bind_eq_bind, markedIdentifiers?_bind]
  rfl

/-- **Exactly the strings that spell a version are read as that version.** -/
theorem ofString?_eq_some_iff {s : String} {v : Version} :
    ofString? s = some v ↔ Spells s.toList v := by
  rw [ofString?_eq]
  simp only [Option.bind_eq_bind, Option.bind_eq_some_iff, Prod.exists, number?_eq_some_iff,
    behind?_eq_some_iff, markedIdentifiers?_eq_some_iff]
  constructor
  · rintro ⟨major, _, ⟨ds, hmajor, ht, -⟩, _, rfl, minor, _, ⟨ds', hminor, rfl, -⟩, _, rfl,
      patch, _, ⟨ds'', hpatch, rfl, -⟩, pre, _, ⟨hpre, rfl, -, -⟩, build, rest,
      ⟨hbuild, rfl, -, -⟩, hall⟩
    obtain ⟨hempty, hv⟩ := Option.ite_none_right_eq_some.mp hall
    obtain rfl := List.isEmpty_iff.mp hempty
    obtain rfl := Option.some.inj hv
    rw [List.append_nil] at ht
    exact ⟨⟨ds, ds', ds'', hmajor, hminor, hpatch, ht⟩, hpre, fun i hi => (hbuild i hi).1⟩
  · rintro ⟨⟨ds, ds', ds'', hmajor, hminor, hpatch, ht⟩, hpre, hbuild⟩
    -- A dot, a mark or nothing follows each part, and none of them could go on with it.
    have hplus : ∀ {p : Char → Bool}, p '+' = false → Ends p (marked '+' v.build) := by
      intro p hp
      have hends : Ends p (marked '+' v.build ++ []) := ends_marked hp ends_nil
      rwa [List.append_nil] at hends
    have hdot : ∀ u, Ends Char.isDigit ('.' :: u) := by
      rintro u c ⟨⟩
      rfl
    refine ⟨v.major, _, ⟨ds, hmajor, ht, hdot _⟩, _, rfl, v.minor, _, ⟨ds', hminor, rfl, hdot _⟩, _,
      rfl, v.patch, _, ⟨ds'', hpatch, rfl, ends_marked rfl (hplus rfl)⟩, v.pre, _,
      ⟨hpre, rfl, fun _ => ?_, fun _ => hplus rfl⟩, v.build, [],
      ⟨fun i hi => ⟨hbuild i hi, trivial⟩, (List.append_nil _).symm, nofun, fun _ => ends_nil⟩, rfl⟩
    exact fun hhead => absurd (hplus (p := (· == '-')) rfl '-' hhead) (by decide)

/-- No version that is read has a padded number in its pre-release. -/
theorem isProper_of_ofString? {s : String} {v : Version} (h : ofString? s = some v) :
    v.IsProper := by
  have hspells := ofString?_eq_some_iff.mp h
  exact fun i hi => ⟨(hspells.pre i hi).1.ne_nil, (hspells.pre i hi).2⟩

end Version

namespace VersionKey

/-! ## 5. How strings rank -/

variable {s t : String} {v w : Version}

/-- The keys of strings are proper. -/
theorem isProper_ofString (s : String) : (ofString s).IsProper := by
  intro v hv
  unfold ofString at hv
  split at hv
  · rename_i v' hread
    cases hv
    exact Version.isProper_of_ofString? hread
  · cases hv

/-- The rank of a string. -/
def rankOf (s : String) : Rank := (ofString s).rank

/-- Strings are compared by their ranks. -/
theorem compareTo_ofString (s t : String) :
    ((ofString s).compareTo (ofString t)).Compares (rankOf s) (rankOf t) :=
  compareTo_compares (isProper_ofString s) (isProper_ofString t)

theorem ofString_of_spells (h : Version.Spells s.toList v) : ofString s = version v := by
  unfold ofString
  rw [Version.ofString?_eq_some_iff.mpr h]

theorem ofString_of_not_spells (h : ∀ v, ¬ Version.Spells s.toList v) : ofString s = raw s := by
  have hnone : Version.ofString? s = none :=
    Option.eq_none_iff_forall_ne_some.mpr fun v hv => h v (Version.ofString?_eq_some_iff.mp hv)
  unfold ofString
  rw [hnone]

/-- How strings rank. -/
structure StringsRank : Prop where
  /-- Every version is above every string that is none. -/
  above : ∀ {s t v}, (∀ w, ¬ Version.Spells s.toList w) → Version.Spells t.toList v →
    rankOf s < rankOf t
  /-- Versions rank by their precedence, and versions of one precedence by their builds. -/
  versions : ∀ {s t v w}, Version.Spells s.toList v → Version.Spells t.toList w →
    (rankOf s < rankOf t ↔ v.precedence < w.precedence ∨
      v.precedence = w.precedence ∧ v.buildRank < w.buildRank)
  /-- Strings that are no versions rank as texts. -/
  others : ∀ {s t}, (∀ v, ¬ Version.Spells s.toList v) → (∀ v, ¬ Version.Spells t.toList v) →
    (rankOf s < rankOf t ↔ s < t)
  /-- Strings of one rank have one key. -/
  key : ∀ {s t}, rankOf s = rankOf t ↔ ofString s = ofString t

/-- **The ranks of strings are those of versions.** -/
theorem stringsRank : StringsRank where
  above := by
    intro s t v hs ht
    unfold rankOf
    rw [ofString_of_not_spells hs, ofString_of_spells ht]
    exact Sum.Lex.inl_lt_inr _ _
  versions := by
    intro s t v w hs ht
    unfold rankOf
    rw [ofString_of_spells hs, ofString_of_spells ht]
    exact Sum.Lex.inr_lt_inr_iff.trans Prod.Lex.toLex_lt_toLex
  others := by
    intro s t hs ht
    unfold rankOf
    rw [ofString_of_not_spells hs, ofString_of_not_spells ht]
    exact Sum.Lex.inl_lt_inl_iff
  key := rank_inj (isProper_ofString _) (isProper_ofString _)

/-- Numbers count as numbers. -/
example : (ofString "1.10.0").compareTo (ofString "1.9.3") = .gt := by decide +kernel

end VersionKey

end TextPatch
