/-
# What a lookup comes to

A lookup picks a source, follows words through it, counts the line and the column of the place that
they lead to, finds the entry of the table about it and looks for the character of the generated text
at the line and the column of that entry.  `Translates` says what each of these steps asks for and
what comes of a step that fails, without the functions that do them, and `translates_iff` shows that
the library does exactly that.

`trace_exact` adds the identifier that is read at the end: the longest run of characters of names at
the character that has been found (`IsNameAt`).
-/
import TextPatch.Proofs.Run
import TextPatch.Proofs.SourceMap.Chases
import TextPatch.Proofs.SourceMap.Identifiers

namespace TextPatch

/-! ## 1. Positions in texts -/

namespace Text

variable {t : Text} {n : Nat} {p : Position}

/-- Whether byte `n` of a text is at a line and a column. -/
def IsAt (t : Text) (n : Nat) (p : Position) : Prop :=
  ∃ u v : Text, t = u ++ v ∧ u.byteLength = n ∧ Position.behind u = p

/-- Whether a character starts at byte `n` of a text, at a line and a column. -/
def StartsAt (t : Text) (n : Nat) (p : Position) : Prop :=
  ∃ (u : Text) (c : Char) (v : Text), t = u ++ c :: v ∧ u.byteLength = n ∧ Position.behind u = p

theorem isAt_iff_of_cut {u v : Text} (ht : t = u ++ v) (hn : u.byteLength = n) :
    t.IsAt n p ↔ Position.ofOffset t n = p := by
  subst ht hn
  rw [Position.ofOffset_append, Position.endOf_start]
  constructor
  · rintro ⟨u', v', ht', hu', rfl⟩
    obtain ⟨e, rfl, -⟩ := exists_of_append_eq ht' (Nat.le_of_eq hu'.symm)
    have he : e = [] := byteLength_eq_zero.mp (by
      rw [byteLength_append] at hu'
      omega)
    rw [he, List.append_nil]
  · intro h
    exact ⟨u, v, rfl, rfl, h⟩

/-- **The byte at a position is the start of the character there.** -/
theorem offset?_eq_some_iff_startsAt : Position.offset? t p = some n ↔ t.StartsAt n p := by
  rw [Position.offset?_eq_some_iff]
  simp only [Position.endOf_start]
  exact Iff.rfl

/-- A position has no byte exactly if no character starts there. -/
theorem offset?_eq_none_iff_startsAt : Position.offset? t p = none ↔ ∀ n, ¬ t.StartsAt n p := by
  rw [Option.eq_none_iff_forall_ne_some]
  refine forall_congr' fun n => ?_
  rw [ne_eq, offset?_eq_some_iff_startsAt]

end Text

namespace SourceMap

/-! ## 2. Sources and entries -/

/-- The first source whose path ends with a hint. -/
structure Document.IsFirstSource (d : Document) (hint : String) (i : Nat) (path : String) :
    Prop where
  getElem?_eq : d.sources[i]? = some path
  endsWith : hint.toList <:+ path.toList
  first : ∀ j < i, ∀ path', d.sources[j]? = some path' → ¬ hint.toList <:+ path'.toList

/-- The first source whose path ends with a hint, with its content. -/
structure Document.Picks (d : Document) (hint : String) (source : SourceFile) : Prop where
  isFirst : d.IsFirstSource hint source.index source.path
  content_eq : d.contents[source.index]? = some (some source.content)

namespace Document

variable {d : Document} {hint path : String} {i : Nat} {source : SourceFile}

/-- The search for a source comes to the first one, and no other. -/
theorem findIdx?_eq_some_iff_isFirst :
    (d.sources.findIdx? fun path => hint.toList.isSuffixOf path.toList) = some i ↔
      ∃ path, d.IsFirstSource hint i path := by
  rw [List.findIdx?_eq_some_iff_getElem]
  constructor
  · rintro ⟨hi, hends, hfirst⟩
    refine ⟨d.sources[i], List.getElem?_eq_getElem hi, List.isSuffixOf_iff_suffix.mp hends, ?_⟩
    intro j hj path' hpath' hsuffix
    obtain ⟨hlt, rfl⟩ := List.getElem?_eq_some_iff.mp hpath'
    exact hfirst j hj (List.isSuffixOf_iff_suffix.mpr hsuffix)
  · rintro ⟨path, hpath, hends, hfirst⟩
    obtain ⟨hi, rfl⟩ := List.getElem?_eq_some_iff.mp hpath
    refine ⟨hi, List.isSuffixOf_iff_suffix.mpr hends, fun j hj hsuffix => ?_⟩
    have hlt : j < d.sources.length := Nat.lt_trans hj hi
    exact hfirst j hj _ (List.getElem?_eq_getElem hlt) (List.isSuffixOf_iff_suffix.mp hsuffix)

/-- Every source has its place among the contents. -/
theorem exists_content (h : d.IsFirstSource hint i path) :
    ∃ content, d.contents[i]? = some content := by
  obtain ⟨hi, -⟩ := List.getElem?_eq_some_iff.mp h.getElem?_eq
  have hlt : i < d.contents.length := by rwa [d.length_contents]
  exact ⟨d.contents[i], List.getElem?_eq_getElem hlt⟩

/-- What the search for a source comes to once the first one and its content are known. -/
theorem find_of_isFirst (h : d.IsFirstSource hint i path) {content : Option String}
    (hcontent : d.contents[i]? = some content) :
    d.find hint = match content with
      | none => .error (.missingContent path)
      | some content => .ok ⟨i, path, content⟩ := by
  have hjoin : (d.contents[i]?).join = content := by rw [hcontent, Option.join_some]
  have hpath : d.sources.getD i "" = path := by
    rw [List.getD_eq_getElem?_getD, h.getElem?_eq, Option.getD_some]
  unfold find
  rw [findIdx?_eq_some_iff_isFirst.mpr ⟨path, h⟩]
  cases content with
  | none => simp only [hjoin, hpath]
  | some content => simp only [hjoin, hpath]

/-- No source is found exactly if no path ends with the hint. -/
theorem find_of_none (h : ∀ path ∈ d.sources, ¬ hint.toList <:+ path.toList) :
    d.find hint = .error (.sourceNotFound hint) := by
  have hnone : (d.sources.findIdx? fun path => hint.toList.isSuffixOf path.toList) = none := by
    rw [List.findIdx?_eq_none_iff]
    intro path hpath
    rw [Bool.eq_false_iff, ne_eq, List.isSuffixOf_iff_suffix]
    exact h path hpath
  unfold find
  rw [hnone]

theorem find_of_missing (h : d.IsFirstSource hint i path) (hcontent : d.contents[i]? = some none) :
    d.find hint = .error (.missingContent path) := by
  rw [find_of_isFirst h hcontent]

theorem find_of_picks (h : d.Picks hint source) : d.find hint = .ok source := by
  rw [find_of_isFirst h.isFirst h.content_eq]

/-- **Every way in which the search for a source can end.** -/
theorem find_cases (d : Document) (hint : String) :
    (∀ path ∈ d.sources, ¬ hint.toList <:+ path.toList) ∨
      (∃ i path, d.IsFirstSource hint i path ∧ d.contents[i]? = some none) ∨
        ∃ source, d.Picks hint source := by
  cases hfind : d.sources.findIdx? fun path => hint.toList.isSuffixOf path.toList with
  | none =>
    refine Or.inl fun path hpath hends => ?_
    rw [List.findIdx?_eq_none_iff] at hfind
    have hfalse := hfind path hpath
    rw [List.isSuffixOf_iff_suffix.mpr hends] at hfalse
    cases hfalse
  | some i =>
    obtain ⟨path, hfirst⟩ := findIdx?_eq_some_iff_isFirst.mp hfind
    obtain ⟨content, hcontent⟩ := exists_content hfirst
    cases content with
    | none => exact Or.inr (Or.inl ⟨i, path, hfirst, hcontent⟩)
    | some content => exact Or.inr (Or.inr ⟨⟨i, path, content⟩, hfirst, hcontent⟩)

end Document

/-- Whether an entry of the table is about a place of a source. -/
def Mapping.IsOf (m : Mapping) (source : Nat) (place : Position) : Prop :=
  m.source = source ∧ m.sourceLine = place.line ∧ m.sourceColumn = place.column

theorem Mapping.isAbout_iff {m : Mapping} {source : Nat} {place : Position} :
    m.isAbout source place = true ↔ m.IsOf source place := by
  simp [isAbout, IsOf, and_assoc]

/-- The last entry of a table about a place of a source. -/
def IsLastEntry (table : List Mapping) (source : Nat) (place : Position) (m : Mapping) : Prop :=
  m.IsOf source place ∧ ∃ before after, table = before ++ m :: after ∧
    ∀ m' ∈ after, ¬ m'.IsOf source place

variable {table : List Mapping} {source : Nat} {place : Position} {m : Mapping}

/-- **The search from the end of the table comes to its last entry about a place.** -/
theorem find?_reverse_eq_some_iff :
    table.reverse.find? (·.isAbout source place) = some m ↔ IsLastEntry table source place m := by
  rw [List.find?_eq_some_iff_append, Mapping.isAbout_iff]
  refine and_congr_right fun _ => ?_
  constructor
  · rintro ⟨behind, before, htable, hbehind⟩
    refine ⟨before.reverse, behind.reverse, ?_, fun m' hm' => ?_⟩
    · rw [← List.reverse_reverse table, htable]
      simp
    · have hnot := hbehind m' (List.mem_reverse.mp hm')
      rw [← Mapping.isAbout_iff]
      simpa using hnot
  · rintro ⟨before, behind, rfl, hbehind⟩
    refine ⟨behind.reverse, before.reverse, by simp, fun m' hm' => ?_⟩
    have hnot := hbehind m' (List.mem_reverse.mp hm')
    rw [← Mapping.isAbout_iff] at hnot
    simpa using hnot

theorem find?_reverse_eq_none_iff :
    table.reverse.find? (·.isAbout source place) = none ↔
      ∀ m ∈ table, ¬ m.IsOf source place := by
  simp [List.find?_eq_none, ← Mapping.isAbout_iff]

/-! ## 3. Lookups -/

/-- What a lookup comes to: the byte of the generated text, or the error of the first step that
fails. -/
inductive Translates (d : Document) (hint : String) (generated : Text) (words : List String) :
    Except SourceMapError Nat → Prop
  /-- No path ends with the hint. -/
  | noSource (hnone : ∀ path ∈ d.sources, ¬ hint.toList <:+ path.toList) :
      Translates d hint generated words (.error (.sourceNotFound hint))
  /-- The first source whose path does has no content. -/
  | noContent {i : Nat} {path : String} (hfirst : d.IsFirstSource hint i path)
      (hcontent : d.contents[i]? = some none) :
      Translates d hint generated words (.error (.missingContent path))
  /-- The words before some word can be followed through the source, but not that one. -/
  | noWord {source : SourceFile} {word : String} (hsource : d.Picks hint source)
      (hmissing : FirstMissing source.content.toList 0 words word) :
      Translates d hint generated words (.error (.needleNotFound word source.path))
  /-- The table has no entry about the least place that the words lead to. -/
  | noMapping {source : SourceFile} {n : Nat} {place : Position} (hsource : d.Picks hint source)
      (hleast : LeastPlace source.content.toList 0 words n)
      (hplace : Text.IsAt source.content.toList n place)
      (hnone : ∀ m ∈ d.mappings, ¬ m.IsOf source.index place) :
      Translates d hint generated words (.error (.noMapping source.path
        (SourcePlace.needles words).label place.line place.column))
  /-- No character of the generated text starts where the last entry about that place says. -/
  | outOfRange {source : SourceFile} {n : Nat} {place : Position} {m : Mapping}
      (hsource : d.Picks hint source) (hleast : LeastPlace source.content.toList 0 words n)
      (hplace : Text.IsAt source.content.toList n place)
      (hlast : IsLastEntry d.mappings source.index place m)
      (hnone : ∀ g, ¬ generated.StartsAt g m.generated) :
      Translates d hint generated words
        (.error (.generatedOutOfRange m.generatedLine m.generatedColumn))
  /-- A character of the generated text starts there. -/
  | found {source : SourceFile} {n : Nat} {place : Position} {m : Mapping} {g : Nat}
      (hsource : d.Picks hint source) (hleast : LeastPlace source.content.toList 0 words n)
      (hplace : Text.IsAt source.content.toList n place)
      (hlast : IsLastEntry d.mappings source.index place m)
      (hstarts : generated.StartsAt g m.generated) : Translates d hint generated words (.ok g)

/-- The place that words lead to is one at which the text can be cut. -/
theorem LeadTo.exists_cut {text : Text} {words : List String} {n : Nat}
    (h : LeadTo text 0 words n) : ∃ u v, text = u ++ v ∧ Text.byteLength u = n := by
  have hcut : ∀ {words : List String} {start : Nat} {places : List Nat},
      Followed text start words places →
        places.getLast?.getD start = start ∨ ∃ w, text.HasAt w (places.getLast?.getD start) := by
    intro words
    induction words with
    | nil =>
      intro start places h
      obtain rfl : places = [] := List.length_eq_zero_iff.mp h.length_eq
      exact Or.inl rfl
    | cons word words ih =>
      intro start places h
      obtain ⟨p, rest, rfl⟩ := h.exists_cons
      obtain ⟨hhas, -, hrest⟩ := followed_cons_iff.mp h
      rw [List.getLast?_cons, Option.getD_some]
      rcases ih hrest with heq | hlater
      · exact Or.inr ⟨word.toList, by rwa [heq]⟩
      · exact Or.inr hlater
  obtain ⟨places, hfollowed, rfl⟩ := h
  rcases hcut hfollowed with heq | ⟨w, u, v, ht, hu⟩
  · exact ⟨[], text, rfl, heq.symm⟩
  · exact ⟨u, w ++ v, by rw [ht, List.append_assoc], hu⟩

theorem LeastPlace.isAt_iff {text : Text} {words : List String} {n : Nat}
    (h : LeastPlace text 0 words n) : text.IsAt n place ↔ Position.ofOffset text n = place := by
  obtain ⟨u, v, ht, hu⟩ := h.leadTo.exists_cut
  exact Text.isAt_iff_of_cut ht hu

section

variable {d : Document} {hint : String} {generated : Text} {words : List String}
  {source : SourceFile} {r : Except SourceMapError Nat}

/-- A lookup fails if no source is found. -/
theorem trace_of_find_error {e : SourceMapError} (h : d.find hint = .error e) :
    (d.trace hint generated (.needles words)).map Trace.offset = .error e := by
  unfold Document.trace
  rw [h]
  rfl

/-- A lookup fails if some word is missing in the source that has been picked. -/
theorem trace_of_firstMissing {word : String} (hsource : d.Picks hint source)
    (hmissing : FirstMissing source.content.toList 0 words word) :
    (d.trace hint generated (.needles words)).map Trace.offset =
      .error (.needleNotFound word source.path) := by
  have hbyte : (SourcePlace.needles words).byte source =
      .error (.needleNotFound word source.path) :=
    chase_eq_error_iff.mpr ⟨word, rfl, hmissing⟩
  unfold Document.trace
  rw [Document.find_of_picks hsource]
  simp only [bind, Except.bind, hbyte]
  rfl

/-- A lookup through a source that has been picked, with the place that the words lead to. -/
theorem trace_of_leastPlace {n : Nat} {place : Position}
    (hsource : d.Picks hint source) (hleast : LeastPlace source.content.toList 0 words n)
    (hplace : Text.IsAt source.content.toList n place) :
    (d.trace hint generated (.needles words)).map Trace.offset =
      match d.mappings.reverse.find? (·.isAbout source.index place) with
      | none => .error (.noMapping source.path (SourcePlace.needles words).label place.line
          place.column)
      | some m =>
        match Position.offset? generated m.generated with
        | none => .error (.generatedOutOfRange m.generatedLine m.generatedColumn)
        | some g => .ok g := by
  have hbyte : (SourcePlace.needles words).byte source = .ok n := chase_eq_ok_iff.mpr hleast
  have hposition := hleast.isAt_iff.mp hplace
  unfold Document.trace
  rw [Document.find_of_picks hsource]
  simp only [bind, Except.bind, hbyte, hposition]
  cases d.mappings.reverse.find? (·.isAbout source.index place) with
  | none => rfl
  | some m =>
    simp only
    cases Position.offset? generated m.generated with
    | none => rfl
    | some g => rfl

/-- What the steps ask for is what a lookup comes to. -/
theorem Translates.eq (h : Translates d hint generated words r) :
    (d.trace hint generated (.needles words)).map Trace.offset = r := by
  cases h with
  | noSource hnone => exact trace_of_find_error (Document.find_of_none hnone)
  | noContent hfirst hcontent =>
    exact trace_of_find_error (Document.find_of_missing hfirst hcontent)
  | noWord hsource hmissing => exact trace_of_firstMissing hsource hmissing
  | noMapping hsource hleast hplace hnone =>
    rw [trace_of_leastPlace hsource hleast hplace, find?_reverse_eq_none_iff.mpr hnone]
  | outOfRange hsource hleast hplace hlast hnone =>
    rw [trace_of_leastPlace hsource hleast hplace, find?_reverse_eq_some_iff.mpr hlast]
    simp only [Text.offset?_eq_none_iff_startsAt.mpr hnone]
  | found hsource hleast hplace hlast hstarts =>
    rw [trace_of_leastPlace hsource hleast hplace, find?_reverse_eq_some_iff.mpr hlast]
    simp only [Text.offset?_eq_some_iff_startsAt.mpr hstarts]

/-- The steps behind the words: the table, and the generated text. -/
theorem translates_of_leastPlace {n : Nat} (hsource : d.Picks hint source)
    (hleast : LeastPlace source.content.toList 0 words n) :
    ∃ r, Translates d hint generated words r := by
  have hplace := hleast.isAt_iff.mpr rfl
  cases hentry : d.mappings.reverse.find?
      (·.isAbout source.index (Position.ofOffset source.content.toList n)) with
  | none => exact ⟨_, .noMapping hsource hleast hplace (find?_reverse_eq_none_iff.mp hentry)⟩
  | some m =>
    have hlast := find?_reverse_eq_some_iff.mp hentry
    cases hoffset : Position.offset? generated m.generated with
    | none =>
      have hnone := Text.offset?_eq_none_iff_startsAt.mp hoffset
      exact ⟨_, .outOfRange hsource hleast hplace hlast hnone⟩
    | some g =>
      have hstarts := Text.offset?_eq_some_iff_startsAt.mp hoffset
      exact ⟨_, .found hsource hleast hplace hlast hstarts⟩

/-- Some step is the last one of every lookup. -/
theorem exists_translates (d : Document) (hint : String) (generated : Text)
    (words : List String) : ∃ r, Translates d hint generated words r := by
  rcases Document.find_cases d hint with hnone | ⟨i, path, hfirst, hcontent⟩ | ⟨source, hsource⟩
  · exact ⟨_, .noSource hnone⟩
  · exact ⟨_, .noContent hfirst hcontent⟩
  · cases hchase : chase source 0 words with
    | error e =>
      obtain ⟨word, -, hmissing⟩ := chase_eq_error_iff.mp hchase
      exact ⟨_, .noWord hsource hmissing⟩
    | ok n => exact translates_of_leastPlace hsource (chase_eq_ok_iff.mp hchase)

/-- **A lookup comes to what its steps ask for**, and to nothing else. -/
theorem translates_iff :
    Translates d hint generated words r ↔
      (d.trace hint generated (.needles words)).map Trace.offset = r := by
  refine ⟨Translates.eq, ?_⟩
  rintro rfl
  obtain ⟨r, hr⟩ := exists_translates d hint generated words
  rwa [hr.eq]

end

/-! ## 4. Identifiers -/

/-- The characters of names: ASCII letters and digits, the underscore and the dollar sign. -/
def IsNameChar (c : Char) : Prop :=
  ('a' ≤ c ∧ c ≤ 'z') ∨ ('A' ≤ c ∧ c ≤ 'Z') ∨ ('0' ≤ c ∧ c ≤ '9') ∨ c = '_' ∨ c = '$'

theorem isUpper_iff {c : Char} : c.isUpper = true ↔ 'A' ≤ c ∧ c ≤ 'Z' := decide_eq_true_iff

theorem isLower_iff {c : Char} : c.isLower = true ↔ 'a' ≤ c ∧ c ≤ 'z' := by
  change (decide ('a' ≤ c) && decide (c ≤ 'z')) = true ↔ _
  rw [Bool.and_eq_true, decide_eq_true_iff, decide_eq_true_iff]

theorem isDigit_iff {c : Char} : c.isDigit = true ↔ '0' ≤ c ∧ c ≤ '9' := by
  change (decide ('0' ≤ c) && decide (c ≤ '9')) = true ↔ _
  rw [Bool.and_eq_true, decide_eq_true_iff, decide_eq_true_iff]

theorem isIdentifierChar_iff {c : Char} : isIdentifierChar c = true ↔ IsNameChar c := by
  change ((((c.isUpper || c.isLower) || c.isDigit) || c == '_') || c == '$') = true ↔ _
  simp only [Bool.or_eq_true, beq_iff_eq, isUpper_iff, isLower_iff, isDigit_iff]
  constructor
  · rintro ((((hupper | hlower) | hdigit) | hunderscore) | hdollar)
    · exact Or.inr (Or.inl hupper)
    · exact Or.inl hlower
    · exact Or.inr (Or.inr (Or.inl hdigit))
    · exact Or.inr (Or.inr (Or.inr (Or.inl hunderscore)))
    · exact Or.inr (Or.inr (Or.inr (Or.inr hdollar)))
  · rintro (hlower | hupper | hdigit | hunderscore | hdollar)
    · exact Or.inl (Or.inl (Or.inl (Or.inr hlower)))
    · exact Or.inl (Or.inl (Or.inl (Or.inl hupper)))
    · exact Or.inl (Or.inl (Or.inr hdigit))
    · exact Or.inl (Or.inr hunderscore)
    · exact Or.inr hdollar

/-- Whether a name is the longest run of its characters at byte `n` of a text, and not empty. -/
def IsNameAt (t : Text) (n : Nat) (name : String) : Prop :=
  ∃ u w v : Text, t = u ++ w ++ v ∧ u.byteLength = n ∧ name = String.ofList w ∧ w ≠ [] ∧
    (∀ c ∈ w, IsNameChar c) ∧ ∀ c v', v = c :: v' → ¬ IsNameChar c

/-- **The identifier that is read is the longest name at the byte.** -/
theorem readIdentifier_eq_ok_iff_isNameAt {t : Text} {n : Nat} {i : Identifier} :
    Document.readIdentifier t n = .ok i ↔ i.offset = n ∧ IsNameAt t n i.name := by
  rw [Document.readIdentifier_eq_ok_iff]
  refine and_congr_right fun _ => ?_
  constructor
  · rintro ⟨u, v, rfl, hu, hname, hne⟩
    have hchars : ∀ c ∈ v.takeWhile isIdentifierChar, isIdentifierChar c = true :=
      fun c hc => List.all_eq_true.mp List.all_takeWhile c hc
    refine ⟨u, v.takeWhile isIdentifierChar, v.dropWhile isIdentifierChar, ?_, hu, hname, hne,
      fun c hc => isIdentifierChar_iff.mp (hchars c hc), fun c v' hv' => ?_⟩
    · rw [List.append_assoc, List.takeWhile_append_dropWhile]
    · -- the run is the one that taking characters comes to
      have hrun := (Document.takeWhile_append_eq_iff hchars (v := v.dropWhile isIdentifierChar)).mp
        (by rw [List.takeWhile_append_dropWhile])
      rw [← isIdentifierChar_iff, hrun c v' hv']
      exact Bool.false_ne_true
  · rintro ⟨u, w, v, rfl, hu, hname, hne, hchars, hstop⟩
    have hrun : (w ++ v).takeWhile isIdentifierChar = w := by
      rw [Document.takeWhile_append_eq_iff fun c hc => isIdentifierChar_iff.mpr (hchars c hc)]
      intro c v' hv'
      rw [Bool.eq_false_iff, ne_eq, isIdentifierChar_iff]
      exact hstop c v' hv'
    exact ⟨u, w ++ v, by rw [List.append_assoc], hu, by rw [hrun, hname], by rwa [hrun]⟩

/-- What is read at a byte where there is no name. -/
theorem readIdentifier_of_no_name {t : Text} {n : Nat} (hnone : ∀ name, ¬ IsNameAt t n name) :
    Document.readIdentifier t n = .error (.notAnIdentifier n) := by
  have hnot : ∀ i, Document.readIdentifier t n ≠ .ok i := fun i hi =>
    hnone i.name (readIdentifier_eq_ok_iff_isNameAt.mp hi).2
  unfold Document.readIdentifier at hnot ⊢
  split
  · rfl
  · rename_i hcut
    rw [hcut] at hnot
    simp only at hnot ⊢
    split
    · rfl
    · rename_i hname
      rw [if_neg hname] at hnot
      exact absurd rfl (hnot _)

/-- **Lookups are exact.**  Following words through the first source whose path ends with the hint,
one gets to the byte of the generated text at which the character starts that stands at the line and
the column of the last entry about the least place that the words lead to; if one of these steps
fails, the first that does decides the error.  An identifier is found exactly if that byte is, and
the name is the longest run of characters of names there, which is not empty. -/
theorem trace_exact (d : Document) (hint : String) (generated : Text) (words : List String) :
    (∀ r, (d.trace hint generated (.needles words)).map Trace.offset = r ↔
      Translates d hint generated words r) ∧
    ∀ i, d.identifierAt hint generated words = .ok i ↔
      Translates d hint generated words (.ok i.offset) ∧ IsNameAt generated i.offset i.name := by
  refine ⟨fun r => translates_iff.symm, fun i => ?_⟩
  rw [translates_iff]
  unfold Document.identifierAt
  cases d.trace hint generated (.needles words) with
  | error e =>
    constructor
    · intro h
      cases h
    · rintro ⟨h, -⟩
      cases h
  | ok t =>
    have hread : (Except.ok t >>= fun t => Document.readIdentifier generated t.offset) =
        Document.readIdentifier generated t.offset := rfl
    rw [hread, readIdentifier_eq_ok_iff_isNameAt]
    constructor
    · rintro ⟨hoffset, hname⟩
      exact ⟨congrArg Except.ok hoffset.symm, hoffset ▸ hname⟩
    · rintro ⟨hoffset, hname⟩
      have heq : i.offset = t.offset := (Except.ok.inj hoffset).symm
      exact ⟨heq, heq ▸ hname⟩

end SourceMap

end TextPatch
