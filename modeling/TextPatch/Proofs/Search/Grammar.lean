/-
# Which searches are accepted

A search is a list of items.  An item in double braces is a *source needle*, if such needles are
looked up; in regex mode an item between slashes with letters behind them is a *pattern*; any other
item is a word.  There are five ways in which an item can be wrong after the items before it
(`SearchSpec.Offends`), and a list is split exactly if no item of it is.

* `SearchSpec.ofSearch_grammar` -- **a search is accepted exactly if it is admissible**
  (`SearchSpec.Admissible`, which says so of the list as a whole); what an accepted search is made
  of gives the list again, item by item (`SearchSpec.Represents`); and a search that is refused is
  refused for the first item that is wrong (`SearchSpec.Refused`).

The shapes are told apart by `sourceNeedle?_eq_some_iff` and `patternParts?_eq_some_iff`.  An item
that almost has one of them -- `{{}`, `/`, `/a/1` -- is a word.
-/
import TextPatch.Proofs.Run
import TextPatch.Search

namespace TextPatch

/-! ## 1. The shapes of items -/

/-- A text in double braces. -/
def braced (inner : String) : String := "\x7b\x7b" ++ inner ++ "\x7d\x7d"

theorem toList_braced (inner : String) :
    (braced inner).toList = '\x7b' :: '\x7b' :: (inner.toList ++ ['\x7d', '\x7d']) := by
  simp [braced]

theorem braced_ne_empty (inner : String) : braced inner ≠ "" := by
  intro h
  have := toList_braced inner
  rw [h] at this
  cases this

/-- The items in double braces are found, and what stands between the braces. -/
theorem sourceNeedle?_eq_some_iff {item inner : String} :
    sourceNeedle? item = some inner ↔ item = braced inner := by
  constructor
  · intro h
    unfold sourceNeedle? at h
    split at h
    · rename_i t hitem
      split at h
      · rename_i back hback
        obtain rfl : String.ofList back.reverse = inner := Option.some.inj h
        refine String.toList_inj.mp ?_
        have ht : t = back.reverse ++ ['\x7d', '\x7d'] := by
          have := congrArg List.reverse hback
          simpa using this
        rw [toList_braced, hitem, ht, String.toList_ofList]
      · cases h
    · cases h
  · rintro rfl
    simp [sourceNeedle?, toList_braced]

@[simp] theorem sourceNeedle?_braced (inner : String) :
    sourceNeedle? (braced inner) = some inner :=
  sourceNeedle?_eq_some_iff.mpr rfl

theorem sourceNeedle?_eq_none_iff {item : String} :
    sourceNeedle? item = none ↔ ∀ inner, item ≠ braced inner := by
  rw [Option.eq_none_iff_forall_not_mem]
  exact forall_congr' fun inner => not_congr sourceNeedle?_eq_some_iff

namespace Needle

/-- The shape of a pattern: a source between slashes, with letters behind it.  As letters are no
slashes, the second slash is the last one of the token. -/
structure IsPattern (token : String) (source flags : Text) : Prop where
  toList_eq : token.toList = '/' :: (source ++ '/' :: flags)
  letters : ∀ c ∈ flags, c.isAlpha = true

/-- The switches that the flags of a pattern stand for. -/
def options (flags : Text) : RegexOptions :=
  ⟨flags.contains 'i', flags.contains 'm', flags.contains 's', flags.contains 'x'⟩

/-- What a split at the last slash is. -/
theorem split_at_last_slash {body source flags : Text} (hflags : '/' ∉ flags) :
    body.reverse.takeWhile (· != '/') = flags.reverse ∧
      body.reverse.dropWhile (· != '/') = '/' :: source.reverse ↔
    body = source ++ '/' :: flags := by
  constructor
  · rintro ⟨htake, hdrop⟩
    have := List.takeWhile_append_dropWhile (p := (· != '/')) (l := body.reverse)
    rw [htake, hdrop] at this
    have hback := congrArg List.reverse this
    simpa using hback.symm
  · rintro rfl
    have hall : ∀ c ∈ flags.reverse, (c != '/') = true := by
      intro c hc
      rw [bne_iff_ne]
      rintro rfl
      exact hflags (List.mem_reverse.mp hc)
    have hrev : (source ++ '/' :: flags).reverse = flags.reverse ++ '/' :: source.reverse := by
      simp
    rw [hrev, List.takeWhile_append_of_pos hall, List.dropWhile_append_of_pos hall]
    simp

/-- The tokens of the shape are found, and their parts. -/
theorem patternParts?_eq_some_iff {token : String} {source flags : Text} :
    patternParts? token.toList = some (source, flags) ↔ IsPattern token source flags := by
  constructor
  · intro h
    unfold patternParts? at h
    split at h
    · rename_i body hbody
      have hparts := List.takeWhile_append_dropWhile (p := (· != '/')) (l := body.reverse)
      have hslash := List.head?_dropWhile_not (· != '/') body.reverse
      simp only at h
      split at h
      · rename_i x back hback
        rw [hback] at hparts hslash
        obtain rfl : x = '/' := by simpa using hslash
        split at h
        · rename_i hletters
          obtain ⟨rfl, rfl⟩ := Prod.mk.inj (Option.some.inj h)
          refine ⟨hbody.trans (congrArg ('/' :: ·) ?_), List.all_eq_true.mp hletters⟩
          have := congrArg List.reverse hparts.symm
          simpa using this
        · cases h
      · cases h
    · cases h
  · rintro ⟨htoken, hletters⟩
    have hflags : '/' ∉ flags := fun hmem => by
      have := hletters '/' hmem
      revert this
      decide
    obtain ⟨htake, hdrop⟩ :=
      (@split_at_last_slash (source ++ '/' :: flags) source flags hflags).mpr rfl
    simp only [patternParts?, htoken, htake, hdrop, List.reverse_reverse]
    rw [if_pos (List.all_eq_true.mpr hletters)]

/-- Braces that overlap are no source needle, and letters only stand behind a pattern. -/
example : sourceNeedle? "\x7b\x7b\x7d" = none ∧ patternParts? "/a/1".toList = none := by decide

/-- The shape of a token determines its parts. -/
theorem IsPattern.unique {token : String} {source source' flags flags' : Text}
    (h : IsPattern token source flags) (h' : IsPattern token source' flags') :
    source = source' ∧ flags = flags' := by
  have := (patternParts?_eq_some_iff.mpr h).symm.trans (patternParts?_eq_some_iff.mpr h')
  exact Prod.mk.inj (Option.some.inj this)

/-- A pattern begins with a slash, so it is neither empty nor in braces. -/
theorem IsPattern.ne_braced {token : String} {source flags : Text}
    (h : IsPattern token source flags) (inner : String) : token ≠ braced inner := by
  rintro rfl
  have := h.toList_eq
  rw [toList_braced] at this
  cases this

theorem IsPattern.ne_empty {token : String} {source flags : Text}
    (h : IsPattern token source flags) : token ≠ "" := by
  rintro rfl
  cases h.toList_eq

/-! ## 2. What a token is read as -/

/-- What a token is read as. -/
inductive Reads (mode : SearchMode) (token : String) : Needle → Prop
  /-- A token without the shape of a pattern, or outside regex mode, is a word. -/
  | word (hshape : mode = .regex → ∀ source flags, ¬ IsPattern token source flags) :
      Reads mode token (.literal token.toList)
  | pattern {source flags : Text} {regex : Regex} (hmode : mode = .regex)
      (hshape : IsPattern token source flags) (hknown : ∀ c ∈ flags, c ∈ regexFlags)
      (hregex : Regex.compile (options flags) source = .ok regex) :
      Reads mode token (.pattern token regex (flags.contains 'g'))

/-- What is wrong with a token that has the shape of a pattern. -/
inductive Fault (token : String) : NeedleError → Prop
  /-- Of several letters that are no flags the first one is told. -/
  | unknownFlag {source known rest : Text} {flag : Char}
      (hshape : IsPattern token source (known ++ flag :: rest))
      (hknown : ∀ c ∈ known, c ∈ regexFlags) (hflag : flag ∉ regexFlags) :
      Fault token (.unknownRegexFlag token flag)
  | invalidRegex {source flags : Text} {cause : RegexError}
      (hshape : IsPattern token source flags) (hknown : ∀ c ∈ flags, c ∈ regexFlags)
      (hcause : Regex.compile (options flags) source = .error cause) :
      Fault token (.invalidRegex token cause)

variable {mode : SearchMode} {token : String} {n : Needle} {e : NeedleError}

/-- No letter of a list is found that is no flag. -/
theorem find?_unknown_eq_none_iff {flags : Text} :
    (flags.find? fun c => !regexFlags.contains c) = none ↔ ∀ c ∈ flags, c ∈ regexFlags := by
  simp [List.find?_eq_none]

theorem ofToken_of_isPattern {source flags : Text} (h : IsPattern token source flags) :
    ofToken .regex token = ofPattern token source flags := by
  simp [ofToken, patternParts?_eq_some_iff.mpr h]

theorem Reads.ofToken_eq (h : Reads mode token n) : ofToken mode token = .ok n := by
  cases h with
  | word hshape =>
    unfold ofToken
    split
    · rename_i source flags hparts
      split at hparts
      · rename_i hmode
        exact absurd (patternParts?_eq_some_iff.mp hparts) (hshape hmode source flags)
      · cases hparts
    · rfl
  | pattern hmode hshape hknown hregex =>
    subst hmode
    rw [ofToken_of_isPattern hshape, ofPattern, find?_unknown_eq_none_iff.mpr hknown]
    simp only [options] at hregex
    simp only [hregex]

theorem Fault.ofToken_eq (h : Fault token e) : ofToken .regex token = .error e := by
  cases h with
  | @unknownFlag source known rest flag hshape hknown hflag =>
    have hfind : ((known ++ flag :: rest).find? fun c => !regexFlags.contains c) = some flag := by
      rw [List.find?_append, find?_unknown_eq_none_iff.mpr hknown, Option.none_or,
        List.find?_cons_of_pos]
      simpa using hflag
    rw [ofToken_of_isPattern hshape, ofPattern, hfind]
  | invalidRegex hshape hknown hcause =>
    rw [ofToken_of_isPattern hshape, ofPattern, find?_unknown_eq_none_iff.mpr hknown]
    simp only [options] at hcause
    simp only [hcause]

/-- A token is read as something, or something is wrong with it. -/
theorem reads_or_fault (mode : SearchMode) (token : String) :
    (∃ n, Reads mode token n) ∨ mode = .regex ∧ ∃ e, Fault token e := by
  by_cases hshape : mode = .regex ∧ ∃ source flags, IsPattern token source flags
  · obtain ⟨hmode, source, flags, hshape⟩ := hshape
    cases hfind : flags.find? fun c => !regexFlags.contains c with
    | some flag =>
      obtain ⟨hflag, known, rest, rfl, hknown⟩ := List.find?_eq_some_iff_append.mp hfind
      exact Or.inr ⟨hmode, _, .unknownFlag hshape (fun c hc => by simpa using hknown c hc)
        (by simpa using hflag)⟩
    | none =>
      have hknown := find?_unknown_eq_none_iff.mp hfind
      cases hregex : Regex.compile (options flags) source with
      | error cause => exact Or.inr ⟨hmode, _, .invalidRegex hshape hknown hregex⟩
      | ok regex => exact Or.inl ⟨_, .pattern hmode hshape hknown hregex⟩
  · exact Or.inl ⟨_, .word fun hmode source flags h => hshape ⟨hmode, source, flags, h⟩⟩

/-- **A token is read exactly as it reads.** -/
theorem ofToken_eq_ok_iff : ofToken mode token = .ok n ↔ Reads mode token n := by
  refine ⟨fun h => ?_, Reads.ofToken_eq⟩
  rcases reads_or_fault mode token with ⟨n', hn'⟩ | ⟨rfl, e, he⟩
  · obtain rfl : n' = n := Except.ok.inj (hn'.ofToken_eq.symm.trans h)
    exact hn'
  · cases he.ofToken_eq.symm.trans h

/-- A needle is written as the token that it was read from. -/
theorem Reads.written_eq (h : Reads mode token n) : n.written = token := by
  cases h with
  | word hshape => exact String.ofList_toList
  | pattern hmode hshape hknown hregex => rfl

/-- A token asks for all matches exactly if it is a pattern with the flag `g`. -/
theorem Reads.asksForAll_iff (h : Reads mode token n) :
    n.asksForAll = true ↔
      mode = .regex ∧ ∃ source flags, IsPattern token source flags ∧ 'g' ∈ flags := by
  cases h with
  | word hshape =>
    refine ⟨fun h => (by cases h), ?_⟩
    rintro ⟨hmode, source, flags, hpattern, -⟩
    exact absurd hpattern (hshape hmode source flags)
  | pattern hmode hshape hknown hregex =>
    refine ⟨fun hg => ⟨hmode, _, _, hshape, List.contains_iff_mem.mp hg⟩, ?_⟩
    rintro ⟨-, source', flags', hshape', hg⟩
    obtain ⟨rfl, rfl⟩ := hshape.unique hshape'
    exact List.contains_iff_mem.mpr hg

end Needle

namespace SearchSpec

/-! ## 3. What is wrong with an item -/

variable {mode : SearchMode} {sourceMapped done : Bool} {label item : String}
  {before items rest : List String} {e : NeedleError}

/-- The items that are looked up through the source map. -/
def IsSource (sourceMapped : Bool) (item : String) : Prop :=
  sourceMapped = true ∧ ∃ inner, item = braced inner

/-- What is wrong with an item that stands behind others. -/
inductive Offends (mode : SearchMode) (sourceMapped : Bool) (label : String)
    (before : List String) (item : String) : NeedleError → Prop
  | late (hitem : IsSource sourceMapped item)
      (hlate : ∃ earlier ∈ before, ¬ IsSource sourceMapped earlier) :
      Offends mode sourceMapped label before item (.sourceNeedleAfterRegular label)
  | bare (hmapped : sourceMapped = true) (hitem : item = braced "")
      (hfirst : ∀ earlier ∈ before, IsSource sourceMapped earlier) :
      Offends mode sourceMapped label before item (.emptyNeedle label)
  | empty (hitem : item = "") : Offends mode sourceMapped label before item (.emptyNeedle label)
  | fault {e : NeedleError} (hmode : mode = .regex) (hfault : Needle.Fault item e) :
      Offends mode sourceMapped label before item e

/-- What is wrong with the first item, of those that follow `before`, with which anything is. -/
inductive FirstOffence (mode : SearchMode) (sourceMapped : Bool) (label : String) :
    (before items : List String) → NeedleError → Prop
  | here {before rest : List String} {item : String} {e : NeedleError}
      (h : Offends mode sourceMapped label before item e) :
      FirstOffence mode sourceMapped label before (item :: rest) e
  | later {before rest : List String} {item : String} {e : NeedleError}
      (hfine : ∀ e, ¬ Offends mode sourceMapped label before item e)
      (h : FirstOffence mode sourceMapped label (before ++ [item]) rest e) :
      FirstOffence mode sourceMapped label before (item :: rest) e

/-- There is a first offence exactly if there is any. -/
theorem exists_firstOffence_iff (mode : SearchMode) (sourceMapped : Bool) (label : String)
    (before items : List String) :
    (∃ e, FirstOffence mode sourceMapped label before items e) ↔
      ∃ earlier item after e, items = earlier ++ item :: after ∧
        Offends mode sourceMapped label (before ++ earlier) item e := by
  induction items generalizing before with
  | nil => exact ⟨fun ⟨e, h⟩ => (by cases h), fun ⟨_, _, _, _, h, _⟩ => by simp at h⟩
  | cons first rest ih =>
    by_cases hfirst : ∃ e, Offends mode sourceMapped label before first e
    · obtain ⟨e, he⟩ := hfirst
      exact ⟨fun _ => ⟨[], first, rest, e, rfl, by rwa [List.append_nil]⟩, fun _ => ⟨e, .here he⟩⟩
    · have hfine := not_exists.mp hfirst
      constructor
      · rintro ⟨e, h⟩
        cases h with
        | here h => exact absurd h (hfine e)
        | later _ hlater =>
          obtain ⟨earlier, item, after, e, rfl, h⟩ := (ih (before ++ [first])).mp ⟨_, hlater⟩
          exact ⟨first :: earlier, item, after, e, rfl, by simpa using h⟩
      · rintro ⟨earlier, item, after, e, hitems, h⟩
        cases earlier with
        | nil =>
          obtain ⟨rfl, rfl⟩ := List.cons.inj hitems
          rw [List.append_nil] at h
          exact absurd h (hfine e)
        | cons x earlier =>
          obtain ⟨rfl, rfl⟩ := List.cons.inj hitems
          obtain ⟨e, h⟩ := (ih (before ++ [first])).mpr
            ⟨earlier, item, after, e, rfl, by simpa using h⟩
          exact ⟨e, .later hfine h⟩

/-- What an item comes to: something is wrong with it, or it is a source needle among source
needles, or a regular one. -/
theorem item_cases (mode : SearchMode) (sourceMapped : Bool) (label : String)
    (before : List String) (item : String) :
    (∃ e, Offends mode sourceMapped label before item e) ∨
    (∃ inner, sourceMapped = true ∧ inner ≠ "" ∧ item = braced inner ∧
      ∀ earlier ∈ before, IsSource sourceMapped earlier) ∨
    ∃ n, ¬ IsSource sourceMapped item ∧ item ≠ "" ∧ Needle.Reads mode item n := by
  by_cases hsource : IsSource sourceMapped item
  · by_cases hlate : ∃ earlier ∈ before, ¬ IsSource sourceMapped earlier
    · exact Or.inl ⟨_, .late hsource hlate⟩
    · have hfirst : ∀ earlier ∈ before, IsSource sourceMapped earlier := fun earlier hmem =>
        Classical.byContradiction fun hregular => hlate ⟨earlier, hmem, hregular⟩
      obtain ⟨hmapped, inner, rfl⟩ := hsource
      by_cases hinner : inner = ""
      · exact Or.inl ⟨_, .bare hmapped (by rw [hinner]) hfirst⟩
      · exact Or.inr (Or.inl ⟨inner, hmapped, hinner, rfl, hfirst⟩)
  · by_cases hempty : item = ""
    · exact Or.inl ⟨_, .empty hempty⟩
    · rcases Needle.reads_or_fault mode item with ⟨n, hn⟩ | ⟨hmode, e, he⟩
      · exact Or.inr (Or.inr ⟨n, hsource, hempty, hn⟩)
      · exact Or.inl ⟨e, .fault hmode he⟩

/-! ## 4. Splitting -/

/-- How the splitting of a list tells a regular item, which is all that it remembers. -/
theorem sourceNeedle?_of_not_isSource (h : ¬ IsSource sourceMapped item) :
    (if sourceMapped = true then sourceNeedle? item else none) = none := by
  split
  · rename_i hmapped
    exact sourceNeedle?_eq_none_iff.mpr fun inner hitem => h ⟨hmapped, inner, hitem⟩
  · rfl

theorem split_source (mode : SearchMode) (label : String) {inner : String} (h : inner ≠ "")
    (rest : List String) :
    split mode true label false (braced inner :: rest) =
      (split mode true label false rest).map fun r => (inner :: r.1, r.2) := by
  rw [split]
  simp only [if_true, sourceNeedle?_braced, String.isEmpty_iff, h, if_false]
  rfl

theorem split_regular (label : String) (done : Bool) {n : Needle}
    (hitem : ¬ IsSource sourceMapped item) (hempty : item ≠ "") (hn : Needle.Reads mode item n)
    (rest : List String) :
    split mode sourceMapped label done (item :: rest) =
      (split mode sourceMapped label true rest).map fun r => (r.1, n :: r.2) := by
  rw [split, sourceNeedle?_of_not_isSource hitem]
  simp only [String.isEmpty_iff, hempty, if_false, hn.ofToken_eq]
  rfl

/-- Splitting stops at an item with which something is wrong. -/
theorem Offends.split_eq (h : Offends mode sourceMapped label before item e)
    (hdone : done = true ↔ ∃ earlier ∈ before, ¬ IsSource sourceMapped earlier)
    (rest : List String) : split mode sourceMapped label done (item :: rest) = .error e := by
  cases h with
  | late hitem hlate =>
    obtain ⟨rfl, inner, rfl⟩ := hitem
    simp [split, hdone.mpr hlate]
  | bare hmapped hitem hfirst =>
    have hnot : done = false := by
      rw [Bool.eq_false_iff, ne_eq, hdone]
      rintro ⟨earlier, hmem, hregular⟩
      exact hregular (hfirst earlier hmem)
    subst hmapped hitem hnot
    simp [split]
  | empty hitem =>
    subst hitem
    have hregular : ¬ IsSource sourceMapped "" := fun ⟨_, inner, h⟩ => braced_ne_empty inner h.symm
    simp [split, sourceNeedle?_of_not_isSource hregular]
  | fault hmode hfault =>
    have hshape : ∃ source flags, Needle.IsPattern item source flags := by
      cases hfault with
      | unknownFlag hshape _ _ => exact ⟨_, _, hshape⟩
      | invalidRegex hshape _ _ => exact ⟨_, _, hshape⟩
    obtain ⟨source, flags, hshape⟩ := hshape
    have hregular : ¬ IsSource sourceMapped item := fun ⟨_, inner, h⟩ => hshape.ne_braced inner h
    subst hmode
    rw [split, sourceNeedle?_of_not_isSource hregular]
    simp only [String.isEmpty_iff, hshape.ne_empty, if_false, hfault.ofToken_eq]
    rfl

/-- An item with which nothing is wrong is split off, and the rest is split knowing of it. -/
theorem split_cons (mode : SearchMode) (label : String)
    (hdone : done = true ↔ ∃ earlier ∈ before, ¬ IsSource sourceMapped earlier) (item : String) :
    (∃ e, Offends mode sourceMapped label before item e) ∨
    ∃ done' f, (done' = true ↔ ∃ earlier ∈ before ++ [item], ¬ IsSource sourceMapped earlier) ∧
      ∀ rest, split mode sourceMapped label done (item :: rest) =
        (split mode sourceMapped label done' rest).map f := by
  rcases item_cases mode sourceMapped label before item with
    hoffends | ⟨inner, rfl, hinner, rfl, hfirst⟩ | ⟨n, hitem, hempty, hn⟩
  · exact Or.inl hoffends
  · have hnot : ¬ ∃ earlier ∈ before, ¬ IsSource true earlier :=
      fun ⟨earlier, hmem, hregular⟩ => hregular (hfirst earlier hmem)
    obtain rfl : done = false := Bool.eq_false_iff.mpr fun h => hnot (hdone.mp h)
    refine Or.inr ⟨false, _, ?_, split_source mode label hinner⟩
    have hsource : IsSource true (braced inner) := ⟨rfl, inner, rfl⟩
    simp only [List.mem_append, List.mem_singleton]
    refine ⟨fun h => (by cases h), ?_⟩
    rintro ⟨earlier, hmem | rfl, hregular⟩
    · exact absurd ⟨earlier, hmem, hregular⟩ hnot
    · exact absurd hsource hregular
  · exact Or.inr ⟨true, _, ⟨fun _ => ⟨item, by simp, hitem⟩, fun _ => rfl⟩,
      split_regular label done hitem hempty hn⟩

/-- **Splitting fails exactly for the first offence.**  `done` tells whether a regular item is among
those before. -/
theorem split_eq_error_iff
    (hdone : done = true ↔ ∃ earlier ∈ before, ¬ IsSource sourceMapped earlier) :
    split mode sourceMapped label done items = .error e ↔
      FirstOffence mode sourceMapped label before items e := by
  induction items generalizing before done with
  | nil => exact ⟨fun h => (by cases h), fun h => (by cases h)⟩
  | cons item rest ih =>
    rcases split_cons mode label hdone item with ⟨e', he'⟩ | ⟨done', f, hdone', hsplit⟩
    · constructor
      · intro h
        obtain rfl : e' = e := Except.error.inj ((he'.split_eq hdone rest).symm.trans h)
        exact .here he'
      · intro h
        cases h with
        | here h => exact h.split_eq hdone rest
        | later hfine _ => exact absurd he' (hfine e')
    · have hfine : ∀ e, ¬ Offends mode sourceMapped label before item e := fun e h => by
        cases (h.split_eq hdone []).symm.trans (hsplit [])
      have hmap : (split mode sourceMapped label done' rest).map f = .error e ↔
          split mode sourceMapped label done' rest = .error e := by
        cases split mode sourceMapped label done' rest <;> simp [Except.map]
      rw [hsplit, hmap, ih hdone']
      constructor
      · exact .later hfine
      · intro h
        cases h with
        | here h => exact absurd h (hfine e)
        | later _ h => exact h

/-- What a list is split into: source needles, none of them behind a regular item, and regular
needles. -/
structure SplitsInto (mode : SearchMode) (sourceMapped : Bool) (items sources : List String)
    (needles : List Needle) : Prop where
  /-- Nothing is lost, and the order is kept. -/
  items_eq : sources.map braced ++ needles.map Needle.written = items
  mapped : ∀ inner ∈ sources, sourceMapped = true ∧ inner ≠ ""
  regular : ∀ n ∈ needles, ¬ IsSource sourceMapped n.written
  reads : ∀ n ∈ needles, Needle.Reads mode n.written n

/-- **A list that is split is split so.**  Behind a regular item there are no source needles. -/
theorem splitsInto_of_split {sources : List String} {needles : List Needle}
    (h : split mode sourceMapped label done items = .ok (sources, needles)) :
    SplitsInto mode sourceMapped items sources needles ∧ (done = true → sources = []) := by
  induction items generalizing done sources needles with
  | nil =>
    obtain ⟨rfl, rfl⟩ := Prod.mk.inj (Except.ok.inj h)
    exact ⟨⟨rfl, by simp, by simp, by simp⟩, fun _ => rfl⟩
  | cons item rest ih =>
    by_cases hsource : IsSource sourceMapped item
    · obtain ⟨rfl, inner, rfl⟩ := hsource
      simp only [split, if_true, sourceNeedle?_braced] at h
      split at h
      · cases h
      · rename_i hdone
        split at h
        · cases h
        · rename_i hinner
          obtain ⟨⟨sources', needles'⟩, hrest, h⟩ := bind_eq_ok.mp h
          obtain ⟨rfl, rfl⟩ := Prod.mk.inj (Except.ok.inj h)
          obtain ⟨hsplits, -⟩ := ih hrest
          refine ⟨⟨?_, ?_, hsplits.regular, hsplits.reads⟩, fun h => absurd h hdone⟩
          · rw [List.map_cons, List.cons_append, hsplits.items_eq]
          · exact List.forall_mem_cons.mpr
              ⟨⟨rfl, fun h => hinner (String.isEmpty_iff.mpr h)⟩, hsplits.mapped⟩
    · rw [split, sourceNeedle?_of_not_isSource hsource] at h
      simp only at h
      split at h
      · cases h
      · obtain ⟨n, hn, h⟩ := bind_eq_ok.mp h
        obtain ⟨⟨sources', needles'⟩, hrest, h⟩ := bind_eq_ok.mp h
        obtain ⟨rfl, rfl⟩ := Prod.mk.inj (Except.ok.inj h)
        obtain ⟨hsplits, hnone⟩ := ih hrest
        obtain rfl := hnone rfl
        have hreads := Needle.ofToken_eq_ok_iff.mp hn
        have hwritten := hreads.written_eq
        refine ⟨⟨?_, by simp, ?_, ?_⟩, fun _ => rfl⟩
        · have hitems : needles'.map Needle.written = rest := by simpa using hsplits.items_eq
          simp [hwritten, hitems]
        · exact List.forall_mem_cons.mpr ⟨by rwa [hwritten], hsplits.regular⟩
        · exact List.forall_mem_cons.mpr ⟨by rwa [hwritten], hsplits.reads⟩

/-! ## 5. Searches -/

/-- The searches that are accepted. -/
structure Admissible (search : Search) (mode : SearchMode) (sourceMapped : Bool) : Prop where
  ne_nil : search.needles ≠ []
  ne_empty : ∀ item ∈ search.needles, item ≠ ""
  inner_ne_empty : sourceMapped = true → ∀ inner, braced inner ∈ search.needles → inner ≠ ""
  /-- Source needles stand before all other items. -/
  sources_first : ∀ before item after, search.needles = before ++ item :: after →
    IsSource sourceMapped item → ∀ earlier ∈ before, IsSource sourceMapped earlier
  /-- Patterns have flags only, and a source that is a regular expression. -/
  patterns : mode = .regex → ∀ item ∈ search.needles, ∀ source flags,
    Needle.IsPattern item source flags → (∀ c ∈ flags, c ∈ Needle.regexFlags) ∧
      ∃ regex, Regex.compile (Needle.options flags) source = .ok regex

/-- How a search that has been checked stands for the one that was given. -/
structure Represents (search : Search) (mode : SearchMode) (isOptional sourceMapped : Bool)
    (s : SearchSpec) : Prop
    extends SplitsInto mode sourceMapped search.needles s.sourceNeedles s.needles where
  /-- It asks for all matches if the mode does, or a pattern has the flag `g`. -/
  exhaustive_iff : s.exhaustive = true ↔ mode = .multiple ∨ mode = .regex ∧
    ∃ item ∈ search.needles, ∃ source flags, Needle.IsPattern item source flags ∧ 'g' ∈ flags
  isOptional_eq : s.isOptional = isOptional
  sourceMapped_eq : s.sourceMapped = sourceMapped
  label_eq : s.label = search.label

/-- Why a search is refused: there is nothing in it, or for its first item that is wrong. -/
inductive Refused (search : Search) (mode : SearchMode) (sourceMapped : Bool) :
    NeedleError → Prop
  | empty (h : search.needles = [] ∨ search = .one "") :
      Refused search mode sourceMapped .emptySearch
  | item {e : NeedleError} (hne : search ≠ .one "")
      (h : FirstOffence mode sourceMapped search.label [] search.needles e) :
      Refused search mode sourceMapped e

/-- A list is admissible exactly if nothing is wrong with any item of it. -/
theorem admissible_iff {search : Search} :
    Admissible search mode sourceMapped ↔ search.needles ≠ [] ∧
      ∀ e, ¬ FirstOffence mode sourceMapped search.label [] search.needles e := by
  have hnone : (∀ e, ¬ FirstOffence mode sourceMapped search.label [] search.needles e) ↔
      ∀ before item after e, search.needles = before ++ item :: after →
        ¬ Offends mode sourceMapped search.label before item e := by
    have := not_congr (exists_firstOffence_iff mode sourceMapped search.label [] search.needles)
    simpa only [not_exists, not_and, List.nil_append] using this
  rw [hnone]
  constructor
  · intro h
    refine ⟨h.ne_nil, fun before item after e hitems hoffends => ?_⟩
    have hmem : item ∈ search.needles := by simp [hitems]
    cases hoffends with
    | late hitem hlate =>
      obtain ⟨earlier, hearlier, hregular⟩ := hlate
      exact hregular (h.sources_first before item after hitems hitem earlier hearlier)
    | bare hmapped hitem hfirst => exact h.inner_ne_empty hmapped "" (hitem ▸ hmem) rfl
    | empty hitem => exact h.ne_empty item hmem hitem
    | fault hmode hfault =>
      cases hfault with
      | unknownFlag hshape hknown hflag =>
        exact hflag ((h.patterns hmode item hmem _ _ hshape).1 _ (by simp))
      | invalidRegex hshape hknown hcause =>
        obtain ⟨-, regex, hregex⟩ := h.patterns hmode item hmem _ _ hshape
        cases hcause.symm.trans hregex
  · rintro ⟨hne, hfine⟩
    have hsources : ∀ before item after, search.needles = before ++ item :: after →
        IsSource sourceMapped item → ∀ earlier ∈ before, IsSource sourceMapped earlier := by
      intro before item after hitems hitem earlier hearlier
      exact Classical.byContradiction fun hregular =>
        hfine before item after _ hitems (.late hitem ⟨earlier, hearlier, hregular⟩)
    refine ⟨hne, fun item hmem hempty => ?_, fun hmapped inner hmem hinner => ?_, hsources,
      fun hmode item hmem source flags hshape => ?_⟩
    · obtain ⟨before, after, hitems⟩ := List.append_of_mem hmem
      exact hfine before item after _ hitems (.empty hempty)
    · obtain ⟨before, after, hitems⟩ := List.append_of_mem hmem
      exact hfine before _ after _ hitems (.bare hmapped (by rw [hinner])
        (hsources before _ after hitems ⟨hmapped, inner, rfl⟩))
    · obtain ⟨before, after, hitems⟩ := List.append_of_mem hmem
      rcases Needle.reads_or_fault mode item with ⟨n, hn⟩ | ⟨-, e, he⟩
      · cases hn with
        | word hword => exact absurd hshape (hword hmode source flags)
        | pattern _ hshape' hknown hregex =>
          obtain ⟨rfl, rfl⟩ := hshape'.unique hshape
          exact ⟨hknown, _, hregex⟩
      · exact absurd (.fault hmode he) (hfine before item after e hitems)

/-- A search that has been checked stands for the one that was given. -/
theorem represents_of_ofSearch {search : Search} { isOptional : Bool} {s : SearchSpec}
    (h : ofSearch search mode isOptional sourceMapped = .ok s) :
    Represents search mode isOptional sourceMapped s := by
  unfold ofSearch at h
  split at h
  · cases h
  · obtain ⟨⟨sources, needles⟩, hsplit, h⟩ := bind_eq_ok.mp h
    cases h
    obtain ⟨hsplits, -⟩ := splitsInto_of_split hsplit
    refine ⟨hsplits, ?_, rfl, rfl, rfl⟩
    simp only [Bool.or_eq_true, beq_iff_eq, List.any_eq_true]
    refine or_congr_right ⟨?_, ?_⟩
    · rintro ⟨n, hn, hg⟩
      obtain ⟨hmode, hpattern⟩ := (hsplits.reads n hn).asksForAll_iff.mp hg
      refine ⟨hmode, n.written, ?_, hpattern⟩
      rw [← hsplits.items_eq]
      exact List.mem_append_right _ (List.mem_map_of_mem hn)
    · rintro ⟨hmode, item, hitem, source, flags, hshape, hg⟩
      rw [← hsplits.items_eq] at hitem
      rcases List.mem_append.mp hitem with hsource | hregular
      · obtain ⟨inner, -, rfl⟩ := List.mem_map.mp hsource
        exact absurd rfl (hshape.ne_braced inner)
      · obtain ⟨n, hn, rfl⟩ := List.mem_map.mp hregular
        exact ⟨n, hn, (hsplits.reads n hn).asksForAll_iff.mpr ⟨hmode, source, flags, hshape, hg⟩⟩

theorem ofSearch_eq_error_iff {search : Search} { isOptional : Bool} :
    ofSearch search mode isOptional sourceMapped = .error e ↔
      Refused search mode sourceMapped e := by
  have hdone : false = true ↔ ∃ earlier ∈ ([] : List String), ¬ IsSource sourceMapped earlier := by
    simp
  by_cases hnothing : search.needles = [] ∨ search = .one ""
  · have heq : ofSearch search mode isOptional sourceMapped = .error .emptySearch := by
      rw [ofSearch, if_pos (by simpa using hnothing)]
    rw [heq]
    constructor
    · intro h
      obtain rfl : NeedleError.emptySearch = e := Except.error.inj h
      exact .empty hnothing
    · intro h
      cases h with
      | empty _ => rfl
      | item hne h =>
        rcases hnothing with hnil | hone
        · rw [hnil] at h
          cases h
        · exact absurd hone hne
  · have heq : ofSearch search mode isOptional sourceMapped = .error e ↔
        split mode sourceMapped search.label false search.needles = .error e := by
      rw [ofSearch, if_neg (by simpa using hnothing)]
      refine ⟨fun h => ?_, fun h => bind_eq_error.mpr (Or.inl h)⟩
      rcases bind_eq_error.mp h with h | ⟨_, -, h⟩
      · exact h
      · cases h
    rw [heq, split_eq_error_iff hdone]
    constructor
    · exact .item fun hone => hnothing (Or.inr hone)
    · intro h
      cases h with
      | empty h => exact absurd h hnothing
      | item _ h => exact h

/-- **A search is accepted exactly if it is admissible.**  What it is split into gives its items
again, in order, and it asks for all matches exactly if the mode does or a pattern has the flag for
it.  A search that is refused is refused for its first item that is wrong. -/
theorem ofSearch_grammar (search : Search) (mode : SearchMode) (isOptional sourceMapped : Bool) :
    ((∃ s, ofSearch search mode isOptional sourceMapped = .ok s) ↔
      Admissible search mode sourceMapped) ∧
    (∀ s, ofSearch search mode isOptional sourceMapped = .ok s →
      Represents search mode isOptional sourceMapped s) ∧
    ∀ e, ofSearch search mode isOptional sourceMapped = .error e ↔
      Refused search mode sourceMapped e := by
  refine ⟨?_, fun s => represents_of_ofSearch, fun e => ofSearch_eq_error_iff⟩
  rw [admissible_iff]
  constructor
  · rintro ⟨s, hs⟩
    have hok : ∀ e, ¬ Refused search mode sourceMapped e := fun e h => by
      cases hs.symm.trans (ofSearch_eq_error_iff.mpr h)
    have hone : search ≠ .one "" := fun h => hok _ (.empty (Or.inr h))
    exact ⟨fun h => hok _ (.empty (Or.inl h)), fun e h => hok e (.item hone h)⟩
  · rintro ⟨hne, hfine⟩
    cases hsearch : ofSearch search mode isOptional sourceMapped with
    | ok s => exact ⟨s, rfl⟩
    | error e =>
      cases ofSearch_eq_error_iff.mp hsearch with
      | item _ h => exact absurd h (hfine e)
      | empty h =>
        rcases h with hnil | rfl
        · exact absurd hnil hne
        · exact absurd (.here (.empty rfl)) (hfine _)

end SearchSpec

end TextPatch
