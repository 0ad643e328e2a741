/-
# What an exhaustive search collects

An exhaustive search looks for one chain of needles after the other, each strictly behind the start
of the match before it, until there is none left.  `Collected` says what that comes to, without the
steps that the search allows itself: every match is the earliest end of all chains behind the one
before it (`EarliestEnd`), and behind the last one there is no chain.

* The search collects (`collected_following`): it has a step for every byte of the text, and every
  match moves on by at least one byte, so the steps never run out before the chains do.
* What is collected is strictly increasing, lies behind the seed and covers whole characters of the
  text (`Collected.increasing`, `Collected.behind`, `Collected.liesIn`).
* For a single needle it is every place at which the needle occurs (`Collected.mem_starts_iff`).

`resolve_collects` says this of whole searches.
-/
import TextPatch.Proofs.Run
import TextPatch.Proofs.Search.Exhaustive
import TextPatch.Proofs.SourceMap.Identifiers

namespace TextPatch

/-! ## 1. Earliest ends -/

/-- A match that is the earliest end of all chains of needles behind a seed. -/
structure EarliestEnd (needles : List Needle) (text : Text) (seed : Option Nat) (m : Match) :
    Prop where
  occurs : ∃ n, needles.getLast? = some n ∧ n.Occurs text m
  canEndAt : CanEndAt text seed needles m.start
  le_of_canEndAt : ∀ p, CanEndAt text seed needles p → m.start ≤ p

variable {needles : List Needle} {text : Text} {seed : Option Nat} {m : Match} {ms : List Match}

/-- The earliest end lies behind the seed, as all places of a chain do. -/
theorem EarliestEnd.behind (h : EarliestEnd needles text seed m) : ∀ o ∈ seed, o < m.start := by
  obtain ⟨places, hchained, hlast⟩ := h.canEndAt
  exact hchained.behind m.start (List.mem_of_getLast? hlast)

/-- The earliest end covers a part of the text. -/
theorem EarliestEnd.liesIn (h : EarliestEnd needles text seed m) : m.LiesIn text := by
  obtain ⟨n, -, hn⟩ := h.occurs
  exact hn.liesIn

/-- For a single needle, the earliest end is its first occurrence behind the seed. -/
theorem EarliestEnd.le_of_occursAt {n : Needle} (h : EarliestEnd [n] text seed m) {p : Nat}
    (hp : n.OccursAt text p) (hbehind : ∀ o ∈ seed, o < p) : m.start ≤ p :=
  h.le_of_canEndAt p (canEndAt_singleton_iff.mpr ⟨hp, hbehind⟩)

/-! ## 2. Collections -/

/-- Matches found one behind the start of the other: each is the earliest end behind the one before
it, the first one behind the seed, and behind the last one there is no chain. -/
inductive Collected (needles : List Needle) (text : Text) : (seed : Option Nat) → List Match → Prop
  | done {seed : Option Nat} (missing : ¬ ∃ ps, Chained text seed needles ps) :
      Collected needles text seed []
  | step {seed : Option Nat} {m : Match} {ms : List Match}
      (earliest : EarliestEnd needles text seed m)
      (rest : Collected needles text (some m.start) ms) : Collected needles text seed (m :: ms)

/-- All that is collected lies behind the seed. -/
theorem Collected.behind (h : Collected needles text seed ms) :
    ∀ m ∈ ms, ∀ o ∈ seed, o < m.start := by
  induction h with
  | done => simp
  | @step seed first rest hfirst _ ih =>
    intro m hm o ho
    have hseed := hfirst.behind o ho
    rcases List.mem_cons.mp hm with rfl | hm
    · exact hseed
    · exact Nat.lt_trans hseed (ih m hm first.start rfl)

/-- **What is collected is strictly increasing.** -/
theorem Collected.increasing (h : Collected needles text seed ms) :
    ms.Pairwise (·.start < ·.start) := by
  induction h with
  | done => exact List.Pairwise.nil
  | step _ hrest ih =>
    refine List.pairwise_cons.mpr ⟨fun m hm => ?_, ih⟩
    exact hrest.behind m hm _ rfl

/-- What holds of all earliest ends holds of all that is collected. -/
theorem Collected.forall_mem {P : Match → Prop} (h : Collected needles text seed ms)
    (hP : ∀ {seed m}, EarliestEnd needles text seed m → P m) : ∀ m ∈ ms, P m := by
  induction h with
  | done => simp
  | step hfirst _ ih => exact List.forall_mem_cons.mpr ⟨hP hfirst, ih⟩

/-- All that is collected covers whole characters of the text. -/
theorem Collected.liesIn (h : Collected needles text seed ms) : ∀ m ∈ ms, m.LiesIn text :=
  h.forall_mem EarliestEnd.liesIn

/-- **For a single needle, every place behind the seed at which it occurs is collected**, and no
other. -/
theorem Collected.mem_starts_iff {n : Needle} (h : Collected [n] text seed ms) {p : Nat} :
    p ∈ ms.map Match.start ↔ n.OccursAt text p ∧ ∀ o ∈ seed, o < p := by
  induction h with
  | @done seed hmissing =>
    simp only [List.map_nil, List.not_mem_nil, false_iff]
    rintro ⟨hp, hbehind⟩
    obtain ⟨ps, hps, -⟩ := canEndAt_singleton_iff.mpr ⟨hp, hbehind⟩
    exact hmissing ⟨ps, hps⟩
  | @step seed m ms hfirst _ ih =>
    rw [List.map_cons, List.mem_cons, ih]
    constructor
    · rintro (rfl | ⟨hp, hlt⟩)
      · exact canEndAt_singleton_iff.mp hfirst.canEndAt
      · refine ⟨hp, fun o ho => ?_⟩
        exact Nat.lt_trans (hfirst.behind o ho) (hlt m.start rfl)
    · rintro ⟨hp, hbehind⟩
      rcases Nat.eq_or_lt_of_le (hfirst.le_of_occursAt hp hbehind) with heq | hlt
      · exact Or.inl heq.symm
      · exact Or.inr ⟨hp, by rintro o ⟨⟩; exact hlt⟩

/-! ## 3. Searches collect -/

namespace SearchSpec

variable {s : SearchSpec} {file : String} {lookup : Option Lookup} {i : Option Identifier}

theorem first_eq (s : SearchSpec) (text : Text) (seed : Option Nat) :
    s.first text seed = chain text (firstByte seed) ⟨0, 0⟩ s.needles := by
  cases seed with
  | none => rfl
  | some o => rfl

/-- What is found first is the earliest end of all chains. -/
theorem earliestEnd_of_first (hs : s.needles ≠ []) (h : s.first text seed = .ok m) :
    EarliestEnd s.needles text seed m := by
  rw [first_eq] at h
  obtain ⟨hoccurs, hend, hleast⟩ := canEndAt_of_chain hs h
  exact ⟨hoccurs, hend, hleast⟩

/-- Where nothing is found there is no chain. -/
theorem not_chained_of_first {n : Needle} (h : s.first text seed = .error n) :
    ¬ ∃ ps, Chained text seed s.needles ps := by
  rw [first_eq] at h
  obtain ⟨j, hj, hreach⟩ := chained_take_iff_of_chain h
  intro hexists
  -- a chain for all needles would reach the one that the search has given up at
  have hlt := (List.getElem?_eq_some_iff.mp hj).1
  have hle := (hreach s.needles.length).mp (by rwa [List.take_length])
  omega

/-- **The matches that follow one another are collected**, if there is a step for every byte that is
left: each of them starts behind the one before it, and none starts behind the end of the text. -/
theorem collected_following (hs : s.needles ≠ []) : ∀ {fuel start : Nat},
    text.byteLength < start + fuel →
      Collected s.needles text (some start) (s.following text fuel start) := by
  intro fuel
  induction fuel with
  | zero =>
    intro start hfuel
    refine .done fun ⟨ps, hps⟩ => ?_
    -- a chain would begin behind the end of the text
    obtain ⟨n, ns, hns⟩ := List.exists_cons_of_ne_nil hs
    rw [hns] at hps
    obtain ⟨p, qs, rfl⟩ := hps.exists_cons
    obtain ⟨⟨length, hp⟩, hbehind, -⟩ := chained_cons_iff.mp hps
    have hstart := hbehind start rfl
    have hstop := hp.liesIn.stop_le
    simp only at hstop
    omega
  | succ fuel ih =>
    intro start hfuel
    rw [following]
    cases hfirst : s.first text (some start) with
    | error n => exact .done (not_chained_of_first hfirst)
    | ok m =>
      have hearliest := earliestEnd_of_first hs hfirst
      have hstart := hearliest.behind start rfl
      exact .step hearliest (ih (by omega))

/-- A search for all matches is one that was asked for all, or has a needle that asks for all. -/
theorem exhaustive_of_ofSearch {search : Search} {mode : SearchMode}
    {isOptional sourceMapped : Bool}
    (hs : ofSearch search mode isOptional sourceMapped = .ok s)
    (hall : mode = .multiple ∨ ∃ n ∈ s.needles, n.asksForAll = true) : s.exhaustive = true := by
  unfold ofSearch at hs
  split at hs
  · cases hs
  · obtain ⟨⟨sources, needles⟩, -, hs⟩ := bind_eq_ok.mp hs
    cases hs
    rcases hall with rfl | ⟨n, hn, hg⟩
    · rfl
    · simp only [Bool.or_eq_true, List.any_eq_true]
      exact Or.inr ⟨n, hn, hg⟩

/-- A search without regular needles has source needles. -/
theorem sourceNeedles_ne_nil_of_ofSearch {search : Search} {mode : SearchMode}
    {isOptional sourceMapped : Bool}
    (hs : ofSearch search mode isOptional sourceMapped = .ok s) (hneedles : s.needles = []) :
    s.sourceNeedles ≠ [] := by
  unfold ofSearch at hs
  split at hs
  · cases hs
  · rename_i hempty
    obtain ⟨⟨sources, needles⟩, hsplit, hs⟩ := bind_eq_ok.mp hs
    cases hs
    rintro rfl
    obtain rfl : needles = [] := hneedles
    cases hitems : search.needles with
    | nil => simp [hitems] at hempty
    | cons item rest =>
      -- whatever an item is, it is kept
      rw [hitems, split] at hsplit
      split at hsplit
      · split at hsplit
        · cases hsplit
        · split at hsplit
          · cases hsplit
          · obtain ⟨x, -, hsplit⟩ := bind_eq_ok.mp hsplit
            cases hsplit
      · split at hsplit
        · cases hsplit
        · obtain ⟨x, -, hsplit⟩ := bind_eq_ok.mp hsplit
          obtain ⟨y, -, hsplit⟩ := bind_eq_ok.mp hsplit
          have hnil := congrArg Prod.snd (Except.ok.inj hsplit)
          cases hnil

/-- Source needles stand for the identifier that the lookup gives. -/
theorem exists_lookup_of_identifier (hs : s.sourceNeedles ≠ [])
    (hi : s.identifier text lookup = .ok i) :
    ∃ l id, lookup = some l ∧ l text s.sourceNeedles = .ok id ∧ i = some id := by
  unfold identifier at hi
  rw [if_neg (by simpa using hs)] at hi
  cases lookup with
  | none => cases hi
  | some l =>
    simp only at hi
    cases hid : l text s.sourceNeedles with
    | error e =>
      rw [hid] at hi
      cases hi
    | ok id =>
      rw [hid] at hi
      exact ⟨l, id, rfl, hid, (Except.ok.inj hi).symm⟩

/-- The identifier that a source map gives covers a part of the text. -/
theorem liesIn_of_lookup {d : SourceMap.Document} {hint : String} {i : Identifier}
    {names : List String} (h : d.lookup hint text names = .ok i) :
    Match.LiesIn ⟨i.offset, i.name.utf8ByteSize⟩ text := by
  obtain ⟨t, -, hread⟩ := bind_eq_ok.mp h
  obtain ⟨hoffset, u, v, rfl, hu, hname, -⟩ :=
    SourceMap.Document.readIdentifier_eq_ok_iff.mp hread
  refine ⟨u, v.takeWhile SourceMap.isIdentifierChar, v.dropWhile SourceMap.isIdentifierChar, ?_, ?_,
    ?_⟩
  · rw [List.append_assoc, List.takeWhile_append_dropWhile]
  · rw [hu, hoffset]
  · rw [hname, Text.utf8ByteSize_ofList]

/-- Whether every identifier that a lookup gives covers a part of the text, as one of a source map
does (`liesIn_of_lookup`). -/
def Within (lookup : Option Lookup) (text : Text) : Prop :=
  ∀ l names id, lookup = some l → l text names = .ok id →
    Match.LiesIn ⟨id.offset, id.name.utf8ByteSize⟩ text

/-! ## 4. Whole searches -/

/-- The same search for one match only. -/
def forFirst (s : SearchSpec) : SearchSpec := { s with exhaustive := false }

/-- A search without regular needles matches the identifier itself. -/
theorem resolve_of_no_needles {id : Identifier} (hs : s.needles = [])
    (hi : s.identifier text lookup = .ok (some id)) :
    s.resolve file text lookup = .ok ⟨[⟨id.offset, id.name.utf8ByteSize⟩], some id⟩ := by
  simp [resolve, hi, hs, bind, Except.bind, pure, Except.pure]

/-- **The first match of a search is the one that it finds when asked for one only.** -/
theorem resolve_forFirst (s : SearchSpec) (file : String) (text : Text) (lookup : Option Lookup) :
    s.forFirst.resolve file text lookup =
      (s.resolve file text lookup).map fun r => { r with found := r.found.take 1 } := by
  have hidentifier : s.forFirst.identifier text lookup = s.identifier text lookup := rfl
  unfold resolve
  rw [hidentifier]
  cases s.identifier text lookup with
  | error e => rfl
  | ok i =>
    simp only [bind, Except.bind, pure, Except.pure]
    cases hempty : s.needles.isEmpty with
    | true =>
      have hempty' : s.forFirst.needles.isEmpty = true := hempty
      rw [hempty']
      cases i with
      | none => rfl
      | some id => rfl
    | false =>
      have hempty' : s.forFirst.needles.isEmpty = false := hempty
      have hfirst : ∀ seed, s.forFirst.first text seed = s.first text seed := fun _ => rfl
      rw [hempty', hfirst]
      cases s.first text (i.map Identifier.offset) with
      | ok m => rfl
      | error n =>
        have hoptional : s.forFirst.isOptional = s.isOptional := rfl
        simp only [Bool.false_eq_true, if_false, hoptional]
        cases s.isOptional with
        | true => rfl
        | false => rfl

/-- What an exhaustive search with needles of its own comes to. -/
theorem exists_collected_of_resolve (hs : s.needles ≠ []) (he : s.exhaustive = true)
    (hi : s.identifier text lookup = .ok i) :
    ∃ ms, Collected s.needles text (i.map Identifier.offset) ms ∧
      ((ms ≠ [] ∨ s.isOptional = true) → s.resolve file text lookup = .ok ⟨ms, i⟩) ∧
      (ms = [] → s.isOptional = false →
        ∃ n ∈ s.needles, s.resolve file text lookup = .error (.notFound n.written s.label file)) := by
  rw [resolve_of_identifier hs hi, ← first_eq]
  cases hfirst : s.first text (i.map Identifier.offset) with
  | error n =>
    have hmem : n ∈ s.needles := by
      rw [first_eq] at hfirst
      obtain ⟨j, hj, -⟩ := chained_take_iff_of_chain hfirst
      exact List.mem_of_getElem? hj
    refine ⟨[], .done (not_chained_of_first hfirst), ?_, ?_⟩
    · rintro (hne | hoptional)
      · exact absurd rfl hne
      · simp [hoptional]
    · intro _ hoptional
      exact ⟨n, hmem, by simp [hoptional]⟩
  | ok m =>
    have hrest : Collected s.needles text (some m.start)
        (s.following text (text.byteLength + 1) m.start) := collected_following hs (by omega)
    refine ⟨_, .step (earliestEnd_of_first hs hfirst) hrest, ?_, ?_⟩
    · intro _
      simp [he]
    · intro hnil
      cases hnil

/-- What a search with needles of its own has found: nothing, or the earliest end of all chains, and
behind that nothing or what is collected from there on. -/
theorem found_of_resolve {r : Resolution} (hs : s.needles ≠ [])
    (h : s.resolve file text lookup = .ok r) :
    r.found = [] ∨ ∃ seed m ms, EarliestEnd s.needles text seed m ∧ r.found = m :: ms ∧
      (ms = [] ∨ Collected s.needles text (some m.start) ms) := by
  obtain ⟨i, hi, -⟩ := bind_eq_ok.mp h
  rw [resolve_of_identifier hs hi, ← first_eq] at h
  cases hfirst : s.first text (i.map Identifier.offset) with
  | error n =>
    rw [hfirst] at h
    simp only at h
    split at h
    · cases h
      exact Or.inl rfl
    · cases h
  | ok m =>
    rw [hfirst] at h
    cases h
    refine Or.inr ⟨_, m, _, earliestEnd_of_first hs hfirst, rfl, ?_⟩
    split
    · exact Or.inr (collected_following hs (by omega))
    · exact Or.inl rfl

/-- **Matches are found in ascending order**, whatever the search. -/
theorem increasing_of_resolve {r : Resolution} (h : s.resolve file text lookup = .ok r) :
    r.found.Pairwise (·.start < ·.start) := by
  by_cases hs : s.needles = []
  · -- there is at most the identifier itself
    obtain ⟨i, -, hr⟩ := bind_eq_ok.mp h
    rw [if_pos (by simp [hs])] at hr
    cases hr
    cases i <;> simp
  · rcases found_of_resolve hs h with hnil | ⟨seed, m, ms, -, heq, hms⟩
    · rw [hnil]
      exact List.Pairwise.nil
    · rw [heq]
      rcases hms with rfl | hms
      · exact List.pairwise_singleton _ m
      · exact List.pairwise_cons.mpr ⟨fun m' hm' => hms.behind m' hm' _ rfl, hms.increasing⟩

/-- Every match covers a part of the text. -/
theorem liesIn_of_resolve {r : Resolution} (hlookup : Within lookup text)
    (h : s.resolve file text lookup = .ok r) : ∀ m ∈ r.found, m.LiesIn text := by
  by_cases hs : s.needles = []
  · obtain ⟨i, hi, hr⟩ := bind_eq_ok.mp h
    rw [if_pos (by simp [hs])] at hr
    cases hr
    cases i with
    | none => simp
    | some id =>
      by_cases hsources : s.sourceNeedles = []
      · unfold identifier at hi
        rw [if_pos (by simp [hsources])] at hi
        cases hi
      · obtain ⟨l, id', hl, hid, heq⟩ := exists_lookup_of_identifier hsources hi
        obtain rfl := Option.some.inj heq
        exact List.forall_mem_cons.mpr ⟨hlookup l _ id hl hid, by simp⟩
  · rcases found_of_resolve hs h with hnil | ⟨seed, m, ms, hm, heq, hms⟩
    · simp [hnil]
    · rw [heq]
      refine List.forall_mem_cons.mpr ⟨hm.liesIn, ?_⟩
      rcases hms with rfl | hms
      · simp
      · exact hms.liesIn

/-- Every match is an occurrence of the last needle. -/
theorem occurs_of_resolve {r : Resolution} {n : Needle} (hn : s.needles.getLast? = some n)
    (h : s.resolve file text lookup = .ok r) : ∀ m ∈ r.found, n.Occurs text m := by
  have hs : s.needles ≠ [] := by
    intro hnil
    rw [hnil] at hn
    cases hn
  have hlast : ∀ {seed m}, EarliestEnd s.needles text seed m → n.Occurs text m := by
    intro seed m hm
    obtain ⟨n', hn', hoccurs⟩ := hm.occurs
    rw [hn] at hn'
    cases hn'
    exact hoccurs
  rcases found_of_resolve hs h with hnil | ⟨seed, m, ms, hm, heq, hms⟩
  · simp [hnil]
  · rw [heq]
    refine List.forall_mem_cons.mpr ⟨hlast hm, ?_⟩
    rcases hms with rfl | hms
    · simp
    · exact hms.forall_mem hlast

/-- **An exhaustive search misses nothing and stops.**  It collects the earliest end of all chains
of its needles behind the seed, the earliest end behind the start of that, and so on, until there is
no chain left.  The matches are strictly increasing, lie behind the seed and cover whole characters
of the text; those of a single needle are all its occurrences behind the seed.  The first of them is
what the search finds when asked for one match only.  A search without regular needles has one match,
the identifier that its source needles stand for. -/
theorem resolve_collects {search : Search} {mode : SearchMode} {isOptional sourceMapped : Bool}
    {s : SearchSpec} {file : String} {text : Text} {lookup : Option Lookup} {i : Option Identifier}
    (hs : ofSearch search mode isOptional sourceMapped = .ok s)
    (hall : mode = .multiple ∨ ∃ n ∈ s.needles, n.asksForAll = true)
    (hi : s.identifier text lookup = .ok i) :
    s.forFirst.resolve file text lookup =
        (s.resolve file text lookup).map (fun r => { r with found := r.found.take 1 }) ∧
      (s.needles ≠ [] → ∃ ms,
        Collected s.needles text (i.map Identifier.offset) ms ∧
        ((ms ≠ [] ∨ s.isOptional = true) → s.resolve file text lookup = .ok ⟨ms, i⟩) ∧
        (ms = [] → s.isOptional = false → ∃ n ∈ s.needles,
          s.resolve file text lookup = .error (.notFound n.written s.label file)) ∧
        ms.Pairwise (·.start < ·.start) ∧
        (∀ m ∈ ms, (∀ o ∈ i.map Identifier.offset, o < m.start) ∧ m.LiesIn text) ∧
        ∀ n, s.needles = [n] → ∀ p,
          p ∈ ms.map Match.start ↔ n.OccursAt text p ∧ ∀ o ∈ i.map Identifier.offset, o < p) ∧
      (s.needles = [] → ∃ id, i = some id ∧
        s.resolve file text lookup = .ok ⟨[⟨id.offset, id.name.utf8ByteSize⟩], i⟩ ∧
        ∀ (d : SourceMap.Document) (hint : String), lookup = some (d.lookup hint) →
          Match.LiesIn ⟨id.offset, id.name.utf8ByteSize⟩ text) := by
  refine ⟨resolve_forFirst s file text lookup, fun hneedles => ?_, fun hneedles => ?_⟩
  · obtain ⟨ms, hcollected, hok, hmissing⟩ :=
      exists_collected_of_resolve hneedles (exhaustive_of_ofSearch hs hall) hi
    refine ⟨ms, hcollected, hok, hmissing, hcollected.increasing, fun m hm => ?_, fun n hn p => ?_⟩
    · exact ⟨hcollected.behind m hm, hcollected.liesIn m hm⟩
    · rw [hn] at hcollected
      exact hcollected.mem_starts_iff
  · have hsources := sourceNeedles_ne_nil_of_ofSearch hs hneedles
    obtain ⟨l, id, hl, hid, rfl⟩ := exists_lookup_of_identifier hsources hi
    refine ⟨id, rfl, resolve_of_no_needles hneedles hi, fun d hint hd => ?_⟩
    obtain rfl : l = d.lookup hint := Option.some.inj (hl.symm.trans hd)
    exact liesIn_of_lookup hid

/-- A search for every `a` with an `é` somewhere before it and behind the `a` before. -/
def everyPair : SearchSpec where
  sourceNeedles := []
  needles := [.literal ['é'], .literal ['a']]
  exhaustive := true
  isOptional := false
  sourceMapped := false
  label := "[\"é\",\"a\"]"

theorem everyPair_collects :
    ofSearch (.many ["é", "a"]) .multiple false false = .ok everyPair ∧
    everyPair.identifier ['é', 'a', 'a', 'é', 'a'] none = .ok none ∧
    everyPair.resolve "f" ['é', 'a', 'a', 'é', 'a'] none = .ok ⟨[⟨2, 1⟩, ⟨6, 1⟩], none⟩ ∧
    everyPair.forFirst.resolve "f" ['é', 'a', 'a', 'é', 'a'] none = .ok ⟨[⟨2, 1⟩], none⟩ ∧
    Collected everyPair.needles ['é', 'a', 'a', 'é', 'a'] none [⟨2, 1⟩, ⟨6, 1⟩] := by
  have hs : ofSearch (.many ["é", "a"]) .multiple false false = .ok everyPair := rfl
  have hi : everyPair.identifier ['é', 'a', 'a', 'é', 'a'] none = .ok none := rfl
  have hresolve : everyPair.resolve "f" ['é', 'a', 'a', 'é', 'a'] none =
      .ok ⟨[⟨2, 1⟩, ⟨6, 1⟩], none⟩ := eq_ok_of_toOption (by decide +kernel)
  obtain ⟨hfirst, hneedles, -⟩ := @resolve_collects _ _ _ _ _ "f" _ _ _ hs (Or.inl rfl) hi
  obtain ⟨ms, hcollected, hok, hmissing, -⟩ := hneedles (by decide)
  rw [hresolve] at hfirst hok hmissing
  have hms : ms = [⟨2, 1⟩, ⟨6, 1⟩] := by
    by_cases hnil : ms = []
    · obtain ⟨n, -, hn⟩ := hmissing hnil rfl
      cases hn
    · cases hok (Or.inl hnil)
      rfl
  exact ⟨hs, hi, hresolve, hfirst, hms ▸ hcollected⟩

end SearchSpec

end TextPatch
