/-
# What documents are written as

`Spells` says which tokens spell a document: an atom that is read as it alone, a literal that stands
for a string, items between brackets, and members between braces, of which a later one replaces the
value of an earlier one with the same key.

A text that is made of tokens and blanks is read as a document exactly if the tokens spell it
(`parse_eq_ok_iff`).  So it does not matter which blanks stand between tokens, and how many.
-/
import TextPatch.Proofs.Json.Atoms
import TextPatch.Proofs.Json.Literals

namespace TextPatch.Json

open Read

/-! ## 1. Spelling -/

/-- Lists of tokens with commas between them. -/
def separated : List (List Token) → List Token
  | [] => []
  | x :: xs => x ++ xs.flatMap fun y => .mark ',' :: y

/-- A member of an object, as it is written. -/
structure MemberSpelling where
  /-- What stands between the quotes of the key. -/
  body : Text
  key : String
  /-- How the value is written. -/
  tokens : List Token
  value : Json

/-- All tokens of a member. -/
def MemberSpelling.written (m : MemberSpelling) : List Token :=
  .literal m.body :: .mark ':' :: m.tokens

theorem MemberSpelling.length_written (m : MemberSpelling) :
    m.written.length = m.tokens.length + 2 := rfl

/-- An object with more members, one after the other. -/
def insertAll (done : Members) (ms : List MemberSpelling) : Members :=
  ms.foldl (fun done m => done.insert m.key m.value) done

/-- Tokens spell a document that nests at most `depth` levels deep. -/
inductive Spells : (depth : Nat) → List Token → Json → Prop
  | atom {depth : Nat} {word : Text} {v : Json} (h : value false 1 0 word = .ok (v, [])) :
      Spells depth [.atom word] v
  | string {depth : Nat} {body : Text} {s : String} (h : Denotes body s.toList) :
      Spells depth [.literal body] (.string s)
  | array {depth : Nat} {items : List (List Token × Json)}
      (h : ∀ p ∈ items, Spells depth p.1 p.2) :
      Spells (depth + 1) (.mark '[' :: (separated (items.map Prod.fst) ++ [.mark ']']))
        (.array (items.map Prod.snd))
  | object {depth : Nat} {members : List MemberSpelling}
      (hkeys : ∀ m ∈ members, Denotes m.body m.key.toList)
      (h : ∀ m ∈ members, Spells depth m.tokens m.value) :
      Spells (depth + 1)
        (.mark '\x7b' :: (separated (members.map MemberSpelling.written) ++ [.mark '\x7d']))
        (.object (insertAll [] members))

/-- The first token of a document closes nothing. -/
theorem Spells.head {depth : Nat} {ks : List Token} {v : Json} (h : Spells depth ks v) :
    ∃ k ks', ks = k :: ks' ∧ k ≠ .mark ']' := by
  cases h with
  | atom _ => exact ⟨_, _, rfl, by simp⟩
  | string _ => exact ⟨_, _, rfl, by simp⟩
  | array _ => exact ⟨_, _, rfl, by simp⟩
  | object _ _ => exact ⟨_, _, rfl, by simp⟩

/-! ## 2. Blanks and the next token -/

theorem skipBlanks_of_not_isBlank {t : Text}
    (h : ∀ c, t.head? = some c → isBlank c = false) : skipBlanks t = t := by
  cases t with
  | nil => rfl
  | cons c t => exact skipBlanks_cons (h c rfl) t

theorem skipBlanks_skipBlanks (t : Text) : skipBlanks (skipBlanks t) = skipBlanks t := by
  refine skipBlanks_of_not_isBlank fun c hc => ?_
  have hnot := List.head?_dropWhile_not isBlank t
  unfold skipBlanks at hc
  rw [hc] at hnot
  simpa using hnot

/-- The reader looks at what comes behind blanks only. -/
theorem value_skipBlanks (broken : Bool) (fuel depth : Nat) (t : Text) :
    value broken fuel depth (skipBlanks t) = value broken fuel depth t := by
  cases fuel with
  | zero => rw [value, value]
  | succ fuel => rw [value, value, skipBlanks_skipBlanks]

/-- Where no token is left there are blanks only. -/
theorem Spaced.skipBlanks_nil {t : Text} (h : Spaced [] t) : skipBlanks t = [] := by
  generalize hks : ([] : List Token) = ks at h
  induction h with
  | nil => rfl
  | blank hc _ ih => rw [skipBlanks_blank hc, ih hks]
  | token _ _ _ => cases hks

/-- Behind the blanks comes the next token. -/
theorem Spaced.next {k : Token} {ks : List Token} {t : Text} (h : Spaced (k :: ks) t) :
    ∃ t', skipBlanks t = k.text ++ t' ∧ k.Proper ∧ k.EndsAt t' ∧ Spaced ks t' := by
  generalize hks : k :: ks = ks' at h
  induction h with
  | nil => cases hks
  | blank hc _ ih =>
    rw [skipBlanks_blank hc]
    exact ih hks
  | @token k' ks' t hproper hends h =>
    obtain ⟨rfl, rfl⟩ := List.cons.inj hks
    obtain ⟨c, w, htext, hblank⟩ := hproper.head
    refine ⟨t, skipBlanks_of_not_isBlank ?_, hproper, hends, h⟩
    intro d hd
    rw [htext] at hd
    cases hd
    exact hblank

/-- Blanks may go. -/
theorem Spaced.skipBlanks {ks : List Token} {t : Text} (h : Spaced ks t) :
    Spaced ks (skipBlanks t) := by
  cases ks with
  | nil =>
    rw [h.skipBlanks_nil]
    exact .nil
  | cons k ks =>
    obtain ⟨t', hnext, hproper, hends, h'⟩ := h.next
    rw [hnext]
    exact .token hproper hends h'

/-- A mark is its character. -/
theorem Spaced.next_mark {c : Char} {ks : List Token} {t : Text} (h : Spaced (.mark c :: ks) t) :
    ∃ t', Read.skipBlanks t = c :: t' ∧ Spaced ks t' := by
  obtain ⟨t', hnext, -, -, h'⟩ := h.next
  exact ⟨t', hnext, h'⟩

theorem Spaced.next_literal {body : Text} {ks : List Token} {t : Text}
    (h : Spaced (.literal body :: ks) t) :
    ∃ t', Read.skipBlanks t = '"' :: (body ++ '"' :: t') ∧ IsLiteral body ∧ Spaced ks t' := by
  obtain ⟨t', hnext, hbody, -, h'⟩ := h.next
  refine ⟨t', ?_, hbody, h'⟩
  rw [hnext]
  simp [Token.text]

/-- A character that closes or separates is the next one only if the next token is it. -/
theorem Spaced.mark_of_skipBlanks {c : Char} {ks : List Token} {t t' : Text} (h : Spaced ks t)
    (hc : isAtomChar c = false) (hquote : c ≠ '"') (hnext : Read.skipBlanks t = c :: t') :
    ∃ ks', ks = .mark c :: ks' ∧ Spaced ks' t' := by
  cases ks with
  | nil =>
    rw [h.skipBlanks_nil] at hnext
    cases hnext
  | cons k ks =>
    obtain ⟨u, hu, hproper, -, h'⟩ := h.next
    rw [hu] at hnext
    cases k with
    | mark d =>
      obtain ⟨rfl, rfl⟩ := List.cons.inj hnext
      exact ⟨ks, rfl, h'⟩
    | literal body => exact absurd (List.cons.inj hnext).1.symm hquote
    | atom word =>
      obtain ⟨d, w, rfl⟩ := List.exists_cons_of_ne_nil hproper.1
      obtain ⟨rfl, -⟩ := List.cons.inj hnext
      rw [hproper.2 d List.mem_cons_self] at hc
      cases hc

/-- A quote is the next character only if the next token is a literal. -/
theorem Spaced.literal_of_skipBlanks {ks : List Token} {t t' : Text} (h : Spaced ks t)
    (hnext : Read.skipBlanks t = '"' :: t') :
    ∃ body ks' u, ks = .literal body :: ks' ∧ t' = body ++ '"' :: u ∧ IsLiteral body ∧
      Spaced ks' u := by
  cases ks with
  | nil =>
    rw [h.skipBlanks_nil] at hnext
    cases hnext
  | cons k ks =>
    cases k with
    | mark d =>
      obtain ⟨u, hu, hproper, -, -⟩ := h.next
      rw [hu] at hnext
      exact absurd (List.cons.inj hnext).1 (isMark_cases hproper).2.2.1
    | literal body =>
      obtain ⟨u, hu, hbody, h'⟩ := h.next_literal
      rw [hu] at hnext
      exact ⟨body, ks, u, rfl, (List.cons.inj hnext).2.symm, hbody, h'⟩
    | atom word =>
      obtain ⟨u, hu, hproper, -, -⟩ := h.next
      rw [hu] at hnext
      obtain ⟨d, w, rfl⟩ := List.exists_cons_of_ne_nil hproper.1
      exact absurd (List.cons.inj hnext).1
        (not_isBlank_of_isAtomChar (hproper.2 d List.mem_cons_self)).2.1

/-! ## 3. What is spelled is read -/

/-- The reader takes a document from its tokens, and leaves what follows, if there are three steps
for each token. -/
def TakenFrom (depth : Nat) (ks : List Token) (v : Json) : Prop :=
  ∀ fuel t ks', 3 * ks.length ≤ fuel → Spaced (ks ++ ks') t →
    ∃ t', value false fuel depth t = .ok (v, t') ∧ Spaced ks' t'

/-- A document is not taken for a closing bracket. -/
theorem not_bracket_of_spells {depth : Nat} {ks ks' : List Token} {v : Json} {t : Text}
    (hv : Spells depth ks v) (h : Spaced (ks ++ ks') t) :
    ∃ c t', skipBlanks t = c :: t' ∧ c ≠ ']' := by
  obtain ⟨k, ks, rfl, hk⟩ := hv.head
  rw [List.cons_append] at h
  obtain ⟨u, hu, hproper, -, -⟩ := h.next
  obtain ⟨c, w, htext, -⟩ := hproper.head
  rw [htext, List.cons_append] at hu
  refine ⟨c, _, hu, ?_⟩
  rintro rfl
  obtain ⟨ks', hks, -⟩ := h.mark_of_skipBlanks (by decide) (by decide) hu
  exact hk (List.cons.inj hks).1

theorem takenFrom_atom {word : Text} {v : Json} (h : value false 1 0 word = .ok (v, []))
    (depth : Nat) : TakenFrom depth [.atom word] v := by
  intro fuel t ks' hfuel ht
  obtain ⟨fuel, rfl⟩ : ∃ n, fuel = n + 1 := ⟨fuel - 1, by simp at hfuel; omega⟩
  obtain ⟨t', hnext, hproper, hends, h'⟩ := ht.next
  have hsame := value_atom hends hproper fuel depth
  rw [h] at hsame
  rw [← value_skipBlanks, hnext]
  generalize hr : value false (fuel + 1) depth (Token.text (.atom word) ++ t') = r
  rw [Token.text] at hr
  rw [hr] at hsame
  cases hsame
  exact ⟨t', rfl, h'⟩

theorem takenFrom_string {body : Text} {s : String} (h : Denotes body s.toList) (depth : Nat) :
    TakenFrom depth [.literal body] (.string s) := by
  intro fuel t ks' hfuel ht
  obtain ⟨fuel, rfl⟩ : ∃ n, fuel = n + 1 := ⟨fuel - 1, by simp at hfuel; omega⟩
  obtain ⟨t', hnext, hbody, h'⟩ := Spaced.next_literal ht
  refine ⟨t', ?_, h'⟩
  rw [value, hnext]
  simp only [(string_eq_ok_iff hbody false).mpr ⟨rfl, h⟩, bind, Except.bind, pure, Except.pure]

/-- The items behind the first one are taken one after the other. -/
theorem moreItems_takenFrom {depth : Nat} {ks' : List Token} :
    ∀ {parts : List (List Token × Json)} {t : Text} (fuel : Nat),
      (∀ p ∈ parts, Spells depth p.1 p.2 ∧ TakenFrom depth p.1 p.2) →
        3 * (parts.flatMap fun p => Token.mark ',' :: p.1).length + 3 ≤ fuel →
          Spaced ((parts.flatMap fun p => Token.mark ',' :: p.1) ++ .mark ']' :: ks') t →
            ∃ t', moreItems false fuel depth t = .ok (parts.map Prod.snd, t') ∧ Spaced ks' t'
  | [], t, fuel, _, hfuel, ht => by
    obtain ⟨fuel, rfl⟩ : ∃ n, fuel = n + 1 := ⟨fuel - 1, by omega⟩
    obtain ⟨t', hnext, h'⟩ := Spaced.next_mark ht
    refine ⟨t', ?_, h'⟩
    rw [moreItems, hnext]
    rfl
  | p :: parts, t, fuel, h, hfuel, ht => by
    simp only [List.flatMap_cons, List.length_append, List.length_cons] at hfuel
    obtain ⟨fuel, rfl⟩ : ∃ n, fuel = n + 1 := ⟨fuel - 1, by omega⟩
    obtain ⟨hspells, htaken⟩ := h p List.mem_cons_self
    rw [List.flatMap_cons, List.append_assoc, List.cons_append] at ht
    obtain ⟨u, hcomma, hu⟩ := Spaced.next_mark ht
    obtain ⟨c, w, hhead, hclose⟩ := not_bracket_of_spells hspells hu
    obtain ⟨u', hvalue, hu'⟩ := htaken fuel u _ (by omega) hu
    obtain ⟨t', hmore, h'⟩ := moreItems_takenFrom fuel
      (fun q hq => h q (List.mem_cons_of_mem p hq)) (by omega) hu'
    refine ⟨t', ?_, h'⟩
    rw [moreItems, hcomma]
    rw [← value_skipBlanks, hhead] at hvalue
    simp only [hhead]
    split
    · rename_i heq
      cases heq
    · rename_i heq
      exact absurd (List.cons.inj heq).1 hclose
    · simp only [hvalue, hmore, bind, Except.bind, pure, Except.pure]
      rfl

theorem takenFrom_array {depth : Nat} {parts : List (List Token × Json)}
    (h : ∀ p ∈ parts, Spells depth p.1 p.2 ∧ TakenFrom depth p.1 p.2) :
    TakenFrom (depth + 1) (.mark '[' :: (separated (parts.map Prod.fst) ++ [.mark ']']))
      (.array (parts.map Prod.snd)) := by
  intro fuel t ks' hfuel ht
  rw [List.cons_append, List.append_assoc, List.singleton_append] at ht
  obtain ⟨u, hopen, hu⟩ := Spaced.next_mark ht
  simp only [List.length_cons, List.length_append] at hfuel
  obtain ⟨fuel, rfl⟩ : ∃ n, fuel = n + 2 := ⟨fuel - 2, by omega⟩
  rw [value, hopen]
  simp only
  cases parts with
  | nil =>
    obtain ⟨t', hclose, h'⟩ := Spaced.next_mark hu
    refine ⟨t', ?_, h'⟩
    rw [items, hclose]
    rfl
  | cons p parts =>
    obtain ⟨hspells, htaken⟩ := h p List.mem_cons_self
    rw [List.map_cons, separated, List.append_assoc, List.flatMap_map] at hu
    simp only [List.map_cons, separated, List.length_append, List.flatMap_map] at hfuel
    obtain ⟨c, w, hhead, hclose⟩ := not_bracket_of_spells hspells hu
    obtain ⟨u', hvalue, hu'⟩ := htaken fuel u _ (by omega) hu
    obtain ⟨t', hmore, h'⟩ := moreItems_takenFrom fuel
      (fun q hq => h q (List.mem_cons_of_mem p hq)) (by omega) hu'
    refine ⟨t', ?_, h'⟩
    rw [← value_skipBlanks, hhead] at hvalue
    rw [items, hhead]
    split
    · rename_i heq
      cases heq
    · rename_i heq
      exact absurd (List.cons.inj heq).1 hclose
    · simp only [hvalue, hmore, bind, Except.bind, pure, Except.pure]
      rfl

/-- One member is taken, from behind the quote of its key. -/
theorem member_takenFrom {depth : Nat} {m : MemberSpelling} {ks' : List Token} {t : Text}
    (hkey : Denotes m.body m.key.toList) (h : TakenFrom depth m.tokens m.value) (done : Members)
    (fuel : Nat) (hfuel : 3 * m.tokens.length ≤ fuel)
    (ht : Spaced (.mark ':' :: (m.tokens ++ ks')) t) :
    ∃ t', member false (fuel + 1) depth done (m.body ++ '"' :: t) =
        moreMembers false fuel depth (done.insert m.key m.value) t' ∧ Spaced ks' t' := by
  obtain ⟨u, hcolon, hu⟩ := Spaced.next_mark ht
  obtain ⟨t', hvalue, h'⟩ := h fuel u ks' hfuel hu
  refine ⟨t', ?_, h'⟩
  rw [member, (string_eq_ok_iff hkey.isLiteral false).mpr ⟨rfl, hkey⟩]
  simp only [bind, Except.bind, hcolon, hvalue]

/-- The members behind some of them are taken one after the other. -/
theorem moreMembers_takenFrom {depth : Nat} {ks' : List Token} :
    ∀ {ms : List MemberSpelling} {t : Text} (done : Members) (fuel : Nat),
      (∀ m ∈ ms, Denotes m.body m.key.toList ∧ TakenFrom depth m.tokens m.value) →
        3 * (ms.flatMap fun m => Token.mark ',' :: m.written).length + 3 ≤ fuel →
          Spaced ((ms.flatMap fun m => Token.mark ',' :: m.written) ++ .mark '\x7d' :: ks') t →
            ∃ t', moreMembers false fuel depth done t = .ok (insertAll done ms, t') ∧
              Spaced ks' t'
  | [], t, done, fuel, _, hfuel, ht => by
    obtain ⟨fuel, rfl⟩ : ∃ n, fuel = n + 1 := ⟨fuel - 1, by omega⟩
    obtain ⟨t', hnext, h'⟩ := Spaced.next_mark ht
    refine ⟨t', ?_, h'⟩
    rw [moreMembers, hnext]
    rfl
  | m :: ms, t, done, fuel, h, hfuel, ht => by
    simp only [List.flatMap_cons, List.length_append, List.length_cons,
      MemberSpelling.length_written] at hfuel
    obtain ⟨fuel, rfl⟩ : ∃ n, fuel = n + 2 := ⟨fuel - 2, by omega⟩
    obtain ⟨hkey, htaken⟩ := h m List.mem_cons_self
    rw [List.flatMap_cons, List.append_assoc, List.cons_append] at ht
    obtain ⟨u, hcomma, hu⟩ := Spaced.next_mark ht
    obtain ⟨w, hquote, -, hw⟩ := Spaced.next_literal hu
    obtain ⟨u', hmember, hu'⟩ := member_takenFrom hkey htaken done fuel (by omega) hw
    obtain ⟨t', hmore, h'⟩ := moreMembers_takenFrom (done.insert m.key m.value) fuel
      (fun q hq => h q (List.mem_cons_of_mem m hq)) (by omega) hu'
    refine ⟨t', ?_, h'⟩
    rw [moreMembers, hcomma]
    simp only [hquote, hmember, hmore]
    rfl

theorem takenFrom_object {depth : Nat} {ms : List MemberSpelling}
    (h : ∀ m ∈ ms, Denotes m.body m.key.toList ∧ TakenFrom depth m.tokens m.value) :
    TakenFrom (depth + 1)
      (.mark '\x7b' :: (separated (ms.map MemberSpelling.written) ++ [.mark '\x7d']))
        (.object (insertAll [] ms)) := by
  intro fuel t ks' hfuel ht
  rw [List.cons_append, List.append_assoc, List.singleton_append] at ht
  obtain ⟨u, hopen, hu⟩ := Spaced.next_mark ht
  simp only [List.length_cons, List.length_append] at hfuel
  obtain ⟨fuel, rfl⟩ : ∃ n, fuel = n + 3 := ⟨fuel - 3, by omega⟩
  rw [value, hopen]
  simp only
  cases ms with
  | nil =>
    obtain ⟨t', hclose, h'⟩ := Spaced.next_mark hu
    refine ⟨t', ?_, h'⟩
    rw [members, hclose]
    rfl
  | cons m ms =>
    obtain ⟨hkey, htaken⟩ := h m List.mem_cons_self
    rw [List.map_cons, separated, List.append_assoc, List.flatMap_map] at hu
    simp only [List.map_cons, separated, List.length_append, List.flatMap_map,
      MemberSpelling.length_written] at hfuel
    obtain ⟨w, hquote, -, hw⟩ := Spaced.next_literal hu
    obtain ⟨u', hmember, hu'⟩ := member_takenFrom hkey htaken [] fuel (by omega) hw
    obtain ⟨t', hmore, h'⟩ := moreMembers_takenFrom (Members.insert [] m.key m.value) fuel
      (fun q hq => h q (List.mem_cons_of_mem m hq)) (by omega) hu'
    refine ⟨t', ?_, h'⟩
    rw [members, hquote]
    simp only [hmember, hmore, bind, Except.bind, pure, Except.pure]
    rfl

/-- **What is spelled is taken.** -/
theorem Spells.takenFrom {depth : Nat} {ks : List Token} {v : Json} (h : Spells depth ks v) :
    TakenFrom depth ks v := by
  induction h with
  | @atom depth _ _ h => exact takenFrom_atom h depth
  | @string depth _ _ h => exact takenFrom_string h depth
  | array h ih => exact takenFrom_array fun p hp => ⟨h p hp, ih p hp⟩
  | object hkeys _ ih => exact takenFrom_object fun m hm => ⟨hkeys m hm, ih m hm⟩

/-! ## 4. What is read is spelled -/

/-- The reader stopped inside a number or a word. -/
def Stuck (t : Text) : Prop := ∃ c, t.head? = some c ∧ isAtomChar c = true

/-- Where a number or a word goes on there is no blank. -/
theorem Stuck.skipBlanks {t : Text} (h : Stuck t) :
    ∃ c t', Read.skipBlanks t = c :: t' ∧ isAtomChar c = true := by
  obtain ⟨c, hc, hatom⟩ := h
  cases t with
  | nil => cases hc
  | cons d t =>
    cases hc
    exact ⟨c, t, skipBlanks_cons (not_isBlank_of_isAtomChar hatom).1 t, hatom⟩

/-- No mark comes next there. -/
theorem Stuck.skipBlanks_ne {c : Char} {t t' : Text} (h : Stuck t) (hc : isAtomChar c = false) :
    Read.skipBlanks t ≠ c :: t' := by
  intro hnext
  obtain ⟨d, u, hd, hatom⟩ := h.skipBlanks
  rw [hnext] at hd
  rw [← (List.cons.inj hd).1, hc] at hatom
  cases hatom

/-- Nothing is read behind a number or a word that goes on. -/
theorem Stuck.moreItems {t : Text} (h : Stuck t) (fuel depth : Nat) {r : List Json × Text} :
    moreItems false fuel depth t ≠ .ok r := by
  intro hr
  cases fuel with
  | zero =>
    rw [Read.moreItems] at hr
    cases hr
  | succ fuel =>
    rw [Read.moreItems] at hr
    split at hr
    · cases hr
    · rename_i hnext
      exact h.skipBlanks_ne (by decide) hnext
    · rename_i hnext
      exact h.skipBlanks_ne (by decide) hnext
    · cases hr

theorem Stuck.moreMembers {t : Text} (h : Stuck t) (fuel depth : Nat) (done : Members)
    {r : Members × Text} : moreMembers false fuel depth done t ≠ .ok r := by
  intro hr
  cases fuel with
  | zero =>
    rw [Read.moreMembers] at hr
    cases hr
  | succ fuel =>
    rw [Read.moreMembers] at hr
    split at hr
    · cases hr
    · rename_i hnext
      exact h.skipBlanks_ne (by decide) hnext
    · rename_i hnext
      exact h.skipBlanks_ne (by decide) hnext
    · cases hr

/-- Items that have been read are spelled, and the tokens `ks'` are left. -/
structure ItemsSpelled (depth : Nat) (vs : List Json) (t' : Text)
    (parts : List (List Token × Json)) (ks' : List Token) : Prop where
  spells : ∀ p ∈ parts, Spells depth p.1 p.2
  values : vs = parts.map Prod.snd
  rest : Spaced ks' t'

/-- Members that have been read, and put behind others, are spelled, and the tokens `ks'` are
left. -/
structure MembersSpelled (depth : Nat) (done all : Members) (t' : Text)
    (ms : List MemberSpelling) (ks' : List Token) : Prop where
  keys : ∀ m ∈ ms, Denotes m.body m.key.toList
  spells : ∀ m ∈ ms, Spells depth m.tokens m.value
  values : all = insertAll done ms
  rest : Spaced ks' t'

section

variable {depth : Nat} {t' : Text} {ks ks' : List Token}

theorem ItemsSpelled.nil (h : Spaced ks' t') : ItemsSpelled depth [] t' [] ks' :=
  ⟨by simp, rfl, h⟩

/-- An item, and those behind it. -/
theorem ItemsSpelled.cons {v : Json} {vs : List Json} {parts : List (List Token × Json)}
    (hv : Spells depth ks v) (h : ItemsSpelled depth vs t' parts ks') :
    ItemsSpelled depth (v :: vs) t' ((ks, v) :: parts) ks' where
  spells := List.forall_mem_cons.mpr ⟨hv, h.spells⟩
  values := by rw [h.values, List.map_cons]
  rest := h.rest

theorem MembersSpelled.nil {done : Members} (h : Spaced ks' t') :
    MembersSpelled depth done done t' [] ks' :=
  ⟨by simp, by simp, rfl, h⟩

/-- A member, and those behind it. -/
theorem MembersSpelled.cons {m : MemberSpelling} {ms : List MemberSpelling} {done all : Members}
    (hkey : Denotes m.body m.key.toList) (hv : Spells depth m.tokens m.value)
    (h : MembersSpelled depth (done.insert m.key m.value) all t' ms ks') :
    MembersSpelled depth done all t' (m :: ms) ks' where
  keys := List.forall_mem_cons.mpr ⟨hkey, h.keys⟩
  spells := List.forall_mem_cons.mpr ⟨hv, h.spells⟩
  values := h.values
  rest := h.rest

end

/-- What the parts of the reader take with some fuel is spelled. -/
structure TakesSpelled (fuel : Nat) : Prop where
  value : ∀ {depth ks t v t'}, Spaced ks t → value false fuel depth t = .ok (v, t') →
    Stuck t' ∨ ∃ ks₁ ks', ks = ks₁ ++ ks' ∧ Spells depth ks₁ v ∧ Spaced ks' t'
  items : ∀ {depth ks t vs t'}, Spaced ks t → items false fuel depth t = .ok (vs, t') →
    ∃ parts ks', ItemsSpelled depth vs t' parts ks' ∧
      ks = separated (parts.map Prod.fst) ++ .mark ']' :: ks'
  moreItems : ∀ {depth ks t vs t'}, Spaced ks t → moreItems false fuel depth t = .ok (vs, t') →
    ∃ parts ks', ItemsSpelled depth vs t' parts ks' ∧
      ks = (parts.flatMap fun p => Token.mark ',' :: p.1) ++ .mark ']' :: ks'
  members : ∀ {depth ks t all t'}, Spaced ks t → members false fuel depth t = .ok (all, t') →
    ∃ ms ks', MembersSpelled depth [] all t' ms ks' ∧
      ks = separated (ms.map MemberSpelling.written) ++ .mark '\x7d' :: ks'
  /-- A member is read from behind the quote of its key. -/
  member : ∀ {depth body ks done t all t'}, IsLiteral body → Spaced ks t →
    member false fuel depth done (body ++ '"' :: t) = .ok (all, t') →
      ∃ m ms ks', MembersSpelled depth done all t' (m :: ms) ks' ∧
        .literal body :: ks =
          m.written ++ (ms.flatMap fun m => Token.mark ',' :: m.written) ++ .mark '\x7d' :: ks'
  moreMembers : ∀ {depth ks done t all t'}, Spaced ks t →
    moreMembers false fuel depth done t = .ok (all, t') →
      ∃ ms ks', MembersSpelled depth done all t' ms ks' ∧
        ks = (ms.flatMap fun m => Token.mark ',' :: m.written) ++ .mark '\x7d' :: ks'

section

variable {fuel depth : Nat} {ks : List Token} {t t' : Text} {v : Json}

/-- An atom is read as a document, or the reader stops inside it. -/
theorem spells_of_atom {word : Text} (ht : Spaced (.atom word :: ks) t)
    (h : value false (fuel + 1) depth t = .ok (v, t')) :
    Stuck t' ∨ Spells depth [.atom word] v ∧ Spaced ks t' := by
  obtain ⟨u, hnext, hproper, hends, hu⟩ := ht.next
  rw [← value_skipBlanks, hnext] at h
  have hsame := value_atom hends hproper fuel depth
  rw [Token.text] at h
  rw [h] at hsame
  generalize hr : value false 1 0 word = r at hsame
  cases hsame with
  | @ok _ rest hrest =>
    cases rest with
    | nil => exact Or.inr ⟨.atom hr, hu⟩
    | cons c rest => exact Or.inl ⟨c, rfl, hproper.2 c (hrest.subset List.mem_cons_self)⟩

/-- A literal is read as a string. -/
theorem spells_of_literal {body : Text} (ht : Spaced (.literal body :: ks) t)
    (h : value false (fuel + 1) depth t = .ok (v, t')) :
    Spells depth [.literal body] v ∧ Spaced ks t' := by
  obtain ⟨u, hnext, hbody, hu⟩ := ht.next_literal
  rw [value, hnext] at h
  obtain ⟨⟨s, w⟩, hstring, h⟩ := bind_eq_ok.mp h
  cases h
  obtain ⟨rfl, hs⟩ := (string_eq_ok_iff hbody false).mp hstring
  exact ⟨.string hs, hu⟩

/-- A mark is read as the beginning of an array or of an object. -/
theorem spells_of_mark (ih : TakesSpelled fuel) {c : Char} (ht : Spaced (.mark c :: ks) t)
    (h : value false (fuel + 1) depth t = .ok (v, t')) :
    ∃ ks₁ ks', .mark c :: ks = ks₁ ++ ks' ∧ Spells depth ks₁ v ∧ Spaced ks' t' := by
  obtain ⟨-, -, hproper, -⟩ := ht.next
  obtain ⟨-, hatom, hquote, -⟩ := isMark_cases hproper
  obtain ⟨u, hnext, hu⟩ := ht.next_mark
  -- no word or number begins with a mark
  have hne : ∀ {d : Char} {w w' : Text}, isAtomChar d = true → c :: w ≠ d :: w' := by
    rintro d w w' hd heq
    rw [← (List.cons.inj heq).1, hatom] at hd
    cases hd
  rw [value, hnext] at h
  split at h
  · cases h
  · rename_i heq
    exact absurd heq (hne (by decide))
  · rename_i heq
    exact absurd heq (hne (by decide))
  · rename_i heq
    exact absurd heq (hne (by decide))
  · rename_i heq
    exact absurd (List.cons.inj heq).1 hquote
  · -- an array
    rename_i heq
    obtain ⟨rfl, rfl⟩ := List.cons.inj heq
    split at h
    · cases h
    · obtain ⟨⟨vs, w⟩, hvs, h⟩ := bind_eq_ok.mp h
      cases h
      obtain ⟨parts, ks', hparts, rfl⟩ := ih.items hu hvs
      rw [hparts.values]
      exact ⟨_, ks', by simp, .array hparts.spells, hparts.rest⟩
  · -- an object
    rename_i heq
    obtain ⟨rfl, rfl⟩ := List.cons.inj heq
    split at h
    · cases h
    · obtain ⟨⟨all, w⟩, hall, h⟩ := bind_eq_ok.mp h
      cases h
      obtain ⟨ms, ks', hms, rfl⟩ := ih.members hu hall
      rw [hms.values]
      exact ⟨_, ks', by simp, .object hms.keys hms.spells, hms.rest⟩
  · rename_i heq
    exact absurd heq (hne (by decide))
  · rename_i d w _ _ _ _ _ _ _ heq
    split at h
    · rename_i hd
      exact absurd heq (hne (isAtomChar_of_isDigit hd))
    · cases h

/-- One step of the reader of documents. -/
theorem spells_of_value (ih : TakesSpelled fuel) (ht : Spaced ks t)
    (h : value false (fuel + 1) depth t = .ok (v, t')) :
    Stuck t' ∨ ∃ ks₁ ks', ks = ks₁ ++ ks' ∧ Spells depth ks₁ v ∧ Spaced ks' t' := by
  cases ks with
  | nil =>
    rw [value, ht.skipBlanks_nil] at h
    cases h
  | cons k ks =>
    cases k with
    | atom word => exact (spells_of_atom ht h).imp_right fun hv => ⟨[_], ks, rfl, hv⟩
    | literal body => exact Or.inr ⟨[_], ks, rfl, spells_of_literal ht h⟩
    | mark c => exact Or.inr (spells_of_mark ih ht h)

/-- An item is read, and those behind it. -/
theorem TakesSpelled.itemAndMore (ih : TakesSpelled fuel) {u : Text} {vs : List Json}
    (ht : Spaced ks t) (hv : Read.value false fuel depth t = .ok (v, u))
    (hvs : Read.moreItems false fuel depth u = .ok (vs, t')) :
    ∃ ks₁ parts ks', ItemsSpelled depth (v :: vs) t' ((ks₁, v) :: parts) ks' ∧
      ks = ks₁ ++ ((parts.flatMap fun p => Token.mark ',' :: p.1) ++ .mark ']' :: ks') := by
  rcases ih.value ht hv with hstuck | ⟨ks₁, ks₂, rfl, hspells, hu⟩
  · exact absurd hvs (hstuck.moreItems fuel depth)
  · obtain ⟨parts, ks', hparts, rfl⟩ := ih.moreItems hu hvs
    exact ⟨ks₁, parts, ks', .cons hspells hparts, rfl⟩

end

theorem takesSpelled_succ {fuel : Nat} (ih : TakesSpelled fuel) : TakesSpelled (fuel + 1) where
  value := spells_of_value ih
  items := by
    intro depth ks t vs t' ht h
    rw [Read.items] at h
    split at h
    · cases h
    · rename_i hnext
      cases h
      obtain ⟨ks', rfl, hks'⟩ := ht.mark_of_skipBlanks (by decide) (by decide) hnext
      exact ⟨[], ks', .nil hks', rfl⟩
    · obtain ⟨⟨v, u⟩, hv, h⟩ := bind_eq_ok.mp h
      obtain ⟨⟨ws, w⟩, hws, h⟩ := bind_eq_ok.mp h
      cases h
      obtain ⟨ks₁, parts, ks', hparts, rfl⟩ := ih.itemAndMore ht.skipBlanks hv hws
      exact ⟨(ks₁, v) :: parts, ks', hparts, by simp [separated, List.flatMap_map]⟩
  moreItems := by
    intro depth ks t vs t' ht h
    rw [Read.moreItems] at h
    split at h
    · cases h
    · rename_i hnext
      cases h
      obtain ⟨ks', rfl, hks'⟩ := ht.mark_of_skipBlanks (by decide) (by decide) hnext
      exact ⟨[], ks', .nil hks', rfl⟩
    · rename_i hnext
      obtain ⟨ks, rfl, hks⟩ := ht.mark_of_skipBlanks (by decide) (by decide) hnext
      split at h
      · cases h
      · cases h
      · obtain ⟨⟨v, u⟩, hv, h⟩ := bind_eq_ok.mp h
        obtain ⟨⟨ws, w⟩, hws, h⟩ := bind_eq_ok.mp h
        cases h
        obtain ⟨ks₁, parts, ks', hparts, rfl⟩ := ih.itemAndMore hks.skipBlanks hv hws
        exact ⟨(ks₁, v) :: parts, ks', hparts, by simp⟩
    · cases h
  members := by
    intro depth ks t all t' ht h
    rw [Read.members] at h
    split at h
    · cases h
    · rename_i hnext
      cases h
      obtain ⟨ks', rfl, hks'⟩ := ht.mark_of_skipBlanks (by decide) (by decide) hnext
      exact ⟨[], ks', .nil hks', rfl⟩
    · rename_i hnext
      obtain ⟨body, ks, u, rfl, rfl, hbody, hu⟩ := ht.literal_of_skipBlanks hnext
      obtain ⟨m, ms, ks', hms, htokens⟩ := ih.member hbody hu h
      refine ⟨m :: ms, ks', hms, ?_⟩
      rw [htokens, List.map_cons, separated, List.flatMap_map]
    · cases h
  member := by
    intro depth body ks done t all t' hbody ht h
    rw [Read.member] at h
    obtain ⟨⟨key, u⟩, hkey, hmore⟩ := bind_eq_ok.mp h
    clear h
    obtain ⟨rfl, hdenotes⟩ := (string_eq_ok_iff hbody false).mp hkey
    simp only at hmore
    split at hmore
    · cases hmore
    · rename_i hnext
      obtain ⟨ks, rfl, hks⟩ := ht.mark_of_skipBlanks (by decide) (by decide) hnext
      obtain ⟨⟨v, w⟩, hv, hmore⟩ := bind_eq_ok.mp hmore
      rcases ih.value hks hv with hstuck | ⟨ks₁, ks₂, rfl, hspells, hw⟩
      · exact absurd hmore (hstuck.moreMembers fuel depth _)
      · obtain ⟨ms, ks', hms, rfl⟩ := ih.moreMembers hw hmore
        exact ⟨⟨body, key, ks₁, v⟩, ms, ks', .cons hdenotes hspells hms,
          by simp [MemberSpelling.written]⟩
    · cases hmore
  moreMembers := by
    intro depth ks done t all t' ht h
    rw [Read.moreMembers] at h
    split at h
    · cases h
    · rename_i hnext
      cases h
      obtain ⟨ks', rfl, hks'⟩ := ht.mark_of_skipBlanks (by decide) (by decide) hnext
      exact ⟨[], ks', .nil hks', rfl⟩
    · rename_i hnext
      obtain ⟨ks, rfl, hks⟩ := ht.mark_of_skipBlanks (by decide) (by decide) hnext
      split at h
      · cases h
      · rename_i hquote
        obtain ⟨body, ks, u, rfl, rfl, hbody, hu⟩ := hks.literal_of_skipBlanks hquote
        obtain ⟨m, ms, ks', hms, htokens⟩ := ih.member hbody hu h
        refine ⟨m :: ms, ks', hms, ?_⟩
        rw [htokens, List.flatMap_cons]
        simp
      · cases h
    · cases h

theorem takesSpelled : ∀ fuel, TakesSpelled fuel
  | 0 => by
    constructor
    · intro depth ks t v t' _ h
      rw [value] at h
      cases h
    · intro depth ks t vs t' _ h
      rw [items] at h
      cases h
    · intro depth ks t vs t' _ h
      rw [moreItems] at h
      cases h
    · intro depth ks t all t' _ h
      rw [members] at h
      cases h
    · intro depth body ks done t all t' _ _ h
      rw [member] at h
      cases h
    · intro depth ks done t all t' _ h
      rw [moreMembers] at h
      cases h
  | fuel + 1 => takesSpelled_succ (takesSpelled fuel)

/-! ## 5. Documents -/

/-- Each token is written with at least one character. -/
theorem Spaced.length_le {ks : List Token} {t : Text} (h : Spaced ks t) : ks.length ≤ t.length := by
  induction h with
  | nil => exact Nat.le_refl 0
  | blank _ _ ih => exact Nat.le_succ_of_le ih
  | @token k ks t hproper _ _ ih =>
    obtain ⟨c, w, htext, -⟩ := hproper.head
    rw [htext, List.length_cons, List.length_append, List.length_cons]
    omega

/-- **A text of tokens and blanks is read as the document that the tokens spell**, and as nothing
else. -/
theorem parse_eq_ok_iff {ks : List Token} {t : Text} {v : Json} (ht : Spaced ks t) :
    parse t = .ok v ↔ Spells deepest ks v := by
  unfold parse parseStream
  constructor
  · intro h
    obtain ⟨⟨w, rest⟩, hvalue, h⟩ := bind_eq_ok.mp h
    simp only at h
    split at h
    · rename_i hrest
      cases h
      rcases (takesSpelled _).value ht hvalue with hstuck | ⟨ks₁, ks', rfl, hspells, hks'⟩
      · obtain ⟨c, t', hnext, -⟩ := hstuck.skipBlanks
        rw [hnext] at hrest
        cases hrest
      · cases ks' with
        | nil => rwa [List.append_nil]
        | cons k ks' =>
          obtain ⟨u, hnext, hproper, -, -⟩ := hks'.next
          obtain ⟨c, w, htext, -⟩ := hproper.head
          rw [hnext, htext] at hrest
          cases hrest
    · cases h
  · intro h
    have hlength := ht.length_le
    obtain ⟨rest, hvalue, hrest⟩ := h.takenFrom (fuelFor t) t [] (by
      unfold fuelFor
      omega) (by rwa [List.append_nil])
    rw [hvalue]
    simp only [bind, Except.bind, hrest.skipBlanks_nil, Bool.false_eq_true, if_false]

end TextPatch.Json
