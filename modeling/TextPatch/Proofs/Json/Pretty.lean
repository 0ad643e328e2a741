/-
# Documents over several lines read back

A document that is written over several lines is read back as it was (`parse_pretty`), under the
same conditions as one that is written without blanks: both are written with the same tokens.

A document that has been read meets these conditions if it holds no binary numbers
(`exact_of_parse`).  So it can be written and read any number of times.
-/
import TextPatch.Proofs.Json.Answers
import TextPatch.Proofs.Json.Compact
import TextPatch.Proofs.Json.Grammar

namespace TextPatch.Json

open Read

/-! ## 1. Documents that have been read -/

/-- Documents without binary numbers. -/
inductive Integral : Json → Prop
  | null : Integral .null
  | bool (b : Bool) : Integral (.bool b)
  | integer (n : Int) : Integral (.number (.integer n))
  | string (s : String) : Integral (.string s)
  | array {vs : List Json} (h : ∀ v ∈ vs, Integral v) : Integral (.array vs)
  | object {ms : Members} (h : ∀ m ∈ ms, Integral m.2) : Integral (.object ms)

/-- **What can be read, and holds no binary numbers, is read back exactly.** -/
theorem Readable.exact {depth : Nat} {v : Json} (h : Readable depth v) (hv : Integral v) :
    Exact depth v := by
  induction h with
  | null => exact .null
  | bool b => exact .bool b
  | @number depth n hrange =>
    cases hv with
    | integer n => exact .integer hrange.1 hrange.2
  | string s => exact .string s
  | array _ ih =>
    cases hv with
    | array hv => exact .array fun v hmem => ih v hmem (hv v hmem)
  | object hkeys _ ih =>
    cases hv with
    | object hv => exact .object hkeys fun m hmem => ih m hmem (hv m hmem)

/-- **A document that has been read is read back exactly**, if it holds no binary numbers. -/
theorem exact_of_parse {t : Text} {v : Json} (h : parse t = .ok v) (hv : Integral v) :
    Exact deepest v :=
  (readable_of_parse h).exact hv

/-! ## 2. Tokens of a written document -/

/-- A document is written with these tokens at every level, whatever follows it. -/
structure WrittenWith (v : Json) (ks : List Token) : Prop where
  spaced : ∀ (level : Nat) {ks' : List Token} {t : Text}, Spaced ks' t → Ended t →
    Spaced (ks ++ ks') (prettyAt level v ++ t)

theorem spaced_newLine {ks : List Token} {t : Text} (level : Nat) (h : Spaced ks t) :
    Spaced ks (newLine level ++ t) :=
  .blank (by decide) (h.blanks (4 * level))

theorem Spaced.mark {c : Char} {ks : List Token} {t : Text} (hc : isMark c = true)
    (h : Spaced ks t) : Spaced (.mark c :: ks) (c :: t) :=
  .token (k := .mark c) hc trivial h

theorem ended_newLine (level : Nat) (t : Text) : Ended (newLine level ++ t) := by
  intro c hc
  cases hc
  decide

theorem ended_mark {c : Char} (hc : isMark c = true) (t : Text) : Ended (c :: t) := by
  intro d hd
  cases hd
  exact (isMark_cases hc).2.1

theorem writtenWith_atom {v : Json} {word : Text} (hword : (Token.atom word).Proper)
    (h : ∀ level, prettyAt level v = word) : WrittenWith v [.atom word] where
  spaced := by
    intro level ks' t ht hends
    rw [h level]
    exact .token hword hends ht

/-- A string is written as a literal that stands for it. -/
theorem denotes_escape (s : Text) : Denotes (s.flatMap escape) s := by
  have hread := stringRest_flatMap_escape false [] s []
  obtain ⟨body, x, htext, hx, hdenotes⟩ := denotes_of_stringRest hread
  rw [List.reverse_nil, List.nil_append, List.nil_append] at hx
  rw [List.append_cancel_right htext, hx]
  exact hdenotes

theorem Spaced.quote {s : String} {ks : List Token} {t : Text} (h : Spaced ks t) :
    Spaced (.literal (s.toList.flatMap escape) :: ks) (quote s ++ t) :=
  .token (k := .literal (s.toList.flatMap escape)) (denotes_escape s.toList).isLiteral trivial h

/-- Items are written with tokens that spell them. -/
def PartsOf (depth : Nat) (vs : List Json) (parts : List (List Token × Json)) : Prop :=
  parts.map Prod.snd = vs ∧ ∀ p ∈ parts, Spells depth p.1 p.2 ∧ WrittenWith p.2 p.1

theorem exists_parts {depth : Nat} {vs : List Json}
    (h : ∀ v ∈ vs, ∃ ks, Spells depth ks v ∧ WrittenWith v ks) :
    ∃ parts, PartsOf depth vs parts := by
  induction vs with
  | nil => exact ⟨[], rfl, fun p hp => absurd hp List.not_mem_nil⟩
  | cons v vs ih =>
    obtain ⟨ks, hks⟩ := h v List.mem_cons_self
    obtain ⟨parts, rfl, hparts⟩ := ih fun w hw => h w (List.mem_cons_of_mem v hw)
    exact ⟨(ks, v) :: parts, rfl, List.forall_mem_cons.mpr ⟨hks, hparts⟩⟩

theorem ended_prettyItems (level : Nat) (vs : List Json) (t : Text) :
    Ended (prettyItems level vs ++ t) := by
  cases vs with
  | nil =>
    rw [prettyItems, List.append_assoc]
    exact ended_newLine level _
  | cons v vs =>
    rw [prettyItems, List.cons_append]
    exact ended_mark (by decide) _

/-- The items behind the first one, and the closing bracket. -/
theorem spaced_prettyItems (level : Nat) {ks' : List Token} {t : Text} (ht : Spaced ks' t) :
    ∀ {parts : List (List Token × Json)}, (∀ p ∈ parts, WrittenWith p.2 p.1) →
      Spaced ((parts.flatMap fun p => Token.mark ',' :: p.1) ++ .mark ']' :: ks')
        (prettyItems level (parts.map Prod.snd) ++ t)
  | [], _ => by
    rw [List.map_nil, prettyItems, List.append_assoc]
    exact spaced_newLine level (ht.mark (by decide))
  | p :: parts, h => by
    have hrest := spaced_prettyItems level ht
      fun q hq => h q (List.mem_cons_of_mem p hq)
    have hhead := (h p List.mem_cons_self).spaced (level + 1) hrest
      (ended_prettyItems level _ t)
    rw [List.map_cons, prettyItems, List.flatMap_cons]
    simp only [List.cons_append, List.append_assoc]
    exact (spaced_newLine (level + 1) hhead).mark (by decide)

theorem writtenWith_array {depth : Nat} {vs : List Json} {parts : List (List Token × Json)}
    (h : PartsOf depth vs parts) :
    WrittenWith (.array vs) (.mark '[' :: (separated (parts.map Prod.fst) ++ [.mark ']'])) where
  spaced := by
    intro level ks' t ht _
    obtain ⟨rfl, hparts⟩ := h
    cases parts with
    | nil => exact (ht.mark (by decide)).mark (by decide)
    | cons p parts =>
      have hrest := spaced_prettyItems level ht
        fun q hq => (hparts q (List.mem_cons_of_mem p hq)).2
      have hhead := (hparts p List.mem_cons_self).2.spaced (level + 1) hrest
        (ended_prettyItems level _ t)
      rw [List.map_cons, List.map_cons, prettyAt, separated, List.flatMap_map]
      simp only [List.cons_append, List.append_assoc, List.nil_append]
      exact (spaced_newLine (level + 1) hhead).mark (by decide)

/-- Members are written with tokens that spell them. -/
def MembersOf (depth : Nat) (ms : Members) (written : List MemberSpelling) : Prop :=
  written.map (fun m => (m.key, m.value)) = ms ∧ ∀ m ∈ written,
    m.body = m.key.toList.flatMap escape ∧ Spells depth m.tokens m.value ∧
      WrittenWith m.value m.tokens

theorem exists_members {depth : Nat} {ms : Members}
    (h : ∀ m ∈ ms, ∃ ks, Spells depth ks m.2 ∧ WrittenWith m.2 ks) :
    ∃ written, MembersOf depth ms written := by
  induction ms with
  | nil => exact ⟨[], rfl, fun m hm => absurd hm List.not_mem_nil⟩
  | cons m ms ih =>
    obtain ⟨k, v⟩ := m
    obtain ⟨ks, hks⟩ := h (k, v) List.mem_cons_self
    obtain ⟨written, rfl, hwritten⟩ := ih fun m hm => h m (List.mem_cons_of_mem (k, v) hm)
    exact ⟨⟨k.toList.flatMap escape, k, ks, v⟩ :: written, rfl,
      List.forall_mem_cons.mpr ⟨⟨rfl, hks⟩, hwritten⟩⟩

theorem ended_prettyMembers (level : Nat) (ms : Members) (t : Text) :
    Ended (prettyMembers level ms ++ t) := by
  cases ms with
  | nil =>
    rw [prettyMembers, List.append_assoc]
    exact ended_newLine level _
  | cons m ms =>
    rw [prettyMembers, List.cons_append]
    exact ended_mark (by decide) _

/-- One member, up to the end of its value. -/
theorem spaced_member (level : Nat) {m : MemberSpelling} {ks' : List Token} {t : Text}
    (hbody : m.body = m.key.toList.flatMap escape) (h : WrittenWith m.value m.tokens)
    (ht : Spaced ks' t) (hends : Ended t) :
    Spaced (m.written ++ ks')
      (newLine level ++ (quote m.key ++ ':' :: ' ' :: (prettyAt level m.value ++ t))) := by
  have hvalue := h.spaced level ht hends
  have hcolon := (Spaced.blank (c := ' ') (by decide) hvalue).mark (c := ':') (by decide)
  rw [MemberSpelling.written, hbody]
  exact spaced_newLine level hcolon.quote

/-- The members behind the first one, and the closing brace. -/
theorem spaced_prettyMembers (level : Nat) {ks' : List Token} {t : Text} (ht : Spaced ks' t) :
    ∀ {written : List MemberSpelling},
      (∀ m ∈ written, m.body = m.key.toList.flatMap escape ∧ WrittenWith m.value m.tokens) →
        Spaced ((written.flatMap fun m => Token.mark ',' :: m.written) ++ .mark '\x7d' :: ks')
          (prettyMembers level (written.map fun m => (m.key, m.value)) ++ t)
  | [], _ => by
    rw [List.map_nil, prettyMembers, List.append_assoc]
    exact spaced_newLine level (ht.mark (by decide))
  | m :: written, h => by
    obtain ⟨hbody, hm⟩ := h m List.mem_cons_self
    have hrest := spaced_prettyMembers level ht
      fun q hq => h q (List.mem_cons_of_mem m hq)
    have hhead := spaced_member (level + 1) hbody hm hrest (ended_prettyMembers level _ t)
    rw [List.map_cons, prettyMembers, List.flatMap_cons]
    simp only [List.cons_append, List.append_assoc] at hhead ⊢
    exact hhead.mark (by decide)

theorem writtenWith_object {depth : Nat} {ms : Members} {written : List MemberSpelling}
    (h : MembersOf depth ms written) :
    WrittenWith (.object ms)
      (.mark '\x7b' :: (separated (written.map MemberSpelling.written) ++ [.mark '\x7d'])) where
  spaced := by
    intro level ks' t ht _
    obtain ⟨rfl, hwritten⟩ := h
    cases written with
    | nil => exact (ht.mark (by decide)).mark (by decide)
    | cons m written =>
      obtain ⟨hbody, -, hm⟩ := hwritten m List.mem_cons_self
      have hrest := spaced_prettyMembers level ht fun q hq =>
        ⟨(hwritten q (List.mem_cons_of_mem m hq)).1, (hwritten q (List.mem_cons_of_mem m hq)).2.2⟩
      have hhead := spaced_member (level + 1) hbody hm hrest
        (ended_prettyMembers level _ t)
      rw [List.map_cons, List.map_cons, prettyAt, separated, List.flatMap_map]
      simp only [List.cons_append, List.append_assoc, List.nil_append] at hhead ⊢
      exact hhead.mark (by decide)

/-- New keys are put behind the others, one after the other. -/
theorem insertAll_eq (done : Members) : ∀ {written : List MemberSpelling},
    (Members.keys (done ++ written.map fun m => (m.key, m.value))).Nodup →
      insertAll done written = done ++ written.map fun m => (m.key, m.value)
  | [], _ => (List.append_nil done).symm
  | m :: written, h => by
    have hm : m.key ∉ done.keys := by
      rw [Members.keys, List.map_append, List.map_cons, List.nodup_append] at h
      exact fun hmem => h.2.2 m.key hmem m.key List.mem_cons_self rfl
    rw [List.map_cons, List.append_cons] at h
    have hrest := insertAll_eq _ h
    rw [← List.append_cons] at hrest
    rw [insertAll, List.foldl_cons, insert_of_not_mem _ hm]
    exact hrest

/-- **A document is written with tokens that spell it.** -/
theorem Exact.written {depth : Nat} {v : Json} (h : Exact depth v) :
    ∃ ks, Spells depth ks v ∧ WrittenWith v ks := by
  induction h with
  | null =>
    exact ⟨_, .atom (Exact.value_scalar .null ends_nil 0 0),
      writtenWith_atom ⟨List.cons_ne_nil _ _, List.all_eq_true.mp rfl⟩ fun _ => rfl⟩
  | bool b =>
    cases b with
    | true =>
      exact ⟨_, .atom (Exact.value_scalar (.bool true) ends_nil 0 0),
        writtenWith_atom ⟨List.cons_ne_nil _ _, List.all_eq_true.mp rfl⟩ fun _ => rfl⟩
    | false =>
      exact ⟨_, .atom (Exact.value_scalar (.bool false) ends_nil 0 0),
        writtenWith_atom ⟨List.cons_ne_nil _ _, List.all_eq_true.mp rfl⟩ fun _ => rfl⟩
  | @integer depth n hlow hhigh =>
    have hvalue := value_integer hlow hhigh ends_nil 0 0
    rw [List.append_nil] at hvalue
    obtain ⟨sign, es, htext, hne, hes, hsign⟩ := toList_toString_int n
    refine ⟨_, .atom hvalue, writtenWith_atom ⟨?_, ?_⟩ fun _ => rfl⟩
    · rw [htext]
      exact List.append_ne_nil_of_right_ne_nil sign hne
    · intro c hc
      rw [htext] at hc
      rcases List.mem_append.mp hc with hc | hc
      · rcases hsign with ⟨-, rfl⟩ | ⟨-, rfl⟩
        · exact absurd hc List.not_mem_nil
        · rw [List.mem_singleton.mp hc]
          decide
      · exact isAtomChar_of_isDigit (hes c hc)
  | string s =>
    exact ⟨_, .string (denotes_escape s.toList), ⟨fun _ _ _ ht _ => ht.quote⟩⟩
  | array _ ih =>
    obtain ⟨parts, hparts⟩ := exists_parts ih
    refine ⟨_, ?_, writtenWith_array hparts⟩
    rw [← hparts.1]
    exact .array fun p hp => (hparts.2 p hp).1
  | object hkeys _ ih =>
    obtain ⟨written, hwritten⟩ := exists_members ih
    refine ⟨_, ?_, writtenWith_object hwritten⟩
    have hall := insertAll_eq [] (by
      rw [hwritten.1]
      exact hkeys)
    rw [List.nil_append, hwritten.1] at hall
    rw [← hall]
    refine .object (fun m hm => ?_) fun m hm => (hwritten.2 m hm).2.1
    rw [(hwritten.2 m hm).1]
    exact denotes_escape m.key.toList

/-- **A document that is written over several lines is read back.** -/
theorem parse_pretty {v : Json} (h : Exact deepest v) : parse (pretty v) = .ok v := by
  obtain ⟨ks, hspells, hwritten⟩ := h.written
  have hspaced := hwritten.spaced 0 Spaced.nil (fun c hc => nomatch hc)
  rw [List.append_nil, List.append_nil] at hspaced
  exact (parse_eq_ok_iff hspaced).mpr hspells

end TextPatch.Json
