/-
# Values read back from compact documents

A reader of values of a type gets the value that a document stands for when it meets the document
written without blanks, and leaves what follows it (`Reads`).  Readers are built from readers of
parts, and so are these statements:

* a scalar or a document is read if the decoder takes it for the value (`reads_scalar`,
  `reads_document`);
* an array is read item by item (`reads_list`);
* a record is read member by member: what the decoder makes of the members one after the other is
  also what the readers make of them, if each is known and comes once (`reads_fields`).
-/
import TextPatch.Json.Typed
import TextPatch.Proofs.Json.Compact

namespace TextPatch.Json.Typed

open Read

/-- What a reader makes of a written document, whatever follows it. -/
def Reads {α : Type} (r : Reader α) (v : Json) (a : α) : Prop :=
  ∀ t, Ends t → r (v.compact ++ t) = .ok (a, t)

variable {α : Type} {f : Decoder α} {v : Json} {a : α}

/-! ## 1. Scalars and documents -/

/-- A scalar does not begin as a container does, because such a text cannot be read at depth zero. -/
theorem scalar_head (h : Exact 0 v) :
    ∃ c x, v.compact = c :: x ∧ isBlank c = false ∧ c ≠ '[' ∧ c ≠ '\x7b' := by
  obtain ⟨c, x, hv, hblank, -⟩ := compact_head v
  have hread := h.value_scalar ends_nil 0 0
  rw [List.append_nil, hv, value, skipBlanks_cons hblank] at hread
  refine ⟨c, x, hv, hblank, ?_, ?_⟩
  · rintro rfl
    cases hread
  · rintro rfl
    cases hread

/-- A scalar is read if the decoder takes it for the value. -/
theorem reads_scalar (hv : Exact 0 v) (ha : f v = .ok a) : Reads (scalar f) v a := by
  intro t ht
  obtain ⟨c, x, hhead, hblank, harray, hobject⟩ := scalar_head hv
  have hread := hv.value_scalar ht 0 0
  unfold scalar
  rw [hhead, List.cons_append] at hread ⊢
  rw [skipBlanks_cons hblank]
  split
  · rename_i heq
    exact absurd (List.cons.inj heq).1 harray
  · rename_i heq
    exact absurd (List.cons.inj heq).1 hobject
  · simp only [hread, step, bind, Except.bind, ha, decided]

/-- A document is read if the decoder takes it for the value. -/
theorem reads_document {depth : Nat} (hv : Exact depth v) (ha : f v = .ok a) :
    Reads (document f depth) v a := by
  intro t ht
  have hfuel : 3 * v.compact.length ≤ fuelFor (v.compact ++ t) := by
    rw [fuelFor, List.length_append]
    omega
  unfold document
  simp only [hv.readBack _ t hfuel ht, step, bind, Except.bind, ha, decided]

/-- A word is read if the decoder takes it for the value. -/
theorem reads_oneWord {s : String} (ha : f (.string s) = .ok a) :
    Reads (oneWord f) (.string s) a := by
  intro t ht
  have hscalar := reads_scalar (.string s) ha t ht
  unfold oneWord
  rw [compact, quote, List.cons_append] at hscalar ⊢
  rw [skipBlanks_cons (by decide)]
  exact hscalar

/-! ## 2. Arrays -/

/-- The text of an array behind its bracket. -/
def inArray : List Json → Text
  | [] => [']']
  | v :: vs => v.compact ++ compactItems vs

theorem compact_array (vs : List Json) : (Json.array vs).compact = '[' :: inArray vs := by
  cases vs with
  | nil => rw [compact, inArray]
  | cons v vs => rw [compact, inArray]

variable {r : Reader α} {write : α → Json} {as : List α}

theorem length_le_compactItems (vs : List Json) : vs.length ≤ (compactItems vs).length := by
  induction vs with
  | nil => exact Nat.zero_le _
  | cons v vs ih =>
    rw [compactItems, List.length_cons, List.length_cons, List.length_append]
    omega

theorem length_le_inArray (vs : List Json) : vs.length ≤ (inArray vs).length := by
  cases vs with
  | nil => exact Nat.zero_le _
  | cons v vs =>
    obtain ⟨c, x, hv, -⟩ := compact_head v
    have hle := length_le_compactItems vs
    rw [inArray, hv, List.length_cons, List.length_append, List.length_cons]
    omega

theorem nextItem_first {c : Char} (hblank : isBlank c = false) (hclose : c ≠ ']') (t : Text) :
    nextItem true (c :: t) = .ok (some (c :: t)) := by
  unfold nextItem
  rw [skipBlanks_cons hblank]
  split
  · rename_i heq
    cases heq
  · rename_i heq
    exact absurd (List.cons.inj heq).1 hclose
  · rename_i heq
    rw [if_pos rfl, heq]

theorem nextItem_comma {c : Char} (hblank : isBlank c = false) (hclose : c ≠ ']') (t : Text) :
    nextItem false (',' :: c :: t) = .ok (some (c :: t)) := by
  unfold nextItem
  rw [skipBlanks_cons (by decide)]
  split
  · rename_i heq
    cases heq
  · rename_i heq
    cases (List.cons.inj heq).1
  · rename_i heq
    obtain ⟨rfl, rfl⟩ := List.cons.inj heq
    rw [if_neg Bool.false_ne_true, if_pos rfl, skipBlanks_cons hblank]
    split
    · rename_i heq
      cases heq
    · rename_i heq
      exact absurd (List.cons.inj heq).1 hclose
    · rfl

theorem nextItem_close (isFirst : Bool) (t : Text) : nextItem isFirst (']' :: t) = .ok none := by
  unfold nextItem
  rw [skipBlanks_cons (by decide)]
  rfl

/-- The items behind the first one are read one after the other. -/
theorem upTo_compactItems (h : ∀ a ∈ as, Reads r (write a) a) (t : Text) (count : Nat)
    (hcount : as.length ≤ count) :
    upTo r count false (compactItems (as.map write) ++ t) = .ok (as, ']' :: t) := by
  induction as generalizing count with
  | nil =>
    cases count with
    | zero => rfl
    | succ count =>
      rw [List.map_nil, compactItems, List.singleton_append, upTo, nextItem_close]
      rfl
  | cons a as ih =>
    obtain ⟨count, rfl⟩ : ∃ n, count = n + 1 := ⟨count - 1, by
      rw [List.length_cons] at hcount
      omega⟩
    obtain ⟨c, x, hv, hblank, hclose⟩ := compact_head (write a)
    have hhead := h a List.mem_cons_self _ (ends_compactItems (as.map write) t)
    have hrest := ih (fun b hb => h b (List.mem_cons_of_mem a hb)) count
      (Nat.le_of_succ_le_succ hcount)
    rw [List.map_cons, compactItems, List.cons_append, List.append_assoc, upTo]
    rw [hv, List.cons_append] at hhead ⊢
    simp only [nextItem_comma hblank hclose, hhead, hrest, bind, Except.bind, pure, Except.pure]

/-- The items of an array are read one after the other. -/
theorem upTo_inArray (h : ∀ a ∈ as, Reads r (write a) a) (t : Text) (count : Nat)
    (hcount : as.length ≤ count) :
    upTo r count true (inArray (as.map write) ++ t) = .ok (as, ']' :: t) := by
  cases as with
  | nil =>
    cases count with
    | zero => rfl
    | succ count =>
      rw [List.map_nil, inArray, List.singleton_append, upTo, nextItem_close]
      rfl
  | cons a as =>
    obtain ⟨count, rfl⟩ : ∃ n, count = n + 1 := ⟨count - 1, by
      rw [List.length_cons] at hcount
      omega⟩
    obtain ⟨c, x, hv, hblank, hclose⟩ := compact_head (write a)
    have hhead := h a List.mem_cons_self _ (ends_compactItems (as.map write) t)
    have hrest := upTo_compactItems (fun b hb => h b (List.mem_cons_of_mem a hb)) t count
      (Nat.le_of_succ_le_succ hcount)
    rw [List.map_cons, inArray, List.append_assoc, upTo]
    rw [hv, List.cons_append] at hhead ⊢
    simp only [nextItem_first hblank hclose, hhead, hrest, bind, Except.bind, pure, Except.pure]

theorem mark_cons {c : Char} (hc : isBlank c = false) (t : Text) : mark c (c :: t) = .ok t := by
  unfold mark
  rw [skipBlanks_cons hc]
  exact if_pos rfl

/-- **An array is read if its items are.** -/
theorem reads_list (h : ∀ a ∈ as, Reads r (write a) a) :
    Reads (list r) (.array (as.map write)) as := by
  intro t ht
  have hcount : as.length ≤ (inArray (as.map write) ++ t).length + 1 := by
    have hle := length_le_inArray (as.map write)
    rw [List.length_map] at hle
    rw [List.length_append]
    omega
  rw [compact_array, List.cons_append]
  unfold list closedArray
  rw [skipBlanks_cons (by decide)]
  simp only [upTo_inArray h t _ hcount, bind, Except.bind,
    mark_cons (show isBlank ']' = false by decide), pure, Except.pure, settle]

/-- An array of two integers is read if the decoder takes it for the value. -/
theorem reads_twoIntegers {m n : Int64}
    (ha : f (.array [.number (.integer m.toInt), .number (.integer n.toInt)]) = .ok a) :
    Reads (twoIntegers f) (.array [.number (.integer m.toInt), .number (.integer n.toInt)]) a := by
  intro t ht
  have hinteger : ∀ k : Int64, Reads (scalar fun v => (decodeInt64 v).map fun _ => v)
      (.number (.integer k.toInt)) (.number (.integer k.toInt)) := by
    intro k
    have hlow := k.le_toInt
    have hhigh := k.toInt_lt
    refine reads_scalar (.integer (by omega) (by omega)) ?_
    rw [decodeInt64, if_pos (by omega)]
    rfl
  have hitems : ∀ v ∈ [Json.number (.integer m.toInt), .number (.integer n.toInt)],
      Reads (scalar fun v => (decodeInt64 v).map fun _ => v) (id v) v := by
    intro v hv
    rcases List.mem_cons.mp hv with rfl | hv
    · exact hinteger m
    · rw [List.mem_singleton.mp hv]
      exact hinteger n
  have hread := upTo_inArray hitems t 2 (Nat.le_refl 2)
  rw [List.map_id] at hread
  rw [compact_array, List.cons_append]
  unfold twoIntegers closedArray
  rw [skipBlanks_cons (by decide)]
  simp only [hread, bind, Except.bind, ha, decided,
    mark_cons (show isBlank ']' = false by decide), pure, Except.pure, settle]

/-! ## 3. Records -/

/-- The text of an object behind its brace. -/
def inObject : Members → Text
  | [] => ['\x7d']
  | (k, v) :: ms => quote k ++ ':' :: (v.compact ++ compactMembers ms)

theorem compact_object (ms : Members) : (Json.object ms).compact = '\x7b' :: inObject ms := by
  cases ms with
  | nil => rw [compact, inObject]
  | cons m ms =>
    obtain ⟨k, v⟩ := m
    rw [compact, inObject]

/-- What is read member by member: each from behind its key. -/
inductive Passes {σ : Type} (f : σ → String → Reader σ) : σ → Members → σ → Prop
  | done (s : σ) : Passes f s [] s
  | member {s s₁ s' : σ} {k : String} {v : Json} {ms : Members}
      (hread : ∀ t, Ends t → f s k (':' :: (v.compact ++ t)) = .ok (s₁, t))
      (hrest : Passes f s₁ ms s') : Passes f s ((k, v) :: ms) s'

section

variable {σ : Type} {f : σ → String → Reader σ} {s s' : σ} {ms : Members}

theorem nextKey_key (k : String) (t : Text) :
    nextKey.key (quote k ++ t) = .ok (some (k, t)) := by
  rw [quote, List.cons_append, List.append_assoc, List.singleton_append, nextKey.key, string_quote]
  rfl

theorem nextKey_first (k : String) (t : Text) :
    nextKey true (quote k ++ t) = .ok (some (k, t)) := by
  have hkey := nextKey_key k t
  unfold nextKey
  rw [quote, List.cons_append] at hkey ⊢
  rw [skipBlanks_cons (by decide)]
  split
  · rename_i heq
    cases heq
  · rename_i heq
    cases (List.cons.inj heq).1
  · rename_i heq
    rw [if_pos rfl, ← heq, hkey]

theorem nextKey_comma (k : String) (t : Text) :
    nextKey false (',' :: (quote k ++ t)) = .ok (some (k, t)) := by
  have hkey := nextKey_key k t
  unfold nextKey
  rw [skipBlanks_cons (by decide)]
  split
  · rename_i heq
    cases heq
  · rename_i heq
    cases (List.cons.inj heq).1
  · rename_i heq
    obtain ⟨rfl, rfl⟩ := List.cons.inj heq
    rw [quote, List.cons_append] at hkey ⊢
    rw [if_neg Bool.false_ne_true, if_pos rfl, skipBlanks_cons (by decide), hkey]

theorem nextKey_close (isFirst : Bool) (t : Text) :
    nextKey isFirst ('\x7d' :: t) = .ok none := by
  unfold nextKey
  rw [skipBlanks_cons (by decide)]
  rfl

/-- The members behind the first one are read one after the other. -/
theorem Passes.members_compactMembers (h : Passes f s ms s') (t : Text) (fuel : Nat)
    (hfuel : ms.length < fuel) :
    Typed.members f fuel false s (compactMembers ms ++ t) = .ok (s', '\x7d' :: t) := by
  induction h generalizing fuel with
  | done s =>
    obtain ⟨fuel, rfl⟩ : ∃ n, fuel = n + 1 := ⟨fuel - 1, by omega⟩
    rw [compactMembers, List.singleton_append, Typed.members, nextKey_close]
    rfl
  | @member s s₁ s' k v ms hread hrest ih =>
    rw [List.length_cons] at hfuel
    obtain ⟨fuel, rfl⟩ : ∃ n, fuel = n + 1 := ⟨fuel - 1, by omega⟩
    have hhead := hread _ (ends_compactMembers ms t)
    rw [compactMembers, List.cons_append, List.append_assoc, List.cons_append, List.append_assoc,
      Typed.members]
    simp only [nextKey_comma, hhead, ih fuel (by omega), bind, Except.bind]

/-- The members of an object are read one after the other. -/
theorem Passes.members_inObject (h : Passes f s ms s') (t : Text) (fuel : Nat)
    (hfuel : ms.length < fuel) :
    Typed.members f fuel true s (inObject ms ++ t) = .ok (s', '\x7d' :: t) := by
  cases h with
  | done s =>
    obtain ⟨fuel, rfl⟩ : ∃ n, fuel = n + 1 := ⟨fuel - 1, by omega⟩
    rw [inObject, List.singleton_append, Typed.members, nextKey_close]
    rfl
  | @member _ s₁ _ k v ms hread hrest =>
    rw [List.length_cons] at hfuel
    obtain ⟨fuel, rfl⟩ : ∃ n, fuel = n + 1 := ⟨fuel - 1, by omega⟩
    have hhead := hread _ (ends_compactMembers ms t)
    have hothers := hrest.members_compactMembers t fuel (by omega)
    rw [inObject, List.append_assoc, List.cons_append, List.append_assoc, Typed.members]
    simp only [nextKey_first, hhead, hothers, bind, Except.bind]

end

theorem length_le_compactMembers (ms : Members) : ms.length ≤ (compactMembers ms).length := by
  induction ms with
  | nil => exact Nat.zero_le _
  | cons m ms ih =>
    simp only [compactMembers, List.length_cons, List.length_append]
    omega

theorem length_le_inObject (ms : Members) : ms.length ≤ (inObject ms).length := by
  cases ms with
  | nil => exact Nat.zero_le _
  | cons m ms =>
    have hle := length_le_compactMembers ms
    simp only [inObject, List.length_cons, List.length_append]
    omega

section

variable {δ : Type} {names : List String} {f : δ → String → Reader δ}
  {decode : δ → String → Json → Except DecodeError δ}

/-- What a decoder makes of members one after the other is what readers make of them, if each is
known and comes once. -/
theorem passes_member {ms : Members} {seen : List String} {d d' : δ}
    (hknown : ∀ m ∈ ms, m.1 ∈ names)
    (hread : ∀ m ∈ ms, ∀ d d', decode d m.1 m.2 = .ok d' → Reads (f d m.1) m.2 d')
    (hnew : ∀ m ∈ ms, m.1 ∉ seen) (hkeys : ms.keys.Nodup)
    (hdecode : ms.foldlM (fun d m => decode d m.1 m.2) d = .ok d') :
    ∃ seen', Passes (fields.member names f) (d, seen) ms (d', seen') := by
  induction ms generalizing d seen with
  | nil =>
    cases hdecode
    exact ⟨seen, .done _⟩
  | cons m ms ih =>
    obtain ⟨k, v⟩ := m
    rw [List.foldlM_cons] at hdecode
    obtain ⟨d₁, hd₁, hrest⟩ := bind_eq_ok.mp hdecode
    rw [Members.keys, List.map_cons, List.nodup_cons] at hkeys
    have hnew' : ∀ m ∈ ms, m.1 ∉ k :: seen := by
      intro m hm hmem
      rcases List.mem_cons.mp hmem with heq | hmem
      · have hin : m.1 ∈ ms.map Prod.fst := List.mem_map_of_mem hm
        rw [heq] at hin
        exact hkeys.1 hin
      · exact hnew m (List.mem_cons_of_mem (k, v) hm) hmem
    obtain ⟨seen', hpasses⟩ := ih (fun m hm => hknown m (List.mem_cons_of_mem (k, v) hm))
      (fun m hm => hread m (List.mem_cons_of_mem (k, v) hm)) hnew' hkeys.2 hrest
    refine ⟨seen', .member (fun t ht => ?_) hpasses⟩
    have hname : names.contains k = true :=
      List.contains_iff_mem.mpr (hknown (k, v) List.mem_cons_self)
    have hfresh : seen.contains k = false := by
      rw [Bool.eq_false_iff, ne_eq, List.contains_iff_mem]
      exact hnew (k, v) List.mem_cons_self
    have hvalue := hread (k, v) List.mem_cons_self d d₁ hd₁ t ht
    unfold fields.member
    simp only [hname, hfresh, Bool.not_true, Bool.false_eq_true, if_false,
      mark_cons (show isBlank ':' = false by decide), hvalue, bind, Except.bind, pure, Except.pure]

/-- **A record is read if its members are**, each known and once, and if they make the value. -/
theorem reads_fields {type : String} {start d' : δ} {ofMembers ofItems : δ → Except DecodeError α}
    {ms : Members} (hknown : ∀ m ∈ ms, m.1 ∈ names)
    (hread : ∀ m ∈ ms, ∀ d d', decode d m.1 m.2 = .ok d' → Reads (f d m.1) m.2 d')
    (hkeys : ms.keys.Nodup) (hdecode : ms.foldlM (fun d m => decode d m.1 m.2) start = .ok d')
    (ha : ofMembers d' = .ok a) :
    Reads (fields type names start f ofMembers ofItems) (.object ms) a := by
  intro t ht
  have hnew : ∀ m ∈ ms, m.1 ∉ ([] : List String) := fun m _ => List.not_mem_nil
  obtain ⟨seen, hpasses⟩ := passes_member hknown hread hnew hkeys hdecode
  have hfuel : ms.length < (inObject ms ++ t).length + 1 := by
    have hle := length_le_inObject ms
    rw [List.length_append]
    omega
  rw [compact_object, List.cons_append]
  unfold fields closedObject
  rw [skipBlanks_cons (by decide)]
  simp only [hpasses.members_inObject t _ hfuel, bind, Except.bind, ha, decided,
    mark_cons (show isBlank '\x7d' = false by decide), pure, Except.pure, settle]

end

end TextPatch.Json.Typed
