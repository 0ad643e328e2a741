/-
# Documents read back

A document with each key once in each object (`Distinct`) that is written and read comes back as it
was but for the values of its numbers (`alike_of_parse_pretty`).  Reading the members of an object
one after the other does not overwrite any, because no key comes twice.

Of what has been written over several lines, the reader takes exactly one document (`ReadsBack`).
The proof is one induction on the fuel of the reader for its six parts together, because they call
one another.

A number may come back as another one, and it may even be refused, so the statements are about what
happens if the reader answers.
-/
import TextPatch.Proofs.Json.Numbers
import TextPatch.Proofs.Json.Strings

namespace TextPatch

/-! ## 1. Documents with each key once -/

/-- The keys of an object. -/
def Members.keys (m : Members) : List String := m.map Prod.fst

namespace Json

mutual

/-- Each object of a document has each key once. -/
def Distinct : Json → Prop
  | .array items => DistinctItems items
  | .object members => (Members.keys members).Nodup ∧ DistinctValues members
  | _ => True

/-- `Distinct` for the items of an array. -/
def DistinctItems : List Json → Prop
  | [] => True
  | v :: items => Distinct v ∧ DistinctItems items

/-- `Distinct` for the values of an object. -/
def DistinctValues : List (String × Json) → Prop
  | [] => True
  | (_, v) :: members => Distinct v ∧ DistinctValues members

end

mutual

/-- Two documents differ in the values of numbers only. -/
def Alike : Json → Json → Prop
  | .null, .null => True
  | .bool a, .bool b => a = b
  | .number _, .number _ => True
  | .string s, .string u => s = u
  | .array vs, .array ws => AlikeItems vs ws
  | .object ms, .object ns => AlikeMembers ms ns
  | _, _ => False

/-- `Alike` for the items of an array. -/
def AlikeItems : List Json → List Json → Prop
  | [], [] => True
  | v :: vs, w :: ws => Alike v w ∧ AlikeItems vs ws
  | _, _ => False

/-- `Alike` for the members of an object, which have the same keys in the same order. -/
def AlikeMembers : List (String × Json) → List (String × Json) → Prop
  | [], [] => True
  | (k, v) :: ms, (k', w) :: ns => k = k' ∧ Alike v w ∧ AlikeMembers ms ns
  | _, _ => False

end

/-- Documents that are alike hold the same string, if they hold one. -/
theorem Alike.string?_eq {v w : Json} (h : Alike v w) : w.string? = v.string? := by
  cases v with
  | string s =>
    cases w with
    | string u =>
      obtain rfl : s = u := h
      rfl
    | _ => exact h.elim
  | _ =>
    cases w with
    | string u => exact h.elim
    | _ => rfl

theorem AlikeItems.filterMap_string? : ∀ {vs ws : List Json}, AlikeItems vs ws →
    ws.filterMap string? = vs.filterMap string?
  | [], [], _ => rfl
  | v :: vs, w :: ws, h => by
    rw [List.filterMap_cons, List.filterMap_cons, h.1.string?_eq, filterMap_string? h.2]
  | [], _ :: _, h => h.elim
  | _ :: _, [], h => h.elim

/-- Documents that are alike have the same strings among their items. -/
theorem Alike.strings {v w : Json} (h : Alike v w) :
    (w.items?.getD []).filterMap string? = (v.items?.getD []).filterMap string? := by
  cases v with
  | array vs =>
    cases w with
    | array ws => exact AlikeItems.filterMap_string? h
    | _ => exact h.elim
  | _ =>
    cases w with
    | array ws => exact h.elim
    | _ => rfl

/-- Documents that are alike are both objects, or none is. -/
theorem Alike.members?_cases {v w : Json} (h : Alike v w) :
    (v.members? = none ∧ w.members? = none) ∨
      ∃ ms ns, v.members? = some ms ∧ w.members? = some ns ∧ AlikeMembers ms ns := by
  cases v with
  | object ms =>
    cases w with
    | object ns => exact Or.inr ⟨ms, ns, rfl, rfl, h⟩
    | _ => exact h.elim
  | _ =>
    cases w with
    | object ns => exact h.elim
    | _ => exact Or.inl ⟨rfl, rfl⟩

/-- Members that are alike have alike values. -/
theorem AlikeMembers.get?_cases (key : String) : ∀ {ms ns : Members}, AlikeMembers ms ns →
    (ms.get? key = none ∧ ns.get? key = none) ∨
      ∃ v w, ms.get? key = some v ∧ ns.get? key = some w ∧ Alike v w
  | [], [], _ => Or.inl ⟨rfl, rfl⟩
  | (k, v) :: ms, (_, w) :: ns, h => by
    obtain ⟨rfl, hvw, hrest⟩ := h
    unfold Members.get?
    rw [List.lookup_cons, List.lookup_cons]
    cases hkey : key == k with
    | true => exact Or.inr ⟨v, w, rfl, rfl, hvw⟩
    | false => exact get?_cases key hrest
  | [], _ :: _, h => h.elim
  | _ :: _, [], h => h.elim

/-- The value of a key is the value of a member. -/
theorem mem_of_get? {ms : Members} {name : String} {w : Json} (h : ms.get? name = some w) :
    (name, w) ∈ ms := by
  induction ms with
  | nil => cases h
  | cons m ms ih =>
    obtain ⟨k, v⟩ := m
    rw [Members.get?, List.lookup_cons] at h
    cases hk : name == k with
    | true =>
      rw [hk] at h
      cases h
      rw [eq_of_beq hk]
      exact List.mem_cons_self
    | false =>
      rw [hk] at h
      exact List.mem_cons_of_mem _ (ih h)

/-- What an object holds when a key is given a value. -/
theorem mem_insert {key : String} {v : Json} : ∀ {ms : Members} {m : String × Json},
    m ∈ ms.insert key v → m = (key, v) ∨ m ∈ ms
  | [], m, h => Or.inl (List.mem_singleton.mp h)
  | (k, w) :: ms, m, h => by
    rw [Members.insert] at h
    split at h
    · rename_i hk
      rcases List.mem_cons.mp h with rfl | h
      · exact Or.inl (by rw [hk])
      · exact Or.inr (List.mem_cons_of_mem _ h)
    · rcases List.mem_cons.mp h with rfl | h
      · exact Or.inr List.mem_cons_self
      · rcases mem_insert h with rfl | h
        · exact Or.inl rfl
        · exact Or.inr (List.mem_cons_of_mem _ h)

/-- What an object keeps when a key is given a value. -/
theorem keys_insert (key : String) (v : Json) (m : Members) {k : String}
    (h : k ∈ (m.insert key v).keys) : k = key ∨ k ∈ m.keys := by
  obtain ⟨p, hp, rfl⟩ := List.mem_map.mp h
  rcases mem_insert hp with rfl | hp
  · exact Or.inl rfl
  · exact Or.inr (List.mem_map_of_mem hp)

/-- Giving a key a value keeps each key once. -/
theorem nodup_keys_insert (key : String) (v : Json) : ∀ {m : Members}, m.keys.Nodup →
    (m.insert key v).keys.Nodup
  | [], _ => by simp [Members.insert, Members.keys]
  | (k, w) :: m, h => by
    rw [Members.keys, List.map_cons, List.nodup_cons] at h
    rw [Members.insert]
    split
    · rw [Members.keys, List.map_cons, List.nodup_cons]
      exact h
    · rename_i hne
      rw [Members.keys, List.map_cons, List.nodup_cons]
      refine ⟨fun hmem => ?_, nodup_keys_insert key v h.2⟩
      rcases keys_insert key v m hmem with rfl | hmem
      · exact hne rfl
      · exact h.1 hmem

theorem distinctValues_insert (key : String) {v : Json} (hv : Distinct v) : ∀ {m : Members},
    DistinctValues m → DistinctValues (m.insert key v)
  | [], _ => ⟨hv, trivial⟩
  | (k, w) :: m, h => by
    rw [Members.insert]
    split
    · exact ⟨hv, h.2⟩
    · exact ⟨h.1, distinctValues_insert key hv h.2⟩

theorem distinct_insert (key : String) {v : Json} (hv : Distinct v) {m : Members}
    (hkeys : m.keys.Nodup) (hvalues : DistinctValues m) :
    (m.insert key v).keys.Nodup ∧ DistinctValues (m.insert key v) :=
  ⟨nodup_keys_insert key v hkeys, distinctValues_insert key hv hvalues⟩

/-- A new key comes last. -/
theorem insert_of_not_mem {key : String} (v : Json) : ∀ {m : Members}, key ∉ m.keys →
    m.insert key v = m ++ [(key, v)]
  | [], _ => rfl
  | (k, w) :: m, h => by
    rw [Members.keys, List.map_cons, List.mem_cons, not_or] at h
    rw [Members.insert, if_neg (Ne.symm h.1), insert_of_not_mem v h.2]
    rfl

/-! ## 2. What has been written is read back -/

namespace Read

/-- The first character of a text is no blank. -/
theorem skipBlanks_cons {c : Char} (hc : isBlank c = false) (t : Text) :
    skipBlanks (c :: t) = c :: t := by
  unfold skipBlanks
  rw [List.dropWhile_cons_of_neg (by simp [hc])]

theorem skipBlanks_blank {c : Char} (hc : isBlank c = true) (t : Text) :
    skipBlanks (c :: t) = skipBlanks t := by
  unfold skipBlanks
  rw [List.dropWhile_cons_of_pos hc]

/-- A line break and its indentation are passed over. -/
theorem skipBlanks_newLine (level : Nat) (t : Text) :
    skipBlanks (newLine level ++ t) = skipBlanks t := by
  have hspaces : ∀ n, skipBlanks (List.replicate n ' ' ++ t) = skipBlanks t := by
    intro n
    induction n with
    | zero => rfl
    | succ n ih =>
      rw [List.replicate_succ, List.cons_append, skipBlanks_blank (by decide), ih]
  rw [newLine, List.cons_append, skipBlanks_blank (by decide), hspaces]

/-- A blank before a document does not matter. -/
theorem value_blank {c : Char} (hc : isBlank c = true) (broken : Bool) (fuel depth : Nat)
    (t : Text) : value broken fuel depth (c :: t) = value broken fuel depth t := by
  cases fuel with
  | zero => rw [value, value]
  | succ fuel => rw [value, value, skipBlanks_blank hc]

theorem not_isBlank_of_isDigit {c : Char} (hc : c.isDigit = true) : isBlank c = false := by
  cases hb : isBlank c with
  | false => rfl
  | true =>
    simp only [isBlank, Bool.or_eq_true, beq_iff_eq] at hb
    rcases hb with ((rfl | rfl) | rfl) | rfl <;> cases hc

/-- What begins with a digit is a number. -/
theorem value_digit {c : Char} (hc : c.isDigit = true) (broken : Bool) (fuel depth : Nat)
    (t : Text) : value broken (fuel + 1) depth (c :: t) = (do
      let (n, t) ← number broken false (c :: t)
      return (.number n, t)) := by
  have hother : ∀ d : Char, d.isDigit = false → c ≠ d := by
    rintro d hd rfl
    rw [hc] at hd
    cases hd
  rw [value, skipBlanks_cons (not_isBlank_of_isDigit hc)]
  split
  · rename_i heq
    cases heq
  · rename_i heq
    exact absurd (List.cons.inj heq).1 (hother 'n' (by decide))
  · rename_i heq
    exact absurd (List.cons.inj heq).1 (hother 't' (by decide))
  · rename_i heq
    exact absurd (List.cons.inj heq).1 (hother 'f' (by decide))
  · rename_i heq
    exact absurd (List.cons.inj heq).1 (hother '"' (by decide))
  · rename_i heq
    exact absurd (List.cons.inj heq).1 (hother '[' (by decide))
  · rename_i heq
    exact absurd (List.cons.inj heq).1 (hother '\x7b' (by decide))
  · rename_i heq
    exact absurd (List.cons.inj heq).1 (hother '-' (by decide))
  · rename_i heq
    obtain ⟨rfl, rfl⟩ := List.cons.inj heq
    rw [if_pos hc]

/-- A number is read back up to its end. -/
theorem value_numberText {broken : Bool} {fuel depth : Nat} {n : JsonNumber} {t t' : Text}
    {w : Json} (ht : Stops t)
    (h : value broken (fuel + 1) depth (numberText n ++ t) = .ok (w, t')) :
    t' = t ∧ ∃ m, w = .number m := by
  obtain ⟨sign, u, htext, hu, hsign⟩ := numberText_shape n
  rw [htext, List.append_assoc] at h
  rcases hsign with rfl | rfl
  · obtain ⟨ds, f, x, hne, hds, -, -, hparts⟩ := hu.parts
    obtain ⟨c, cs, rfl⟩ := List.exists_cons_of_ne_nil hne
    have hshape : [] ++ (u ++ t) = c :: (cs ++ (f ++ x) ++ t) := by
      rw [hparts]
      simp
    rw [hshape, value_digit (hds c (by simp))] at h
    obtain ⟨⟨m, y⟩, hm, h⟩ := bind_eq_ok.mp h
    rw [← hshape, List.nil_append] at hm
    cases h
    exact ⟨number_rest hu ht hm, m, rfl⟩
  · rw [List.singleton_append, value, skipBlanks_cons (by decide)] at h
    obtain ⟨⟨m, y⟩, hm, h⟩ := bind_eq_ok.mp h
    cases h
    exact ⟨number_rest hu ht hm, m, rfl⟩

/-- A document begins with a character that is no blank and closes nothing. -/
theorem prettyAt_head (level : Nat) (v : Json) :
    ∃ c t, prettyAt level v = c :: t ∧ isBlank c = false ∧ c ≠ ']' := by
  cases v with
  | null => exact ⟨_, _, rfl, by decide, by decide⟩
  | bool b =>
    cases b with
    | false => exact ⟨_, _, rfl, by decide, by decide⟩
    | true => exact ⟨_, _, rfl, by decide, by decide⟩
  | string s => exact ⟨_, _, rfl, by decide, by decide⟩
  | array items =>
    cases items with
    | nil => exact ⟨_, _, rfl, by decide, by decide⟩
    | cons v items => exact ⟨_, _, rfl, by decide, by decide⟩
  | object members =>
    cases members with
    | nil => exact ⟨_, _, rfl, by decide, by decide⟩
    | cons m members => exact ⟨_, _, rfl, by decide, by decide⟩
  | number n =>
    obtain ⟨sign, u, htext, hu, hsign⟩ := numberText_shape n
    have hpretty : prettyAt level (.number n) = sign ++ u := htext
    rw [hpretty]
    rcases hsign with rfl | rfl
    · obtain ⟨ds, f, x, hne, hds, -, -, rfl⟩ := hu.parts
      obtain ⟨c, cs, rfl⟩ := List.exists_cons_of_ne_nil hne
      have hc := hds c (by simp)
      refine ⟨c, cs ++ (f ++ x), rfl, not_isBlank_of_isDigit hc, ?_⟩
      rintro rfl
      cases hc
    · exact ⟨'-', u, rfl, by decide, by decide⟩

theorem stops_newLine (level : Nat) (t : Text) : Stops (newLine level ++ t) := by
  intro c t' h
  rw [newLine, List.cons_append] at h
  exact Or.inr (List.cons.inj h).1.symm

theorem stops_comma (t : Text) : Stops (',' :: t) := by
  intro c t' h
  exact Or.inl (List.cons.inj h).1.symm

theorem stops_prettyItems (level : Nat) (vs : List Json) (t : Text) :
    Stops (prettyItems level vs ++ t) := by
  cases vs with
  | nil =>
    rw [prettyItems, List.append_assoc]
    exact stops_newLine level _
  | cons v vs =>
    rw [prettyItems, List.cons_append]
    exact stops_comma _

theorem stops_prettyMembers (level : Nat) (ms : Members) (t : Text) :
    Stops (prettyMembers level ms ++ t) := by
  cases ms with
  | nil =>
    rw [prettyMembers, List.append_assoc]
    exact stops_newLine level _
  | cons m ms =>
    rw [prettyMembers, List.cons_append]
    exact stops_comma _

/-- What stands behind the opening quote of the first of some members. -/
def memberText (level : Nat) (k : String) (v : Json) (ms : Members) : Text :=
  k.toList.flatMap escape ++ '"' :: ':' :: ' ' ::
    (prettyAt (level + 1) v ++ prettyMembers level ms)

theorem quote_member (level : Nat) (k : String) (v : Json) (ms : Members) :
    quote k ++ ':' :: ' ' :: (prettyAt (level + 1) v ++ prettyMembers level ms) =
      '"' :: memberText level k v ms := by
  unfold quote memberText
  simp

/-- What the parts of the reader answer with some fuel when they stand before a written part. -/
structure ReadsBack (broken : Bool) (fuel : Nat) : Prop where
  value : ∀ {level depth v t w t'}, Distinct v → Stops t →
    value broken fuel depth (prettyAt level v ++ t) = .ok (w, t') → t' = t ∧ Alike v w
  items : ∀ {level depth v vs t ws t'}, Distinct v → DistinctItems vs →
    items broken fuel depth (newLine (level + 1) ++ (prettyAt (level + 1) v ++
      prettyItems level vs) ++ t) = .ok (ws, t') → t' = t ∧ AlikeItems (v :: vs) ws
  moreItems : ∀ {level depth vs t ws t'}, DistinctItems vs →
    moreItems broken fuel depth (prettyItems level vs ++ t) = .ok (ws, t') →
      t' = t ∧ AlikeItems vs ws
  members : ∀ {level depth k v ms t ns t'}, (Members.keys ((k, v) :: ms)).Nodup →
    Distinct v → DistinctValues ms →
    members broken fuel depth (newLine (level + 1) ++ ('"' :: memberText level k v ms) ++ t) =
      .ok (ns, t') → t' = t ∧ AlikeMembers ((k, v) :: ms) ns
  member : ∀ {level depth done k v ms t ns t'}, (Members.keys (done ++ (k, v) :: ms)).Nodup →
    Distinct v → DistinctValues ms →
    member broken fuel depth done (memberText level k v ms ++ t) = .ok (ns, t') →
      t' = t ∧ ∃ ns', ns = done ++ ns' ∧ AlikeMembers ((k, v) :: ms) ns'
  moreMembers : ∀ {level depth done ms t ns t'}, (Members.keys (done ++ ms)).Nodup →
    DistinctValues ms →
    moreMembers broken fuel depth done (prettyMembers level ms ++ t) = .ok (ns, t') →
      t' = t ∧ ∃ ns', ns = done ++ ns' ∧ AlikeMembers ms ns'

/-- A word is read to its end. -/
theorem word_append (broken : Bool) (t : Text) : ∀ w : Text, word broken w (w ++ t) = .ok t
  | [] => rfl
  | c :: w => by
    rw [List.cons_append, word, if_pos rfl, word_append broken t w]

theorem readsBack_value {broken : Bool} {fuel : Nat} (ih : ReadsBack broken fuel)
    {level depth : Nat} {v w : Json} {t t' : Text} (hv : Distinct v) (ht : Stops t)
    (h : value broken (fuel + 1) depth (prettyAt level v ++ t) = .ok (w, t')) :
    t' = t ∧ Alike v w := by
  cases v with
  | null =>
    rw [prettyAt, List.cons_append, value, skipBlanks_cons (by decide)] at h
    obtain ⟨x, hx, h⟩ := bind_eq_ok.mp h
    rw [word_append] at hx
    cases hx
    cases h
    exact ⟨rfl, trivial⟩
  | bool b =>
    cases b with
    | true =>
      rw [prettyAt, List.cons_append, value, skipBlanks_cons (by decide)] at h
      obtain ⟨x, hx, h⟩ := bind_eq_ok.mp h
      rw [word_append] at hx
      cases hx
      cases h
      exact ⟨rfl, rfl⟩
    | false =>
      rw [prettyAt, List.cons_append, value, skipBlanks_cons (by decide)] at h
      obtain ⟨x, hx, h⟩ := bind_eq_ok.mp h
      rw [word_append] at hx
      cases hx
      cases h
      exact ⟨rfl, rfl⟩
  | number n =>
    rw [prettyAt] at h
    obtain ⟨hrest, m, rfl⟩ := value_numberText ht h
    exact ⟨hrest, trivial⟩
  | string s =>
    rw [prettyAt, quote, List.cons_append, List.append_assoc, value,
      skipBlanks_cons (by decide)] at h
    obtain ⟨x, hx, h⟩ := bind_eq_ok.mp h
    rw [List.singleton_append, string_quote] at hx
    cases hx
    cases h
    exact ⟨rfl, rfl⟩
  | array vs =>
    cases vs with
    | nil =>
      rw [prettyAt, List.cons_append, value, skipBlanks_cons (by decide)] at h
      cases depth with
      | zero => cases h
      | succ depth =>
        obtain ⟨⟨ws, x⟩, hx, h⟩ := bind_eq_ok.mp h
        cases h
        cases fuel with
        | zero =>
          rw [items] at hx
          cases hx
        | succ fuel =>
          rw [items, List.singleton_append, skipBlanks_cons (by decide)] at hx
          cases hx
          exact ⟨rfl, trivial⟩
    | cons v vs =>
      rw [prettyAt, List.cons_append, value, skipBlanks_cons (by decide)] at h
      cases depth with
      | zero => cases h
      | succ depth =>
        obtain ⟨⟨ws, x⟩, hx, h⟩ := bind_eq_ok.mp h
        cases h
        exact ih.items hv.1 hv.2 hx
  | object ms =>
    cases ms with
    | nil =>
      rw [prettyAt, List.cons_append, value, skipBlanks_cons (by decide)] at h
      cases depth with
      | zero => cases h
      | succ depth =>
        obtain ⟨⟨ns, x⟩, hx, h⟩ := bind_eq_ok.mp h
        cases h
        cases fuel with
        | zero =>
          rw [members] at hx
          cases hx
        | succ fuel =>
          rw [members, List.singleton_append, skipBlanks_cons (by decide)] at hx
          cases hx
          exact ⟨rfl, trivial⟩
    | cons m ms =>
      obtain ⟨k, v⟩ := m
      rw [prettyAt, List.cons_append, quote_member, value, skipBlanks_cons (by decide)] at h
      cases depth with
      | zero => cases h
      | succ depth =>
        obtain ⟨⟨ns, x⟩, hx, h⟩ := bind_eq_ok.mp h
        cases h
        exact ih.members hv.1 hv.2.1 hv.2.2 hx

/-- An item and those behind it are read back. -/
theorem readsBack_item {broken : Bool} {fuel depth level : Nat} (ih : ReadsBack broken fuel)
    {v : Json} {vs ws : List Json} {t t' : Text} (hv : Distinct v) (hvs : DistinctItems vs)
    (h : (do
      let (w, x) ← value broken fuel depth (prettyAt (level + 1) v ++ (prettyItems level vs ++ t))
      let (ws, x) ← moreItems broken fuel depth x
      return (w :: ws, x)) = .ok (ws, t')) : t' = t ∧ AlikeItems (v :: vs) ws := by
  obtain ⟨⟨w, x⟩, hw, h⟩ := bind_eq_ok.mp h
  obtain ⟨⟨us, y⟩, hus, h⟩ := bind_eq_ok.mp h
  cases h
  obtain ⟨rfl, hvw⟩ := ih.value hv (stops_prettyItems level vs t) hw
  obtain ⟨rfl, hitems⟩ := ih.moreItems hvs hus
  exact ⟨rfl, hvw, hitems⟩

/-- Blanks before an item are passed over. -/
theorem skipBlanks_item (level : Nat) (v : Json) (t : Text) :
    ∃ c x, skipBlanks (newLine (level + 1) ++ (prettyAt (level + 1) v ++ t)) = c :: x ∧
      c :: x = prettyAt (level + 1) v ++ t ∧ c ≠ ']' := by
  obtain ⟨c, x, hpretty, hblank, hclose⟩ := prettyAt_head (level + 1) v
  refine ⟨c, x ++ t, ?_, ?_, hclose⟩
  · rw [skipBlanks_newLine, hpretty, List.cons_append, skipBlanks_cons hblank]
  · rw [hpretty, List.cons_append]

theorem readsBack_succ {broken : Bool} {fuel : Nat} (ih : ReadsBack broken fuel) :
    ReadsBack broken (fuel + 1) where
  value := readsBack_value ih
  items := by
    intro level depth v vs t ws t' hv hvs h
    rw [List.append_assoc, List.append_assoc, items] at h
    obtain ⟨c, x, hskip, hitem, hclose⟩ := skipBlanks_item level v (prettyItems level vs ++ t)
    rw [hskip] at h
    split at h
    · rename_i heq
      cases heq
    · rename_i heq
      exact absurd (List.cons.inj heq).1 hclose
    · rw [hitem] at h
      exact readsBack_item ih hv hvs h
  moreItems := by
    intro level depth vs t ws t' hvs h
    cases vs with
    | nil =>
      rw [prettyItems, List.append_assoc, moreItems, skipBlanks_newLine, List.singleton_append,
        skipBlanks_cons (by decide)] at h
      cases h
      exact ⟨rfl, trivial⟩
    | cons v vs =>
      rw [prettyItems, List.cons_append, List.append_assoc, List.append_assoc, moreItems,
        skipBlanks_cons (by decide)] at h
      obtain ⟨c, x, hskip, hitem, hclose⟩ := skipBlanks_item level v (prettyItems level vs ++ t)
      simp only [hskip] at h
      split at h
      · rename_i heq
        cases heq
      · rename_i heq
        exact absurd (List.cons.inj heq).1 hclose
      · rw [hitem] at h
        exact readsBack_item ih hvs.1 hvs.2 h
  members := by
    intro level depth k v ms t ns t' hkeys hv hms h
    rw [List.append_assoc, List.cons_append, members, skipBlanks_newLine,
      skipBlanks_cons (by decide)] at h
    obtain ⟨hrest, ns', hns, halike⟩ :=
      ih.member (by rw [List.nil_append]; exact hkeys) hv hms h
    rw [List.nil_append] at hns
    exact ⟨hrest, hns ▸ halike⟩
  member := by
    intro level depth done k v ms t ns t' hkeys hv hms h
    have hnew : k ∉ Members.keys done := by
      unfold Members.keys at hkeys ⊢
      rw [List.map_append, List.nodup_append] at hkeys
      intro hmem
      exact hkeys.2.2 k hmem k (by simp) rfl
    rw [memberText, List.append_assoc, List.cons_append, List.cons_append, List.cons_append,
      List.append_assoc, member] at h
    obtain ⟨⟨key, x⟩, hkey, h⟩ := bind_eq_ok.mp h
    rw [string_quote] at hkey
    cases hkey
    simp only [skipBlanks_cons (show isBlank ':' = false by decide)] at h
    obtain ⟨⟨w, y⟩, hw, h⟩ := bind_eq_ok.mp h
    rw [value_blank (by decide)] at hw
    obtain ⟨rfl, hvw⟩ := ih.value hv (stops_prettyMembers level ms t) hw
    have hnodup : (Members.keys ((done ++ [(k, w)]) ++ ms)).Nodup := by
      unfold Members.keys at hkeys ⊢
      rw [List.append_assoc, List.singleton_append, List.map_append, List.map_cons]
      rw [List.map_append, List.map_cons] at hkeys
      exact hkeys
    simp only [insert_of_not_mem w hnew] at h
    obtain ⟨hrest, ns', hns, halike⟩ := ih.moreMembers hnodup hms h
    refine ⟨hrest, (k, w) :: ns', ?_, rfl, hvw, halike⟩
    rw [hns, List.append_assoc, List.singleton_append]
  moreMembers := by
    intro level depth done ms t ns t' hkeys hms h
    cases ms with
    | nil =>
      rw [prettyMembers, List.append_assoc, moreMembers, skipBlanks_newLine,
        List.singleton_append, skipBlanks_cons (by decide)] at h
      cases h
      exact ⟨rfl, [], (List.append_nil done).symm, trivial⟩
    | cons m ms =>
      obtain ⟨k, v⟩ := m
      rw [prettyMembers, List.cons_append, List.append_assoc, quote_member, List.cons_append,
        moreMembers, skipBlanks_cons (by decide)] at h
      simp only [skipBlanks_newLine, skipBlanks_cons (show isBlank '"' = false by decide)] at h
      exact ih.member hkeys hms.1 hms.2 h

theorem readsBack (broken : Bool) : ∀ fuel, ReadsBack broken fuel
  | 0 => by
    constructor
    · intro level depth v t w t' _ _ h
      rw [value] at h
      cases h
    · intro level depth v vs t ws t' _ _ h
      rw [items] at h
      cases h
    · intro level depth vs t ws t' _ h
      rw [moreItems] at h
      cases h
    · intro level depth k v ms t ns t' _ _ _ h
      rw [members] at h
      cases h
    · intro level depth done k v ms t ns t' _ _ _ h
      rw [member] at h
      cases h
    · intro level depth done ms t ns t' _ _ h
      rw [moreMembers] at h
      cases h
  | fuel + 1 => readsBack_succ (readsBack broken fuel)

end Read

/-- **A document that has been written over several lines is read back** as it was but for the
values of its numbers. -/
theorem alike_of_parse_pretty {v w : Json} (hv : Distinct v) (h : parse (pretty v) = .ok w) :
    Alike v w := by
  unfold parse parseStream at h
  obtain ⟨⟨u, rest⟩, hu, h⟩ := bind_eq_ok.mp h
  rw [pretty, ← List.append_nil (prettyAt 0 v)] at hu
  obtain ⟨rfl, hvu⟩ := (Read.readsBack false _).value hv stops_nil hu
  cases h
  exact hvu

end Json

end TextPatch
