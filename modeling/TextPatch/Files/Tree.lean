/-
# File trees

A tree gives an entry to places.  A place is the list of names that lead to it from the root, so
nothing but its own name and the names above it matters to what stands there; the root itself is
always a directory.

* `set` changes one place and no other (`get?_set_self`, `get?_set_ne`);
* `move` takes an entry, and all that lies below it, to another place: what stood there is gone,
  and every place outside of both keeps its entry (`get?_move`).
-/
import TextPatch.Files.Path

namespace TextPatch

/-- A place in a tree: the names that lead to it from the root. -/
abbrev Location := List String

/-- What stands at a place. -/
inductive Entry where
  | file (content : ByteArray)
  | link (target : Path)
  | directory

/-- A file tree.  The root is not among the entries. -/
structure Tree where
  entries : List (Location × Entry)

namespace Tree

/-- The tree in which there is nothing but the root. -/
def empty : Tree := ⟨[]⟩

/-- What stands at a place. -/
def get? (t : Tree) (l : Location) : Option Entry :=
  if l = [] then some .directory else t.entries.lookup l

/-! ## 1. Changing one place -/

/-- Gives a place of a list of entries the entry `e`. -/
def setIn : List (Location × Entry) → Location → Entry → List (Location × Entry)
  | [], l, e => [(l, e)]
  | (k, d) :: rest, l, e => if k = l then (l, e) :: rest else (k, d) :: setIn rest l e

/-- The tree with the entry `e` at a place. -/
def set (t : Tree) (l : Location) (e : Entry) : Tree := ⟨setIn t.entries l e⟩

theorem lookup_setIn_self (es : List (Location × Entry)) (l : Location) (e : Entry) :
    (setIn es l e).lookup l = some e := by
  induction es with
  | nil => simp [setIn]
  | cons p es ih =>
    obtain ⟨k, d⟩ := p
    by_cases h : k = l
    · simp [setIn, h]
    · have h' : (l == k) = false := by simpa using fun h' => h h'.symm
      simp [setIn, h, List.lookup_cons, h', ih]

theorem lookup_setIn_ne (es : List (Location × Entry)) {l k : Location} (e : Entry)
    (h : k ≠ l) : (setIn es l e).lookup k = es.lookup k := by
  have hkl : (k == l) = false := by simpa using h
  induction es with
  | nil => simp [setIn, List.lookup_cons, hkl]
  | cons p es ih =>
    obtain ⟨k', d⟩ := p
    by_cases h' : k' = l
    · simp [setIn, h', List.lookup_cons, hkl]
    · simp only [setIn, h', if_false, List.lookup_cons, ih]

/-- A place that has been set holds what it was set to. -/
theorem get?_set_self (t : Tree) {l : Location} (e : Entry) (h : l ≠ []) :
    (t.set l e).get? l = some e := by
  simp [get?, set, h, lookup_setIn_self]

/-- Setting a place does not touch the others. -/
theorem get?_set_ne (t : Tree) {l k : Location} (e : Entry) (h : k ≠ l) :
    (t.set l e).get? k = t.get? k := by
  simp [get?, set, lookup_setIn_ne t.entries e h]

/-! ## 2. Moving -/

/-- The names that lead from `source` to a place at or below it. -/
def below? : Location → Location → Option Location
  | [], l => some l
  | _ :: _, [] => none
  | a :: source, b :: l => if a = b then below? source l else none

theorem below?_eq_some_iff : ∀ {source l r : Location}, below? source l = some r ↔ l = source ++ r
  | [], l, r => by simp [below?]
  | a :: source, [], r => by simp [below?]
  | a :: source, b :: l, r => by
    by_cases h : a = b
    · simp [below?, h, @below?_eq_some_iff source l r]
    · have : ¬ b = a := fun e => h e.symm
      simp [below?, h, this]

@[simp] theorem below?_append (source r : Location) : below? source (source ++ r) = some r :=
  below?_eq_some_iff.2 rfl

/-- Two places above a third are comparable. -/
theorem below?_of_append {a b r s : Location} (h : a ++ r = b ++ s) :
    (below? a b).isSome ∨ (below? b a).isSome := by
  rcases List.append_eq_append_iff.1 h with ⟨c, hc, -⟩ | ⟨c, hc, -⟩
  · exact .inl (by simp [hc])
  · exact .inr (by simp [hc])

/-- The place to which a place goes when `source` moves to `target`. -/
def rebase (source target l : Location) : Location :=
  match below? source l with
  | some r => target ++ r
  | none => l

/-- The entries after `source` has moved to `target`. -/
def moveIn (es : List (Location × Entry)) (source target : Location) : List (Location × Entry) :=
  (es.filter fun p => (below? target p.1).isNone).map fun p => (rebase source target p.1, p.2)

/-- The tree in which all that stands at or below `source` has moved to `target`, and all that
stood at or below `target` is gone. -/
def move (t : Tree) (source target : Location) : Tree :=
  if source = target then t else ⟨moveIn t.entries source target⟩

theorem lookup_moveIn (es : List (Location × Entry)) {source target : Location}
    (hst : below? source target = none) (hts : below? target source = none) (l : Location) :
    (moveIn es source target).lookup l =
      if (below? source l).isSome then none
      else match below? target l with
        | some r => es.lookup (source ++ r)
        | none => es.lookup l := by
  -- nothing lies below both
  have apart (r s : Location) : source ++ r ≠ target ++ s := by
    intro h
    rcases below?_of_append h with h | h <;> simp_all
  have notTarget (r : Location) : below? target (source ++ r) = none := by
    rw [Option.eq_none_iff_forall_ne_some]
    intro s h
    exact apart r s (below?_eq_some_iff.1 h)
  have notSource (s : Location) : below? source (target ++ s) = none := by
    rw [Option.eq_none_iff_forall_ne_some]
    intro r h
    exact apart r s (below?_eq_some_iff.1 h).symm
  induction es with
  | nil => cases below? target l <;> simp [moveIn]
  | cons p es ih =>
    obtain ⟨k, e⟩ := p
    cases hk : below? target k with
    | some s =>
      -- the entry is gone, and nothing that is asked for is at its place
      have hks := below?_eq_some_iff.1 hk
      have gone : moveIn ((k, e) :: es) source target = moveIn es source target := by
        simp [moveIn, hk]
      rw [gone, ih]
      cases hl : below? source l with
      | some r => simp
      | none =>
        cases hl' : below? target l with
        | some r =>
          have : (source ++ r == k) = false := by
            simpa [hks] using apart r s
          simp [List.lookup_cons, this]
        | none =>
          have : (l == k) = false := by
            simp only [beq_eq_false_iff_ne, ne_eq]
            rintro rfl
            simp [hk] at hl'
          simp [List.lookup_cons, this]
    | none =>
      have kept : moveIn ((k, e) :: es) source target =
          (rebase source target k, e) :: moveIn es source target := by simp [moveIn, hk]
      rw [kept, List.lookup_cons, ih]
      cases hsk : below? source k with
      | some r =>
        have hkr := below?_eq_some_iff.1 hsk
        have hrebase : rebase source target k = target ++ r := by simp [rebase, hsk]
        rw [hrebase]
        by_cases hl : l = target ++ r
        · subst hl
          simp [notSource, hkr]
        · have hne : (l == target ++ r) = false := by simpa using hl
          rw [hne]
          cases hl' : below? source l with
          | some s => simp
          | none =>
            cases hl'' : below? target l with
            | some s =>
              have : (source ++ s == k) = false := by
                simp only [beq_eq_false_iff_ne, ne_eq]
                intro h
                have : s = r := by simpa [hkr] using h
                exact hl (by rw [below?_eq_some_iff.1 hl'', this])
              simp [List.lookup_cons, this]
            | none =>
              have : (l == k) = false := by
                simp only [beq_eq_false_iff_ne, ne_eq]
                rintro rfl
                simp [hsk] at hl'
              simp [List.lookup_cons, this]
      | none =>
        have hrebase : rebase source target k = k := by simp [rebase, hsk]
        rw [hrebase]
        by_cases hl : l = k
        · subst hl
          simp [hsk, hk]
        · have hne : (l == k) = false := by simpa using hl
          rw [hne]
          cases hl' : below? source l with
          | some s => simp
          | none =>
            cases hl'' : below? target l with
            | some s =>
              have : (source ++ s == k) = false := by
                simp only [beq_eq_false_iff_ne, ne_eq]
                rintro rfl
                simp at hsk
              simp [List.lookup_cons, this]
            | none => simp [List.lookup_cons, hne]

/-- What stands where after a move between two places neither of which lies below the other. -/
theorem get?_move (t : Tree) {source target : Location} (hst : below? source target = none)
    (hts : below? target source = none) (l : Location) :
    (t.move source target).get? l =
      if (below? source l).isSome then none
      else match below? target l with
        | some r => t.get? (source ++ r)
        | none => t.get? l := by
  have hne : source ≠ target := by
    rintro rfl
    have := below?_append source []
    simp [hst] at this
  have hs : source ≠ [] := by
    rintro rfl
    simp [below?] at hst
  have ht : target ≠ [] := by
    rintro rfl
    simp [below?] at hts
  by_cases hl : l = []
  · subst hl
    cases source with
    | nil => exact absurd rfl hs
    | cons a source =>
      cases target with
      | nil => exact absurd rfl ht
      | cons b target => simp [get?, below?]
  · have : (t.move source target).get? l = (moveIn t.entries source target).lookup l := by
      simp [get?, move, hne, hl]
    rw [this, lookup_moveIn t.entries hst hts]
    simp [get?, hl, hs]

/-! ## 3. Directories -/

/-- The names of the entries of a directory, in ascending order. -/
def children (t : Tree) (l : Location) : List String :=
  ((t.entries.filterMap fun (k, _) =>
    match k.getLast? with
    | some name => if k = l ++ [name] then some name else none
    | none => none).eraseDups).mergeSort

/-- Whether a place is an existing directory. -/
def isDirectory (t : Tree) (l : Location) : Bool :=
  match t.get? l with
  | some .directory => true
  | _ => false

end Tree

end TextPatch
