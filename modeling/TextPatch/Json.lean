/-
# JSON documents

A document keeps the members of its objects in the order in which they were first written, so that
a document that is read, changed in one place and written again differs in that place only.  Keys
of an object are unique: `insert` overwrites the value of a present key where it stands and
appends a new key at the end.
-/

namespace TextPatch

/-- A number of a document: an integer between `-2 ^ 63` and `2 ^ 64 - 1` stays exact, every other
number is a binary64 value. -/
inductive JsonNumber where
  | integer (n : Int)
  | real (x : Float)
  deriving Repr, Inhabited

/-- A JSON document. -/
inductive Json where
  | null
  | bool (b : Bool)
  | number (n : JsonNumber)
  | string (s : String)
  | array (items : List Json)
  | object (members : List (String × Json))
  deriving Repr, Inhabited

/-- The members of an object, in document order. -/
abbrev Members := List (String × Json)

namespace Members

/-- The value of a key. -/
def get? (m : Members) (key : String) : Option Json := m.lookup key

/-- Whether a key is present. -/
def contains (m : Members) (key : String) : Bool := (m.get? key).isSome

/-- Gives `key` the value `v`: in its place if it is present, at the end otherwise. -/
def insert : Members → String → Json → Members
  | [], key, v => [(key, v)]
  | (k, w) :: m, key, v => if k = key then (k, v) :: m else (k, w) :: insert m key v

@[simp] theorem get?_insert_self : ∀ (m : Members) (key : String) (v : Json),
    (m.insert key v).get? key = some v
  | [], key, v => by simp [insert, get?]
  | (k, w) :: m, key, v => by
    have ih := get?_insert_self m key v
    by_cases h : k = key
    · simp [insert, get?, h]
    · have h' : (key == k) = false := by simpa using fun e => h e.symm
      simpa [insert, get?, h, h', List.lookup_cons] using ih

/-- An insertion does not touch the other keys. -/
theorem get?_insert_ne : ∀ (m : Members) {key other : String} (v : Json), other ≠ key →
    (m.insert key v).get? other = m.get? other
  | [], key, other, v, h => by
    have h' : (other == key) = false := by simpa using h
    simp [insert, get?, List.lookup_cons, h']
  | (k, w) :: m, key, other, v, h => by
    have ih := get?_insert_ne m v h
    by_cases hk : k = key
    · have h' : (other == k) = false := by simpa [hk] using h
      simp [insert, get?, List.lookup_cons, hk]
      simp [← hk, h']
    · by_cases ho : other = k
      · simp [insert, get?, hk, ho]
      · have h' : (other == k) = false := by simpa using ho
        simpa [insert, get?, hk, h', List.lookup_cons] using ih

end Members

namespace Json

/-- The text of a string value. -/
def string? : Json → Option String
  | .string s => some s
  | _ => none

/-- The items of an array. -/
def items? : Json → Option (List Json)
  | .array items => some items
  | _ => none

/-- The members of an object. -/
def members? : Json → Option Members
  | .object members => some members
  | _ => none

end Json

end TextPatch
