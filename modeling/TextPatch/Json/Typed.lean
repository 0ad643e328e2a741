/-
# Reading values of known types from texts

A value of a known type is read straight from a text here, with no document in between.  Reading
stops at the first fault, whether the text is no document there (`Stop.fault`) or is one of
something else (`Stop.misfit`), and it is known where:

* a scalar that does not fit is noticed behind it, a container in front of its bracket;
* a member that is not known or is written twice is noticed behind its key;
* what concerns a container as a whole is noticed by the container around the place, which first
  passes over blanks and over the bracket that closes it, if that comes next.
-/
import TextPatch.Json.Decode
import TextPatch.Json.Parser

namespace TextPatch

namespace Json.Typed

open Read

/-! ## 1. Stops -/

/-- Why a value cannot be read. -/
inductive Stop where
  | fault (cause : Fault)
  /-- `rest` stands behind the place where the misfit is noticed, once that `isSettled`. -/
  | misfit (cause : DecodeError) (rest : Text) (isSettled : Bool)

/-- A reader of values of a type, which answers what follows them, too. -/
abbrev Reader (α : Type) := Text → Except Stop (α × Text)

/-- The step of a reader of documents. -/
def step : Except Fault α → Except Stop α
  | .ok a => .ok a
  | .error cause => .error (.fault cause)

/-- The value that a decoder finds in a document, with `rest` behind it. -/
def decided (r : Except DecodeError α) (rest : Text) (isSettled : Bool) :
    Except Stop (α × Text) :=
  match r with
  | .ok a => .ok (a, rest)
  | .error cause => .error (.misfit cause rest isSettled)

/-- Settles a misfit behind what `pass` passes over. -/
def settle (pass : Text → Text) : Except Stop α → Except Stop α
  | .error (.misfit cause rest false) => .error (.misfit cause (pass rest) true)
  | r => r

/-! ## 2. Brackets, commas and colons -/

/-- The text behind the bracket or the comma at its start. -/
def passArrayEnd (t : Text) : Text :=
  match skipBlanks t with
  | ']' :: t => t
  | ',' :: t => skipBlanks t
  | t => t

/-- The text behind the brace at its start. -/
def passObjectEnd (t : Text) : Text :=
  match skipBlanks t with
  | '\x7d' :: t => t
  | t => t

/-- The text behind a mark that has to come next. -/
def mark (c : Char) (t : Text) : Except Stop Text :=
  match skipBlanks t with
  | [] => .error (.fault .truncated)
  | d :: t => if c = d then .ok t else .error (.fault .malformed)

/-- The text from the next item of an array on, or none in front of the closing bracket. -/
def nextItem (isFirst : Bool) (t : Text) : Except Stop (Option Text) :=
  match skipBlanks t with
  | [] => .error (.fault .truncated)
  | ']' :: _ => .ok none
  | c :: t =>
    if isFirst then .ok (some (c :: t))
    else if c = ',' then
      match skipBlanks t with
      | [] => .error (.fault .truncated)
      | ']' :: _ => .error (.fault .malformed)
      | t => .ok (some t)
    else .error (.fault .malformed)

/-- The next key of an object and the text behind it, or none in front of the closing brace. -/
def nextKey (isFirst : Bool) (t : Text) : Except Stop (Option (String × Text)) :=
  match skipBlanks t with
  | [] => .error (.fault .truncated)
  | '\x7d' :: _ => .ok none
  | c :: t =>
    if isFirst then key (c :: t)
    else if c = ',' then key (skipBlanks t)
    else .error (.fault .malformed)
where
  key : Text → Except Stop (Option (String × Text))
    | [] => .error (.fault .truncated)
    | '"' :: t => (step (Read.string false t)).map some
    | _ => .error (.fault .malformed)

/-! ## 3. Values -/

/-- A scalar. -/
def scalar (f : Decoder α) : Reader α := fun t =>
  match skipBlanks t with
  | '[' :: t => decided (f (.array [])) ('[' :: t) true
  | '\x7b' :: t => decided (f (.object [])) ('\x7b' :: t) true
  | t => do
    let (v, rest) ← step (value false 1 0 t)
    decided (f v) rest true

/-- A document, with `depth` levels of containers allowed.  A misfit concerns what is around. -/
def document (f : Decoder α) (depth : Nat) : Reader α := fun t => do
  let (v, rest) ← step (value false (fuelFor t) depth t)
  decided (f v) rest false

/-- The members of an object from behind its brace, keys that are written twice twice.  `f` reads
each from behind its key; reading ends in front of the closing brace. -/
def members (f : σ → String → Reader σ) :
    (fuel : Nat) → (isFirst : Bool) → σ → Reader σ
  | 0, _, _, _ => .error (.fault .malformed)
  | fuel + 1, isFirst, s, t => do
    match ← nextKey isFirst t with
    | none => return (s, t)
    | some (name, t) =>
      let (s, t) ← f s name t
      members f fuel false s t

/-- The items of an array from behind its bracket, as many as there are names for them.  Reading
ends in front of what follows the last one. -/
def itemsFor (f : σ → String → Reader σ) :
    (names : List String) → (isFirst : Bool) → σ → Reader σ
  | [], _, s, t => .ok (s, t)
  | name :: names, isFirst, s, t => do
    match ← nextItem isFirst t with
    | none => return (s, t)
    | some t =>
      let (s, t) ← f s name t
      itemsFor f names false s t

/-- The items of an array from behind its bracket, `count` at most. -/
def upTo (r : Reader α) : (count : Nat) → (isFirst : Bool) → Reader (List α)
  | 0, _, t => .ok ([], t)
  | count + 1, isFirst, t => do
    match ← nextItem isFirst t with
    | none => return ([], t)
    | some t =>
      let (a, t) ← r t
      let (rest, t) ← upTo r count false t
      return (a :: rest, t)

/-- The inside of an array and its closing bracket. -/
def closedArray (r : Reader α) : Reader α := fun t =>
  settle passArrayEnd do
    let (a, t) ← r t
    return (a, ← mark ']' t)

/-- The inside of an object and its closing brace. -/
def closedObject (r : Reader α) : Reader α := fun t =>
  settle passObjectEnd do
    let (a, t) ← r t
    return (a, ← mark '\x7d' t)

/-- An array, each item read by `r`. -/
def list (r : Reader α) : Reader (List α) := fun t =>
  match skipBlanks t with
  | '[' :: t => closedArray (upTo r (t.length + 1) true) t
  | t => scalar (mistyped "a sequence") t

/-- An array of two integers, or whatever else `f` takes for one. -/
def twoIntegers (f : Decoder α) : Reader α := fun t =>
  match skipBlanks t with
  | '[' :: t =>
    closedArray (fun t => do
      let (ns, t) ← upTo (scalar fun v => (decodeInt64 v).map fun _ => v) 2 true t
      decided (f (.array ns)) t false) t
  | t => scalar f t

/-- A word that `f` knows, or null: as a string, or as the key of a lone null. -/
def oneWord (f : Decoder α) : Reader α := fun t =>
  match skipBlanks t with
  | [] => .error (.fault .truncated)
  | '"' :: t => scalar f ('"' :: t)
  | 'n' :: t => scalar f ('n' :: t)
  | '\x7b' :: t => do
    let (a, t) ← scalar (fun v => match v with
      | .string s => f (.string s)
      | v => mistyped "variant identifier" v) t
    let ((), t) ← scalar (fun v => match v with
      | .null => .ok ()
      | v => mistyped "unit" v) (← mark ':' t)
    return (a, ← mark '\x7d' t)
  | _ => .error (.fault .malformed)

/-- A record with some fields, as an object or as an array of them.  `f` reads a field into a
draft. -/
def fields (type : String) (names : List String) (start : δ) (f : δ → String → Reader δ)
    (ofMembers ofItems : δ → Except DecodeError α) : Reader α := fun t =>
  match skipBlanks t with
  | '\x7b' :: t =>
    closedObject (fun t => do
      let ((d, _), t) ← members (member names f) (t.length + 1) true (start, []) t
      decided (ofMembers d) t false) t
  | '[' :: t =>
    closedArray (fun t => do
      let (d, t) ← itemsFor f names true start t
      decided (ofItems d) t false) t
  | t => scalar (mistyped ("struct " ++ type)) t
where
  member (names : List String) (f : δ → String → Reader δ) (s : δ × List String) (name : String) :
      Reader (δ × List String) := fun t =>
    if !names.contains name then .error (.misfit (.unknownField name names) t false)
    else if s.2.contains name then .error (.misfit (.duplicateField name) t false)
    else do
      let (d, t) ← f s.1 name (← mark ':' t)
      return ((d, name :: s.2), t)

end Json.Typed

end TextPatch
