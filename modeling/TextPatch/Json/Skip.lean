/-
# Passing over documents, and reading records

A reader that wants only some members of an object passes over the others: `skip` checks that they
are documents, but not how deep they nest, whether their numbers are in range or whether the
surrogates in their strings are paired.

`record` reads the wanted members of an object with readers of their own.  A wanted member may not
be repeated.  The wanted members may also be given as an array, all of them and in order.
-/
import TextPatch.Json.Parser

namespace TextPatch.Json.Read

/-- Passes over a string from behind its opening quote; `hex` digits of an escape are still due. -/
def skipString : (escaped : Bool) → (hex : Nat) → Text → Option Text
  | _, _, [] => none
  | escaped, hex, c :: t =>
    if 0 < hex then if Text.isHexDigit c then skipString false (hex - 1) t else none
    else if escaped then
      if c = 'u' then skipString false 4 t
      else if (escapeOf? c).isSome then skipString false 0 t else none
    else if c = '"' then some t
    else if c = '\\' then skipString true 0 t
    else if c.toNat < 0x20 then none
    else skipString false 0 t

/-- Passes over the digits at the start of a text, of which there must be one. -/
def skipDigits (t : Text) : Option Text :=
  match digits t with
  | ([], _) => none
  | (_, rest) => some rest

/-- Passes over an exponent, if there is one. -/
def skipExponent (t : Text) : Option Text :=
  match t with
  | c :: r =>
    if c = 'e' ∨ c = 'E' then
      match r with
      | s :: r' => if s = '+' ∨ s = '-' then skipDigits r' else skipDigits r
      | [] => none
    else some t
  | [] => some t

/-- Passes over a number from behind its sign. -/
def skipNumber (t : Text) : Option Text := do
  let rest ← match t with
    | '0' :: r => if r.head?.any Char.isDigit then none else some r
    | t => skipDigits t
  match rest with
  | '.' :: r => skipExponent (← skipDigits r)
  | r => skipExponent r

/-- Passes over a value that is no container, or enters one: the second component tells which. -/
def skipStep (t : Text) : Option (Text × Option Bool) :=
  match skipBlanks t with
  | 'n' :: t => ((word false ['u', 'l', 'l'] t).toOption).map fun t => (t, none)
  | 't' :: t => ((word false ['r', 'u', 'e'] t).toOption).map fun t => (t, none)
  | 'f' :: t => ((word false ['a', 'l', 's', 'e'] t).toOption).map fun t => (t, none)
  | '"' :: t => (skipString false 0 t).map fun t => (t, none)
  | '-' :: t => (skipNumber t).map fun t => (t, none)
  | '[' :: t => some (t, some false)
  | '\x7b' :: t => some (t, some true)
  | c :: t => if c.isDigit then (skipNumber (c :: t)).map fun t => (t, none) else none
  | [] => none

/-- Passes over a key and its colon, from before the quote. -/
def skipKey (t : Text) : Option Text := do
  match skipBlanks t with
  | '"' :: t =>
    match skipBlanks (← skipString false 0 t) with
    | ':' :: t => some t
    | _ => none
  | _ => none

/-- Where a reader that passes over a document is. -/
inductive SkipState where
  /-- Before a value. -/
  | value
  /-- At the start of the innermost container. -/
  | opened
  /-- Behind a value of the innermost container. -/
  | behind

/-- Passes over a document.  `around` lists the containers around the place, the innermost first:
`true` for an object. -/
def skipFrom : (fuel : Nat) → SkipState → (around : List Bool) → Text → Option Text
  | 0, _, _, _ => none
  | fuel + 1, .value, around, t => do
    match ← skipStep t with
    | (t, some isObject) => skipFrom fuel .opened (isObject :: around) t
    | (t, none) => skipFrom fuel .behind around t
  | _ + 1, .behind, [], t => some t
  | fuel + 1, .behind, isObject :: around, t =>
    match skipBlanks t with
    | ',' :: t => if isObject then do skipFrom fuel .value (isObject :: around) (← skipKey t)
      else skipFrom fuel .value (isObject :: around) t
    | ']' :: t => if isObject then none else skipFrom fuel .behind around t
    | '\x7d' :: t => if isObject then skipFrom fuel .behind around t else none
    | _ => none
  | _ + 1, .opened, [], _ => none
  | fuel + 1, .opened, isObject :: around, t =>
    match skipBlanks t with
    | ']' :: r => if isObject then none else skipFrom fuel .behind around r
    | '\x7d' :: r => if isObject then skipFrom fuel .behind around r else none
    | _ => if isObject then do skipFrom fuel .value (isObject :: around) (← skipKey t)
      else skipFrom fuel .value (isObject :: around) t

/-- The text behind the document at its start. -/
def skip (t : Text) : Option Text := skipFrom (2 * t.length + 2) .value [] t

/-- The wanted members of an object, read from before a key. `seen` are those read so far, the
last one first. -/
def recordMembers (wanted : List String) (read : String → Text → Option (α × Text)) :
    (fuel : Nat) → (seen : List (String × α)) → Text → Option (List (String × α) × Text)
  | 0, _, _ => none
  | fuel + 1, seen, t => do
    match skipBlanks t with
    | '"' :: t =>
      let (key, t) ← (string false t).toOption
      match skipBlanks t with
      | ':' :: t =>
        let (seen, t) ←
          if wanted.contains key then
            if seen.any fun m => m.1 == key then none
            else (read key t).map fun (a, t) => ((key, a) :: seen, t)
          else (skip t).map fun t => (seen, t)
        match skipBlanks t with
        | ',' :: t => recordMembers wanted read fuel seen t
        | '\x7d' :: t => some (seen, t)
        | _ => none
      | _ => none
    | _ => none

/-- All wanted members, as the items of an array; `first` tells that none has been read. -/
def recordItems (read : String → Text → Option (α × Text)) :
    (wanted : List String) → (first : Bool) → Text → Option (List (String × α) × Text)
  | [], _, t =>
    match skipBlanks t with
    | ']' :: t => some ([], t)
    | _ => none
  | key :: wanted, first, t => do
    let t ←
      if first then some t
      else match skipBlanks t with
        | ',' :: t => some t
        | _ => none
    let (a, t) ← read key t
    let (rest, t) ← recordItems read wanted false t
    return ((key, a) :: rest, t)

/-- The wanted members of a record. -/
def record (wanted : List String) (read : String → Text → Option (α × Text)) (t : Text) :
    Option (List (String × α) × Text) :=
  match skipBlanks t with
  | '\x7b' :: t =>
    match skipBlanks t with
    | '\x7d' :: t => some ([], t)
    | t => recordMembers wanted read (t.length + 1) [] t
  | '[' :: t => recordItems read wanted true t
  | _ => none

end TextPatch.Json.Read
