/-
# Reading documents

`Json.parse` reads one document and nothing behind it.  The three ways in which it can fail
(`Fault`) are told apart by what stands at the first place where no document can go on: a wrong
character, the end of the text, or the end of what could be delivered of it.  Containers nest up to
127 levels deep.  A key that is written twice keeps its first place and its last value.
-/
import TextPatch.Json.Number
import TextPatch.Text.Digit

namespace TextPatch

namespace Json.Read

/-! ## 1. Blanks, words and strings -/

/-- The four blanks between tokens. -/
def isBlank (c : Char) : Bool := c == ' ' || c == '\n' || c == '\t' || c == '\r'

/-- A text without its leading blanks. -/
def skipBlanks (t : Text) : Text := t.dropWhile isBlank

/-- Reads the rest of a word such as `null`. -/
def word (broken : Bool) : Text → Text → Except Fault Text
  | [], t => .ok t
  | _ :: _, [] => .error (ended broken)
  | w :: ws, c :: t => if w = c then word broken ws t else .error .malformed

/-- Where in a string the reader is. -/
inductive StringState where
  | plain
  /-- Behind a backslash. -/
  | escaped
  /-- Inside the digits of a UTF-16 unit: how many are missing, the value so far and the leading
  surrogate before it. -/
  | unit (missing value : Nat) (leading : Option Nat)
  /-- Behind a leading surrogate, before the backslash of the trailing one. -/
  | backslash (leading : Nat)
  /-- Behind a leading surrogate and a backslash, before the `u`. -/
  | letter (leading : Nat)

/-- The character that an escape of one letter stands for. -/
def escapeOf? : Char → Option Char
  | '"' => some '"'
  | '\\' => some '\\'
  | '/' => some '/'
  | 'b' => some '\x08'
  | 'f' => some '\x0c'
  | 'n' => some '\n'
  | 'r' => some '\r'
  | 't' => some '\t'
  | _ => none

/-- Reads a string from behind its opening quote.  `done` holds the characters read so far, the
last one first. -/
def stringRest (broken : Bool) : StringState → Text → Text → Except Fault (Text × Text)
  | _, _, [] => .error (ended broken)
  | .plain, done, c :: t =>
    if c = '"' then .ok (done.reverse, t)
    else if c = '\\' then stringRest broken .escaped done t
    else if c.toNat < 0x20 then .error .malformed
    else stringRest broken .plain (c :: done) t
  | .escaped, done, c :: t =>
    if c = 'u' then stringRest broken (.unit 4 0 none) done t
    else match escapeOf? c with
      | some e => stringRest broken .plain (e :: done) t
      | none => .error .malformed
  | .unit missing value leading, done, c :: t =>
    match Text.digit? c with
    | none => .error .malformed
    | some h =>
      let value := value * 16 + h
      if 1 < missing then stringRest broken (.unit (missing - 1) value leading) done t
      else match leading with
        | none =>
          if 0xDC00 ≤ value ∧ value ≤ 0xDFFF then .error .malformed
          else if 0xD800 ≤ value ∧ value ≤ 0xDBFF then stringRest broken (.backslash value) done t
          else stringRest broken .plain (Char.ofNat value :: done) t
        | some high =>
          if 0xDC00 ≤ value ∧ value ≤ 0xDFFF then
            stringRest broken .plain
              (Char.ofNat (0x10000 + (high - 0xD800) * 0x400 + (value - 0xDC00)) :: done) t
          else .error .malformed
  | .backslash high, done, c :: t =>
    if c = '\\' then stringRest broken (.letter high) done t else .error .malformed
  | .letter high, done, c :: t =>
    if c = 'u' then stringRest broken (.unit 4 0 (some high)) done t else .error .malformed

/-- A string, read from behind its opening quote. -/
def string (broken : Bool) (t : Text) : Except Fault (String × Text) := do
  let (s, rest) ← stringRest broken .plain [] t
  return (String.ofList s, rest)

/-! ## 2. Documents -/

/-- How deep containers nest. -/
def deepest : Nat := 127

mutual

/-- A document at the start of a text, with `depth` more levels of containers allowed. -/
def value (broken : Bool) : (fuel depth : Nat) → Text → Except Fault (Json × Text)
  | 0, _, _ => .error .malformed
  | fuel + 1, depth, t =>
    match skipBlanks t with
    | [] => .error (ended broken)
    | 'n' :: t => do return (.null, ← word broken ['u', 'l', 'l'] t)
    | 't' :: t => do return (.bool true, ← word broken ['r', 'u', 'e'] t)
    | 'f' :: t => do return (.bool false, ← word broken ['a', 'l', 's', 'e'] t)
    | '"' :: t => do
      let (s, t) ← string broken t
      return (.string s, t)
    | '[' :: t =>
      match depth with
      | 0 => .error .malformed
      | depth + 1 => do
        let (vs, t) ← items broken fuel depth t
        return (.array vs, t)
    | '{' :: t =>
      match depth with
      | 0 => .error .malformed
      | depth + 1 => do
        let (ms, t) ← members broken fuel depth t
        return (.object ms, t)
    | '-' :: t => do
      let (n, t) ← number broken true t
      return (.number n, t)
    | c :: t =>
      if c.isDigit then do
        let (n, t) ← number broken false (c :: t)
        return (.number n, t)
      else .error .malformed

/-- The items of an array, read from behind its bracket. -/
def items (broken : Bool) : (fuel depth : Nat) → Text → Except Fault (List Json × Text)
  | 0, _, _ => .error .malformed
  | fuel + 1, depth, t =>
    match skipBlanks t with
    | [] => .error (ended broken)
    | ']' :: t => .ok ([], t)
    | t => do
      let (v, t) ← value broken fuel depth t
      let (vs, t) ← moreItems broken fuel depth t
      return (v :: vs, t)

/-- The items of an array, read from behind one of them. -/
def moreItems (broken : Bool) : (fuel depth : Nat) → Text → Except Fault (List Json × Text)
  | 0, _, _ => .error .malformed
  | fuel + 1, depth, t =>
    match skipBlanks t with
    | [] => .error (ended broken)
    | ']' :: t => .ok ([], t)
    | ',' :: t =>
      match skipBlanks t with
      | [] => .error (ended broken)
      | ']' :: _ => .error .malformed
      | t => do
        let (v, t) ← value broken fuel depth t
        let (vs, t) ← moreItems broken fuel depth t
        return (v :: vs, t)
    | _ => .error .malformed

/-- The members of an object, read from behind its brace. -/
def members (broken : Bool) : (fuel depth : Nat) → Text → Except Fault (Members × Text)
  | 0, _, _ => .error .malformed
  | fuel + 1, depth, t =>
    match skipBlanks t with
    | [] => .error (ended broken)
    | '}' :: t => .ok ([], t)
    | '"' :: t => member broken fuel depth [] t
    | _ => .error .malformed

/-- One member, read from behind the quote of its key, and those behind it; `done` are the members
before it. -/
def member (broken : Bool) : (fuel depth : Nat) → Members → Text → Except Fault (Members × Text)
  | 0, _, _, _ => .error .malformed
  | fuel + 1, depth, done, t => do
    let (key, t) ← string broken t
    match skipBlanks t with
    | [] => .error (ended broken)
    | ':' :: t =>
      let (v, t) ← value broken fuel depth t
      moreMembers broken fuel depth (done.insert key v) t
    | _ => .error .malformed

/-- The members of an object, read from behind some of them. -/
def moreMembers (broken : Bool) : (fuel depth : Nat) → Members → Text →
    Except Fault (Members × Text)
  | 0, _, _, _ => .error .malformed
  | fuel + 1, depth, done, t =>
    match skipBlanks t with
    | [] => .error (ended broken)
    | '}' :: t => .ok (done, t)
    | ',' :: t =>
      match skipBlanks t with
      | [] => .error (ended broken)
      | '"' :: t => member broken fuel depth done t
      | _ => .error .malformed
    | _ => .error .malformed

end

/-- The fuel that reads every text of some length: a level of nesting takes three steps and at
least one character. -/
def fuelFor (t : Text) : Nat := 3 * t.length + 3

end Json.Read

namespace Json

/-- The document that a text holds; a broken text ends where its reader failed. -/
def parseStream (broken : Bool) (t : Text) : Except Read.Fault Json := do
  let (v, rest) ← Read.value broken (Read.fuelFor t) Read.deepest t
  match Read.skipBlanks rest with
  | [] => if broken then .error .broken else .ok v
  | _ => .error .malformed

/-- The document that a text holds. -/
def parse (t : Text) : Except Read.Fault Json := parseStream false t

end Json

end TextPatch
