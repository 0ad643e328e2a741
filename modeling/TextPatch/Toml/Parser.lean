/-
# Reading TOML documents

`Toml.parse?` reads a document by version 1.1 of the format: inline tables may run over several
lines and end with a comma, strings know `\e` and `\xHH`, and times need no seconds.  It answers
`none` for everything that is no document, keys defined twice included.
-/
import TextPatch.Toml
import TextPatch.Text.Digit

namespace TextPatch.Toml.Read

/-! ## 1. Blanks, comments and line ends -/

/-- The blanks inside lines. -/
def isBlank (c : Char) : Bool := c == ' ' || c == '\t'

/-- A text without its leading blanks. -/
def skipBlanks (t : Text) : Text := t.dropWhile isBlank

/-- The characters that may stand in comments and, quotes apart, in strings. -/
def isPlain (c : Char) : Bool := c == '\t' || (0x20 ≤ c.toNat && c.toNat != 0x7F)

/-- The text behind a line end. -/
def lineEnd? : Text → Option Text
  | '\n' :: t => some t
  | '\r' :: '\n' :: t => some t
  | _ => none

/-- The text behind a comment, if there is one. -/
def skipComment (t : Text) : Text :=
  match t with
  | '#' :: r => r.dropWhile isPlain
  | t => t

/-- Passes over blanks, comments and line ends. -/
def skipLines : (fuel : Nat) → Text → Text
  | 0, t => t
  | fuel + 1, t =>
    let r := skipComment (skipBlanks t)
    match lineEnd? r with
    | some r => skipLines fuel r
    | none => r

/-- A text without the blanks, comments and line ends at its start. -/
def skipAll (t : Text) : Text := skipLines (t.length + 1) t

/-- What is left behind the end of a line that has nothing more to say. -/
def finishLine (t : Text) : Option Text :=
  let r := skipComment (skipBlanks t)
  if r.isEmpty then some [] else lineEnd? r

/-! ## 2. Strings -/

/-- The character given by some hexadecimal digits. -/
def codePoint (count : Nat) (t : Text) : Option (Char × Text) :=
  let ds := t.take count
  let n := Text.numberIn 16 ds
  if ds.length = count ∧ ds.all Text.isHexDigit ∧ n.isValidChar then
    some (Char.ofNat n, t.drop count)
  else none

/-- An escape, read from behind its backslash. -/
def escape : Text → Option (Char × Text)
  | 'b' :: t => some ('\x08', t)
  | 't' :: t => some ('\t', t)
  | 'n' :: t => some ('\n', t)
  | 'f' :: t => some ('\x0c', t)
  | 'r' :: t => some ('\r', t)
  | 'e' :: t => some ('\x1b', t)
  | '"' :: t => some ('"', t)
  | '\\' :: t => some ('\\', t)
  | 'x' :: t => codePoint 2 t
  | 'u' :: t => codePoint 4 t
  | 'U' :: t => codePoint 8 t
  | _ => none

/-- A string in one line, read from behind its opening quote. -/
def basicRest : (fuel : Nat) → Text → Text → Option (Text × Text)
  | 0, _, _ => none
  | _ + 1, _, [] => none
  | fuel + 1, done, c :: t =>
    if c = '"' then some (done.reverse, t)
    else if c = '\\' then do
      let (e, t) ← escape t
      basicRest fuel (e :: done) t
    else if isPlain c then basicRest fuel (c :: done) t
    else none

/-- A string in one line without escapes, read from behind its opening quote. -/
def literalRest (t : Text) : Option (Text × Text) :=
  let body := t.takeWhile (· != '\'')
  match t.dropWhile (· != '\'') with
  | _ :: r => if body.all isPlain then some (body, r) else none
  | [] => none

/-- The end of a string over several lines: three quotes, and up to two more that belong to the
string. -/
def closing? (quote : Char) (t : Text) : Option (Text × Text) :=
  let quotes := t.takeWhile (· == quote)
  let n := min quotes.length 5
  if 3 ≤ n then some (List.replicate (n - 3) quote, t.drop n) else none

/-- Whether a backslash ends its line, and what is left behind the blanks after it. -/
def joinedLine? (t : Text) : Option Text :=
  match lineEnd? (skipBlanks t) with
  | some r => some (r.dropWhile fun c => isBlank c || c == '\n' || c == '\r')
  | none => none

/-- A string over several lines, read from behind its first line end. -/
def multilineRest (quote : Char) : (fuel : Nat) → Text → Text → Option (Text × Text)
  | 0, _, _ => none
  | fuel + 1, done, t =>
    match closing? quote t with
    | some (more, r) => some (done.reverse ++ more, r)
    | none =>
      match t with
      | [] => none
      | c :: r =>
        if quote = '"' ∧ c = '\\' then
          match joinedLine? r with
          | some r => multilineRest quote fuel done r
          | none => do
            let (e, r) ← escape r
            multilineRest quote fuel (e :: done) r
        else if isPlain c then multilineRest quote fuel (c :: done) r
        else
          match lineEnd? t with
          | some r => multilineRest quote fuel ('\n' :: done) r
          | none => none

/-- A string, read from before its opening quote; `oneLine` if it must not run over lines. -/
def string (oneLine : Bool) (t : Text) : Option (String × Text) := do
  let multiline (quote : Char) (r : Text) : Option (Text × Text) :=
    if oneLine then none else multilineRest quote (r.length + 1) [] ((lineEnd? r).getD r)
  let (s, r) ← match t with
    | '"' :: '"' :: '"' :: r => multiline '"' r
    | '\'' :: '\'' :: '\'' :: r => multiline '\'' r
    | '"' :: r => basicRest (r.length + 1) [] r
    | '\'' :: r => literalRest r
    | _ => none
  return (String.ofList s, r)

/-! ## 3. Keys -/

/-- The characters of keys without quotes. -/
def isBare (c : Char) : Bool := c.isAlphanum || c == '_' || c == '-'

/-- One part of a key. -/
def keyPart (t : Text) : Option (String × Text) :=
  match t with
  | '"' :: _ => string true t
  | '\'' :: _ => string true t
  | t =>
    let name := t.takeWhile isBare
    if name.isEmpty then none else some (String.ofList name, t.dropWhile isBare)

/-- A key: the parts before the last dot, and the last one. -/
def key : (fuel : Nat) → Text → Option (List String × String × Text)
  | 0, _ => none
  | fuel + 1, t => do
    let (part, r) ← keyPart (skipBlanks t)
    match skipBlanks r with
    | '.' :: r =>
      let (path, last, r) ← key fuel r
      return (part :: path, last, r)
    | r => return ([], part, r)

/-! ## 4. Numbers and dates -/

/-- Whether a text is digits, with lone underscores between them. -/
def isDigits (isDigit : Char → Bool) : Text → Bool
  | [] => false
  | [c] => isDigit c
  | c :: '_' :: t => isDigit c && isDigits isDigit t
  | c :: t => isDigit c && isDigits isDigit t

/-- Whether digits do not begin with a superfluous zero. -/
def isTight (t : Text) : Bool := t.length ≤ 1 || t.head? != some '0'

/-- An integer. -/
def integer? (t : Text) : Option Int :=
  let based (base : Nat) (isDigit : Char → Bool) (ds : Text) : Option Int :=
    if isDigits isDigit ds && Text.numberIn base ds < 0x8000000000000000 then
      some (Text.numberIn base ds)
    else none
  let decimal (negative : Bool) (ds : Text) : Option Int :=
    let n := Text.numberIn 10 ds
    if isDigits Char.isDigit ds && isTight ds &&
        n < 0x8000000000000000 + (if negative then 1 else 0) then
      some (if negative then -n else n)
    else none
  match t with
  | '0' :: 'x' :: ds => based 16 Text.isHexDigit ds
  | '0' :: 'o' :: ds => based 8 (fun c => '0' ≤ c && c ≤ '7') ds
  | '0' :: 'b' :: ds => based 2 (fun c => c == '0' || c == '1') ds
  | '+' :: ds => decimal false ds
  | '-' :: ds => decimal true ds
  | ds => decimal false ds

/-- A text without a sign at its start. -/
def unsigned (t : Text) : Text :=
  match t with
  | '+' :: r => r
  | '-' :: r => r
  | r => r

/-- Whether a text is the exponent of a number, from behind the `e`. -/
def isExponent (t : Text) : Bool := isDigits Char.isDigit (unsigned t)

/-- Whether a text is a number with a fraction or an exponent, or stands for one that has no
digits. -/
def isFloat (t : Text) : Bool :=
  let t := unsigned t
  if t = ['i', 'n', 'f'] ∨ t = ['n', 'a', 'n'] then true
  else
    let isPart (c : Char) := c.isDigit || c == '_'
    let whole := t.takeWhile isPart
    if !(isDigits Char.isDigit whole && isTight whole) then false
    else match t.dropWhile isPart with
      | '.' :: r =>
        isDigits Char.isDigit (r.takeWhile isPart) &&
          match r.dropWhile isPart with
          | [] => true
          | c :: e => (c == 'e' || c == 'E') && isExponent e
      | c :: e => (c == 'e' || c == 'E') && isExponent e
      | [] => false

/-- Whether a number, written as a float is, lies beyond the binary range. -/
def isTooLarge (t : Text) : Bool :=
  let t := (unsigned t).filter (· != '_')
  let whole := t.takeWhile Char.isDigit
  let (fraction, rest) := match t.dropWhile Char.isDigit with
    | '.' :: r => (r.takeWhile Char.isDigit, r.dropWhile Char.isDigit)
    | r => ([], r)
  let power := Text.numberIn 10 (unsigned (rest.drop 1))
  let exponent : Int :=
    (if (rest.drop 1).head? == some '-' then -(power : Int) else power) - fraction.length
  let n := Text.numberIn 10 (whole ++ fraction)
  -- the number lies between the powers of ten with the exponents `places - 1` and `places`
  let places := (Nat.toDigits 10 n).length + exponent
  n != 0 && 309 ≤ places &&
    (310 < places || (Float.ofScientific n (exponent < 0) exponent.natAbs).isInf)

/-- A number of a fixed count of digits, and what follows. -/
def fixed? (count : Nat) (t : Text) : Option (Nat × Text) :=
  let ds := t.take count
  if ds.length = count ∧ ds.all Char.isDigit then some (Text.numberIn 10 ds, t.drop count) else none

/-- The days of a month. -/
def daysIn (year month : Nat) : Nat :=
  if month = 2 then
    if (year % 4 = 0 ∧ year % 100 ≠ 0) ∨ year % 400 = 0 then 29 else 28
  else if [4, 6, 9, 11].contains month then 30 else 31

/-- The text behind a date. -/
def date? (t : Text) : Option Text := do
  let (year, t) ← fixed? 4 t
  match t with
  | '-' :: t =>
    let (month, t) ← fixed? 2 t
    match t with
    | '-' :: t =>
      let (day, t) ← fixed? 2 t
      if 1 ≤ month ∧ month ≤ 12 ∧ 1 ≤ day ∧ day ≤ daysIn year month then some t else none
    | _ => none
  | _ => none

/-- The text behind a time of day. -/
def time? (t : Text) : Option Text := do
  let (hour, t) ← fixed? 2 t
  match t with
  | ':' :: t =>
    let (minute, t) ← fixed? 2 t
    if 23 < hour ∨ 59 < minute then none
    else match t with
      | ':' :: t =>
        let (second, t) ← fixed? 2 t
        if 60 < second then none
        else match t with
          | '.' :: r =>
            if (r.takeWhile Char.isDigit).isEmpty then none else some (r.dropWhile Char.isDigit)
          | t => some t
      | t => some t
  | _ => none

/-- Whether a text is nothing or an offset from universal time. -/
def isZone (t : Text) : Bool :=
  match t with
  | [] => true
  | ['Z'] => true
  | ['z'] => true
  | c :: r =>
    (c == '+' || c == '-') &&
      match fixed? 2 r with
      | some (hour, ':' :: r) =>
        match fixed? 2 r with
        | some (minute, []) => hour ≤ 23 && minute ≤ 59
        | _ => false
      | _ => false

/-- Whether a text is a date, a time, or both. -/
def isDatetime (t : Text) : Bool :=
  match date? t with
  | some [] => true
  | some (c :: r) =>
    (c == 'T' || c == 't' || c == ' ') &&
      match time? r with
      | some r => isZone r
      | none => false
  | none => time? t == some []

/-- The characters that end a value without quotes. -/
def isStop (c : Char) : Bool :=
  isBlank c || c == '\n' || c == '\r' || c == ',' || c == ']' || c == '\x7d' || c == '#'

/-- A value without quotes or brackets. A date and its time may be separated by a blank. -/
def scalar (t : Text) : Option (Toml × Text) :=
  let word := t.takeWhile (!isStop ·)
  let rest := t.dropWhile (!isStop ·)
  let (word, rest) := match rest with
    | ' ' :: d :: r =>
      if date? word == some [] && d.isDigit then
        (word ++ ' ' :: (d :: r).takeWhile (!isStop ·), (d :: r).dropWhile (!isStop ·))
      else (word, rest)
    | _ => (word, rest)
  if word = "true".toList then some (.boolean true, rest)
  else if word = "false".toList then some (.boolean false, rest)
  else match integer? word with
    | some n => some (.integer n, rest)
    | none =>
      if isFloat word then if isTooLarge word then none else some (.float, rest)
      else if isDatetime word then some (.datetime, rest)
      else none

/-! ## 5. Values and documents -/

mutual

/-- A value. -/
def value : (fuel : Nat) → Text → Option (Toml × Text)
  | 0, _ => none
  | fuel + 1, t =>
    match t with
    | '"' :: _ => (string false t).map fun (s, r) => (.string s, r)
    | '\'' :: _ => (string false t).map fun (s, r) => (.string s, r)
    | '[' :: r => (items fuel r).map fun (vs, r) => (.array vs, r)
    | '\x7b' :: r => (entries fuel ⟨.inlined, []⟩ r).map fun (e, r) => (.table .inlined e.entries, r)
    | t => scalar t

/-- The items of an array, read from behind its bracket or a comma. -/
def items : (fuel : Nat) → Text → Option (List Toml × Text)
  | 0, _ => none
  | fuel + 1, t =>
    match skipAll t with
    | ']' :: r => some ([], r)
    | t => do
      let (v, r) ← value fuel t
      match skipAll r with
      | ']' :: r => return ([v], r)
      | ',' :: r =>
        let (vs, r) ← items fuel r
        return (v :: vs, r)
      | _ => none

/-- The entries of an inline table, read from behind its brace or a comma. -/
def entries : (fuel : Nat) → Table → Text → Option (Table × Text)
  | 0, _, _ => none
  | fuel + 1, done, t =>
    match skipAll t with
    | '\x7d' :: r => some (done, r)
    | t => do
      let (path, last, r) ← key (t.length + 1) t
      match r with
      | '=' :: r =>
        let (v, r) ← value fuel (skipBlanks r)
        let done ← done.define path last v
        match skipAll r with
        | '\x7d' :: r => return (done, r)
        | ',' :: r => entries fuel done r
        | _ => none
      | _ => none

end

/-- Reads a document line by line.  `place` is the path of the table that the lines belong
to. -/
def lines : (fuel : Nat) → (place : List String) → Table → Text → Option Table
  | 0, _, _, _ => none
  | fuel + 1, place, doc, t =>
    match skipAll t with
    | [] => some doc
    | '[' :: '[' :: r => do
      let (path, last, r) ← key (r.length + 1) r
      match r with
      | ']' :: ']' :: r => lines fuel (path ++ [last]) (← doc.openElement path last) (← finishLine r)
      | _ => none
    | '[' :: r => do
      let (path, last, r) ← key (r.length + 1) r
      match r with
      | ']' :: r => lines fuel (path ++ [last]) (← doc.openSection path last) (← finishLine r)
      | _ => none
    | t => do
      let (path, last, r) ← key (t.length + 1) t
      match r with
      | '=' :: r =>
        let (v, r) ← value (t.length + 1) (skipBlanks r)
        let doc ← Table.alter false (Table.define path last v) place doc
        lines fuel place doc (← finishLine r)
      | _ => none

end TextPatch.Toml.Read

namespace TextPatch.Toml

/-- The document that a text holds; a byte order mark may stand in front of it. -/
def parse? (t : Text) : Option Table :=
  let t := match t with
    | '\ufeff' :: r => r
    | r => r
  Read.lines (t.length + 1) [] Table.root t

end TextPatch.Toml
