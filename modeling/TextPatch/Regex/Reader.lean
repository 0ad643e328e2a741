/-
# Reading patterns

`Pattern.read?` turns the text of a pattern into its tree, or refuses it.  Refused are, among
others, unbalanced groups and brackets, repetitions of nothing, look-around, back references,
unknown escapes, repeated or dangling flags, repeated group names, ranges and counts that go down,
and nesting beyond 250 levels.  Property names are not looked up here.

With the `verbose` flag in force, blanks and comments from `#` to the end of the line are skipped
between the parts of a pattern.  Functions that take `verbose` are told whether it is.
-/
import TextPatch.Regex.Pattern
import TextPatch.Unicode.Lookup
import TextPatch.Text.Digit
import TextPatch.Text.Occurrence

namespace TextPatch.Regex

namespace Read

/-! ## 1. Blanks -/

/-- Skips blanks and comments. -/
def skipFrom : (inComment : Bool) → Text → Text
  | _, [] => []
  | inComment, c :: t =>
    if inComment then skipFrom (c != '\n') t
    else if Text.isBlank c then skipFrom false t
    else if c = '#' then skipFrom true t
    else c :: t

/-- Skips what a verbose pattern may hold between its parts. -/
def space (verbose : Bool) (t : Text) : Text := if verbose then skipFrom false t else t

/-- The next character but one, as a range looks for it: behind a `#` every blank is skipped, the
ends of lines included. -/
def peekBeyond (verbose : Bool) (t : Text) : Option Char :=
  if !verbose then t.head?
  else
    let afterBlanks := t.dropWhile Text.isBlank
    let found := if afterBlanks.head? == some '#' then (afterBlanks.drop 1).dropWhile Text.isBlank
      else afterBlanks
    if found.isEmpty then t.head? else found.head?

/-! ## 2. Escapes -/

/-- What an escape or a lone character is. -/
inductive Primitive where
  | literal (c : Literal)
  | place (p : Place)
  | property (negated : Bool) (name : PropertyName)
  | letter (negated : Bool) (cls : LetterClass)

/-- The character with a code, unless the code is no character. -/
def charOfCode? (n : Nat) : Option Char := if n.isValidChar then some (Char.ofNat n) else none

/-- The digits of an escape with a fixed number of them. -/
def fixedHex (verbose : Bool) : Nat → Text → Text → Option (Text × Text)
  | 0, done, t => some (done.reverse, t)
  | n + 1, done, t =>
    match if done.isEmpty then t else space verbose t with
    | [] => none
    | c :: t => if Text.isHexDigit c then fixedHex verbose n (c :: done) t else none

/-- What stands between braces, read from behind the opening one up to behind the closing one. -/
def braced (verbose : Bool) : (fuel : Nat) → Text → Text → Option (Text × Text)
  | 0, _, _ => none
  | fuel + 1, done, t =>
    match space verbose t with
    | [] => none
    | c :: t => if c = '\x7d' then some (done.reverse, t) else braced verbose fuel (c :: done) t

/-- A character given by its code, read from behind the letter that introduces it. -/
def hexEscape (verbose : Bool) (count : Nat) (t : Text) : Option (Primitive × Text) := do
  match space verbose t with
  | [] => none
  | c :: r =>
    if c = '\x7b' then
      let (ds, r) ← braced verbose (r.length + 1) [] r
      if ds.isEmpty || !ds.all Text.isHexDigit then none
      else
        let char ← charOfCode? (Text.numberIn 16 ds)
        return (.literal ⟨char, false⟩, r)
    else
      let (ds, r) ← fixedHex verbose count [] (c :: r)
      let char ← charOfCode? (Text.numberIn 16 ds)
      return (.literal ⟨char, count == 2⟩, r)

/-- The part of a text before and behind the first occurrence of `sep`. -/
def cutAt? (sep : Text) : Text → Option (Text × Text)
  | [] => none
  | c :: t =>
    if sep.isPrefixOf (c :: t) then some ([], (c :: t).drop sep.length)
    else (cutAt? sep t).map fun (a, b) => (c :: a, b)

/-- A class named by a property, read from behind the `p`. -/
def propertyEscape (verbose negated : Bool) (t : Text) : Option (Primitive × Text) := do
  let pair (p v : Text) := PropertyName.pair (String.ofList p) (String.ofList v)
  match space verbose t with
  | [] => none
  | c :: r =>
    if c = '\x7b' then
      let (name, r) ← braced verbose (r.length + 1) [] r
      match cutAt? ['!', '='] name with
      | some (p, v) => return (.property (!negated) (pair p v), r)
      | none =>
        match (cutAt? [':'] name).or (cutAt? ['='] name) with
        | some (p, v) => return (.property negated (pair p v), r)
        | none => return (.property negated (.lone (String.ofList name)), r)
    else if c = '\\' then none
    else return (.property negated (.lone (String.ofList [c])), r)

/-- The characters with a meaning of their own, each of which may be escaped. -/
def isMeta (c : Char) : Bool :=
  ['\\', '.', '+', '*', '?', '(', ')', '|', '[', ']', '\x7b', '\x7d', '^', '$', '#', '&', '-',
    '~'].contains c

/-- The characters that stand for themselves behind a backslash. -/
def isEscapable (c : Char) : Bool :=
  isMeta c || (c.toNat ≤ 0x7F && !c.isAlphanum && c != '<' && c != '>')

/-- The letters that name a part of a word between braces. -/
def isPlaceLetter (c : Char) : Bool := c.isAlpha || c == '-'

/-- The name of a part of a word: letters, blanks skipped, up to the first other character. -/
def placeLetters (verbose : Bool) : (fuel : Nat) → Text → Text → Text × Text
  | 0, done, t => (done.reverse, t)
  | fuel + 1, done, t =>
    match t with
    | c :: r =>
      if isPlaceLetter c then placeLetters verbose fuel (c :: done) (space verbose r)
      else (done.reverse, t)
    | [] => (done.reverse, t)

/-- A word boundary, read from behind the `b`, with the part of a word that braces may name. -/
def boundaryEscape (verbose : Bool) (t : Text) : Option (Primitive × Text) :=
  match t with
  | '\x7b' :: r =>
    match space verbose r with
    | [] => none
    | c :: r =>
      if !isPlaceLetter c then some (.place .wordBoundary, t)
      else
        match placeLetters verbose (r.length + 1) [] (c :: r) with
        | (name, '\x7d' :: r) =>
          match String.ofList name with
          | "start" => some (.place .wordStart, r)
          | "end" => some (.place .wordEnd, r)
          | "start-half" => some (.place .wordStartHalf, r)
          | "end-half" => some (.place .wordEndHalf, r)
          | _ => none
        | _ => none
  | _ => some (.place .wordBoundary, t)

/-- An escape, read from behind its backslash. -/
def escape (verbose : Bool) : Text → Option (Primitive × Text)
  | [] => none
  | c :: t =>
    let char (c : Char) : Option (Primitive × Text) := some (.literal ⟨c, false⟩, t)
    match c with
    | 'x' => hexEscape verbose 2 t
    | 'u' => hexEscape verbose 4 t
    | 'U' => hexEscape verbose 8 t
    | 'p' => propertyEscape verbose false t
    | 'P' => propertyEscape verbose true t
    | 'd' => some (.letter false .digit, t)
    | 'D' => some (.letter true .digit, t)
    | 's' => some (.letter false .blank, t)
    | 'S' => some (.letter true .blank, t)
    | 'w' => some (.letter false .word, t)
    | 'W' => some (.letter true .word, t)
    | 'a' => char '\x07'
    | 'f' => char '\x0c'
    | 't' => char '\t'
    | 'n' => char '\n'
    | 'r' => char '\r'
    | 'v' => char '\x0b'
    | 'A' => some (.place .textStart, t)
    | 'z' => some (.place .textEnd, t)
    | 'b' => boundaryEscape verbose t
    | 'B' => some (.place .notWordBoundary, t)
    | '<' => some (.place .wordStart, t)
    | '>' => some (.place .wordEnd, t)
    | c => if isEscapable c then char c else none

/-! ## 3. Bracket expressions -/

/-- The names of the classes of ASCII characters. -/
def asciiNames : List String :=
  ["alnum", "alpha", "ascii", "blank", "cntrl", "digit", "graph", "lower", "print", "punct",
    "space", "upper", "word", "xdigit"]

/-- A named class of ASCII characters, read from behind its bracket; `none` if there is none. -/
def asciiClass? (t : Text) : Option (ClassSet × Text) :=
  match t with
  | ':' :: t =>
    let (negated, t) := match t with
      | '^' :: r => (true, r)
      | _ => (false, t)
    let name := t.takeWhile (· != ':')
    match t.dropWhile (· != ':') with
    | ':' :: ']' :: r =>
      if asciiNames.contains (String.ofList name) then
        some (.ascii negated (String.ofList name), r)
      else none
    | _ => none
  | _ => none

/-- One character or class in a bracket expression. -/
def setItem (verbose : Bool) : Text → Option (Primitive × Text)
  | [] => none
  | '\\' :: t => escape verbose t
  | c :: t => some (.literal ⟨c, false⟩, t)

/-- A character or class as a set; places are none. -/
def Primitive.toSet? : Primitive → Option ClassSet
  | .literal c => some (.literal c)
  | .property negated name => some (.property negated name)
  | .letter negated cls => some (.letter negated cls)
  | .place _ => none

/-- A character, a class, or a range of characters. -/
def setRange (verbose : Bool) (t : Text) : Option (ClassSet × Text) := do
  let (first, t) ← setItem verbose t
  let t := space verbose t
  match t with
  | [] => none
  | c :: r =>
    let beyond := peekBeyond verbose r
    if c != '-' || beyond == some ']' || beyond == some '-' then
      return (← first.toSet?, t)
    else
      match space verbose r with
      | [] => none
      | r =>
        let (second, r) ← setItem verbose r
        match first, second with
        | .literal low, .literal high =>
          if low.char ≤ high.char then return (.range low high, r) else none
        | _, _ => none

/-- Items side by side, the last one first, as one set. -/
def unionOf : List ClassSet → ClassSet
  | [] => .nothing
  | [item] => item
  | items => .union items.reverse

/-- A set behind the operator that stands before it. -/
def combine (pending : Option (SetOperation × ClassSet)) (right : ClassSet) : ClassSet :=
  match pending with
  | none => right
  | some (op, left) => .operation op left right

/-- Leading hyphens stand for themselves. -/
def leadingHyphens (verbose : Bool) : (fuel : Nat) → List ClassSet → Text →
    Option (List ClassSet × Text)
  | 0, _, _ => none
  | fuel + 1, done, t =>
    match t with
    | [] => none
    | '-' :: r => leadingHyphens verbose fuel (.literal ⟨'-', false⟩ :: done) (space verbose r)
    | _ => some (done, t)

/-- The start of a bracket expression, read from behind its bracket: whether it is negated, and
the characters that only there stand for themselves. -/
def setOpen (verbose : Bool) (t : Text) : Option (Bool × List ClassSet × Text) := do
  let t := space verbose t
  let (negated, t) := match t with
    | '^' :: r => (true, space verbose r)
    | _ => (false, t)
  let (items, t) ← leadingHyphens verbose (t.length + 1) [] t
  match items, t with
  | _, [] => none
  | [], ']' :: r =>
    match space verbose r with
    | [] => none
    | r => return (negated, [.literal ⟨']', false⟩], r)
  | _, _ => return (negated, items, t)

/-- The rest of a bracket expression, up to and with its closing bracket. `items` stand side by
side since the last operator, `pending`. -/
def setRest (verbose : Bool) : (fuel : Nat) → Option (SetOperation × ClassSet) → List ClassSet →
    Text → Option (ClassSet × Text)
  | 0, _, _, _ => none
  | fuel + 1, pending, items, t =>
    let operator (op : SetOperation) (r : Text) :=
      setRest verbose fuel (some (op, combine pending (unionOf items))) [] r
    match space verbose t with
    | [] => none
    | '[' :: r =>
      match asciiClass? r with
      | some (cls, r) => setRest verbose fuel pending (cls :: items) r
      | none => do
        let (negated, first, r) ← setOpen verbose r
        let (set, r) ← setRest verbose fuel none first r
        setRest verbose fuel pending (.bracket negated set :: items) r
    | ']' :: r => some (combine pending (unionOf items), r)
    | '&' :: '&' :: r => operator .intersection r
    | '-' :: '-' :: r => operator .difference r
    | '~' :: '~' :: r => operator .symmetricDifference r
    | t => do
      let (item, r) ← setRange verbose t
      setRest verbose fuel pending (item :: items) r

/-- A bracket expression, read from behind its bracket. -/
def bracket (verbose : Bool) (t : Text) : Option (Pattern × Text) := do
  let (negated, first, r) ← setOpen verbose t
  let (set, r) ← setRest verbose (t.length + 1) none first r
  return (.bracket negated set, r)

/-! ## 4. Repetitions -/

/-- Digits with blanks between them, and what follows. -/
def spacedDigits (verbose : Bool) : (fuel : Nat) → Text → Text → Text × Text
  | 0, done, t => (done.reverse, t)
  | fuel + 1, done, t =>
    match t with
    | c :: r =>
      if c.isDigit then spacedDigits verbose fuel (c :: done) (space verbose r)
      else (done.reverse, t)
    | [] => (done.reverse, t)

/-- A count below `2 ^ 32`, with blanks around it. -/
def count? (verbose : Bool) (t : Text) : Option (Nat × Text) :=
  let t := t.dropWhile Text.isBlank
  let (ds, r) := spacedDigits verbose (t.length + 1) [] t
  let n := Text.numberIn 10 ds
  if ds.isEmpty || UInt32.size ≤ n then none
  else some (n, space verbose (r.dropWhile Text.isBlank))

/-- The bounds of a counted repetition, read from behind its brace. -/
def bounds (verbose : Bool) (t : Text) : Option (Nat × Option Nat × Text) := do
  let (low, t) ← count? verbose (space verbose t)
  match t with
  | '\x7d' :: r => return (low, some low, r)
  | ',' :: r =>
    match space verbose r with
    | '\x7d' :: r => return (low, none, r)
    | r =>
      let (high, r) ← count? verbose r
      match r with
      | '\x7d' :: r => if low ≤ high then return (low, some high, r) else none
      | _ => none
  | _ => none

/-- Whether a question mark makes the repetition before it reluctant, and what follows. -/
def reluctant : Text → Bool × Text
  | '?' :: t => (true, t)
  | t => (false, t)

/-- What is repeated: the part read last, if it is more than a directive. -/
def repeatable? : List Pattern → Option (Pattern × List Pattern)
  | .empty :: _ => none
  | .flags _ :: _ => none
  | p :: done => some (p, done)
  | [] => none

/-! ## 5. Groups and flags -/

/-- The flag of a letter. -/
def flagName? : Char → Option FlagName
  | 'i' => some .ignoreCase
  | 'm' => some .multiLine
  | 's' => some .dotAll
  | 'U' => some .swapGreed
  | 'u' => some .unicode
  | 'R' => some .crlf
  | 'x' => some .verbose
  | _ => none

/-- The flags up to a colon or parenthesis.  `dangling` tells that a hyphen has been read and no
flag behind it. -/
def flagItems : (negated dangling : Bool) → List (FlagName × Bool) → Text →
    Option (List (FlagName × Bool) × Text)
  | _, _, _, [] => none
  | negated, dangling, done, c :: t =>
    if c = ':' || c = ')' then
      if dangling then none else some (done.reverse, c :: t)
    else if c = '-' then
      if negated then none else flagItems true true done t
    else do
      let name ← flagName? c
      if done.any fun item => item.1 == name then none
      else flagItems negated false ((name, !negated) :: done) t

/-- Whether a character may stand in the name of a group. -/
def isNameChar (first : Bool) (c : Char) : Bool :=
  c == '_' || (Unicode.binary "alphabetic").contains c ||
    (!first && (c == '.' || c == '[' || c == ']' ||
      (Unicode.categoryUnion ["nd", "nl", "no"]).contains c))

/-- The name of a group, read from behind its angle bracket. -/
def groupName? (t : Text) : Option (Text × Text) :=
  let name := t.takeWhile (· != '>')
  match name, t.dropWhile (· != '>') with
  | c :: cs, '>' :: r =>
    if isNameChar true c && cs.all (isNameChar false) then some (name, r) else none
  | _, _ => none

/-- How a group begins. -/
inductive Opening where
  /-- A directive in parentheses of its own. -/
  | directive (items : List (FlagName × Bool))
  | group (captures : Bool) (items : List (FlagName × Bool)) (name : Option Text)

/-- The start of a group, read from behind its parenthesis. -/
def opening (verbose : Bool) (t : Text) : Option (Opening × Text) := do
  let t := space verbose t
  if [['?', '='], ['?', '!'], ['?', '<', '='], ['?', '<', '!']].any (·.isPrefixOf t) then none
  else
    match (Text.afterWord? ['?', 'P', '<'] t).or (Text.afterWord? ['?', '<'] t) with
    | some r =>
      let (name, r) ← groupName? r
      return (.group true [] (some name), r)
    | none =>
      match t with
      | '?' :: r =>
        let (items, r) ← flagItems false false [] r
        match r with
        | ':' :: r => return (.group false items none, r)
        | _ :: r => if items.isEmpty then none else return (.directive items, r)
        | [] => none
      | _ => return (.group true [] none, t)

/-- What a list of flags says about the `verbose` flag. -/
def verboseAfter (items : List (FlagName × Bool)) (verbose : Bool) : Bool :=
  (items.lookup .verbose).getD verbose

/-! ## 6. Patterns -/

/-- Where the reader is: the rest of the pattern, whether it is verbose, and the names of the
groups so far. -/
structure Cursor where
  rest : Text
  verbose : Bool
  names : List Text

/-- Parts side by side, the last one first, as one pattern. -/
def concatOf : List Pattern → Pattern
  | [] => .empty
  | [p] => p
  | ps => .concat ps.reverse

/-- Branches, the last one first, as one pattern. -/
def alternationOf (branches : List Pattern) (last : Pattern) : Pattern :=
  if branches.isEmpty then last else .alternation (last :: branches).reverse

/-- A lone character or an escape as a pattern. -/
def Primitive.toPattern : Primitive → Pattern
  | .literal c => .literal c
  | .place p => .place p
  | .property negated name => .property negated name
  | .letter negated cls => .letter negated cls

/-- Reads up to the end of the group or of the text.  `branches` are complete, `done` are the parts
of the branch that is being read, the last one first. -/
def branchesOf : (fuel : Nat) → List Pattern → List Pattern → Cursor → Option (Pattern × Cursor)
  | 0, _, _, _ => none
  | fuel + 1, branches, done, cur =>
    let verbose := cur.verbose
    let go (done : List Pattern) (r : Text) := branchesOf fuel branches done { cur with rest := r }
    let repeated (min : Nat) (max : Option Nat) (r : Text) : Option (Pattern × Cursor) := do
      let (p, done) ← repeatable? done
      let (lazily, r) := reluctant r
      go (.repetition p min max (!lazily) :: done) r
    match space verbose cur.rest with
    | [] => some (alternationOf branches (concatOf done), { cur with rest := [] })
    | ')' :: r => some (alternationOf branches (concatOf done), { cur with rest := ')' :: r })
    | '|' :: r => branchesOf fuel (concatOf done :: branches) [] { cur with rest := r }
    | '(' :: r => do
      match ← opening verbose r with
      | (.directive items, r) =>
        branchesOf fuel branches (.flags items :: done)
          { cur with rest := r, verbose := verboseAfter items verbose }
      | (.group captures items name, r) =>
        if name.any cur.names.contains then none
        else
          let names := name.toList ++ cur.names
          let (sub, inner) ← branchesOf fuel [] [] ⟨r, verboseAfter items verbose, names⟩
          match inner.rest with
          | ')' :: r =>
            branchesOf fuel branches (.group captures items sub :: done) ⟨r, verbose, inner.names⟩
          | _ => none
    | '[' :: r => do
      let (p, r) ← bracket verbose r
      go (p :: done) r
    | '?' :: r => repeated 0 (some 1) r
    | '*' :: r => repeated 0 none r
    | '+' :: r => repeated 1 none r
    | '\x7b' :: r => do
      let (min, max, r) ← bounds verbose r
      repeated min max (space verbose r)
    | '\\' :: r => do
      let (p, r) ← escape verbose r
      go (p.toPattern :: done) r
    | '.' :: r => go (.dot :: done) r
    | '^' :: r => go (.place .lineStart :: done) r
    | '$' :: r => go (.place .lineEnd :: done) r
    | c :: r => go (.literal ⟨c, false⟩ :: done) r

/-- How deep the parts of a pattern may nest. -/
def deepest : Nat := 250

end Read

/-- The tree of a pattern, if its text is one.  `verbose` tells whether blanks are skipped from the
start. -/
def Pattern.read? (verbose : Bool) (t : Text) : Option Pattern :=
  match Read.branchesOf (t.length + 1) [] [] ⟨t, verbose, []⟩ with
  | some (p, cur) => if cur.rest.isEmpty && p.depth ≤ Read.deepest then some p else none
  | none => none

end TextPatch.Regex
