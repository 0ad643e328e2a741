/-
# What patterns mean

`Core` is a pattern without flags, escapes and names: sets of characters, places between
characters, and the ways to put them together.  `Core.ofPattern?` works out what each part of a
pattern means under the flags in force where it stands.  It refuses names of properties that do
not exist, and parts that could match less than a whole character once the `unicode` flag is
cleared.
-/
import TextPatch.Regex.Pattern
import TextPatch.Unicode.Lookup

namespace TextPatch.Regex

open Unicode

/-- The flags in force at some part of a pattern. -/
structure Flags where
  ignoreCase : Bool
  multiLine : Bool
  dotAll : Bool
  swapGreed : Bool
  unicode : Bool
  crlf : Bool
  verbose : Bool
  deriving DecidableEq, Repr

namespace Flags

/-- The flags after one of them is set or cleared. -/
def set (f : Flags) : FlagName × Bool → Flags
  | (.ignoreCase, b) => { f with ignoreCase := b }
  | (.multiLine, b) => { f with multiLine := b }
  | (.dotAll, b) => { f with dotAll := b }
  | (.swapGreed, b) => { f with swapGreed := b }
  | (.unicode, b) => { f with unicode := b }
  | (.crlf, b) => { f with crlf := b }
  | (.verbose, b) => { f with verbose := b }

end Flags

/-- A place between two characters; `unicode` tells what counts as a word. -/
inductive Look where
  | textStart
  | textEnd
  /-- At the start, or behind a line feed. -/
  | lineStart
  /-- At the end, or before a line feed. -/
  | lineEnd
  /-- At the start or end of a line that a carriage return may end too. -/
  | crlfStart
  | crlfEnd
  | wordBoundary (unicode : Bool)
  | notWordBoundary (unicode : Bool)
  | wordStart (unicode : Bool)
  | wordEnd (unicode : Bool)
  | wordStartHalf (unicode : Bool)
  | wordEndHalf (unicode : Bool)
  deriving DecidableEq, Repr

/-- A pattern whose flags have been worked out. -/
inductive Core where
  | empty
  | chars (s : CharSet)
  | look (l : Look)
  | repetition (sub : Core) (min : Nat) (max : Option Nat) (greedy : Bool)
  /-- A group that keeps what it matches. -/
  | capture (sub : Core)
  | concat (parts : List Core)
  | alternation (branches : List Core)
  deriving Repr, Inhabited

/-! ## 1. Sets of characters -/

/-- The ASCII characters of a class with a letter of its own. -/
def LetterClass.asciiSet : LetterClass → CharSet
  | .digit => ⟨[(48, 57)]⟩
  | .blank => ⟨[(9, 13), (32, 32)]⟩
  | .word => ⟨[(48, 57), (65, 90), (95, 95), (97, 122)]⟩

/-- The characters of a class with a letter of its own. -/
def LetterClass.unicodeSet : LetterClass → CharSet
  | .digit => Unicode.digit
  | .blank => Unicode.blank
  | .word => Unicode.wordChar

/-- The characters of a named class of ASCII characters. -/
def asciiSet (name : String) : CharSet :=
  match name with
  | "alnum" => ⟨[(48, 57), (65, 90), (97, 122)]⟩
  | "alpha" => ⟨[(65, 90), (97, 122)]⟩
  | "ascii" => ⟨[(0, 127)]⟩
  | "blank" => ⟨[(9, 9), (32, 32)]⟩
  | "cntrl" => ⟨[(0, 31), (127, 127)]⟩
  | "digit" => ⟨[(48, 57)]⟩
  | "graph" => ⟨[(33, 126)]⟩
  | "lower" => ⟨[(97, 122)]⟩
  | "print" => ⟨[(32, 126)]⟩
  | "punct" => ⟨[(33, 47), (58, 64), (91, 96), (123, 126)]⟩
  | "space" => ⟨[(9, 13), (32, 32)]⟩
  | "upper" => ⟨[(65, 90)]⟩
  | "word" => ⟨[(48, 57), (65, 90), (95, 95), (97, 122)]⟩
  | "xdigit" => ⟨[(48, 57), (65, 70), (97, 102)]⟩
  | _ => CharSet.empty

/-- A set as the flags want it: closed under case, then complemented.  Without the `unicode` flag
a set must stay within ASCII, so a complement is refused. -/
def foldAndNegate (f : Flags) (negated : Bool) (s : CharSet) : Option CharSet :=
  if f.unicode then
    let s := if f.ignoreCase then s.closeCase else s
    some (if negated then s.complement else s)
  else if negated then none
  else some (if f.ignoreCase then s.closeAsciiCase else s)

/-- A character as the member of a set.  Without the `unicode` flag it must be ASCII. -/
def Literal.member? (f : Flags) (c : Literal) : Option Char :=
  if f.unicode || c.char.toNat ≤ 0x7F then some c.char else none

/-- The set that a property names. -/
def PropertyName.set? : PropertyName → Option CharSet
  | .lone name => property? name
  | .pair property value => propertyValue? property value

/-- A class named by a property; there is none without the `unicode` flag. -/
def propertySet? (f : Flags) (negated : Bool) (name : PropertyName) : Option CharSet :=
  if f.unicode then name.set?.bind (foldAndNegate f negated) else none

/-- A class with a letter of its own.  Case does not matter to it. -/
def letterSet? (f : Flags) (negated : Bool) (cls : LetterClass) : Option CharSet :=
  if f.unicode then
    some (if negated then cls.unicodeSet.complement else cls.unicodeSet)
  else if negated then none
  else some cls.asciiSet

mutual

/-- The characters that what stands in a bracket expression covers. -/
def ClassSet.set? (f : Flags) : ClassSet → Option CharSet
  | .nothing => some CharSet.empty
  | .literal c => (c.member? f).map CharSet.singleton
  | .range low high => do return CharSet.range (← low.member? f) (← high.member? f)
  | .ascii negated name => foldAndNegate f negated (asciiSet name)
  | .property negated name => propertySet? f negated name
  | .letter negated cls => letterSet? f negated cls
  | .bracket negated set => do foldAndNegate f negated (← set.set? f)
  | .union items => do return CharSet.ofRanges (← ClassSet.ranges? f items)
  | .operation op left right => do
    let close (s : CharSet) :=
      if !f.ignoreCase then s else if f.unicode then s.closeCase else s.closeAsciiCase
    let left := close (← left.set? f)
    let right := close (← right.set? f)
    return match op with
      | .intersection => left.inter right
      | .difference => left.diff right
      | .symmetricDifference => left.symmDiff right

/-- The ranges of several sets together. -/
def ClassSet.ranges? (f : Flags) : List ClassSet → Option (List (Nat × Nat))
  | [] => some []
  | s :: rest => do return (← s.set? f).ranges ++ (← ClassSet.ranges? f rest)

end

/-! ## 2. Patterns -/

/-- A lone character: itself, or with the flag all that differ from it in case. -/
def Literal.core? (f : Flags) (c : Literal) : Option Core :=
  if !f.unicode && c.isByte && 0x7F < c.char.toNat then none
  else
    let s := CharSet.singleton c.char
    if !f.ignoreCase then some (.chars s)
    else if f.unicode then some (.chars s.closeCase)
    else some (.chars s.closeAsciiCase)

/-- The characters that a dot matches. -/
def dotSet? (f : Flags) : Option CharSet :=
  if !f.unicode then none
  else if f.dotAll then some CharSet.full
  else if f.crlf then some (CharSet.full.diff ⟨[(10, 10), (13, 13)]⟩)
  else some (CharSet.full.diff ⟨[(10, 10)]⟩)

/-- What a place means under the flags. -/
def Place.look (f : Flags) : Place → Look
  | .lineStart => if !f.multiLine then .textStart else if f.crlf then .crlfStart else .lineStart
  | .lineEnd => if !f.multiLine then .textEnd else if f.crlf then .crlfEnd else .lineEnd
  | .textStart => .textStart
  | .textEnd => .textEnd
  | .wordBoundary => .wordBoundary f.unicode
  | .notWordBoundary => .notWordBoundary f.unicode
  | .wordStart => .wordStart f.unicode
  | .wordEnd => .wordEnd f.unicode
  | .wordStartHalf => .wordStartHalf f.unicode
  | .wordEndHalf => .wordEndHalf f.unicode

mutual

/-- What a pattern means under some flags, and the flags in force behind it. -/
def Core.interpret (f : Flags) : Pattern → Option (Core × Flags)
  | .empty => some (.empty, f)
  | .flags items => some (.empty, items.foldl Flags.set f)
  | .literal c => (c.core? f).map fun r => (r, f)
  | .dot => (dotSet? f).map fun s => (.chars s, f)
  | .place p => some (.look (p.look f), f)
  | .property negated name => (propertySet? f negated name).map fun s => (.chars s, f)
  | .letter negated cls => (letterSet? f negated cls).map fun s => (.chars s, f)
  | .bracket negated set => do
    let s ← foldAndNegate f negated (← set.set? f)
    return (.chars s, f)
  | .repetition sub min max greedy => do
    let (r, f) ← Core.interpret f sub
    return (.repetition r min max (greedy != f.swapGreed), f)
  | .group captures items sub => do
    let (r, _) ← Core.interpret (items.foldl Flags.set f) sub
    return (if captures then .capture r else r, f)
  | .concat parts => do
    let (rs, f) ← Core.interpretAll f parts
    return (.concat rs, f)
  | .alternation branches => do
    let (rs, f) ← Core.interpretAll f branches
    return (.alternation rs, f)

/-- What the patterns of a list mean, each under the flags that the one before it leaves. -/
def Core.interpretAll (f : Flags) : List Pattern → Option (List Core × Flags)
  | [] => some ([], f)
  | p :: rest => do
    let (r, f) ← Core.interpret f p
    let (rs, f) ← Core.interpretAll f rest
    return (r :: rs, f)

end

/-- What a pattern means when it starts under some flags. -/
def Core.ofPattern? (f : Flags) (p : Pattern) : Option Core := (Core.interpret f p).map Prod.fst

end TextPatch.Regex
