/-
# Patterns as they are written

A pattern is a tree that keeps what was written: which flags a group sets, whether a character was
given by two hexadecimal digits, how a class was put together.  What the pattern means depends on
the flags in force where its parts stand; that is worked out in `TextPatch.Regex.Core`.

`Pattern.depth` counts how deep the parts of a pattern nest.
-/
import TextPatch.Text.Blank

namespace TextPatch.Regex

/-- The flags that a pattern can set or clear. -/
inductive FlagName where
  | ignoreCase
  | multiLine
  | dotAll
  | swapGreed
  | unicode
  | crlf
  | verbose
  deriving DecidableEq, Repr

/-- The places between characters that a pattern can ask for. -/
inductive Place where
  | lineStart
  | lineEnd
  | textStart
  | textEnd
  | wordBoundary
  | notWordBoundary
  | wordStart
  | wordEnd
  | wordStartHalf
  | wordEndHalf
  deriving DecidableEq, Repr

/-- A single character; `isByte` if it was written with two hexadecimal digits. -/
structure Literal where
  char : Char
  isByte : Bool
  deriving DecidableEq, Repr

/-- The classes with letters of their own. -/
inductive LetterClass where
  | digit
  | blank
  | word
  deriving DecidableEq, Repr

/-- How a class of characters is named by a property. -/
inductive PropertyName where
  | lone (name : String)
  | pair (property value : String)
  deriving DecidableEq, Repr

/-- The operations between sets in a bracket expression. -/
inductive SetOperation where
  | intersection
  | difference
  | symmetricDifference
  deriving DecidableEq, Repr

/-- What stands inside a bracket expression. -/
inductive ClassSet where
  | nothing
  | literal (c : Literal)
  | range (low high : Literal)
  | ascii (negated : Bool) (name : String)
  | property (negated : Bool) (name : PropertyName)
  | letter (negated : Bool) (cls : LetterClass)
  | bracket (negated : Bool) (set : ClassSet)
  | union (items : List ClassSet)
  | operation (op : SetOperation) (left right : ClassSet)
  deriving Repr

/-- A pattern as it is written. -/
inductive Pattern where
  | empty
  /-- A directive that sets flags for the rest of its group. -/
  | flags (items : List (FlagName × Bool))
  | literal (c : Literal)
  | dot
  | place (p : Place)
  | property (negated : Bool) (name : PropertyName)
  | letter (negated : Bool) (cls : LetterClass)
  | bracket (negated : Bool) (set : ClassSet)
  | repetition (sub : Pattern) (min : Nat) (max : Option Nat) (greedy : Bool)
  /-- A group with the flags that it sets for itself; `captures` if what it matches is kept. -/
  | group (captures : Bool) (items : List (FlagName × Bool)) (sub : Pattern)
  | alternation (branches : List Pattern)
  | concat (parts : List Pattern)
  deriving Repr

mutual

/-- How deep the sets of a bracket expression nest. -/
def ClassSet.depth : ClassSet → Nat
  | .bracket _ set => set.depth + 1
  | .union items => ClassSet.depths items + 1
  | .operation _ left right => max left.depth right.depth + 1
  | _ => 0

/-- The greatest depth in a list. -/
def ClassSet.depths : List ClassSet → Nat
  | [] => 0
  | s :: rest => max s.depth (ClassSet.depths rest)

end

mutual

/-- How deep the parts of a pattern nest. -/
def Pattern.depth : Pattern → Nat
  | .bracket _ set => set.depth + 1
  | .repetition sub _ _ _ => sub.depth + 1
  | .group _ _ sub => sub.depth + 1
  | .alternation branches => Pattern.depths branches + 1
  | .concat parts => Pattern.depths parts + 1
  | _ => 0

/-- The greatest depth in a list. -/
def Pattern.depths : List Pattern → Nat
  | [] => 0
  | p :: rest => max p.depth (Pattern.depths rest)

end

end TextPatch.Regex
