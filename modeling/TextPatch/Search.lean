/-
# Searches

A search is a list of needles.  Each is found strictly behind the start of the one before it, and
the last one is the match.  A search for the bundled script may begin with needles in double braces
that are looked up through the source map; the regular needles then start behind the identifier
found, and a search without regular needles matches the identifier itself.

* `SearchSpec.ofSearch` checks a search and splits its needles;
* `SearchSpec.resolve` answers its matches: one, or with an exhaustive search all that follow, each
  search starting behind the start of the match before it.
-/
import TextPatch.Needle

namespace TextPatch

/-- A search that has been checked. -/
structure SearchSpec where
  /-- The needles looked up through the source map, without their braces. -/
  sourceNeedles : List String
  needles : List Needle
  exhaustive : Bool
  /-- Whether it is fine if there is no match. -/
  isOptional : Bool
  /-- Whether needles in double braces are looked up. -/
  sourceMapped : Bool
  /-- How messages name the search. -/
  label : String
  deriving Repr

/-- What a search came to. -/
structure Resolution where
  /-- The matches in ascending order; none if an optional search failed. -/
  found : List Match
  /-- The identifier that the source needles stand for. -/
  identifier : Option Identifier
  deriving DecidableEq, Repr

/-- What stands between double braces, if an item begins and ends with them. -/
def sourceNeedle? (item : String) : Option String :=
  match item.toList with
  | '\x7b' :: '\x7b' :: t =>
    match t.reverse with
    | '\x7d' :: '\x7d' :: inner => some (String.ofList inner.reverse)
    | _ => none
  | _ => none

namespace SearchSpec

/-- Splits the items of a search.  `done` tells whether a regular needle has been seen. -/
def split (mode : SearchMode) (sourceMapped : Bool) (label : String) (done : Bool) :
    List String → Except NeedleError (List String × List Needle)
  | [] => .ok ([], [])
  | item :: rest =>
    match if sourceMapped then sourceNeedle? item else none with
    | some inner =>
      if done then .error (.sourceNeedleAfterRegular label)
      else if inner.isEmpty then .error (.emptyNeedle label)
      else do
        let (sources, needles) ← split mode sourceMapped label done rest
        return (inner :: sources, needles)
    | none =>
      if item.isEmpty then .error (.emptyNeedle label)
      else do
        let needle ← Needle.ofToken mode item
        let (sources, needles) ← split mode sourceMapped label true rest
        return (sources, needle :: needles)

/-- Checks a search.  Needles in double braces are looked up only if `sourceMapped`. -/
def ofSearch (search : Search) (mode : SearchMode) (isOptional sourceMapped : Bool) :
    Except NeedleError SearchSpec :=
  if search.needles.isEmpty || search == .one "" then .error .emptySearch
  else do
    let label := search.label
    let (sourceNeedles, needles) ← split mode sourceMapped label false search.needles
    return {
      sourceNeedles, needles, isOptional, sourceMapped, label
      exhaustive := mode == .multiple || needles.any Needle.asksForAll }

/-- Finds needles one strictly behind the start of the other.  The first may be found at `start`
or behind it; `last` is the match if there are no needles.  Fails with the needle that is not
found. -/
def chain (text : Text) (start : Nat) (last : Match) : List Needle → Except Needle Match
  | [] => .ok last
  | needle :: rest =>
    match needle.find? text start with
    | none => .error needle
    | some m => chain text (m.start + 1) m rest

/-- The first match whose first needle is found strictly behind `seed`, or anywhere without one. -/
def first (s : SearchSpec) (text : Text) (seed : Option Nat) : Except Needle Match :=
  chain text (match seed with | some n => n + 1 | none => 0) ⟨0, 0⟩ s.needles

/-- The matches that follow one another behind byte `start`; each takes a step and moves on by at
least one byte. -/
def following (s : SearchSpec) (text : Text) : (fuel : Nat) → (start : Nat) → List Match
  | 0, _ => []
  | fuel + 1, start =>
    match s.first text (some start) with
    | .ok m => m :: s.following text fuel m.start
    | .error _ => []

/-- The identifier that the source needles stand for. -/
def identifier (s : SearchSpec) (text : Text) (lookup : Option Lookup) :
    Except NeedleError (Option Identifier) :=
  if s.sourceNeedles.isEmpty then .ok none
  else
    match lookup with
    | none => .error (.sourceMap .unavailable)
    | some lookup =>
      match lookup text s.sourceNeedles with
      | .error e => .error (.sourceMap e)
      | .ok i => .ok (some i)

/-- The matches of a search in a text.  `file` is for messages only. -/
def resolve (s : SearchSpec) (file : String) (text : Text) (lookup : Option Lookup) :
    Except NeedleError Resolution := do
  let identifier ← s.identifier text lookup
  if s.needles.isEmpty then
    return ⟨identifier.toList.map fun i => ⟨i.offset, i.name.utf8ByteSize⟩, identifier⟩
  else
    match s.first text (identifier.map Identifier.offset) with
    | .error needle =>
      if s.isOptional then return ⟨[], identifier⟩
      else .error (.notFound needle.written s.label file)
    | .ok m =>
      let others := if s.exhaustive then s.following text (text.byteLength + 1) m.start else []
      return ⟨m :: others, identifier⟩

/-- What there is to tell about a search and its lookups, in order. -/
def notes (s : SearchSpec) (file : String) (text : Text) (lookup : Option Lookup)
    (lookupNotes : Text → List String → List String) : List String :=
  let looked := if s.sourceNeedles.isEmpty || lookup.isNone then []
    else lookupNotes text s.sourceNeedles
  let found : List String :=
    match s.identifier text lookup, s.resolve file text lookup with
    | .ok identifier, .ok r =>
      if s.needles.isEmpty then []
      else
        match s.first text (identifier.map Identifier.offset) with
        | .ok _ => ["search " ++ s.label ++ s!" resolved to {r.found.length} match(es) in " ++ file]
        | .error needle =>
          ["optional search " ++ s.label ++ " not found in " ++ file ++ " (needle " ++
            showQuoted needle.written ++ ")"]
    | _, _ => []
  looked ++ found

end SearchSpec

end TextPatch
