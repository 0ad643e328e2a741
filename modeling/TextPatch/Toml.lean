/-
# TOML documents

A TOML document is a tree of tables.  How a table came about decides what may still be added to it
(`TableKind`): a table of its own header is complete once its section ends, a table that only stands
between others may get a header later, one made by dotted keys may get more dotted keys in the same
section, and an inline table is closed.

* `Table.define` adds a key and a value to the table of a section;
* `Table.openSection` and `Table.openElement` begin the sections of `[header]` and `[[header]]`.

All of them answer `none` where a key would be defined twice or something that is no table would
have to be extended.
-/

namespace TextPatch

/-- How a table came about. -/
inductive TableKind where
  | header
  /-- Only a part of the name of another table so far. -/
  | implicit
  | dotted
  | inlined
  deriving DecidableEq, Repr, Inhabited

/-- A value of a TOML document. -/
inductive Toml where
  | string (s : String)
  | integer (n : Int)
  | float
  | boolean (b : Bool)
  | datetime
  | array (items : List Toml)
  | table (kind : TableKind) (entries : List (String × Toml))
  /-- The elements that `[[header]]` sections made. -/
  | tables (elements : List (List (String × Toml)))
  deriving Repr, Inhabited

namespace Toml

/-- A table: how it came about and what it holds. -/
structure Table where
  kind : TableKind
  entries : List (String × Toml)
  deriving Repr, Inhabited

namespace Table

/-- The document before its first line. -/
def root : Table := ⟨.header, []⟩

/-- Gives a key another value, in its place. -/
def replace (entries : List (String × Toml)) (key : String) (v : Toml) : List (String × Toml) :=
  entries.map fun (k, w) => if k = key then (k, v) else (k, w)

/-- Changes the table at the end of a path of keys.  Tables on the way that do not exist are made;
`byDots` tells whether the path is that of a dotted key, which must not lead through tables that
have a header. -/
def alter (byDots : Bool) (f : Table → Option Table) : List String → Table → Option Table
  | [], t => f t
  | key :: path, t =>
    match t.entries.lookup key with
    | none => do
      let u ← alter byDots f path ⟨if byDots then .dotted else .implicit, []⟩
      return { t with entries := t.entries ++ [(key, .table u.kind u.entries)] }
    | some (.table kind entries) =>
      if kind = .inlined ∨ (byDots ∧ kind = .header) then none
      else do
        let u ← alter byDots f path ⟨kind, entries⟩
        return { t with entries := replace t.entries key (.table u.kind u.entries) }
    | some (.tables elements) =>
      match elements.getLast? with
      | none => none
      | some entries => do
        let u ← alter byDots f path ⟨.header, entries⟩
        return { t with
          entries := replace t.entries key (.tables (elements.dropLast ++ [u.entries])) }
    | some _ => none

/-- Adds a key that is not there yet. -/
def insertNew (key : String) (v : Toml) (t : Table) : Option Table :=
  if (t.entries.lookup key).isSome then none
  else some { t with entries := t.entries ++ [(key, v)] }

/-- Adds a value under a dotted key to a table.  A key with dots must end in a table made by dots,
one without must not. -/
def define (path : List String) (key : String) (v : Toml) (t : Table) : Option Table :=
  alter true (fun u => if (u.kind = .dotted) = path.isEmpty then none else insertNew key v u) path t

/-- Begins the section of a header; nothing but the name may have been used before. -/
def openSection (path : List String) (key : String) (t : Table) : Option Table :=
  alter false (fun u =>
    match u.entries.lookup key with
    | none => insertNew key (.table .header []) u
    | some (.table .implicit entries) =>
      some { u with entries := replace u.entries key (.table .header entries) }
    | some _ => none) path t

/-- Begins the section of one more element. -/
def openElement (path : List String) (key : String) (t : Table) : Option Table :=
  alter false (fun u =>
    match u.entries.lookup key with
    | none => insertNew key (.tables [[]]) u
    | some (.tables elements) =>
      some { u with entries := replace u.entries key (.tables (elements ++ [[]])) }
    | some _ => none) path t

end Table

/-- The entries of a value that is a table. -/
def entries? : Toml → Option (List (String × Toml))
  | .table _ entries => some entries
  | _ => none

end Toml

end TextPatch
