/-
# Paths

A path is its text; two texts may name the same place, and messages show a path as it was given.
`Path.components` is what a text names: the root, names, and steps up, where repeated slashes and
steps to the same place do not count except for a leading dot.

* `join` puts a relative path behind another one and answers an absolute one alone;
* `parent?` cuts off the last component;
* `expandHome` puts a home directory in the place of a leading `~`.
-/
import TextPatch.Text.Field

namespace TextPatch

/-- A path, as it is written. -/
structure Path where
  text : String
  deriving DecidableEq, Repr, Inhabited

namespace Path

/-- A step of a path. -/
inductive Component where
  | root
  | here
  | up
  | name (s : String)
  deriving DecidableEq, Repr

/-- The pieces of a path between slashes. -/
def pieces (p : Path) : List Text := Text.fields '/' p.text.toList

/-- Whether the path starts at the root. -/
def hasRoot (p : Path) : Bool := p.text.toList.head? == some '/'

/-- The component of a piece, if it counts. -/
def Component.ofPiece? (t : Text) : Option Component :=
  if t = [] ∨ t = ['.'] then none
  else if t = ['.', '.'] then some .up
  else some (.name (String.ofList t))

/-- The steps of a path. -/
def components (p : Path) : List Component :=
  let steps := p.pieces.filterMap Component.ofPiece?
  if p.hasRoot then .root :: steps
  else if p.pieces.head? == some ['.'] then .here :: steps
  else steps

/-- A path with another one behind it. -/
def join (p q : Path) : Path :=
  if q.hasRoot then q
  else if p.text.isEmpty || p.text.toList.getLast? == some '/' then ⟨p.text ++ q.text⟩
  else ⟨p.text ++ "/" ++ q.text⟩

/-- Drops slashes and steps to the same place from the end of a text that is given backwards;
`keepDot` keeps a dot that is all of the text. -/
def trimEnd (keepDot : Bool) : Text → Text
  | [] => []
  | '/' :: t => trimEnd keepDot t
  | ['.'] => if keepDot then ['.'] else []
  | '.' :: '/' :: t => trimEnd keepDot t
  | t => t

/-- Drops slashes and steps to the same place from the start of a text. -/
def trimStart : Text → Text
  | [] => []
  | '/' :: t => trimStart t
  | ['.'] => []
  | '.' :: '/' :: t => trimStart t
  | t => t

/-- The path without its last component; the root and the empty path have none. -/
def parent? (p : Path) : Option Path :=
  let rooted := p.hasRoot
  let body := trimEnd (!rooted) ((if rooted then p.text.toList.drop 1 else p.text.toList).reverse)
  if body.isEmpty then none
  else
    let rest := (trimEnd (!rooted) (body.dropWhile (· != '/'))).reverse
    some ⟨String.ofList (if rooted then '/' :: rest else rest)⟩

/-- The path with `home` in the place of a leading `~`. -/
def expandHome (p : Path) (home : Option Path) : Path :=
  match home, p.text.toList with
  | some home, ['~'] => home.join ⟨""⟩
  | some home, '~' :: '/' :: rest =>
    home.join ⟨String.ofList (trimEnd false (trimStart rest).reverse).reverse⟩
  | _, _ => p

/-- The path of a place that is given by names from the root on. -/
def ofNames (names : List String) : Path := ⟨"/" ++ String.intercalate "/" names⟩

end Path

end TextPatch
