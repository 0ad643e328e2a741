/-
# A host whose files are a tree

The state of a `TreeHost` is a tree of files with a working directory, the remembered source maps,
and a journal of all that has been noted and printed.  `OnTree` is the monad in which the patcher
runs on it, so what a run does to files is a function from trees to trees.
-/
import TextPatch.Files.Operations
import TextPatch.Host

namespace TextPatch

/-- An entry of a journal. -/
inductive Remark where
  | note (level : Level) (text : String)
  | printed (channel : Channel) (text : String)
  deriving DecidableEq, Repr

/-- A host whose files are a tree. -/
structure TreeHost where
  tree : Tree
  /-- Where relative paths start. -/
  working : Location
  home : Option Path
  maps : MapMemory
  /-- All notes and all printed text, the oldest first. -/
  journal : List Remark

namespace TreeHost

/-- A host with nothing but files. -/
def ofTree (tree : Tree) : TreeHost := ⟨tree, [], none, [], []⟩

/-- The host after an operation that may leave another tree. -/
def withTree (h : TreeHost) : Except IoError Tree → Except IoError Unit × TreeHost
  | .ok tree => (.ok (), { h with tree })
  | .error e => (.error e, h)

end TreeHost

/-- Runs on a tree of files. -/
abbrev OnTree := StateM TreeHost

namespace OnTree

/-- Looks at the host. -/
def look (f : TreeHost → α) : OnTree α := fun h => (f h, h)

/-- Changes the files. -/
def change (f : Tree → Location → Except IoError Tree) : OnTree (Except IoError Unit) :=
  fun h => h.withTree (f h.tree h.working)

/-- Adds to the journal. -/
def add (r : Remark) : OnTree Unit := fun h => ((), { h with journal := h.journal ++ [r] })

end OnTree

instance : Host OnTree where
  home := OnTree.look TreeHost.home
  canonicalPath p := OnTree.look fun h => h.tree.canonicalPath h.working p
  present p := OnTree.look fun h => h.tree.present h.working p
  isFile p := OnTree.look fun h => h.tree.isFileAt h.working p
  isDirectory p := OnTree.look fun h => h.tree.isDirectoryAt h.working p
  subdirectories p := OnTree.look fun h => h.tree.subdirectories h.working p
  read p := OnTree.look fun h => h.tree.read h.working p
  write p content := OnTree.change fun t l => t.write l p content
  copy p q := OnTree.change fun t l => t.copy l p q
  rename p q := OnTree.change fun t l => t.rename l p q
  replace p content := OnTree.change fun t l => t.replace l p content
  maps := OnTree.look TreeHost.maps
  setMaps maps := fun h => ((), { h with maps })
  note level text := OnTree.add (.note level text)
  print channel text := OnTree.add (.printed channel text)

end TextPatch
