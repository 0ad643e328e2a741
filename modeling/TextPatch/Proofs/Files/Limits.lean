/-
# Files at the limits

A file system bounds the length of a name and of a path.  To back up a file, or to put a new file in
its place, a longer path is written than that of the file.  So there are files that can be read and
not backed up, and files that can be backed up and not replaced.  Here is one of each, alone in its
tree (`hostWith`), under a path that goes up from the root `n` times first (`fromAbove n`): these
steps lead nowhere else, and the path is as long as one likes.

* `TooLong` is about names that leave no room for the suffix of a backup (`TooLong.not_fits`);
* `pathLimit_lt_temporaryPath` is about directories that leave no room for the name of a new file.
-/
import TextPatch.Proofs.Files.Beside
import TextPatch.Host.OnTree

namespace TextPatch

open TextPatch.Tree (Follows)

/-! ## 1. Steps up from the root -/

/-- Steps up from the root, which stay there. -/
def climb : Nat → Text
  | 0 => []
  | n + 1 => climb n ++ ['/', '.', '.']

theorem byteLength_climb : ∀ n, Text.byteLength (climb n) = 3 * n
  | 0 => rfl
  | n + 1 => by
    rw [climb, Text.byteLength_append, byteLength_climb n]
    rfl

theorem along_climb : ∀ n, Step.along (climb n) = List.replicate n .up
  | 0 => rfl
  | n + 1 => by
    rw [climb, Step.along_append_slash, along_climb n, List.replicate_succ']
    rfl

theorem no_zero_climb : ∀ n, '\x00' ∉ climb n
  | 0 => by simp [climb]
  | n + 1 => by
    rw [climb, List.mem_append, not_or]
    exact ⟨no_zero_climb n, by decide⟩

/-- Such a text starts with the slash of the root, and nothing can be trimmed from its end. -/
theorem climb_eq_cons : ∀ n, ∃ u, climb (n + 1) = '/' :: (u ++ ['.', '.'])
  | 0 => ⟨[], rfl⟩
  | n + 1 => by
    obtain ⟨u, hu⟩ := climb_eq_cons n
    exact ⟨u ++ ['.', '.', '/'], by rw [climb, hu]; simp⟩

theorem follows_up (t : Tree) : ∀ n, Follows t [] [] (List.replicate n .up) []
  | 0 => .done []
  | n + 1 => .up (Tree.isDirectory_iff.mpr (Tree.get?_nil t)) (follows_up t n)

/-! ## 2. Paths from above -/

/-- A path to an entry of the root, with steps up before it. -/
def fromAbove (n : Nat) (s : String) : Path := ⟨String.ofList (climb n ++ '/' :: s.toList)⟩

section

variable {s : String} {n : Nat}

theorem toList_fromAbove (n : Nat) (s : String) :
    (fromAbove n s).text.toList = climb n ++ '/' :: s.toList := String.toList_ofList

theorem hasRoot_fromAbove (n : Nat) (s : String) : (fromAbove n s).hasRoot = true := by
  unfold Path.hasRoot
  rw [toList_fromAbove]
  cases n with
  | zero => rfl
  | succ n =>
    obtain ⟨u, hu⟩ := climb_eq_cons n
    rw [hu]
    rfl

theorem text_fromAbove_ne (n : Nat) (s : String) : (fromAbove n s).text ≠ "" := by
  intro hempty
  have htext := toList_fromAbove n s
  rw [hempty] at htext
  simp at htext

theorem utf8ByteSize_fromAbove (n : Nat) (s : String) :
    (fromAbove n s).text.utf8ByteSize = 3 * n + (1 + s.utf8ByteSize) := by
  rw [Text.utf8ByteSize_eq, toList_fromAbove, Text.byteLength_append, byteLength_climb,
    Text.byteLength_cons, ← Text.utf8ByteSize_eq]
  rfl

theorem backup_fromAbove (n : Nat) (s : String) :
    (fromAbove n s).backup = fromAbove n (s ++ backupSuffix) := by
  apply Path.ext_toList
  rw [Path.backup, toList_fromAbove, String.toList_append, toList_fromAbove]
  simp [backupSuffix]

theorem steps_fromAbove (hs : IsName s) (n : Nat) :
    (fromAbove n s).steps = List.replicate n .up ++ [.name s] := by
  have hlast : (fromAbove n s).text.toList.getLast? ≠ some '/' := by
    rw [toList_fromAbove, List.getLast?_append, List.getLast?_cons_of_ne_nil hs.ne_nil,
      List.getLast?_eq_some_getLast hs.ne_nil, Option.some_or,
      ← List.getLast?_eq_some_getLast hs.ne_nil]
    exact hs.getLast?_ne
  rw [Path.steps_eq_along (by simp [toList_fromAbove]) hlast, toList_fromAbove,
    Step.along_append_slash, along_climb, Step.along, Text.fields_of_not_mem hs.no_slash,
    ← Step.ofPiece_of_isName hs]
  simp [hs.ne_nil]

/-- The limits for such a path are those for its text and for the name at its end. -/
theorem fits_fromAbove_iff (hs : IsName s) (n : Nat) : (fromAbove n s).Fits ↔
    3 * n + (1 + s.utf8ByteSize) ≤ pathLimit ∧ s.utf8ByteSize ≤ nameLimit := by
  constructor
  · intro hfits
    exact ⟨utf8ByteSize_fromAbove n s ▸ hfits.size_le,
      hfits.short s (by rw [steps_fromAbove hs]; simp)⟩
  · rintro ⟨hsize, hshort⟩
    refine ⟨by rwa [utf8ByteSize_fromAbove], fun u hu => ?_⟩
    rw [steps_fromAbove hs, List.mem_append] at hu
    rcases hu with hu | hu
    · cases List.eq_of_mem_replicate hu
    · cases List.mem_singleton.mp hu
      exact hshort

/-- A path from above that breaks no limit names an entry of the root. -/
theorem names_fromAbove (t : Tree) (working : Location) (hs : IsName s)
    (hzero : '\x00' ∉ s.toList) (hfits : (fromAbove n s).Fits) :
    t.Names working (fromAbove n s) [] s where
  no_zero := by
    rw [toList_fromAbove, List.mem_append, List.mem_cons, not_or, not_or]
    exact ⟨no_zero_climb n, by decide, hzero⟩
  size_le := hfits.size_le
  steps := by
    refine ⟨_, [], steps_fromAbove hs n, Nat.zero_le _, ?_⟩
    rw [if_pos (hasRoot_fromAbove n s)]
    exact follows_up t n
  directory := Tree.isDirectory_iff.mpr (Tree.get?_nil t)
  short := ((fits_fromAbove_iff hs n).mp hfits).2

/-- Without steps up it is the path of the entry, and a new file is made in the root. -/
theorem temporaryPath_fromAbove_zero (working : Location) (hs : IsName s) :
    Tree.temporaryPath working (fromAbove 0 s) = Path.ofNames [Tree.temporaryName] := by
  have hpath : fromAbove 0 s = Path.ofNames ([] ++ [s]) := by
    apply Path.ext_toList
    rw [toList_fromAbove, Path.toList_ofNames (by simp)]
    simp [climb]
  rw [hpath, Path.temporaryPath_ofNames working (by simp [AreNames]) hs]
  rfl

theorem directoryOf_fromAbove (hs : IsName s) (n : Nat) :
    Tree.directoryOf (fromAbove (n + 1) s) = ⟨String.ofList (climb (n + 1))⟩ := by
  obtain ⟨u, hu⟩ := climb_eq_cons n
  have hparent := Path.parent?_name hs (toList_fromAbove (n + 1) s)
  have htrim : (Path.trimEnd false ((climb (n + 1)).drop 1).reverse).reverse = u ++ ['.', '.'] := by
    rw [hu, List.drop_one, List.tail_cons, List.reverse_append]
    simp [Path.trimEnd]
  rw [hasRoot_fromAbove, if_pos rfl, htrim, ← hu] at hparent
  unfold Tree.directoryOf
  rw [hparent]
  simp [hu]

/-- **A new file has no path** in a directory that is written with too many steps up. -/
theorem pathLimit_lt_temporaryPath (working : Location) (hs : IsName s)
    (hn : pathLimit < 3 * (n + 1) + 11) :
    pathLimit < (Tree.temporaryPath working (fromAbove (n + 1) s)).text.utf8ByteSize := by
  obtain ⟨u, hu⟩ := climb_eq_cons n
  have habsolute : (Path.ofNames working).join ⟨String.ofList (climb (n + 1))⟩ =
      ⟨String.ofList (climb (n + 1))⟩ := by
    unfold Path.join Path.hasRoot
    rw [String.toList_ofList, hu]
    rfl
  have hjoin : (⟨String.ofList (climb (n + 1))⟩ : Path).join ⟨Tree.temporaryName⟩ =
      ⟨String.ofList (climb (n + 1)) ++ "/" ++ Tree.temporaryName⟩ := by
    have hne : climb (n + 1) ≠ [] := by simp [climb]
    have hlast : (climb (n + 1)).getLast? = some '.' := by simp [climb, List.getLast?_append]
    unfold Path.join
    rw [if_neg (by decide), if_neg (by simp [hlast, hne])]
  unfold Tree.temporaryPath
  rw [directoryOf_fromAbove hs, habsolute, hjoin, String.utf8ByteSize_append,
    String.utf8ByteSize_append, Text.utf8ByteSize_ofList, byteLength_climb]
  exact hn

end

/-! ## 3. A tree with one file -/

/-- A host with one file in the root, which holds one character. -/
def hostWith (file : String) : TreeHost := .ofTree ⟨[([file], .file "x".toUTF8)]⟩

section

variable {file : String} {n : Nat}

theorem get?_hostWith (file : String) :
    (hostWith file).tree.get? [file] = some (.file "x".toUTF8) := by
  have hself : ([file] == [file]) = true := beq_self_eq_true _
  simp only [hostWith, TreeHost.ofTree, Tree.get?, List.lookup_cons, hself]
  rfl

theorem plain_hostWith (hfile : IsName file) : (hostWith file).tree.Plain := by
  have hroot : (hostWith file).tree.isDirectory [] = true :=
    Tree.isDirectory_iff.mpr (Tree.get?_nil _)
  have hnames : AreNames [file] := by simpa [AreNames] using hfile
  refine Tree.plain_of_isPlain (List.all_eq_true.mpr fun p hp => ?_)
  obtain rfl : p = ([file], .file "x".toUTF8) := by simpa [hostWith, TreeHost.ofTree] using hp
  simp only [List.dropLast_singleton, hroot, Entry.isLink]
  simpa using hnames

/-- The file can be read under every path from above that breaks no limit. -/
theorem read_fromAbove (hfile : IsName file) (hzero : '\x00' ∉ file.toList)
    (hfits : (fromAbove n file).Fits) :
    (hostWith file).tree.read [] (fromAbove n file) = .ok "x".toUTF8 := by
  have hlocate := (names_fromAbove (hostWith file).tree [] hfile hzero hfits).locate_eq
    fun target => by
      rw [List.nil_append, get?_hostWith]
      simp
  exact Tree.read_eq_ok_iff.mpr ⟨[file], hlocate, get?_hostWith file⟩

/-- There is no other entry in the root. -/
theorem present_fromAbove {s : String} (hs : IsName s) (hzero : '\x00' ∉ s.toList)
    (hfits : (fromAbove n s).Fits) (hne : s ≠ file) :
    (hostWith file).tree.present [] (fromAbove n s) = false := by
  have hnone : (hostWith file).tree.get? [s] = none := by
    have hother : ([s] == [file]) = false := by simpa using hne
    simp only [hostWith, TreeHost.ofTree, Tree.get?, List.lookup_cons, hother]
    rfl
  have hlocate := (names_fromAbove (hostWith file).tree [] hs hzero hfits).locate_eq
    fun target => by
      rw [List.nil_append, hnone]
      simp
  unfold Tree.present Tree.entryAt
  rw [hlocate]
  simp only [List.nil_append, hnone, Option.isSome_none]

/-! ## 4. Names without room for a suffix -/

/-- A name that is short enough, but not with the suffix of a backup. -/
structure TooLong (file : String) : Prop where
  isName : IsName file
  no_zero : '\x00' ∉ file.toList
  short : file.utf8ByteSize ≤ nameLimit
  long : nameLimit < (file ++ backupSuffix).utf8ByteSize

theorem tooLong_replicate : TooLong (String.ofList (List.replicate 250 'a')) := by
  have hsize : ∀ n, Text.byteLength (List.replicate n 'a') = n := by
    intro n
    induction n with
    | zero => rfl
    | succ n ih =>
      rw [List.replicate_succ, Text.byteLength_cons, ih]
      exact Nat.add_comm 1 n
  have hname : ∀ n, IsName (String.ofList (List.replicate (n + 1) 'a')) := by
    intro n
    constructor <;> simp [List.replicate_succ, List.mem_replicate]
  have hzero : '\x00' ∉ List.replicate 250 'a' := fun hmem =>
    absurd (List.eq_of_mem_replicate hmem) (by decide)
  refine ⟨hname 249, by rwa [String.toList_ofList], ?_, ?_⟩
  · rw [Text.utf8ByteSize_ofList, hsize]
    decide
  · rw [String.utf8ByteSize_append, Text.utf8ByteSize_ofList, hsize]
    decide

theorem TooLong.read_eq (hfile : TooLong file) :
    (hostWith file).tree.read [] (fromAbove 0 file) = .ok "x".toUTF8 := by
  have hsize : 3 * 0 + (1 + file.utf8ByteSize) ≤ pathLimit :=
    Nat.le_trans (Nat.add_le_add_left (Nat.add_le_add_left hfile.short 1) _) (by decide)
  exact read_fromAbove hfile.isName hfile.no_zero
    ((fits_fromAbove_iff hfile.isName 0).mpr ⟨hsize, hfile.short⟩)

/-- **A backup has no path** if the name of its file is too long. -/
theorem TooLong.not_fits (hfile : TooLong file) : ¬ (fromAbove n file).backup.Fits := by
  intro hfits
  have hname : IsName (file ++ backupSuffix) := hfile.isName.append (by decide) (by decide)
  rw [backup_fromAbove, fits_fromAbove_iff hname] at hfits
  exact Nat.not_le.mpr hfile.long hfits.2

end

end TextPatch
