/-
# Standing places

A directory *stands* if all places above it are directories, too, and all names on the way are ones
that a directory can hold.  Nothing else is asked of a tree here: it may hold links of any kind,
also ones that lead nowhere.  A walk that starts in a standing directory comes to another one, or to
an entry of one (`Follows.stands_or`).

So a path that leads to a file ends with a name, and the directory that the path is written with is
the one in which that name is looked up (`Names.locate_directoryOf`).  Hence **a file that can be
read can be replaced** (`Stands.names_of_read`, `Names.replace_eq`), and it can be replaced again at
the same place (`Names.set_self`).  One thing can get in the way: the new file is made under a name
of its own first, and its path may be too long (`Names.replace_error`).
-/
import TextPatch.Proofs.Files.Links

namespace TextPatch

namespace Tree

/-! ## 1. Putting files at places -/

theorem setIn_setIn (l : Location) (e e' : Entry) : ∀ es : List (Location × Entry),
    setIn (setIn es l e) l e' = setIn es l e'
  | [] => by simp [setIn]
  | (k, d) :: es => by
    by_cases hk : k = l
    · simp [setIn, hk]
    · simp [setIn, hk, setIn_setIn l e e' es]

/-- What a place was set to before does not matter. -/
theorem set_set (t : Tree) (l : Location) (e e' : Entry) : (t.set l e).set l e' = t.set l e' := by
  simp only [Tree.set, setIn_setIn]

/-- Copying is reading and writing. -/
theorem copy_eq_ok_iff {t t' : Tree} {working : Location} {p q : Path} :
    t.copy working p q = .ok t' ↔
      ∃ b, t.read working p = .ok b ∧ t.write working q b = .ok t' := by
  unfold copy read
  cases t.locate working true p with
  | error cause => simp [bind, Except.bind]
  | ok l =>
    simp only [bind, Except.bind]
    cases t.get? l with
    | none => simp
    | some e => cases e <;> simp

variable {t : Tree} {links : List Location} {l r k z : Location} {steps : List Step} {s : String}

/-- The name of a file leads to it. -/
theorem Ends.eq_of_file {b : ByteArray} (h : Ends t z r) (hget : t.get? z = some (.file b)) :
    r = z := by
  obtain ⟨q, s, links, rfl, hfollows⟩ := h
  cases hfollows with
  | name _ _ _ hrest =>
    cases hrest
    rfl
  | link _ _ hlink _ =>
    rw [hget] at hlink
    cases hlink

/-- A file that is put where nothing was changes no way. -/
theorem Follows.set_none {content : ByteArray} (hz : t.get? z = none)
    (h : Follows t links l steps r) : Follows (t.set z (.file content)) links l steps r := by
  exact h.set (isDirectory_eq_false (by rw [hz]; simp))
    (h.not_mem_links fun _ => by rw [hz]; simp)

/-! ## 2. Walks between standing places -/

/-- A directory stands at a place, and so do all the directories above it. -/
structure Stands (t : Tree) (l : Location) : Prop where
  names : AreNames l
  directories : ∀ q, q <+: l → t.isDirectory q = true

theorem stands_nil (t : Tree) : t.Stands [] where
  names := by simp [AreNames]
  directories q hq := by
    rw [List.prefix_nil.mp hq]
    exact isDirectory_iff.mpr (get?_nil t)

theorem Stands.isDirectory (h : t.Stands l) : t.isDirectory l = true :=
  h.directories l (List.prefix_refl l)

theorem Stands.dropLast (h : t.Stands l) : t.Stands l.dropLast where
  names s hs := h.names s (List.dropLast_subset l hs)
  directories q hq := h.directories q (hq.trans (List.dropLast_prefix l))

theorem Stands.name (h : t.Stands l) (hs : IsName s) (hdir : t.isDirectory (l ++ [s]) = true) :
    t.Stands (l ++ [s]) where
  names := h.names.append (by simpa [AreNames] using hs)
  directories q hq := by
    rcases List.prefix_concat_iff.mp hq with rfl | hq
    · exact hdir
    · exact h.directories q hq

/-- **A walk that starts in a standing directory** comes to another one, or to an entry of one. -/
theorem Follows.stands_or (h : Follows t links l steps r)
    (hsteps : ∀ s, Step.name s ∈ steps → IsName s) (hl : t.Stands l) :
    t.Stands r ∨ ∃ k s, r = k ++ [s] ∧ t.Stands k ∧ IsName s ∧ t.isDirectory r = false ∧
      ∀ target, t.get? r ≠ some (.link target) := by
  induction h with
  | done l => exact Or.inl hl
  | here _ _ ih => exact ih (fun s hs => hsteps s (List.mem_cons_of_mem _ hs)) hl
  | up _ _ ih => exact ih (fun s hs => hsteps s (List.mem_cons_of_mem _ hs)) hl.dropLast
  | @name links l r rest s hdir _ hnot hrest ih =>
    have hs := hsteps s (by simp)
    cases hnext : t.isDirectory (l ++ [s]) with
    | true => exact ih (fun u hu => hsteps u (List.mem_cons_of_mem _ hu)) (hl.name hs hnext)
    | false =>
      obtain rfl := hrest.eq_nil hnext
      cases hrest
      exact Or.inr ⟨l, s, rfl, hl, hs, hnext, hnot⟩
  | @link links l r rest s target _ _ _ _ ih =>
    refine ih (fun u hu => ?_) ?_
    · rcases List.mem_append.mp hu with hu | hu
      · exact Path.isName_of_mem_steps hu
      · exact hsteps u (List.mem_cons_of_mem _ hu)
    · split
      · exact stands_nil t
      · exact hl

/-- Steps that do not end with a name lead to a directory. -/
theorem Follows.isDirectory_of_getLast? (h : Follows t links l steps r)
    (hsteps : ∀ s, Step.name s ∈ steps → IsName s) (hl : t.Stands l)
    (hlast : ∀ s, steps.getLast? ≠ some (.name s)) : t.isDirectory r = true := by
  rcases List.eq_nil_or_concat steps with rfl | ⟨before, step, rfl⟩
  · cases h
    exact hl.isDirectory
  · rw [List.concat_eq_append] at h hlast hsteps
    obtain ⟨q, ks, ms, -, hbefore, hstep⟩ := follows_append h
    cases hstep with
    | here hdir hrest =>
      cases hrest
      exact hdir
    | up hdir hrest =>
      cases hrest
      rcases hbefore.stands_or (fun s hs => hsteps s (List.mem_append_left _ hs)) hl with
        hq | ⟨k, s, -, -, -, hnot, -⟩
      · exact hq.dropLast.isDirectory
      · rw [hdir] at hnot
        cases hnot
    | @name _ _ _ _ s _ _ _ _ => exact absurd List.getLast?_concat (hlast s)
    | @link _ _ _ _ s _ _ _ _ _ => exact absurd List.getLast?_concat (hlast s)

/-! ## 3. Files that can be replaced -/

theorem follows_here : ∀ {n : Nat} {links : List Location} {l : Location},
    Follows t links l (List.replicate n .here) r → links = [] ∧ r = l
  | 0, _, _, h => by
    cases h
    exact ⟨rfl, rfl⟩
  | n + 1, _, _, h => by
    rw [List.replicate_succ] at h
    cases h with
    | here _ hrest => exact follows_here hrest

/-- A walk to a name in the directory that the steps before it lead to. -/
theorem Follows.walk_name (h : Follows t links l steps k) (hdir : t.isDirectory k = true)
    (hlen : s.utf8ByteSize ≤ nameLimit) :
    ∀ {n}, links.length ≤ n → walk t false n l (steps ++ [.name s]) = .ok (k ++ [s]) := by
  induction h with
  | done l =>
    intro n _
    rw [List.nil_append, walk_cons, hdir]
    simp only [Bool.not_true, Bool.false_eq_true, if_false, Nat.not_lt.mpr hlen]
    split
    · rfl
    · exact walk_nil t false n _
  | here hdir' _ ih =>
    intro n hn
    rw [List.cons_append, walk_cons, hdir']
    exact ih hdir hn
  | up hdir' _ ih =>
    intro n hn
    rw [List.cons_append, walk_cons, hdir']
    exact ih hdir hn
  | name hdir' hlen' hnot _ ih =>
    intro n hn
    rw [List.cons_append, walk_cons, hdir']
    simp only [Bool.not_true, Bool.false_eq_true, if_false, Nat.not_lt.mpr hlen']
    exact ih hdir hn
  | link hdir' hlen' hlink _ ih =>
    intro n hn
    cases n with
    | zero => simp at hn
    | succ n =>
      rw [List.cons_append, walk_cons, hdir']
      simp only [Bool.not_true, Bool.false_eq_true, if_false, Nat.not_lt.mpr hlen', hlink]
      rw [if_neg (by simp), ← List.append_assoc]
      exact ih hdir (by simpa using hn)

/-- A path that breaks no limit names the entry `s` of the directory `k`. -/
structure Names (t : Tree) (working : Location) (p : Path) (k : Location) (s : String) : Prop where
  no_zero : '\x00' ∉ p.text.toList
  size_le : p.text.utf8ByteSize ≤ pathLimit
  steps : ∃ before links, p.steps = before ++ [.name s] ∧ links.length ≤ linkLimit ∧
    Follows t links (if p.hasRoot then [] else working) before k
  directory : t.isDirectory k = true
  short : s.utf8ByteSize ≤ nameLimit

section

variable {working : Location} {p : Path} {b content : ByteArray}

theorem Names.isName (h : t.Names working p k s) : IsName s := by
  obtain ⟨before, links, hsteps, -, -⟩ := h.steps
  exact (Path.exists_name_of_steps hsteps).1

theorem Names.text_ne_nil (h : t.Names working p k s) : p.text.toList ≠ [] := by
  obtain ⟨before, links, hsteps, -, -⟩ := h.steps
  obtain ⟨hs, ⟨htext, -⟩ | ⟨u, htext, -⟩⟩ := Path.exists_name_of_steps hsteps
  · rw [htext]
    exact hs.ne_nil
  · simp [htext]

theorem Names.withoutSlashes_eq (h : t.Names working p k s) :
    withoutSlashes p = (p, false) := by
  have hs := h.isName
  obtain ⟨before, links, hsteps, -, -⟩ := h.steps
  refine Path.withoutSlashes_eq_self h.text_ne_nil ?_
  obtain ⟨-, ⟨htext, -⟩ | ⟨u, htext, -⟩⟩ := Path.exists_name_of_steps hsteps
  · rw [htext]
    exact hs.getLast?_ne
  · rw [htext, List.getLast?_append, List.getLast?_cons_of_ne_nil hs.ne_nil,
      List.getLast?_eq_some_getLast hs.ne_nil, Option.some_or,
      ← List.getLast?_eq_some_getLast hs.ne_nil]
    exact hs.getLast?_ne

theorem Names.namedPlace_eq (h : t.Names working p k s) :
    t.namedPlace working p = .ok (k ++ [s], false) := by
  obtain ⟨before, links, hsteps, hlinks, hfollows⟩ := h.steps
  have hlocate : t.locate working false p = .ok (k ++ [s]) := by
    refine locate_eq_ok_iff.mpr ⟨h.no_zero, by simpa using h.text_ne_nil, h.size_le, ?_⟩
    rw [hsteps]
    exact hfollows.walk_name h.directory h.short hlinks
  unfold namedPlace
  rw [h.withoutSlashes_eq]
  refine bind_eq_ok.mpr ⟨k ++ [s], hlocate, ?_⟩
  rw [hsteps, List.getLast?_concat]

/-- **The directory that a path is written with** is the one whose entry it names. -/
theorem Names.locate_directoryOf (h : t.Names working p k s) :
    t.locate working true (directoryOf p) = .ok k := by
  obtain ⟨before, links, hsteps, hlinks, hfollows⟩ := h.steps
  obtain ⟨htext, way, n, rfl, halong⟩ := Path.directoryOf_name hsteps
  -- the steps to the same place at the end lead nowhere else
  obtain ⟨q, ks, ms, rfl, hway, hrest⟩ := follows_append hfollows
  obtain ⟨rfl, rfl⟩ := follows_here hrest
  rw [List.append_nil] at hlinks
  have hfollows' : Follows t ks (if p.hasRoot then [] else working) (directoryOf p).steps k := by
    rcases halong with hd | ⟨rfl, hd⟩
    · rw [hd]
      exact hway
    · cases hway
      rw [hd]
      exact .here h.directory (.done _)
  have hwalk := hfollows'.walk_eq hlinks
  rcases htext with ⟨hdot, hroot⟩ | ⟨hne, e, he⟩
  · rw [hroot] at hwalk
    have hd : directoryOf p = ⟨"."⟩ := by
      rw [← hdot]
    rw [hd] at hwalk ⊢
    exact locate_eq_ok_iff.mpr ⟨by decide, by decide, by decide, hwalk⟩
  · have hroot : (directoryOf p).hasRoot = p.hasRoot := by
      unfold Path.hasRoot
      rw [he]
      cases hcases : (directoryOf p).text.toList with
      | nil => exact absurd hcases hne
      | cons c u => rfl
    have hsize : (directoryOf p).text.utf8ByteSize ≤ p.text.utf8ByteSize := by
      rw [Text.utf8ByteSize_eq, Text.utf8ByteSize_eq, he, Text.byteLength_append]
      exact Nat.le_add_right _ _
    refine locate_eq_ok_iff.mpr ⟨fun hzero => h.no_zero ?_, by simpa using hne,
      Nat.le_trans hsize h.size_le, by rw [hroot]; exact hwalk⟩
    rw [he]
    exact List.mem_append_left e hzero

/-- A new file can be made next to a name, unless its own path is too long. -/
theorem Names.mayMake_eq (h : t.Names working p k s) : t.mayMake working p =
    if (temporaryPath working p).text.utf8ByteSize ≤ pathLimit then .ok ()
    else .error .nameTooLong := by
  obtain ⟨hzero, -⟩ := locate_eq_ok_iff.mp h.locate_directoryOf
  split
  · rename_i hfits
    exact mayMake_eq_ok_iff.mpr ⟨hfits, k, h.locate_directoryOf, h.directory⟩
  · rename_i hlong
    unfold mayMake
    rw [if_neg (by simpa using hzero), if_pos (Nat.not_le.mp hlong)]

/-- A file can be put under a name at which no directory stands. -/
theorem Names.replace_eq (h : t.Names working p k s) (hz : t.isDirectory (k ++ [s]) = false)
    (hfits : (temporaryPath working p).text.utf8ByteSize ≤ pathLimit) (content : ByteArray) :
    t.replace working p content = .ok (t.set (k ++ [s]) (.file content)) := by
  refine replace_eq_ok_iff.mpr
    ⟨by rw [h.mayMake_eq, if_pos hfits], k ++ [s], h.namedPlace_eq, fun hdir => ?_, rfl⟩
  rw [isDirectory_iff.mpr hdir] at hz
  cases hz

/-- What replacing a file sets is the name itself. -/
theorem Names.eq_of_replace {t' : Tree} (h : t.Names working p k s)
    (hreplace : t.replace working p content = .ok t') : t' = t.set (k ++ [s]) (.file content) := by
  obtain ⟨-, z, hnamed, -, rfl⟩ := replace_eq_ok_iff.mp hreplace
  obtain ⟨rfl, -⟩ := Prod.mk.inj (Except.ok.inj (hnamed.symm.trans h.namedPlace_eq))
  rfl

/-- No file can be put under a name if the path of the new file is too long. -/
theorem Names.replace_error (h : t.Names working p k s)
    (hlong : pathLimit < (temporaryPath working p).text.utf8ByteSize) (content : ByteArray) :
    t.replace working p content = .error .nameTooLong := by
  unfold replace
  rw [h.mayMake_eq, if_neg (Nat.not_le.mpr hlong)]
  rfl

/-- **A file that can be read** stands under a name. -/
theorem Stands.names_of_read (hworking : t.Stands working)
    (hread : t.read working p = .ok b) :
    ∃ k s, t.Names working p k s ∧ t.isDirectory (k ++ [s]) = false := by
  obtain ⟨⟨hzero, hempty, hsize⟩, links, r, hlinks, hfollows, hget⟩ :=
    read_eq_ok_iff_leadsThrough.mp hread
  have hfile : t.isDirectory r = false := isDirectory_eq_false (by rw [hget]; simp)
  have hstart : t.Stands (if p.hasRoot then [] else working) := by
    split
    · exact stands_nil t
    · exact hworking
  -- the last step is a name, for all others lead to directories
  obtain ⟨s, hs⟩ : ∃ s, p.steps.getLast? = some (.name s) := by
    refine Classical.byContradiction fun hnot => ?_
    have hdir := hfollows.isDirectory_of_getLast? (fun s hs => Path.isName_of_mem_steps hs) hstart
      (not_exists.mp hnot)
    rw [hfile] at hdir
    cases hdir
  obtain ⟨before, hbefore⟩ := List.getLast?_eq_some_iff.mp hs
  unfold LeadsThrough at hfollows
  rw [hbefore] at hfollows
  obtain ⟨k, ks, ms, rfl, hfirst, hname⟩ := follows_append hfollows
  obtain ⟨hdir, hlen, hz⟩ : t.isDirectory k = true ∧ s.utf8ByteSize ≤ nameLimit ∧
      t.isDirectory (k ++ [s]) = false := by
    cases hname with
    | name hdir hlen _ hrest =>
      cases hrest
      exact ⟨hdir, hlen, hfile⟩
    | link hdir hlen hlink _ => exact ⟨hdir, hlen, isDirectory_eq_false (by rw [hlink]; simp)⟩
  rw [List.length_append] at hlinks
  exact ⟨k, s, ⟨hzero, hsize, ⟨before, ks, hbefore, by omega, hfirst⟩, hdir, hlen⟩, hz⟩

/-- The entry that a path names leads to where the path does. -/
theorem Names.ends (h : t.Names working p k s) (hleads : t.LeadsThrough working p links r) :
    Ends t (k ++ [s]) r := by
  obtain ⟨before, ks, hsteps, -, hfollows⟩ := h.steps
  unfold LeadsThrough at hleads
  rw [hsteps] at hleads
  obtain ⟨k', ks', ms, -, hfirst, hname⟩ := follows_append hleads
  obtain ⟨-, rfl⟩ := hfollows.unique hfirst
  exact ⟨k, s, ms, rfl, hname⟩

/-- A path still names its entry once that is a file, if it led to a file before. -/
theorem Names.set_self (h : t.Names working p k s) (hz : t.isDirectory (k ++ [s]) = false)
    (hread : t.read working p = .ok b) (content : ByteArray) :
    (t.set (k ++ [s]) (.file content)).Names working p k s := by
  obtain ⟨before, links, hsteps, hlinks, hfollows⟩ := h.steps
  obtain ⟨-, links', final, -, hleads, hget⟩ := read_eq_ok_iff_leadsThrough.mp hread
  have hfinal : t.isDirectory final = false := isDirectory_eq_false (by rw [hget]; simp)
  refine ⟨h.no_zero, h.size_le, ?_, (isDirectory_set hz).trans h.directory, h.short⟩
  obtain ⟨links₁, hlen₁, hset | ⟨-, heq⟩⟩ := hfollows.set_end content hz (h.ends hleads) hfinal
  · exact ⟨before, links₁, hsteps, Nat.le_trans hlen₁ hlinks, hset⟩
  · rw [← heq, h.directory] at hfinal
    cases hfinal

/-- A path still names its entry once there is a file where nothing was. -/
theorem Names.set (h : t.Names working p k s) (hz : t.get? z = none) (content : ByteArray) :
    (t.set z (.file content)).Names working p k s := by
  obtain ⟨before, links, hsteps, hlinks, hfollows⟩ := h.steps
  exact ⟨h.no_zero, h.size_le, ⟨before, links, hsteps, hlinks, hfollows.set_none hz⟩,
    (isDirectory_set (isDirectory_eq_false (by rw [hz]; simp))).trans h.directory, h.short⟩

/-- **What is written where nothing was** can be read, also when a file that could be read before is
replaced. -/
theorem Names.keeps_written {t' : Tree} {q : Path} (h : t.Names working p k s)
    (hplace : t.isDirectory (k ++ [s]) = false) (hread : t.read working p = .ok b)
    (habsent : t.present working q = false) (hwrite : t.write working q content = .ok t') :
    t'.Names working p k s ∧ t'.isDirectory (k ++ [s]) = false ∧
      t'.read working q = .ok content ∧
        ∀ new, (t'.set (k ++ [s]) (.file new)).read working q = .ok content := by
  obtain ⟨z, hlocate, hnone, rfl⟩ := exists_place_of_write habsent hwrite
  have hz : t.isDirectory z = false := isDirectory_eq_false (by rw [hnone]; simp)
  -- the new file stands where its path leads
  obtain ⟨hzero, hempty, hsize, hwalk⟩ := locate_eq_ok_iff.mp hlocate
  obtain ⟨links, hlinks, hfollows⟩ := walk_eq_ok_iff.mp hwalk
  have hnew : Follows (t.set z (.file content)) links _ q.steps z := hfollows.set_none hnone
  -- the old one stands elsewhere
  obtain ⟨-, ks, final, -, hleads, hget⟩ := read_eq_ok_iff_leadsThrough.mp hread
  have hne : final ≠ z := by
    rintro rfl
    rw [hnone] at hget
    cases hget
  have hleads' : (t.set z (.file content)).LeadsThrough working p ks final := hleads.set_none hnone
  have hget' : (t.set z (.file content)).get? final = some (.file b) := by
    rw [get?_set_ne t _ hne]
    exact hget
  have hends := (h.set hnone content).ends hleads'
  have hplace' : (t.set z (.file content)).isDirectory (k ++ [s]) = false :=
    (isDirectory_set hz).trans hplace
  have hzplace : z ≠ k ++ [s] := by
    intro heq
    refine hne ((hends.eq_of_file (b := content) ?_).trans heq.symm)
    rw [← heq]
    exact get?_set_file hz
  refine ⟨h.set hnone content, hplace', read_eq_ok_iff_leadsThrough.mpr
    ⟨⟨hzero, hempty, hsize⟩, links, z, hlinks, hnew, get?_set_file hz⟩, fun new => ?_⟩
  obtain ⟨links', hlen, hset | ⟨-, heq⟩⟩ := hnew.set_end new hplace' hends
    (isDirectory_eq_false (by rw [hget']; simp))
  · refine read_eq_ok_iff_leadsThrough.mpr
      ⟨⟨hzero, hempty, hsize⟩, links', z, Nat.le_trans hlen hlinks, hset, ?_⟩
    rw [get?_set_ne _ _ hzplace, get?_set_file hz]
  · exact absurd heq.symm hne

end

end Tree

end TextPatch
