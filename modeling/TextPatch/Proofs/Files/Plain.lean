/-
# Plain trees

A plain tree holds files and directories but no links, every name in it is one that a directory can
hold, and every entry stands in a directory.  In such a tree the path of a place leads to that place
or nowhere (`locate_ofNames_iff`): whether it does depends on the directories on the way, and on the
limits for names and paths (`Reaches`).  So every operation on the path of a place is spelled out by
what stands at that place.
-/
import TextPatch.Proofs.Files.Directories

namespace TextPatch

/-- Whether an entry is a link. -/
def Entry.isLink : Entry → Bool
  | .link _ => true
  | _ => false

namespace Tree

/-- A tree of files and directories without links. -/
structure Plain (t : Tree) : Prop where
  no_link : ∀ l target, t.get? l ≠ some (.link target)
  names : ∀ l, (t.get? l).isSome → AreNames l
  parents : ∀ l s, (t.get? (l ++ [s])).isSome → t.get? l = some .directory

theorem isDirectory_iff {t : Tree} {l : Location} :
    t.isDirectory l = true ↔ t.get? l = some .directory := by
  unfold isDirectory
  split
  · rename_i h
    simp [h]
  · rename_i h
    simpa using h

theorem isDirectory_eq_false {t : Tree} {l : Location} (h : t.get? l ≠ some .directory) :
    t.isDirectory l = false := by
  rw [Bool.eq_false_iff]
  exact fun hdir => h (isDirectory_iff.mp hdir)

@[simp] theorem get?_nil (t : Tree) : t.get? [] = some .directory := by
  simp [get?]

/-- Whether all entries of a tree are as those of a plain tree should be. -/
def isPlain (t : Tree) : Bool :=
  t.entries.all fun p =>
    decide (p.1 ≠ []) && decide (AreNames p.1) && t.isDirectory p.1.dropLast && !p.2.isLink

theorem mem_of_get? {t : Tree} {l : Location} {e : Entry} (hl : l ≠ [])
    (h : t.get? l = some e) : (l, e) ∈ t.entries := by
  unfold get? at h
  rw [if_neg hl] at h
  obtain ⟨l₁, l₂, heq, -⟩ := List.lookup_eq_some_iff.mp h
  rw [heq]
  simp

/-- A tree is plain if all its entries are as they should be. -/
theorem plain_of_isPlain {t : Tree} (h : t.isPlain = true) : t.Plain := by
  have hall : ∀ {l : Location} {e : Entry}, l ≠ [] → t.get? l = some e →
      AreNames l ∧ t.get? l.dropLast = some .directory ∧ e.isLink = false := by
    intro l e hl he
    have hp := List.all_eq_true.mp h (l, e) (mem_of_get? hl he)
    simp only [Bool.and_eq_true, decide_eq_true_eq, Bool.not_eq_true'] at hp
    exact ⟨hp.1.1.2, isDirectory_iff.mp hp.1.2, hp.2⟩
  constructor
  · intro l target hl
    by_cases hnil : l = []
    · subst hnil
      simp at hl
    · have hlink := (hall hnil hl).2.2
      cases hlink
  · intro l hl
    by_cases hnil : l = []
    · subst hnil
      simp [AreNames]
    · obtain ⟨e, he⟩ := Option.isSome_iff_exists.mp hl
      exact (hall hnil he).1
  · intro l s hl
    obtain ⟨e, he⟩ := Option.isSome_iff_exists.mp hl
    have hdir := (hall (by simp) he).2.1
    rwa [List.dropLast_concat] at hdir

/-- All that something stands below is a directory, if every entry stands in one. -/
theorem directory_above {t : Tree}
    (hparents : ∀ l s, (t.get? (l ++ [s])).isSome → t.get? l = some .directory) :
    ∀ {m l : Location}, m ≠ [] → (t.get? (l ++ m)).isSome → t.get? l = some .directory
  | [], _, hm, _ => absurd rfl hm
  | [s], l, _, h => hparents l s h
  | s :: s' :: m, l, _, h => by
    have hbelow : t.get? (l ++ [s]) = some .directory :=
      directory_above hparents (m := s' :: m) (by simp) (by simpa using h)
    exact hparents l s (by rw [hbelow]; rfl)

theorem Plain.directory_above {t : Tree} (ht : t.Plain) {m l : Location} (hm : m ≠ [])
    (h : (t.get? (l ++ m)).isSome) : t.get? l = some .directory :=
  Tree.directory_above ht.parents hm h

/-- Nothing stands below what is no directory. -/
theorem Plain.get?_below {t : Tree} (ht : t.Plain) {l r : Location}
    (hl : t.get? l ≠ some .directory) (hr : r ≠ []) : t.get? (l ++ r) = none := by
  rw [Option.eq_none_iff_forall_ne_some]
  intro e he
  exact hl (ht.directory_above hr (by rw [he]; rfl))

/-- `get?_set_self` and `get?_set_ne` in one. -/
theorem get?_set (t : Tree) {l : Location} (hl : l ≠ []) (e : Entry) (k : Location) :
    (t.set l e).get? k = if k = l then some e else t.get? k := by
  split
  · rename_i h
    rw [h, get?_set_self t e hl]
  · rename_i h
    exact get?_set_ne t e h

/-- **Moving a file** to a place in a directory changes the two places only, unless there is a
directory at the new one. -/
theorem Plain.get?_move_file {t : Tree} (ht : t.Plain) {a k : Location} {s : String}
    {b : ByteArray} (ha : t.get? a = some (.file b)) (hk : t.get? k = some .directory)
    (hc : t.get? (k ++ [s]) ≠ some .directory) (hne : a ≠ k ++ [s]) (z : Location) :
    (t.move a (k ++ [s])).get? z =
      if z = a then none else if z = k ++ [s] then some (.file b) else t.get? z := by
  have hfile : t.get? a ≠ some .directory := by simp [ha]
  -- neither place lies below the other one
  have hac : ∀ r, a ++ r ≠ k ++ [s] := by
    intro r hr
    rcases List.eq_nil_or_concat r with rfl | ⟨r, u, rfl⟩
    · exact hne (by simpa using hr)
    · rw [List.concat_eq_append, ← List.append_assoc] at hr
      obtain ⟨rfl, -⟩ := List.append_inj' hr rfl
      by_cases hnil : r = []
      · exact hfile (by simpa [hnil] using hk)
      · rw [ht.get?_below hfile hnil] at hk
        cases hk
  have hca : ∀ r, k ++ [s] ++ r ≠ a := by
    rintro r rfl
    by_cases hnil : r = []
    · exact hne (by simp [hnil])
    · rw [ht.get?_below hc hnil] at ha
      cases ha
  have hnone : ∀ {x y : Location}, (∀ r, x ++ r ≠ y) → below? x y = none := by
    intro x y hxy
    rw [Option.eq_none_iff_forall_ne_some]
    exact fun r hr => hxy r (below?_eq_some_iff.mp hr).symm
  rw [get?_move t (hnone hac) (hnone hca)]
  cases hbelow : below? a z with
  | some r =>
    -- below the file there is nothing, before and after
    obtain rfl := below?_eq_some_iff.mp hbelow
    rw [if_neg (hac r)]
    by_cases hr : r = []
    · simp [hr]
    · simp [hr, ht.get?_below hfile hr]
  | none =>
    have hza : z ≠ a := by
      rintro rfl
      have hself := below?_append z []
      rw [List.append_nil, hbelow] at hself
      cases hself
    rw [if_neg (by simp), if_neg hza]
    cases hbelow' : below? (k ++ [s]) z with
    | some r =>
      obtain rfl := below?_eq_some_iff.mp hbelow'
      by_cases hr : r = []
      · simp [hr, ha]
      · rw [if_neg (by simpa using hr), ht.get?_below hc hr]
        exact ht.get?_below hfile hr
    | none =>
      have hzc : z ≠ k ++ [s] := by
        rintro rfl
        have hself := below?_append (k ++ [s]) []
        rw [List.append_nil, hbelow'] at hself
        cases hself
      rw [if_neg hzc]

/-! ## 1. Walking along names -/

/-- Every place from `l` along some names, but for the last one, is a directory, and no name is too
long. -/
def Passable (t : Tree) (l : Location) : List String → Prop
  | [] => True
  | s :: rest =>
    t.isDirectory l = true ∧ s.utf8ByteSize ≤ nameLimit ∧ Passable t (l ++ [s]) rest

theorem passable_append {t : Tree} : ∀ {a b l : Location},
    Passable t l (a ++ b) ↔ Passable t l a ∧ Passable t (l ++ a) b
  | [], b, l => by simp [Passable]
  | s :: a, b, l => by
    rw [List.cons_append, Passable, Passable, passable_append]
    simp [and_assoc]

/-- What is passable depends on the directories only. -/
theorem Passable.congr {t t' : Tree} (h : ∀ l, t'.isDirectory l = t.isDirectory l) :
    ∀ {names l : Location}, Passable t l names → Passable t' l names
  | [], _, _ => trivial
  | _ :: _, l, ⟨hdir, hlen, hrest⟩ => ⟨(h l).trans hdir, hlen, hrest.congr h⟩

/-- **Without links, a walk along names comes to the place that they name, or fails.** -/
theorem walk_names_iff {t : Tree} (ht : ∀ l target, t.get? l ≠ some (.link target))
    {follow : Bool} {links : Nat} : ∀ {names l r : Location},
      walk t follow links l (names.map Step.name) = .ok r ↔
        r = l ++ names ∧ Passable t l names
  | [], l, r => by
    rw [List.map_nil, walk_nil]
    simp [Passable, eq_comm]
  | s :: names, l, r => by
    rw [List.map_cons, walk_cons, Passable]
    cases hdir : t.isDirectory l with
    | false => simp
    | true =>
      by_cases hlen : nameLimit < s.utf8ByteSize
      · simp [hlen, Nat.not_le.mpr hlen]
      · have hgoal : walk t follow links (l ++ [s]) (names.map Step.name) = .ok r ↔
            r = l ++ s :: names ∧ Passable t (l ++ [s]) names := by
          rw [walk_names_iff ht, List.append_assoc, List.singleton_append]
        simp only [Bool.not_true, Bool.false_eq_true, if_false, hlen, Nat.not_lt.mp hlen, true_and]
        split
        · rename_i target hlink
          exact absurd hlink (ht _ _)
        · exact hgoal

/-- A walk along names to a place whose directories are there fails only for a name that is too
long. -/
theorem walk_names_cases {t : Tree} (ht : t.Plain) (follow : Bool) (links : Nat) :
    ∀ {names l : Location}, (t.get? (l ++ names)).isSome →
      walk t follow links l (names.map Step.name) = .ok (l ++ names) ∨
        walk t follow links l (names.map Step.name) = .error .nameTooLong
  | [], l, _ => by
    rw [List.map_nil, walk_nil, List.append_nil]
    exact Or.inl rfl
  | s :: names, l, h => by
    have hdir : t.isDirectory l = true := isDirectory_iff.mpr (ht.directory_above (by simp) h)
    rw [List.map_cons, walk_cons, hdir]
    by_cases hlen : nameLimit < s.utf8ByteSize
    · simp [hlen]
    · have hbelow : (t.get? ((l ++ [s]) ++ names)).isSome := by simpa using h
      have hrest := walk_names_cases ht follow links hbelow
      rw [List.append_assoc, List.singleton_append] at hrest
      simp only [Bool.not_true, Bool.false_eq_true, if_false, hlen]
      split
      · rename_i target hlink
        exact absurd hlink (ht.no_link _ _)
      · exact hrest

/-! ## 2. The path of a place -/

/-- The path of a place leads to it. -/
structure Reaches (t : Tree) (l : Location) : Prop where
  no_zero : '\x00' ∉ (Path.ofNames l).text.toList
  short : (Path.ofNames l).text.utf8ByteSize ≤ pathLimit
  passable : Passable t [] l

theorem Reaches.congr {t t' : Tree} (h : ∀ l, t'.isDirectory l = t.isDirectory l) {l : Location}
    (hl : t.Reaches l) : t'.Reaches l :=
  ⟨hl.no_zero, hl.short, hl.passable.congr h⟩

/-- What `locate` checks before it walks. -/
theorem locate_eq_ok_iff {t : Tree} {working : Location} {follow : Bool} {p : Path}
    {r : Location} : t.locate working follow p = .ok r ↔
      '\x00' ∉ p.text.toList ∧ p.text.isEmpty = false ∧ p.text.utf8ByteSize ≤ pathLimit ∧
        walk t follow linkLimit (if p.hasRoot then [] else working) p.steps = .ok r := by
  unfold locate
  split
  · rename_i h
    have hzero : '\x00' ∈ p.text.toList := List.contains_iff_mem.mp h
    simp [hzero]
  · rename_i h
    have hzero : '\x00' ∉ p.text.toList := fun hmem => h (List.contains_iff_mem.mpr hmem)
    split
    · rename_i h
      simp [h]
    · rename_i hempty
      split
      · rename_i h
        simp [Nat.not_le.mpr h]
      · rename_i hlen
        simp [hzero, hempty, Nat.not_lt.mp hlen]

/-- **In a tree without links, the path of a place leads to that place or nowhere.** -/
theorem locate_ofNames_iff {t : Tree} (ht : ∀ l target, t.get? l ≠ some (.link target))
    {working : Location} {follow : Bool} {l r : Location} (hl : AreNames l) :
    t.locate working follow (Path.ofNames l) = .ok r ↔ r = l ∧ t.Reaches l := by
  rw [locate_eq_ok_iff, if_pos (Path.hasRoot_ofNames l), Path.text_ofNames_ne]
  have hwalk : walk t follow linkLimit [] (Path.ofNames l).steps = .ok r ↔
      r = l ∧ Passable t [] l := by
    by_cases hne : l = []
    · subst hne
      have hroot : t.isDirectory [] = true := isDirectory_iff.mpr (get?_nil t)
      rw [Path.steps_ofNames_nil, walk_cons, hroot, walk_nil]
      simp [Passable, eq_comm]
    · rw [Path.steps_ofNames hl hne, walk_names_iff ht, List.nil_append]
  rw [hwalk]
  constructor
  · rintro ⟨hzero, -, hshort, rfl, hpass⟩
    exact ⟨rfl, hzero, hshort, hpass⟩
  · rintro ⟨rfl, hzero, hshort, hpass⟩
    exact ⟨hzero, rfl, hshort, rfl, hpass⟩

/-- The path of a place where something stands leads there, or it breaks a limit. -/
theorem locate_ofNames_ne_notFound {t : Tree} (ht : t.Plain) {working : Location} {follow : Bool}
    {l : Location} (hl : (t.get? l).isSome) :
    t.locate working follow (Path.ofNames l) ≠ .error .notFound := by
  intro h
  unfold locate at h
  rw [Path.text_ofNames_ne, if_pos (Path.hasRoot_ofNames l)] at h
  split at h
  · cases h
  · split at h
    · contradiction
    · split at h
      · cases h
      · by_cases hne : l = []
        · subst hne
          have hroot : t.isDirectory [] = true := isDirectory_iff.mpr (get?_nil t)
          rw [Path.steps_ofNames_nil, walk_cons, hroot, walk_nil] at h
          cases h
        · rw [Path.steps_ofNames (ht.names l hl) hne] at h
          have hbelow : (t.get? ([] ++ l)).isSome := hl
          rcases walk_names_cases ht follow linkLimit hbelow with hok | herr
          · rw [hok] at h
            cases h
          · rw [herr] at h
            cases h

/-! ## 3. What operations on such a path do -/

/-- A file is read exactly if its path leads to it. -/
theorem read_eq_ok_iff {t : Tree} {working : Location} {p : Path} {content : ByteArray} :
    t.read working p = .ok content ↔
      ∃ l, t.locate working true p = .ok l ∧ t.get? l = some (.file content) := by
  unfold read
  cases t.locate working true p with
  | error e => simp [bind, Except.bind]
  | ok l =>
    simp only [bind, Except.bind, Except.ok.injEq, exists_eq_left']
    split
    · rename_i c h
      simp [h]
    · rename_i e hne h
      rw [h]
      simp only [reduceCtorEq, false_iff]
      intro he
      cases he
      exact hne content rfl
    · rename_i h
      simp [h]

/-- The path of the place that a path leads to, where something stands. -/
theorem canonicalPath_eq_ok_iff {t : Tree} {working : Location} {p q : Path} :
    t.canonicalPath working p = .ok q ↔
      ∃ l, t.locate working true p = .ok l ∧ (t.get? l).isSome ∧
        (Path.ofNames l).text.utf8ByteSize ≤ pathLimit ∧ q = Path.ofNames l := by
  unfold canonicalPath
  cases t.locate working true p with
  | error e => simp [bind, Except.bind]
  | ok l =>
    simp only [bind, Except.bind, Except.ok.injEq, exists_eq_left']
    cases (t.get? l).isSome with
    | false => simp
    | true =>
      by_cases hsize : pathLimit < (Path.ofNames l).text.utf8ByteSize
      · simp [hsize, Nat.not_le.mpr hsize]
      · simp [hsize, Nat.not_lt.mp hsize, eq_comm]

theorem present_eq_true_iff {t : Tree} {working : Location} {p : Path} :
    t.present working p = true ↔
      ∃ l, t.locate working true p = .ok l ∧ (t.get? l).isSome := by
  unfold present entryAt
  cases t.locate working true p with
  | error e => simp
  | ok l => simp

/-- If what a path leads to is not there, nothing stands at the place. -/
theorem get?_of_not_present {t : Tree} {working l : Location} {p : Path}
    (habsent : t.present working p = false) (hlocate : t.locate working true p = .ok l) :
    t.get? l = none := by
  rw [← Option.not_isSome_iff_eq_none]
  intro hsome
  rw [present_eq_true_iff.mpr ⟨l, hlocate, hsome⟩] at habsent
  cases habsent

/-- What can be read is there. -/
theorem present_of_read {t : Tree} {working : Location} {p : Path} {content : ByteArray}
    (h : t.read working p = .ok content) : t.present working p = true := by
  obtain ⟨l, hlocate, hget⟩ := read_eq_ok_iff.mp h
  exact present_eq_true_iff.mpr ⟨l, hlocate, by rw [hget]; rfl⟩

/-- Writing sets the place that the path leads to, unless that is a directory. -/
theorem write_eq_ok_iff {t t' : Tree} {working : Location} {p : Path} {content : ByteArray} :
    t.write working p content = .ok t' ↔
      ∃ l, t.locate working true p = .ok l ∧ t.isDirectory l = false ∧
        t' = t.set l (.file content) := by
  unfold write
  cases t.locate working true p with
  | error e => simp [bind, Except.bind]
  | ok l =>
    simp only [bind, Except.bind, Except.ok.injEq, exists_eq_left']
    cases t.isDirectory l <;> simp [eq_comm]

/-- A new file may take any place but that of a directory. -/
theorem mayReplace_file_iff (t : Tree) (content : ByteArray) (l : Location) :
    t.mayReplace (.file content) l = .ok () ↔ t.get? l ≠ some .directory := by
  unfold mayReplace
  cases t.get? l with
  | none => simp
  | some e => cases e <;> simp

/-- A new file can be made in the directory of a path, unless its own path is too long. -/
theorem mayMake_eq_ok_iff {t : Tree} {working : Location} {p : Path} {u : Unit} :
    t.mayMake working p = .ok u ↔
      (temporaryPath working p).text.utf8ByteSize ≤ pathLimit ∧
        ∃ d, t.locate working true (directoryOf p) = .ok d ∧ t.isDirectory d = true := by
  unfold mayMake
  by_cases hzero : (directoryOf p).text.toList.contains '\x00' = true
  · -- no path with a zero in it leads anywhere
    rw [if_pos hzero]
    refine ⟨nofun, ?_⟩
    rintro ⟨-, d, hlocate, -⟩
    rw [locate, if_pos hzero] at hlocate
    cases hlocate
  · rw [if_neg hzero]
    by_cases hlong : pathLimit < (temporaryPath working p).text.utf8ByteSize
    · rw [if_pos hlong]
      exact ⟨nofun, fun h => absurd h.1 (Nat.not_le.mpr hlong)⟩
    · rw [if_neg hlong]
      cases t.locate working true (directoryOf p) with
      | error e => simp [bind, Except.bind]
      | ok d =>
        simp only [bind, Except.bind, pure, Except.pure, Nat.not_lt.mp hlong, true_and,
          Except.ok.injEq, exists_eq_left']
        cases t.isDirectory d <;> simp

/-- Replacing sets the place that the path names, unless that is a directory. -/
theorem replace_eq_ok_iff {t t' : Tree} {working : Location} {p : Path} {content : ByteArray} :
    t.replace working p content = .ok t' ↔
      t.mayMake working p = .ok () ∧ ∃ l, t.namedPlace working p = .ok (l, false) ∧
        t.get? l ≠ some .directory ∧ t' = t.set l (.file content) := by
  unfold replace
  cases t.mayMake working p with
  | error e => simp [bind, Except.bind]
  | ok u =>
    simp only [bind, Except.bind, true_and]
    cases t.namedPlace working p with
    | error e => simp
    | ok r =>
      obtain ⟨l, slashed⟩ := r
      cases slashed with
      | true => simp
      | false =>
        have hmay := mayReplace_file_iff t content l
        cases hm : t.mayReplace (.file content) l with
        | error e =>
          rw [hm] at hmay
          have hdir : t.get? l = some .directory := by simpa using hmay
          simp [hm, hdir]
        | ok u =>
          have hnot := hmay.mp hm
          simp [hm, hnot, pure, Except.pure, @eq_comm _ t']

section

variable {t t' : Tree} {working : Location} {l : Location} {s : String}

/-- The path of a place names that place. -/
theorem namedPlace_ofNames_iff (ht : ∀ l target, t.get? l ≠ some (.link target))
    (hl : AreNames (l ++ [s])) {r : Location × Bool} :
    t.namedPlace working (Path.ofNames (l ++ [s])) = .ok r ↔
      r = (l ++ [s], false) ∧ t.Reaches (l ++ [s]) := by
  have hlast : (Path.ofNames (l ++ [s])).steps.getLast? = some (.name s) := by
    rw [Path.steps_ofNames hl (by simp)]
    simp
  unfold namedPlace
  rw [Path.withoutSlashes_ofNames (hl s (by simp))]
  simp only [bind, Except.bind, hlast]
  cases hloc : t.locate working false (Path.ofNames (l ++ [s])) with
  | error e =>
    simp only [reduceCtorEq, false_iff, not_and]
    rintro - hreach
    rw [(locate_ofNames_iff ht hl).mpr ⟨rfl, hreach⟩] at hloc
    cases hloc
  | ok k =>
    obtain ⟨rfl, hreach⟩ := (locate_ofNames_iff ht hl).mp hloc
    simp [hreach, eq_comm]

/-- The root itself has no name. -/
theorem namedPlace_root {r : Location × Bool} : t.namedPlace working (Path.ofNames []) ≠ .ok r := by
  intro h
  have hbody : withoutSlashes (Path.ofNames []) = (Path.ofNames [], false) := by
    unfold withoutSlashes
    rw [Path.toList_ofNames_nil]
    rfl
  unfold namedPlace at h
  rw [hbody] at h
  obtain ⟨l, -, h⟩ := bind_eq_ok.mp h
  rw [Path.steps_ofNames_nil] at h
  cases h

/-- The directory of a place that a path leads to is one that its own path leads to. -/
theorem Reaches.directory (h : t.Reaches (l ++ [s])) :
    t.Reaches l ∧ t.isDirectory l = true := by
  have hpass := passable_append.mp h.passable
  rw [List.nil_append] at hpass
  refine ⟨⟨?_, ?_, hpass.1⟩, hpass.2.1⟩
  · have hzero := h.no_zero
    by_cases hl : l = []
    · subst hl
      rw [Path.toList_ofNames_nil]
      decide
    · rw [Path.toList_ofNames (by simp), slashed_append, List.mem_append, not_or] at hzero
      rw [Path.toList_ofNames hl]
      exact hzero.1
  · refine Nat.le_trans ?_ h.short
    rw [Text.utf8ByteSize_eq, Text.utf8ByteSize_eq, Path.toList_ofNames (l := l ++ [s]) (by simp)]
    by_cases hl : l = []
    · subst hl
      rw [Path.toList_ofNames_nil]
      simp
    · rw [Path.toList_ofNames hl]
      simp

/-- What leads to the backup of a file shows that the path of the file leads to it. -/
theorem Reaches.of_backup (h : t.Reaches (l ++ [s ++ backupSuffix])) : t.Reaches (l ++ [s]) := by
  have htext : (Path.ofNames (l ++ [s ++ backupSuffix])).text =
      (Path.ofNames (l ++ [s])).text ++ backupSuffix := by
    rw [← Path.backup_ofNames]
    rfl
  have hzero := h.no_zero
  have hshort := h.short
  rw [htext, String.toList_append, List.mem_append, not_or] at hzero
  rw [htext, String.utf8ByteSize_append] at hshort
  obtain ⟨hl, hdir, hlen, -⟩ := passable_append.mp h.passable
  rw [String.utf8ByteSize_append] at hlen
  exact ⟨hzero.1, by omega, passable_append.mpr ⟨hl, hdir, by omega, trivial⟩⟩

/-- A new file for a place can be made if its name is no longer than the name of the place. -/
theorem Reaches.mayMake_eq (h : t.Reaches (l ++ [s]))
    (ht : ∀ l target, t.get? l ≠ some (.link target)) (hl : AreNames (l ++ [s]))
    (hs : temporaryName.utf8ByteSize ≤ s.utf8ByteSize) :
    t.mayMake working (Path.ofNames (l ++ [s])) = .ok () := by
  have hname : IsName s := hl s (by simp)
  refine mayMake_eq_ok_iff.mpr ⟨?_, l, ?_, h.directory.2⟩
  · have hshort := h.short
    rw [Path.utf8ByteSize_ofNames_concat] at hshort
    rw [Path.temporaryPath_ofNames working hl.left hname, Path.utf8ByteSize_ofNames_concat]
    omega
  · rw [Path.directoryOf_ofNames hl.left hname]
    exact (locate_ofNames_iff ht hl.left).mpr ⟨rfl, h.directory.1⟩

/-- **In a tree without links, a file that can be read can be replaced**, unless its name is so
short that the path of the new file may be too long. -/
theorem replace_ofNames (ht : ∀ l target, t.get? l ≠ some (.link target))
    (hl : AreNames (l ++ [s])) (hs : temporaryName.utf8ByteSize ≤ s.utf8ByteSize)
    {content new : ByteArray}
    (h : t.read working (Path.ofNames (l ++ [s])) = .ok content) :
    t.replace working (Path.ofNames (l ++ [s])) new = .ok (t.set (l ++ [s]) (.file new)) := by
  obtain ⟨k, hloc, hget⟩ := read_eq_ok_iff.mp h
  obtain ⟨rfl, hreach⟩ := (locate_ofNames_iff ht hl).mp hloc
  refine replace_eq_ok_iff.mpr ⟨hreach.mayMake_eq ht hl hs, l ++ [s], ?_, ?_, rfl⟩
  · exact (namedPlace_ofNames_iff ht hl).mpr ⟨rfl, hreach⟩
  · rw [hget]
    simp

/-- Renaming moves what stands at the one place to the other one. -/
theorem rename_ofNames {k : Location} {u : String}
    (ht : ∀ l target, t.get? l ≠ some (.link target)) (hl : AreNames (l ++ [s]))
    (hk : AreNames (k ++ [u])) (hne : l ++ [s] ≠ k ++ [u])
    (h : t.rename working (Path.ofNames (l ++ [s])) (Path.ofNames (k ++ [u])) = .ok t') :
    ∃ e, t.get? (l ++ [s]) = some e ∧ t.mayReplace e (k ++ [u]) = .ok () ∧
      below? (l ++ [s]) (k ++ [u]) = none ∧ below? (k ++ [u]) (l ++ [s]) = none ∧
        t' = t.move (l ++ [s]) (k ++ [u]) := by
  unfold rename at h
  obtain ⟨⟨origin, slash⟩, horigin, h⟩ := bind_eq_ok.mp h
  obtain ⟨⟨goal, slash'⟩, hgoal, h⟩ := bind_eq_ok.mp h
  obtain ⟨horigin, -⟩ := (namedPlace_ofNames_iff ht hl).mp horigin
  obtain ⟨hgoal, -⟩ := (namedPlace_ofNames_iff ht hk).mp hgoal
  obtain ⟨rfl, rfl⟩ := Prod.mk.inj horigin
  obtain ⟨rfl, rfl⟩ := Prod.mk.inj hgoal
  simp only at h
  split at h
  · cases h
  · rename_i e he
    rw [if_neg (by simp), if_neg hne] at h
    split at h
    · cases h
    · rename_i hbelow
      split at h
      · cases h
      · rename_i hbelow'
        obtain ⟨u, hmay, h⟩ := bind_eq_ok.mp h
        cases h
        exact ⟨e, he, hmay, by simpa using hbelow, by simpa using hbelow', rfl⟩

/-- The path of a place where something stands names it, or it breaks a limit. -/
theorem namedPlace_ofNames_cases (working : Location) (ht : t.Plain)
    (hl : (t.get? (l ++ [s])).isSome) :
    t.namedPlace working (Path.ofNames (l ++ [s])) = .ok (l ++ [s], false) ∨
      ∃ cause, cause ≠ .notFound ∧
        t.namedPlace working (Path.ofNames (l ++ [s])) = .error cause := by
  have hnames := ht.names _ hl
  cases hplace : t.namedPlace working (Path.ofNames (l ++ [s])) with
  | ok r =>
    obtain ⟨rfl, -⟩ := (namedPlace_ofNames_iff ht.no_link hnames).mp hplace
    exact Or.inl rfl
  | error cause =>
    refine Or.inr ⟨cause, ?_, rfl⟩
    rintro rfl
    have hlast : (Path.ofNames (l ++ [s])).steps.getLast? = some (.name s) := by
      rw [Path.steps_ofNames hnames (by simp)]
      simp
    unfold namedPlace at hplace
    rw [Path.withoutSlashes_ofNames (hnames s (by simp))] at hplace
    simp only [bind, Except.bind, hlast] at hplace
    cases hloc : t.locate working false (Path.ofNames (l ++ [s])) with
    | error cause =>
      rw [hloc] at hplace
      cases hplace
      exact locate_ofNames_ne_notFound ht hl hloc
    | ok q =>
      rw [hloc] at hplace
      cases hplace

/-- Nothing is missing if there is something to move, and the path of the new place leads there as
soon as that of the old one does. -/
theorem rename_ne_notFound {k : Location} {u : String} (ht : t.Plain)
    (hl : (t.get? (l ++ [s])).isSome) (hk : AreNames (k ++ [u]))
    (hreach : t.Reaches (l ++ [s]) → t.Reaches (k ++ [u])) :
    t.rename working (Path.ofNames (l ++ [s])) (Path.ofNames (k ++ [u])) ≠ .error .notFound := by
  intro h
  unfold rename at h
  rcases namedPlace_ofNames_cases working ht hl with hl' | ⟨cause, hne, hl'⟩
  · obtain ⟨-, hreached⟩ := (namedPlace_ofNames_iff ht.no_link (ht.names _ hl)).mp hl'
    have hk' : t.namedPlace working (Path.ofNames (k ++ [u])) = .ok (k ++ [u], false) :=
      (namedPlace_ofNames_iff ht.no_link hk).mpr ⟨rfl, hreach hreached⟩
    obtain ⟨e, he⟩ := Option.isSome_iff_exists.mp hl
    simp only [hl', hk', bind, Except.bind, he, Bool.or_self, Bool.false_and, Bool.false_eq_true,
      if_false] at h
    split at h
    · cases h
    · split at h
      · cases h
      · split at h
        · cases h
        · cases hmay : t.mayReplace e (k ++ [u]) with
          | ok _ =>
            rw [hmay] at h
            cases h
          | error cause =>
            rw [hmay] at h
            cases h
            unfold mayReplace at hmay
            split at hmay
            · cases hmay
            · split at hmay <;> cases hmay
            · cases hmay
            · cases hmay
            · cases hmay
  · simp only [hl', bind, Except.bind] at h
    exact hne (Except.error.inj h)

end

end Tree

end TextPatch
