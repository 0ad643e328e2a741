/-
# Lawful trees

A *lawful* tree is one that a file system can hold (`Tree.Lawful`): every entry stands in a
directory, under a name that can be stored.  Links may lead anywhere, in circles, too.

* A path that leads to something in such a tree does not end at a link
  (`Lawful.not_link_of_locate`), and the path of the place that it leads to leads there through
  directories only (`Lawful.locate_ofNames`).  So the path that `canonicalPath` answers is its own
  path without links, and the same is read through it as through the path that was given
  (`Lawful.canonical`, `Canonical.read_eq`).
* Replacing a file and renaming anything leave a lawful tree (`Lawful.replace`, `Lawful.rename`).
-/
import TextPatch.Proofs.Files.Guarded

namespace TextPatch

/-- A name that a file system can store. -/
structure IsStorable (s : String) : Prop where
  isName : IsName s
  no_zero : '\x00' ∉ s.toList
  short : s.utf8ByteSize ≤ nameLimit

instance (s : String) : Decidable (IsStorable s) :=
  decidable_of_iff (IsName s ∧ '\x00' ∉ s.toList ∧ s.utf8ByteSize ≤ nameLimit)
    ⟨fun ⟨h₁, h₂, h₃⟩ => ⟨h₁, h₂, h₃⟩, fun ⟨h₁, h₂, h₃⟩ => ⟨h₁, h₂, h₃⟩⟩

namespace Tree

/-- A tree that a file system can hold. -/
structure Lawful (t : Tree) : Prop where
  names : ∀ l, (t.get? l).isSome → ∀ s ∈ l, IsStorable s
  parents : ∀ l s, (t.get? (l ++ [s])).isSome → t.get? l = some .directory

/-- Whether all entries of a tree are as those of a lawful tree should be. -/
def isLawful (t : Tree) : Bool :=
  t.entries.all fun p => decide (∀ s ∈ p.1, IsStorable s) && t.isDirectory p.1.dropLast

variable {t : Tree} {working working' l z : Location} {p c : Path} {b : ByteArray}

theorem lawful_of_isLawful (h : t.isLawful = true) : t.Lawful := by
  have hall : ∀ {l : Location}, l ≠ [] → (t.get? l).isSome →
      (∀ s ∈ l, IsStorable s) ∧ t.get? l.dropLast = some .directory := by
    intro l hl hsome
    obtain ⟨e, he⟩ := Option.isSome_iff_exists.mp hsome
    have hp := List.all_eq_true.mp h (l, e) (mem_of_get? hl he)
    simp only [Bool.and_eq_true, decide_eq_true_eq] at hp
    exact ⟨hp.1, isDirectory_iff.mp hp.2⟩
  constructor
  · intro l hsome
    by_cases hl : l = []
    · simp [hl]
    · exact (hall hl hsome).1
  · intro l s hsome
    have hdir := (hall (by simp) hsome).2
    rwa [List.dropLast_concat] at hdir

/-! ## 1. The way to a place -/

theorem Lawful.areNames (ht : t.Lawful) (hsome : (t.get? l).isSome) : AreNames l :=
  fun s hs => (ht.names l hsome s hs).isName

/-- In a lawful tree every directory stands. -/
theorem Lawful.stands (ht : t.Lawful) (hl : t.isDirectory l = true) : t.Stands l where
  names := ht.areNames (by rw [isDirectory_iff.mp hl]; rfl)
  directories q hq := by
    obtain ⟨m, rfl⟩ := hq
    by_cases hm : m = []
    · rwa [hm, List.append_nil] at hl
    · exact isDirectory_iff.mpr
        (directory_above ht.parents hm (by rw [isDirectory_iff.mp hl]; rfl))

/-- A path that leads anywhere starts in a directory that stands. -/
theorem Lawful.stands_start (ht : t.Lawful) (h : t.locate working true p = .ok l) :
    t.Stands (if p.hasRoot then [] else working) := by
  obtain ⟨-, -, -, hwalk⟩ := locate_eq_ok_iff.mp h
  obtain ⟨links, -, hfollows⟩ := walk_eq_ok_iff.mp hwalk
  obtain ⟨before, f, -, hsteps, -⟩ := Path.exists_steps p
  cases hdir : t.isDirectory (if p.hasRoot then [] else working) with
  | true => exact ht.stands hdir
  | false =>
    have hnil := hfollows.eq_nil hdir
    rw [hsteps] at hnil
    simp at hnil

/-- **A path that is followed to its end** does not end at a link. -/
theorem Lawful.not_link_of_locate (ht : t.Lawful) (h : t.locate working true p = .ok l) :
    ∀ target, t.get? l ≠ some (.link target) := by
  obtain ⟨-, -, -, hwalk⟩ := locate_eq_ok_iff.mp h
  obtain ⟨links, -, hfollows⟩ := walk_eq_ok_iff.mp hwalk
  rcases hfollows.stands_or (fun s hs => Path.isName_of_mem_steps hs) (ht.stands_start h) with
    hl | ⟨k, s, -, -, -, -, hnot⟩
  · rw [isDirectory_iff.mp hl.isDirectory]
    simp
  · exact hnot

/-- The names of a place lead to it from any place above, through no link. -/
theorem Lawful.follows_names (ht : t.Lawful) : ∀ {m l : Location}, (t.get? (l ++ m)).isSome →
    (∀ target, t.get? (l ++ m) ≠ some (.link target)) → Follows t [] l (m.map .name) (l ++ m)
  | [], l, _, _ => by simpa using Follows.done l
  | s :: m, l, hsome, hnot => by
    have hsplit : l ++ s :: m = (l ++ [s]) ++ m := by simp
    have hdir : t.isDirectory l = true :=
      isDirectory_iff.mpr (directory_above ht.parents (by simp) hsome)
    have hshort := (ht.names _ hsome s (by simp)).short
    rw [hsplit] at hsome hnot ⊢
    refine .name hdir hshort (fun target => ?_) (ht.follows_names hsome hnot)
    by_cases hm : m = []
    · simpa [hm] using hnot target
    · rw [directory_above ht.parents hm hsome]
      simp

/-- **The path of a place leads there**, if something but a link stands there and the path is not
too long. -/
theorem Lawful.locate_ofNames (ht : t.Lawful) (hsome : (t.get? l).isSome)
    (hnot : ∀ target, t.get? l ≠ some (.link target))
    (hsize : (Path.ofNames l).text.utf8ByteSize ≤ pathLimit) :
    t.locate working true (Path.ofNames l) = .ok l := by
  have hzero : '\x00' ∉ (Path.ofNames l).text.toList := by
    by_cases hl : l = []
    · subst hl
      rw [Path.toList_ofNames_nil]
      decide
    · rw [Path.toList_ofNames hl, slashed, List.mem_flatMap]
      rintro ⟨s, hs, hmem⟩
      rcases List.mem_cons.mp hmem with heq | hmem
      · exact absurd heq (by decide)
      · exact (ht.names l hsome s hs).no_zero hmem
  refine locate_eq_ok_iff.mpr ⟨hzero, Path.text_ofNames_ne l, hsize, ?_⟩
  rw [if_pos (Path.hasRoot_ofNames l)]
  by_cases hl : l = []
  · subst hl
    rw [Path.steps_ofNames_nil]
    exact (Follows.here (isDirectory_iff.mpr (get?_nil t)) (.done [])).walk_eq (Nat.zero_le _)
  · rw [Path.steps_ofNames (ht.areNames hsome) hl]
    exact (ht.follows_names (l := []) hsome hnot).walk_eq (Nat.zero_le _)

/-! ## 2. Paths without links -/

/-- What holds of the path without links: it is its own, seen from anywhere, and it leads where the
path that was given leads. -/
structure Canonical (t : Tree) (working : Location) (p c : Path) : Prop where
  itself : ∀ working', t.canonicalPath working' c = .ok c
  same : ∀ working', t.locate working' true c = t.locate working true p

theorem Lawful.canonical (ht : t.Lawful) (h : t.canonicalPath working p = .ok c) :
    t.Canonical working p c := by
  obtain ⟨l, hlocate, hsome, hsize, rfl⟩ := canonicalPath_eq_ok_iff.mp h
  have hself : ∀ working', t.locate working' true (Path.ofNames l) = .ok l := fun working' =>
    ht.locate_ofNames hsome (ht.not_link_of_locate hlocate) hsize
  refine ⟨fun working' => ?_, fun working' => by rw [hself, hlocate]⟩
  exact canonicalPath_eq_ok_iff.mpr ⟨l, hself working', hsome, hsize, rfl⟩

/-- **The same is read** through a path and through its path without links. -/
theorem Canonical.read_eq (h : t.Canonical working p c) :
    t.read working' c = t.read working p := by
  unfold read
  rw [h.same]

/-! ## 3. Changes -/

/-- A place in a directory, under a name that can be stored. -/
def Entryway (t : Tree) (z : Location) : Prop :=
  ∃ k s, z = k ++ [s] ∧ t.get? k = some .directory ∧ IsStorable s

/-- A place that a path names is one where an entry may stand. -/
theorem entryway_of_namedPlace {slashed : Bool} (h : t.namedPlace working p = .ok (z, slashed)) :
    t.Entryway z := by
  unfold namedPlace at h
  rcases hbody : withoutSlashes p with ⟨body, b⟩
  rw [hbody] at h
  obtain ⟨l, hlocate, h⟩ := bind_eq_ok.mp h
  obtain ⟨before, s, hsteps, rfl⟩ : ∃ before s, body.steps = before ++ [.name s] ∧ l = z := by
    split at h
    · rename_i s hs
      obtain ⟨before, hbefore⟩ := List.getLast?_eq_some_iff.mp hs
      exact ⟨before, s, hbefore, (Prod.mk.inj (Except.ok.inj h)).1⟩
    · cases h
  obtain ⟨hzero, -, -, hwalk⟩ := locate_eq_ok_iff.mp hlocate
  rw [hsteps] at hwalk
  obtain ⟨links, k, -, -, hdir, hlen, rfl⟩ := exists_name_of_walk hwalk
  obtain ⟨hs, htext⟩ := Path.exists_name_of_steps hsteps
  have hnot : '\x00' ∉ s.toList := by
    intro hmem
    rcases htext with ⟨htext, -⟩ | ⟨u, htext, -⟩
    · exact hzero (by rw [htext]; exact hmem)
    · exact hzero (by rw [htext]; simp [hmem])
  exact ⟨k, s, rfl, isDirectory_iff.mp hdir, hs, hnot, hlen⟩

theorem Lawful.names_entryway (ht : t.Lawful) (hz : t.Entryway z) : ∀ s ∈ z, IsStorable s := by
  obtain ⟨k, u, rfl, hdir, hu⟩ := hz
  intro s hs
  rcases List.mem_append.mp hs with hs | hs
  · exact ht.names k (by rw [hdir]; rfl) s hs
  · obtain rfl := List.mem_singleton.mp hs
    exact hu

/-- **A lawful tree stays one** when a file is put where an entry may stand and no directory is. -/
theorem Lawful.set (ht : t.Lawful) (hz : t.Entryway z) (hnot : t.get? z ≠ some .directory)
    (content : ByteArray) : (t.set z (.file content)).Lawful := by
  have hnames := ht.names_entryway hz
  obtain ⟨k, u, rfl, hdir, -⟩ := hz
  have hne : k ++ [u] ≠ [] := by simp
  constructor
  · intro l hsome
    rw [get?_set t hne] at hsome
    split at hsome
    · rename_i heq
      rw [heq]
      exact hnames
    · exact ht.names l hsome
  · intro l s hsome
    have hparent : t.get? l = some .directory := by
      rw [get?_set t hne] at hsome
      split at hsome
      · rename_i heq
        obtain ⟨rfl, -⟩ : l = k ∧ s = u := by simpa using heq
        exact hdir
      · exact ht.parents l s hsome
    rw [get?_set t hne, if_neg, hparent]
    rintro rfl
    exact hnot hparent

/-- **A lawful tree stays one** when something is moved to where an entry may stand. -/
theorem Lawful.move {source target : Location} (ht : t.Lawful) (htarget : t.Entryway target)
    (hst : below? source target = none) (hts : below? target source = none) :
    (t.move source target).Lawful := by
  have hnames := ht.names_entryway htarget
  obtain ⟨k, u, rfl, hdir, -⟩ := htarget
  have hstays : ∀ {l}, below? source l = none → below? (k ++ [u]) l = none →
      t.get? l = some .directory → (t.move source (k ++ [u])).get? l = some .directory := by
    intro l hsource htarget hl
    rw [get?_move t hst hts, hsource, htarget]
    exact hl
  have habove : ∀ {q l : Location} {s : String},
      below? q (l ++ [s]) = none → below? q l = none := by
    intro q l s hq
    rw [Option.eq_none_iff_forall_ne_some] at hq ⊢
    intro r hr
    refine hq (r ++ [s]) (below?_eq_some_iff.mpr ?_)
    rw [below?_eq_some_iff.mp hr, List.append_assoc]
  constructor
  · intro l hsome
    rw [get?_move t hst hts] at hsome
    split at hsome
    · cases hsome
    · split at hsome
      · rename_i r hr
        rw [below?_eq_some_iff.mp hr]
        intro s hs
        rcases List.mem_append.mp hs with hs | hs
        · exact hnames s hs
        · exact ht.names _ hsome s (List.mem_append_right _ hs)
      · exact ht.names l hsome
  · intro l s hsome
    rw [get?_move t hst hts] at hsome
    split at hsome
    · cases hsome
    · rename_i hsource
      have hsource : below? source (l ++ [s]) = none := by simpa using hsource
      cases hbelow : below? (k ++ [u]) (l ++ [s]) with
      | none =>
        rw [hbelow] at hsome
        exact hstays (habove hsource) (habove hbelow) (ht.parents l s hsome)
      | some r =>
        rw [hbelow] at hsome
        have hl := below?_eq_some_iff.mp hbelow
        rcases List.eq_nil_or_concat r with rfl | ⟨r, v, rfl⟩
        · -- the moved entry itself: its directory is where it was
          obtain ⟨rfl, -⟩ : l = k ∧ s = u := by simpa using hl
          refine hstays (habove hsource) ?_ hdir
          rw [Option.eq_none_iff_forall_ne_some]
          intro r hr
          have hlen := congrArg List.length (below?_eq_some_iff.mp hr)
          simp at hlen
        · -- below it: the directory has moved along
          rw [List.concat_eq_append, ← List.append_assoc] at hl
          obtain ⟨rfl, hs⟩ := List.append_inj' hl rfl
          have hsome : (t.get? (source ++ r ++ [v])).isSome := by simpa using hsome
          rw [get?_move t hst hts, habove hsource, below?_append]
          exact ht.parents _ _ hsome

theorem Lawful.replace {t' : Tree} (ht : t.Lawful) (h : t.replace working p b = .ok t') :
    t'.Lawful := by
  obtain ⟨-, z, hnamed, hnot, rfl⟩ := replace_eq_ok_iff.mp h
  exact ht.set (entryway_of_namedPlace hnamed) hnot b

theorem Lawful.rename {t' : Tree} {p' : Path} (ht : t.Lawful)
    (h : t.rename working p p' = .ok t') : t'.Lawful := by
  obtain ⟨source, target, _, _, -, htarget, rfl | ⟨hst, hts, rfl⟩⟩ := exists_move_of_rename h
  · exact ht
  · exact ht.move (entryway_of_namedPlace htarget) hst hts

end Tree

end TextPatch
