/-
# What is seen from a directory

Seen from a directory are the places in it and the directories on the way to it.  Without links, the
path of a place in the directory leads through such places only, and only their kinds matter before
the last one (`SameKind`).  So operations on such paths depend on nothing else in the tree:

* in two trees that hold the same there (`AgreeAt`), such paths lead to the same and the same is
  read (`AgreeAt.read`);
* it does no harm if one place holds two different files, as long as it is not the place in question
  (`Similar`): reading finds the same, and writing fails in both trees or puts the same file at the
  same place (`Similar.write`, `Similar.replace`).
-/
import TextPatch.Proofs.Files.Guarded

namespace TextPatch.Tree

/-- A tree without links. -/
def Unlinked (t : Tree) : Prop := ∀ l target, t.get? l ≠ some (.link target)

variable {t t' : Tree} {working working' l k z : Location} {content : ByteArray}

theorem Unlinked.set (ht : t.Unlinked) (hk : k ≠ []) : (t.set k (.file content)).Unlinked := by
  intro q target
  rw [get?_set t hk]
  split
  · simp
  · exact ht q target

/-! ## 1. Standing directories -/

/-- In a plain tree every directory stands. -/
theorem Plain.stands (ht : t.Plain) (hl : t.isDirectory l = true) : t.Stands l where
  names := ht.names l (by rw [isDirectory_iff.mp hl]; rfl)
  directories q hq := by
    obtain ⟨m, rfl⟩ := hq
    by_cases hm : m = []
    · rwa [hm, List.append_nil] at hl
    · exact isDirectory_iff.mpr (ht.directory_above hm (by rw [isDirectory_iff.mp hl]; rfl))

/-- What a path leads to in a plain tree has names that entries can have. -/
theorem Plain.areNames_of_locate (ht : t.Plain) {p : Path}
    (h : t.locate working true p = .ok l) : AreNames l := by
  obtain ⟨-, -, -, hwalk⟩ := locate_eq_ok_iff.mp h
  obtain ⟨before, f, -, hsteps, -⟩ := Path.exists_steps p
  have hstart : t.Stands (if p.hasRoot then [] else working) := by
    -- the path has a step, and no step is taken but from a directory
    obtain ⟨step, rest, hcons⟩ := List.exists_cons_of_ne_nil (l := p.steps) (by simp [hsteps])
    rw [hcons, walk_cons] at hwalk
    cases hdir : t.isDirectory (if p.hasRoot then [] else working) with
    | true => exact ht.stands hdir
    | false =>
      rw [hdir] at hwalk
      cases hwalk
  obtain ⟨links, -, hfollows⟩ := walk_eq_ok_iff.mp hwalk
  rcases hfollows.stands_or (fun s hs => Path.isName_of_mem_steps hs) hstart with
    hl | ⟨q, s, rfl, hq, hs, -, -⟩
  · exact hl.names
  · exact hq.names.append (by simpa [AreNames] using hs)

/-- The root is a directory. -/
theorem ne_nil_of_isDirectory (h : t.isDirectory l = false) : l ≠ [] := by
  rintro rfl
  rw [isDirectory_iff.mpr (get?_nil t)] at h
  cases h

/-! ## 2. Walks along names -/

/-- Two trees have the same kind of entry at a place, as far as a walk without links can tell. -/
structure SameKind (t t' : Tree) (k : Location) : Prop where
  isDirectory : t'.isDirectory k = t.isDirectory k
  isSome : (t'.get? k).isSome = (t.get? k).isSome

theorem SameKind.of_get?_eq (h : t'.get? k = t.get? k) : SameKind t t' k :=
  ⟨by unfold Tree.isDirectory; rw [h], by rw [h]⟩

/-- A walk along names depends on the kinds of the entries on the way. -/
theorem walk_names_congr (ht : t.Unlinked) (ht' : t'.Unlinked) {follow : Bool} {links : Nat} :
    ∀ {names l : Location}, (∀ p, p <+: names → SameKind t t' (l ++ p)) →
      walk t' follow links l (names.map Step.name) = walk t follow links l (names.map Step.name)
  | [], l, _ => by
    rw [List.map_nil, walk_nil, walk_nil]
  | s :: names, l, h => by
    have hhere := h [] List.nil_prefix
    rw [List.append_nil] at hhere
    have ih : walk t' follow links (l ++ [s]) (names.map Step.name) =
        walk t follow links (l ++ [s]) (names.map Step.name) :=
      walk_names_congr ht ht' fun p hp => by
        have hbelow := h (s :: p) (List.cons_prefix_cons.mpr ⟨rfl, hp⟩)
        rwa [← List.singleton_append, ← List.append_assoc] at hbelow
    have hnext : ∀ {u : Tree}, u.Unlinked → walk u follow links l ((s :: names).map Step.name) =
        if !u.isDirectory l then .error (u.noWayOn l)
        else if nameLimit < s.utf8ByteSize then .error .nameTooLong
        else walk u follow links (l ++ [s]) (names.map Step.name) := by
      intro u hu
      rw [List.map_cons, walk_cons]
      simp only
      split
      · rfl
      · split
        · rfl
        · split
          · rename_i target hlink
            exact absurd hlink (hu _ _)
          · rfl
    rw [hnext ht, hnext ht', ih, hhere.isDirectory, noWayOn, noWayOn, hhere.isSome]

/-- Where the path of a place leads depends on the kinds of the entries on the way. -/
theorem locate_ofNames_congr (ht : t.Unlinked) (ht' : t'.Unlinked) (hk : AreNames k)
    (h : ∀ p, p <+: k → SameKind t t' p) (follow : Bool) :
    t'.locate working' follow (Path.ofNames k) = t.locate working follow (Path.ofNames k) := by
  have hwalk : walk t' follow linkLimit [] (Path.ofNames k).steps =
      walk t follow linkLimit [] (Path.ofNames k).steps := by
    by_cases hne : k = []
    · subst hne
      have hroot : ∀ u : Tree, walk u follow linkLimit [] [.here] = .ok [] := by
        intro u
        rw [walk_cons, isDirectory_iff.mpr (get?_nil u), walk_nil]
        rfl
      rw [Path.steps_ofNames_nil, hroot, hroot]
    · rw [Path.steps_ofNames hk hne]
      exact walk_names_congr ht ht' h
  unfold locate
  rw [if_pos (Path.hasRoot_ofNames k), if_pos (Path.hasRoot_ofNames k), hwalk]

/-- A file is read alike where its path leads to the same and the same stands there. -/
theorem read_ofNames_congr (ht : t.Unlinked) (hk : AreNames k)
    (hlocate : t'.locate working' true (Path.ofNames k) = t.locate working true (Path.ofNames k))
    (hget : t'.get? k = t.get? k) :
    t'.read working' (Path.ofNames k) = t.read working (Path.ofNames k) := by
  unfold read
  rw [hlocate]
  cases hloc : t.locate working true (Path.ofNames k) with
  | error cause => rfl
  | ok r =>
    obtain ⟨rfl, -⟩ := (locate_ofNames_iff ht hk).mp hloc
    simp only [bind, Except.bind, hget]

/-! ## 3. Trees that agree -/

/-- A place is seen from a directory: it lies in it or on the way to it. -/
def Sees (l k : Location) : Prop := l <+: k ∨ k <+: l

/-- What lies on the way to a place in a directory is seen from the directory. -/
theorem sees_above {q : Location} (hk : l <+: k) (hq : q <+: k) : Sees l q :=
  List.prefix_or_prefix_of_prefix hk hq

/-- Two trees hold the same wherever a directory sees. -/
def AgreeAt (l : Location) (t t' : Tree) : Prop := ∀ k, Sees l k → t'.get? k = t.get? k

namespace AgreeAt

theorem symm (h : AgreeAt l t t') : AgreeAt l t' t := fun k hk => (h k hk).symm

theorem trans {t'' : Tree} (h : AgreeAt l t t') (h' : AgreeAt l t' t'') : AgreeAt l t t'' :=
  fun k hk => (h' k hk).trans (h k hk)

theorem set (h : AgreeAt l t t') (hz : z ≠ []) :
    AgreeAt l (t.set z (.file content)) (t'.set z (.file content)) := by
  intro k hk
  rw [get?_set t hz, get?_set t' hz, h k hk]

/-- **What is in a directory is read alike** in trees that agree there. -/
theorem read (h : AgreeAt l t t') (ht : t.Unlinked) (ht' : t'.Unlinked) (hk : AreNames k)
    (hlk : l <+: k) : t'.read working' (Path.ofNames k) = t.read working (Path.ofNames k) :=
  read_ofNames_congr ht hk
    (locate_ofNames_congr ht ht' hk (fun _ hp => .of_get?_eq (h _ (sees_above hlk hp))) true)
    (h k (Or.inl hlk))

end AgreeAt

/-! ## 4. Trees that differ in one file -/

/-- Two trees without links hold the same wherever a directory sees, but for one place, where the
kinds are the same. -/
structure Similar (l z : Location) (t t' : Tree) : Prop where
  unlinked : t.Unlinked
  unlinked' : t'.Unlinked
  same : ∀ k, Sees l k → k ≠ z → t'.get? k = t.get? k
  kind : SameKind t t' z

/-- How two operations end that put the same file at a place: they fail alike, or the file is put
there in both trees. -/
inductive PutAlike (k : Location) (content : ByteArray) (t t' : Tree) :
    Except IoError Tree → Except IoError Tree → Prop
  | failed (cause : IoError) : PutAlike k content t t' (.error cause) (.error cause)
  | put (hdir : t.isDirectory k = false) :
      PutAlike k content t t' (.ok (t.set k (.file content))) (.ok (t'.set k (.file content)))

/-- A new file may take any place but that of a directory. -/
theorem mayReplace_file_eq (t : Tree) (content : ByteArray) (k : Location) :
    t.mayReplace (.file content) k =
      if t.isDirectory k then .error .isADirectory else .ok () := by
  unfold mayReplace Tree.isDirectory
  cases t.get? k with
  | none => rfl
  | some e => cases e <;> rfl

namespace Similar

theorem sameKind (h : Similar l z t t') (hk : Sees l k) : SameKind t t' k := by
  by_cases hz : k = z
  · rw [hz]
    exact h.kind
  · exact .of_get?_eq (h.same k hk hz)

theorem set (h : Similar l z t t') (hk : k ≠ []) (hz : k ≠ z) :
    Similar l z (t.set k (.file content)) (t'.set k (.file content)) where
  unlinked := h.unlinked.set hk
  unlinked' := h.unlinked'.set hk
  same q hq hne := by rw [get?_set t hk, get?_set t' hk, h.same q hq hne]
  kind := by
    have hget : ∀ u : Tree, (u.set k (.file content)).get? z = u.get? z := fun u =>
      get?_set_ne u _ (Ne.symm hz)
    constructor
    · unfold Tree.isDirectory
      rw [hget, hget]
      exact h.kind.isDirectory
    · rw [hget, hget, h.kind.isSome]

theorem locate (h : Similar l z t t') (hk : AreNames k) (hlk : l <+: k)
    (working working' : Location) (follow : Bool) :
    t'.locate working' follow (Path.ofNames k) = t.locate working follow (Path.ofNames k) :=
  locate_ofNames_congr h.unlinked h.unlinked' hk
    (fun _ hp => h.sameKind (sees_above hlk hp)) follow

theorem read (h : Similar l z t t') (hk : AreNames k) (hlk : l <+: k) (hz : k ≠ z) :
    t'.read working' (Path.ofNames k) = t.read working (Path.ofNames k) :=
  read_ofNames_congr h.unlinked hk (h.locate hk hlk _ _ true) (h.same k (Or.inl hlk) hz)

theorem present (h : Similar l z t t') (hk : AreNames k) (hlk : l <+: k) :
    t'.present working' (Path.ofNames k) = t.present working (Path.ofNames k) := by
  unfold Tree.present entryAt
  rw [h.locate hk hlk working working' true]
  cases hloc : t.locate working true (Path.ofNames k) with
  | error cause => rfl
  | ok r =>
    obtain ⟨rfl, -⟩ := (locate_ofNames_iff h.unlinked hk).mp hloc
    exact (h.sameKind (Or.inl hlk)).isSome

theorem canonicalPath (h : Similar l z t t') (hk : AreNames k) (hlk : l <+: k) :
    t'.canonicalPath working' (Path.ofNames k) = t.canonicalPath working (Path.ofNames k) := by
  unfold Tree.canonicalPath
  rw [h.locate hk hlk working working' true]
  cases hloc : t.locate working true (Path.ofNames k) with
  | error cause => rfl
  | ok r =>
    obtain ⟨rfl, -⟩ := (locate_ofNames_iff h.unlinked hk).mp hloc
    simp only [bind, Except.bind, (h.sameKind (Or.inl hlk)).isSome]

/-- **A file is written alike** in similar trees. -/
theorem write (h : Similar l z t t') (hk : AreNames k) (hlk : l <+: k) :
    PutAlike k content t t' (t.write working (Path.ofNames k) content)
      (t'.write working' (Path.ofNames k) content) := by
  unfold Tree.write
  rw [h.locate hk hlk working working' true]
  cases hloc : t.locate working true (Path.ofNames k) with
  | error cause => exact .failed cause
  | ok r =>
    obtain ⟨rfl, -⟩ := (locate_ofNames_iff h.unlinked hk).mp hloc
    simp only [bind, Except.bind, (h.sameKind (Or.inl hlk)).isDirectory]
    cases hdir : t.isDirectory r with
    | true => exact .failed _
    | false => exact .put hdir

/-- **A file is replaced alike** in similar trees. -/
theorem replace (h : Similar l z t t') {names : Location} {s : String}
    (hk : AreNames (l ++ (names ++ [s]))) :
    PutAlike (l ++ (names ++ [s])) content t t'
      (t.replace working (Path.ofNames (l ++ (names ++ [s]))) content)
      (t'.replace working' (Path.ofNames (l ++ (names ++ [s]))) content) := by
  have hlk : l <+: l ++ (names ++ [s]) := List.prefix_append l _
  rw [← List.append_assoc] at hk hlk ⊢
  have hs : IsName s := hk s (by simp)
  have hl : l <+: l ++ names := List.prefix_append l names
  have hplace : t'.namedPlace working' (Path.ofNames (l ++ names ++ [s])) =
      t.namedPlace working (Path.ofNames (l ++ names ++ [s])) := by
    unfold namedPlace
    rw [Path.withoutSlashes_ofNames hs]
    simp only [bind, Except.bind]
    rw [h.locate hk hlk working working' false]
  have hmake : t'.mayMake working' (Path.ofNames (l ++ names ++ [s])) =
      t.mayMake working (Path.ofNames (l ++ names ++ [s])) := by
    unfold mayMake
    rw [Path.temporaryPath_ofNames working hk.left hs, Path.temporaryPath_ofNames working' hk.left hs,
      Path.directoryOf_ofNames hk.left hs, h.locate hk.left hl working working' true]
    cases hloc : t.locate working true (Path.ofNames (l ++ names)) with
    | error cause => rfl
    | ok d =>
      obtain ⟨rfl, -⟩ := (locate_ofNames_iff h.unlinked hk.left).mp hloc
      have hkind := h.sameKind (Or.inl hl)
      simp only [bind, Except.bind, hkind.isDirectory, noWayOn, hkind.isSome]
  have hkind := h.sameKind (Or.inl hlk)
  unfold Tree.replace
  rw [hmake, hplace]
  cases t.mayMake working (Path.ofNames (l ++ names ++ [s])) with
  | error cause => exact .failed cause
  | ok u =>
    simp only [bind, Except.bind]
    cases hnamed : t.namedPlace working (Path.ofNames (l ++ names ++ [s])) with
    | error cause => exact .failed cause
    | ok r =>
      obtain ⟨rfl, -⟩ := (namedPlace_ofNames_iff h.unlinked hk).mp hnamed
      simp only [Bool.false_eq_true, if_false]
      rw [mayReplace_file_eq, mayReplace_file_eq, hkind.isDirectory]
      cases hdir : t.isDirectory (l ++ names ++ [s]) with
      | true => exact .failed _
      | false => exact .put hdir

end Similar

end TextPatch.Tree
