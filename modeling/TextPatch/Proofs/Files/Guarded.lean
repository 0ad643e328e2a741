/-
# Places below a standing directory

Whether a place lies in a directory is decided on its path without links
(`Path.isBelow_ofNames_iff`).  A path that is written with the names of a standing directory leads
through that directory (`Stands.follows_names`), but from there on it may lead anywhere: through
links on the way, and through one at its end.  It names an entry of the directory that it comes to
on the way (`names_of_namedPlace`), and it leads to that entry unless a link is there
(`Names.locate_eq`).  The backup of a file is in the same directory as the file (`Names.backup`).

Renaming moves the entry that one path names to the place that another one names
(`exists_move_of_rename`).
-/
import TextPatch.Proofs.Files.Standing

namespace TextPatch

/-! ## 1. Below a directory -/

namespace Path

theorem Component.ofPiece?_of_isName {s : String} (h : IsName s) :
    Component.ofPiece? s.toList = some (.name s) := by
  unfold Component.ofPiece?
  rw [if_neg (by simp [h.ne_nil, h.ne_here]), if_neg h.ne_up, String.ofList_toList]

theorem filterMap_ofPiece? : ∀ {l : Location}, AreNames l →
    (l.map String.toList).filterMap Component.ofPiece? = l.map .name
  | [], _ => rfl
  | s :: l, hl => by
    rw [List.map_cons, List.filterMap_cons_some (Component.ofPiece?_of_isName (hl s (by simp))),
      filterMap_ofPiece? fun u hu => hl u (List.mem_cons_of_mem _ hu), List.map_cons]

/-- The components of the path of a place are the root and its names. -/
theorem components_ofNames {l : Location} (hl : AreNames l) :
    (ofNames l).components = .root :: l.map .name := by
  have hpieces : (ofNames l).pieces.filterMap Component.ofPiece? = l.map .name := by
    by_cases hne : l = []
    · subst hne
      rw [pieces_ofNames_nil]
      rfl
    · rw [pieces_ofNames hl hne, List.filterMap_cons_none (by rfl), filterMap_ofPiece? hl]
  unfold components
  simp only [hasRoot_ofNames, if_true, hpieces]

/-- **A place is in a directory** exactly if its path begins with that of the directory. -/
theorem isBelow_ofNames_iff {l r : Location} (hl : AreNames l) (hr : AreNames r) :
    (ofNames r).isBelow (ofNames l) = true ↔ l <+: r := by
  have hinj : Function.Injective Component.name := fun _ _ h => by cases h; rfl
  unfold isBelow
  rw [components_ofNames hl, components_ofNames hr, List.isPrefixOf_iff_prefix,
    List.cons_prefix_cons, List.prefix_map_iff_of_injective hinj]
  simp

end Path

namespace Tree

variable {t : Tree} {working : Location} {links : List Location} {l r k z : Location}
  {p : Path} {s u : String}

/-- A place that the path of a place leads to has names that entries can have. -/
theorem areNames_of_locate (h : t.locate working true (Path.ofNames l) = .ok r) : AreNames r := by
  obtain ⟨-, -, -, hwalk⟩ := locate_eq_ok_iff.mp h
  rw [if_pos (Path.hasRoot_ofNames l)] at hwalk
  obtain ⟨links, -, hfollows⟩ := walk_eq_ok_iff.mp hwalk
  rcases hfollows.stands_or (fun s hs => Path.isName_of_mem_steps hs) (stands_nil t) with
    hr | ⟨k, s, rfl, hk, hs, -, -⟩
  · exact hr.names
  · exact hk.names.append (by simpa [AreNames] using hs)

/-- **The names of a standing directory** lead to it, whatever comes behind them. -/
theorem Stands.follows_names {rest : List Step} : ∀ {l q : Location}, t.Stands (q ++ l) →
    Follows t links q (l.map .name ++ rest) r → Follows t links (q ++ l) rest r
  | [], q, _, h => by simpa using h
  | s :: l, q, hl, h => by
    have hsplit : q ++ s :: l = (q ++ [s]) ++ l := by simp
    have hdir : t.isDirectory (q ++ [s]) = true :=
      hl.directories _ (by rw [hsplit]; exact List.prefix_append _ _)
    rw [hsplit] at hl ⊢
    rw [List.map_cons, List.cons_append] at h
    cases h with
    | name _ _ _ hrest => exact hl.follows_names hrest
    | link _ _ hlink _ =>
      rw [isDirectory_iff.mp hdir] at hlink
      cases hlink

/-! ## 2. The entry that a path names -/

/-- **A place that a path names** is an entry of the directory that the path comes to. -/
theorem names_of_namedPlace {b : Bool} (hslashes : withoutSlashes p = (p, false))
    (h : t.namedPlace working p = .ok (z, b)) :
    b = false ∧ ∃ k s, z = k ++ [s] ∧ t.Names working p k s := by
  unfold namedPlace at h
  rw [hslashes] at h
  obtain ⟨l, hlocate, h⟩ := bind_eq_ok.mp h
  obtain ⟨before, s, hsteps, hz⟩ : ∃ before s, p.steps = before ++ [.name s] ∧
      (l, false) = (z, b) := by
    split at h
    · rename_i s hs
      obtain ⟨before, hbefore⟩ := List.getLast?_eq_some_iff.mp hs
      exact ⟨before, s, hbefore, Except.ok.inj h⟩
    · cases h
  obtain ⟨rfl, rfl⟩ := Prod.mk.inj hz
  obtain ⟨hzero, -, hsize, hwalk⟩ := locate_eq_ok_iff.mp hlocate
  rw [hsteps] at hwalk
  obtain ⟨links, k, hlinks, hfollows, hdir, hlen, rfl⟩ := exists_name_of_walk hwalk
  exact ⟨rfl, k, s, rfl, ⟨hzero, hsize, ⟨before, links, hsteps, hlinks, hfollows⟩, hdir, hlen⟩⟩

/-- A path that ends with a name and leads somewhere names an entry. -/
theorem names_of_locate {before : List Step} (hsteps : p.steps = before ++ [.name s])
    (h : t.locate working true p = .ok r) : ∃ k, t.Names working p k s := by
  obtain ⟨hzero, -, hsize, hwalk⟩ := locate_eq_ok_iff.mp h
  obtain ⟨links, hlinks, hfollows⟩ := walk_eq_ok_iff.mp hwalk
  rw [hsteps] at hfollows
  obtain ⟨k, ks, ms, rfl, hfirst, hname⟩ := follows_append hfollows
  have hks : ks.length ≤ linkLimit := by
    rw [List.length_append] at hlinks
    omega
  obtain ⟨hdir, hlen⟩ : t.isDirectory k = true ∧ s.utf8ByteSize ≤ nameLimit := by
    cases hname with
    | name hdir hlen _ _ => exact ⟨hdir, hlen⟩
    | link hdir hlen _ _ => exact ⟨hdir, hlen⟩
  exact ⟨k, hzero, hsize, ⟨before, ks, hsteps, hks, hfirst⟩, hdir, hlen⟩

/-- **A path leads to the entry that it names**, unless a link is there. -/
theorem Names.locate_eq (h : t.Names working p k s)
    (hnot : ∀ target, t.get? (k ++ [s]) ≠ some (.link target)) :
    t.locate working true p = .ok (k ++ [s]) := by
  obtain ⟨before, links, hsteps, hlinks, hfollows⟩ := h.steps
  refine locate_eq_ok_iff.mpr ⟨h.no_zero, by simpa using h.text_ne_nil, h.size_le, ?_⟩
  rw [hsteps]
  have hwhole := hfollows.append (.name h.directory h.short hnot (.done (k ++ [s])))
  exact hwhole.walk_eq (by simpa using hlinks)

/-- A file that is put under a name is read there. -/
theorem Names.read_set {b : ByteArray} (h : t.Names working p k s)
    (hz : t.isDirectory (k ++ [s]) = false) (hread : t.read working p = .ok b)
    (content : ByteArray) : (t.set (k ++ [s]) (.file content)).read working p = .ok content := by
  have hget : (t.set (k ++ [s]) (.file content)).get? (k ++ [s]) = some (.file content) :=
    get?_set_file hz
  exact read_eq_ok_iff.mpr
    ⟨_, (h.set_self hz hread content).locate_eq (by rw [hget]; simp), hget⟩

/-- The path of a place names its last name in the directory that the names before it lead to. -/
theorem Names.ofNames {q : Location} (hq : AreNames (q ++ [s]))
    (h : t.Names working (Path.ofNames (q ++ [s])) k u) :
    u = s ∧ ∃ links, Follows t links [] (q.map .name) k := by
  obtain ⟨before, links, hsteps, -, hfollows⟩ := h.steps
  rw [Path.steps_ofNames hq (by simp), List.map_append] at hsteps
  obtain ⟨rfl, hlast⟩ := List.append_inj' hsteps rfl
  rw [if_pos (Path.hasRoot_ofNames _)] at hfollows
  exact ⟨by simpa using hlast.symm, links, hfollows⟩

/-- The path of a place that can be read names an entry. -/
theorem exists_names_of_read {n : Location} {b : ByteArray} (hn : AreNames n)
    (hread : t.read working (Path.ofNames n) = .ok b) :
    ∃ q s k, n = q ++ [s] ∧ t.Names working (Path.ofNames n) k s := by
  obtain ⟨r, hlocate, hget⟩ := read_eq_ok_iff.mp hread
  rcases List.eq_nil_or_concat n with rfl | ⟨q, s, hq⟩
  · -- the root is a directory
    obtain ⟨-, -, -, hwalk⟩ := locate_eq_ok_iff.mp hlocate
    rw [Path.steps_ofNames_nil, if_pos (Path.hasRoot_ofNames [])] at hwalk
    obtain ⟨links, -, hfollows⟩ := walk_eq_ok_iff.mp hwalk
    cases hfollows with
    | here _ hrest =>
      cases hrest
      rw [get?_nil] at hget
      cases hget
  · rw [List.concat_eq_append] at hq
    subst hq
    have hsteps : (Path.ofNames (q ++ [s])).steps = q.map .name ++ [.name s] := by
      rw [Path.steps_ofNames hn (by simp), List.map_append]
      rfl
    obtain ⟨k, hnames⟩ := names_of_locate hsteps hlocate
    exact ⟨q, s, k, rfl, hnames⟩

/-- The path of a place names its last name in some directory. -/
theorem exists_names_of_namedPlace {n : Location} {b : Bool} (hn : AreNames n)
    (h : t.namedPlace working (Path.ofNames n) = .ok (z, b)) :
    ∃ q s k, n = q ++ [s] ∧ z = k ++ [s] ∧ t.Names working (Path.ofNames n) k s := by
  rcases List.eq_nil_or_concat n with rfl | ⟨q, s, hq⟩
  · exact absurd h namedPlace_root
  · rw [List.concat_eq_append] at hq
    subst hq
    have hs : IsName s := hn s (by simp)
    obtain ⟨-, k, u, rfl, hnames⟩ := names_of_namedPlace (Path.withoutSlashes_ofNames hs) h
    obtain ⟨rfl, -⟩ := hnames.ofNames hn
    exact ⟨q, u, k, rfl, rfl, hnames⟩

/-- **The backup of a file** is named in the directory in which the file is. -/
theorem Names.backup {q k' : Location} {u' : String} (hq : AreNames (q ++ [s]))
    (h : t.Names working (Path.ofNames (q ++ [s])) k u)
    (hbackup : t.Names working (Path.ofNames (q ++ [s ++ backupSuffix])) k' u') : k' = k := by
  obtain ⟨-, links, hfollows⟩ := h.ofNames hq
  obtain ⟨-, links', hfollows'⟩ := hbackup.ofNames hq.backup
  exact (hfollows'.unique hfollows).2

theorem Names.backup_of_locate {q : Location} (hq : AreNames (q ++ [s]))
    (h : t.Names working (Path.ofNames (q ++ [s])) k u)
    (hlocate : t.locate working true (Path.ofNames (q ++ [s])).backup = .ok r) :
    t.Names working (Path.ofNames (q ++ [s])).backup k (s ++ backupSuffix) := by
  rw [Path.backup_ofNames] at hlocate ⊢
  have hsteps : (Path.ofNames (q ++ [s ++ backupSuffix])).steps =
      q.map .name ++ [.name (s ++ backupSuffix)] := by
    rw [Path.steps_ofNames hq.backup (by simp), List.map_append]
    rfl
  obtain ⟨k', hbackup⟩ := names_of_locate hsteps hlocate
  obtain rfl := h.backup hq hbackup
  exact hbackup

theorem Names.backup_of_namedPlace {q : Location} {b : Bool} (hq : AreNames (q ++ [s]))
    (h : t.Names working (Path.ofNames (q ++ [s])) k u)
    (hnamed : t.namedPlace working (Path.ofNames (q ++ [s])).backup = .ok (z, b)) :
    z = k ++ [s ++ backupSuffix] := by
  rw [Path.backup_ofNames] at hnamed
  obtain ⟨q', s', k', hlast, rfl, hbackup⟩ := exists_names_of_namedPlace hq.backup hnamed
  obtain ⟨rfl, rfl⟩ : q = q' ∧ s ++ backupSuffix = s' := by simpa using hlast
  obtain rfl := h.backup hq hbackup
  rfl

/-- A path that is written with a standing directory and one name names that entry of it. -/
theorem Stands.namedPlace_eq {b : Bool} (hl : t.Stands l) (hs : IsName s)
    (h : t.namedPlace working (Path.ofNames (l ++ [s])) = .ok (z, b)) : z = l ++ [s] := by
  have hnames : AreNames (l ++ [s]) := hl.names.append (by simpa [AreNames] using hs)
  obtain ⟨q, u, k, hlast, rfl, hnamed⟩ := exists_names_of_namedPlace hnames h
  obtain ⟨rfl, rfl⟩ : l = q ∧ s = u := by simpa using hlast
  obtain ⟨-, links, hfollows⟩ := hnamed.ofNames hnames
  rw [← List.append_nil (l.map Step.name)] at hfollows
  have hrest : Follows t links l [] k := by
    simpa using Stands.follows_names (q := []) (by simpa using hl) hfollows
  cases hrest
  rfl

/-! ## 3. Renaming -/

/-- **Renaming** moves what one path names to what the other one names; it does nothing if these are
the same place. -/
theorem exists_move_of_rename {t' : Tree} {q : Path} (h : t.rename working p q = .ok t') :
    ∃ source target b b', t.namedPlace working p = .ok (source, b) ∧
      t.namedPlace working q = .ok (target, b') ∧
        (t' = t ∨ below? source target = none ∧ below? target source = none ∧
          t' = t.move source target) := by
  unfold rename at h
  obtain ⟨⟨source, b⟩, hsource, h⟩ := bind_eq_ok.mp h
  obtain ⟨⟨target, b'⟩, htarget, h⟩ := bind_eq_ok.mp h
  refine ⟨source, target, b, b', hsource, htarget, ?_⟩
  simp only at h
  split at h
  · cases h
  · split at h
    · cases h
    · split at h
      · exact Or.inl (Except.ok.inj h).symm
      · split at h
        · cases h
        · rename_i hbelow
          split at h
          · cases h
          · rename_i hbelow'
            obtain ⟨-, -, hmove⟩ := bind_eq_ok.mp h
            exact Or.inr ⟨by simpa using hbelow, by simpa using hbelow',
              (Except.ok.inj hmove).symm⟩

/-- What is neither at the old place nor at the new one, nor below them, stays when something is
moved. -/
theorem get?_move_ne {source target : Location} (hst : below? source target = none)
    (hts : below? target source = none) (hs : ¬ source <+: z) (ht : ¬ target <+: z) :
    (t.move source target).get? z = t.get? z := by
  have hnone : ∀ {a : Location}, ¬ a <+: z → below? a z = none := by
    intro a ha
    rw [Option.eq_none_iff_forall_ne_some]
    intro rest hrest
    exact ha ⟨rest, (below?_eq_some_iff.mp hrest).symm⟩
  rw [get?_move t hst hts, hnone hs, hnone ht]
  rfl

end Tree

end TextPatch
