/-
# The places that a pass touches

A file patch touches one place or two: where it makes a backup, if there is none, and where it puts
the file that it writes (`Apply.Touches`).  A pass touches those of all file patches that it tries,
and that of its manifest if it writes it (`Pass.Touches`).

`Marks` says what becomes of touched places: nothing else changes, a touched place holds a file in
the end, and one outside the root held none before.  So a place outside that has been touched is not
what it was.  A file patch leaves such marks (`marks_filePatch`), and marks add up (`Marks.append`),
so all file patches of a pass leave them (`Pass.marked`).

A file patch checks where its file leads, but neither where the file is nor where its backup leads.
Unless a link is at one of these two names, this is enough (`Touches.inside`).
-/
import TextPatch.Proofs.Extensions.Passes
import TextPatch.Proofs.Extensions.Spared
import TextPatch.Proofs.Files.Guarded

namespace TextPatch

/-! ## 1. What the check of a path is worth -/

namespace Enclosure

/-- A relative path names the place `z`. -/
def FileAt (e : Enclosure) (name : String) (h : TreeHost) (z : Location) : Prop :=
  ∃ path b, e.place ⟨name⟩ = .ok path ∧ h.tree.namedPlace h.working path = .ok (z, b)

/-- The backup of what a relative path names has the place `z`. -/
def BackupAt (e : Enclosure) (name : String) (h : TreeHost) (z : Location) : Prop :=
  ∃ path b, e.place ⟨name⟩ = .ok path ∧ h.tree.namedPlace h.working path.backup = .ok (z, b)

variable {e : Enclosure} {h : TreeHost} {l r : Location} {name : String} {path : Path}

theorem place_of_resolve (hresolve : ((e.resolve ⟨name⟩ : OnTree _) h).1 = .ok path) :
    e.place ⟨name⟩ = .ok path :=
  (resolve_apply (Prod.eta ((e.resolve ⟨name⟩ : OnTree _) h)).symm).2 path hresolve

/-- A path that has been checked is that of a place in the root, by its text alone. -/
theorem exists_ofNames_of_resolve (hroot : e.root = Path.ofNames l) (hl : AreNames l)
    (hresolve : ((e.resolve ⟨name⟩ : OnTree _) h).1 = .ok path) :
    ∃ n, AreNames n ∧ path = Path.ofNames n := by
  obtain ⟨names, hinside, rfl⟩ := (place_eq_ok hroot hl).mp (place_of_resolve hresolve)
  exact ⟨_, hl.append (Path.areNames_of_inside? hinside), rfl⟩

/-- **What a path that has been checked leads to** is in the root. -/
theorem below_of_resolve (hroot : e.root = Path.ofNames l) (hl : AreNames l)
    (hresolve : ((e.resolve ⟨name⟩ : OnTree _) h).1 = .ok path)
    (hlocate : h.tree.locate h.working true path = .ok r) (hget : (h.tree.get? r).isSome) :
    l <+: r := by
  have hplace := place_of_resolve hresolve
  obtain ⟨n, hn, rfl⟩ := exists_ofNames_of_resolve hroot hl hresolve
  have hpresent : h.tree.present h.working (Path.ofNames n) = true :=
    Tree.present_eq_true_iff.mpr ⟨r, hlocate, hget⟩
  unfold resolve at hresolve
  rw [hplace] at hresolve
  simp only at hresolve
  rw [OnTree.bind_apply, OnTree.present_apply] at hresolve
  simp only [hpresent, if_true] at hresolve
  rw [confirm, OnTree.bind_apply, OnTree.canonicalPath_apply] at hresolve
  cases hcanonical : h.tree.canonicalPath h.working (Path.ofNames n) with
  | error cause =>
    rw [hcanonical] at hresolve
    cases hresolve
  | ok canonical =>
    obtain ⟨r', hlocate', -, -, rfl⟩ := Tree.canonicalPath_eq_ok_iff.mp hcanonical
    obtain rfl := Except.ok.inj (hlocate.symm.trans hlocate')
    rw [hcanonical] at hresolve
    simp only [OnTree.pure_apply] at hresolve
    split at hresolve
    · rename_i hbelow
      rw [hroot] at hbelow
      exact (Path.isBelow_ofNames_iff hl (Tree.areNames_of_locate hlocate)).mp hbelow
    · cases hresolve

/-- **A file whose path has been checked** is in the root if it is named there itself, and not
through a link. -/
theorem below_of_names {k : Location} {s : String} {b : ByteArray}
    (hroot : e.root = Path.ofNames l) (hl : h.tree.Stands l)
    (hresolve : ((e.resolve ⟨name⟩ : OnTree _) h).1 = .ok path)
    (hnames : h.tree.Names h.working path k s) (hfile : h.tree.get? (k ++ [s]) = some (.file b)) :
    l <+: k := by
  have hlocate := hnames.locate_eq (by rw [hfile]; simp)
  have hbelow := below_of_resolve hroot hl.names hresolve hlocate (by rw [hfile]; rfl)
  rcases List.prefix_concat_iff.mp hbelow with rfl | hk
  · rw [Tree.isDirectory_iff.mp hl.isDirectory] at hfile
    cases hfile
  · exact hk

/-- **A file that can be read after the check** is named in a directory.  That is in the root,
unless the name is that of a link. -/
theorem exists_names_of_resolve {content : ByteArray} (hroot : e.root = Path.ofNames l)
    (hl : h.tree.Stands l) (hresolve : ((e.resolve ⟨name⟩ : OnTree _) h).1 = .ok path)
    (hread : h.tree.read h.working path = .ok content) :
    ∃ q s k, AreNames (q ++ [s]) ∧ path = Path.ofNames (q ++ [s]) ∧
      h.tree.Names h.working path k s ∧
        ((∃ target, h.tree.get? (k ++ [s]) = some (.link target)) ∨ l <+: k) := by
  obtain ⟨n, hn, rfl⟩ := exists_ofNames_of_resolve hroot hl.names hresolve
  obtain ⟨q, s, k, rfl, hnames⟩ := Tree.exists_names_of_read hn hread
  refine ⟨q, s, k, hn, rfl, hnames, ?_⟩
  by_cases hlink : ∃ target, h.tree.get? (k ++ [s]) = some (.link target)
  · exact Or.inl hlink
  · obtain ⟨r, hlocate, hget⟩ := Tree.read_eq_ok_iff.mp hread
    rw [hnames.locate_eq (not_exists.mp hlink)] at hlocate
    obtain rfl := Except.ok.inj hlocate
    exact Or.inr (below_of_names hroot hl hresolve hnames hget)

end Enclosure

/-! ## 2. What a file patch touches -/

namespace Apply

/-- A file patch makes its backup at the place `z`: nothing was where the backup leads, and
something is there afterwards. -/
def MakesBackup (e : Enclosure) (p : FilePatch) (h : TreeHost) (z : Location) : Prop :=
  (∃ path, e.place ⟨p.file⟩ = .ok path ∧ h.tree.locate h.working true path.backup = .ok z) ∧
    h.tree.get? z = none ∧ (((filePatch e p : OnTree _) h).2.tree.get? z).isSome

/-- A file patch puts the file that it writes at the place `z`. -/
def WritesFile (e : Enclosure) (p : FilePatch) (h : TreeHost) (z : Location) : Prop :=
  ((filePatch e p : OnTree _) h).1 = .ok true ∧ e.FileAt p.file h z

/-- A file patch touches a place. -/
def Touches (e : Enclosure) (p : FilePatch) (h : TreeHost) (z : Location) : Prop :=
  MakesBackup e p h z ∨ WritesFile e p h z

/-- No link is at the names of a file and of its backup. -/
def IsDirect (e : Enclosure) (p : FilePatch) (h : TreeHost) : Prop :=
  ∀ z target, e.FileAt p.file h z ∨ e.BackupAt p.file h z → h.tree.get? z ≠ some (.link target)

variable {e : Enclosure} {p : FilePatch} {h : TreeHost} {l z : Location}

/-- A file patch that touches a place has checked its path and read its file. -/
theorem Touches.exists_read (htouches : Touches e p h z) :
    ∃ path content, e.place ⟨p.file⟩ = .ok path ∧
      ((e.resolve ⟨p.file⟩ : OnTree _) h).1 = .ok path ∧
        h.tree.read h.working path = .ok content := by
  rcases hrun : (filePatch e p : OnTree _) h with ⟨r, h'⟩
  have hdone : h'.tree ≠ h.tree ∨ r = .ok true := by
    rcases htouches with ⟨-, hnone, hsome⟩ | ⟨hr, -⟩
    · rw [hrun] at hsome
      refine Or.inl fun heq => ?_
      simp only at hsome
      rw [heq, hnone] at hsome
      cases hsome
    · rw [hrun] at hr
      exact Or.inr hr
  -- a path that is refused leaves nothing to do
  obtain ⟨path, hresolve⟩ : ∃ path, ((e.resolve ⟨p.file⟩ : OnTree _) h).1 = .ok path := by
    rcases hcheck : (e.resolve ⟨p.file⟩ : OnTree _) h with ⟨place, h₁⟩
    obtain ⟨rfl, -⟩ := Enclosure.resolve_apply hcheck
    cases place with
    | ok path => exact ⟨path, rfl⟩
    | error cause =>
      unfold filePatch at hrun
      rw [OnTree.bind_apply, hcheck] at hrun
      obtain ⟨rfl, rfl⟩ := Prod.mk.inj hrun
      rcases hdone with hne | hr
      · exact absurd rfl hne
      · cases hr
  have hplace := Enclosure.place_of_resolve hresolve
  cases fileStep_filePatch hrun with
  | untouched hfiles hr =>
    rcases hdone with hne | hr'
    · exact absurd hfiles.1 hne
    · exact absurd hr' hr
  | failed hplace' hread _ _ =>
    rw [hplace] at hplace'
    obtain rfl := Except.ok.inj hplace'
    exact ⟨path, _, hplace, hresolve, hread⟩
  | written hplace' hread _ _ _ =>
    rw [hplace] at hplace'
    obtain rfl := Except.ok.inj hplace'
    exact ⟨path, _, hplace, hresolve, hread⟩

/-- The place at which a file patch puts its file is one that it has read, through a link if it is
not in the root. -/
theorem WritesFile.inside_or (hroot : e.root = Path.ofNames l) (hl : h.tree.Stands l)
    (hwrites : WritesFile e p h z) :
    (∃ target, h.tree.get? z = some (.link target)) ∨ l <+: z := by
  obtain ⟨path, content, hplace, hresolve, hread⟩ := Touches.exists_read (Or.inr hwrites)
  obtain ⟨q, s, k, -, -, hnames, hk⟩ :=
    Enclosure.exists_names_of_resolve hroot hl hresolve hread
  obtain ⟨-, path', b, hplace', hnamed⟩ := hwrites
  rw [hplace] at hplace'
  obtain rfl := Except.ok.inj hplace'
  rw [hnames.namedPlace_eq] at hnamed
  obtain ⟨rfl, -⟩ := Prod.mk.inj (Except.ok.inj hnamed)
  exact hk.imp_right fun hk => hk.trans (List.prefix_append k [s])

/-- **Without links at the two names**, a file patch touches places in the root only. -/
theorem Touches.inside (hroot : e.root = Path.ofNames l) (hl : h.tree.Stands l)
    (hdirect : IsDirect e p h) (htouches : Touches e p h z) : l <+: z := by
  rcases htouches with hmakes | hwrites
  · obtain ⟨path, content, hplace, hresolve, hread⟩ := Touches.exists_read (Or.inl hmakes)
    obtain ⟨q, s, k, hnames, rfl, hfile, hk⟩ :=
      Enclosure.exists_names_of_resolve hroot hl hresolve hread
    have hk : l <+: k := by
      refine hk.resolve_left ?_
      rintro ⟨target, hlink⟩
      exact hdirect _ target (Or.inl ⟨_, _, hplace, hfile.namedPlace_eq⟩) hlink
    -- the backup is in the directory of the file
    obtain ⟨⟨path', hplace', hlocate⟩, -, -⟩ := hmakes
    rw [hplace] at hplace'
    obtain rfl := Except.ok.inj hplace'
    have hbackup := hfile.backup_of_locate hnames hlocate
    rw [hbackup.locate_eq fun target => hdirect _ target
      (Or.inr ⟨_, _, hplace, hbackup.namedPlace_eq⟩)] at hlocate
    obtain rfl := Except.ok.inj hlocate
    exact hk.trans (List.prefix_append _ _)
  · refine (hwrites.inside_or hroot hl).resolve_left ?_
    rintro ⟨target, hlink⟩
    exact hdirect z target (Or.inl hwrites.2) hlink

end Apply

/-! ## 3. Marks -/

/-- What becomes of the places that something touches.  Nothing else changes, a touched place holds
a file in the end, and one that is not in `l` held none before. -/
structure Marks (l : Location) (touches : Location → Prop) (h h' : TreeHost) : Prop where
  working_eq : h'.working = h.working
  frame : ∀ z, ¬ touches z → h'.tree.get? z = h.tree.get? z
  file : ∀ z, touches z → ∃ b, h'.tree.get? z = some (.file b)
  free : ∀ z, touches z → h.tree.isDirectory z = false
  fresh : ∀ z, touches z → ¬ l <+: z → ∀ b, h.tree.get? z ≠ some (.file b)

/-- Two hosts have the same entries but for those in `l`. -/
def TreeHost.SameOutside (l : Location) (h h' : TreeHost) : Prop :=
  ∀ z, ¬ l <+: z → h'.tree.get? z = h.tree.get? z

namespace Marks

variable {l : Location} {P Q : Location → Prop} {h h₁ h' : TreeHost}

theorem of_sameFiles (hsame : h.SameFiles h') (hnone : ∀ z, ¬ P z) : Marks l P h h' where
  working_eq := hsame.2
  frame z _ := by rw [hsame.1]
  file z hz := absurd hz (hnone z)
  free z hz := absurd hz (hnone z)
  fresh z hz := absurd hz (hnone z)

/-- A file is put at one place. -/
theorem of_set {z : Location} {b : ByteArray} (hworking : h'.working = h.working)
    (htree : h'.tree = h.tree.set z (.file b)) (hz : h.tree.isDirectory z = false)
    (hfresh : ¬ l <+: z → ∀ b, h.tree.get? z ≠ some (.file b)) : Marks l (· = z) h h' where
  working_eq := hworking
  frame q hq := by rw [htree, Tree.get?_set_ne _ _ hq]
  file q hq := by
    subst hq
    exact ⟨b, by rw [htree, Tree.get?_set_file hz]⟩
  free q hq := by rw [hq]; exact hz
  fresh q hq := by rw [hq]; exact hfresh

theorem congr (hm : Marks l P h h') (hiff : ∀ z, Q z ↔ P z) : Marks l Q h h' := by
  obtain rfl : Q = P := funext fun z => propext (hiff z)
  exact hm

/-- Directories stay where they are. -/
theorem isDirectory (hm : Marks l P h h') {q : Location} (hq : h.tree.isDirectory q = true) :
    h'.tree.isDirectory q = true := by
  have hnot : ¬ P q := fun hP => by
    rw [hm.free q hP] at hq
    cases hq
  rw [Tree.isDirectory_iff, hm.frame q hnot]
  exact Tree.isDirectory_iff.mp hq

theorem stands (hm : Marks l P h h') {q : Location} (hq : h.tree.Stands q) : h'.tree.Stands q where
  names := hq.names
  directories k hk := hm.isDirectory (hq.directories k hk)

/-- **Marks add up.** -/
theorem append (hfirst : Marks l P h h₁) (hrest : Marks l Q h₁ h') :
    Marks l (fun z => P z ∨ Q z) h h' where
  working_eq := hrest.working_eq.trans hfirst.working_eq
  frame z hz := by
    rw [not_or] at hz
    rw [hrest.frame z hz.2, hfirst.frame z hz.1]
  file z hz := by
    by_cases hQ : Q z
    · exact hrest.file z hQ
    · rw [hrest.frame z hQ]
      exact hfirst.file z (hz.resolve_right hQ)
  free z hz := by
    rcases hz with hP | hQ
    · exact hfirst.free z hP
    · rw [Bool.eq_false_iff]
      intro hdir
      have hfree := hrest.free z hQ
      rw [hfirst.isDirectory hdir] at hfree
      cases hfree
  fresh z hz hout b hget := by
    by_cases hP : P z
    · exact hfirst.fresh z hP hout b hget
    · refine hrest.fresh z (hz.resolve_left hP) hout b ?_
      rw [hfirst.frame z hP]
      exact hget

/-- **Nothing has changed outside** exactly if nothing has been touched there. -/
theorem sameOutside_iff (hm : Marks l P h h') : h.SameOutside l h' ↔ ∀ z, P z → l <+: z := by
  constructor
  · intro hsame z hz
    refine Classical.byContradiction fun hout => ?_
    obtain ⟨b, hfile⟩ := hm.file z hz
    rw [hsame z hout] at hfile
    exact hm.fresh z hz hout b hfile
  · intro hinside z hout
    exact hm.frame z fun hz => hout (hinside z hz)

end Marks

namespace Apply

variable {e : Enclosure} {h h' : TreeHost} {l : Location}

/-- A backup is made where nothing was. -/
theorem marks_backedUp {path : Path} {content : ByteArray} {t : Tree}
    (hbackup : BackedUp h.tree h.working path content t) :
    Marks l (fun z => h.tree.locate h.working true path.backup = .ok z ∧ h.tree.get? z = none) h
      { h with tree := t } := by
  cases hbackup with
  | before hpresent =>
    refine .of_sameFiles ⟨rfl, rfl⟩ ?_
    rintro z ⟨hlocate, hnone⟩
    obtain ⟨z', hlocate', hsome⟩ := Tree.present_eq_true_iff.mp hpresent
    rw [hlocate] at hlocate'
    obtain rfl := Except.ok.inj hlocate'
    rw [hnone] at hsome
    cases hsome
  | now habsent hwrite =>
    obtain ⟨z, hlocate, hnone, htree⟩ := Tree.exists_place_of_write habsent hwrite
    have hset : Marks l (· = z) h { h with tree := t } :=
      .of_set rfl htree (Tree.isDirectory_eq_false (by rw [hnone]; simp)) fun _ b => by
        rw [hnone]
        simp
    refine hset.congr fun q => ?_
    rw [hlocate]
    constructor
    · rintro ⟨hq, -⟩
      exact (Except.ok.inj hq).symm
    · rintro rfl
      exact ⟨rfl, hnone⟩

theorem namedPlace_of_backedUp {path p : Path} {content : ByteArray} {t : Tree}
    {x : Location × Bool} (hbackup : BackedUp h.tree h.working path content t)
    (hnamed : t.namedPlace h.working p = .ok x) : h.tree.namedPlace h.working p = .ok x := by
  cases hbackup with
  | before => exact hnamed
  | now habsent hwrite =>
    obtain ⟨z, -, hnone, rfl⟩ := Tree.exists_place_of_write habsent hwrite
    exact Tree.namedPlace_of_set hnone hnamed

/-- **The marks of a file patch.** -/
theorem marks_filePatch (hroot : e.root = Path.ofNames l) (hl : h.tree.Stands l) {p : FilePatch}
    {r : Except ApplicationError Bool} (hrun : (filePatch e p : OnTree _) h = (r, h')) :
    Marks l (Touches e p h) h h' := by
  have hmakes : ∀ {path z}, e.place ⟨p.file⟩ = .ok path → (MakesBackup e p h z ↔
      h.tree.locate h.working true path.backup = .ok z ∧ h.tree.get? z = none ∧
        (h'.tree.get? z).isSome) := by
    intro path z hplace
    unfold MakesBackup
    rw [hplace, hrun]
    simp
  have hwrites : ∀ {path z}, e.place ⟨p.file⟩ = .ok path → (WritesFile e p h z ↔
      r = .ok true ∧ ∃ b, h.tree.namedPlace h.working path = .ok (z, b)) := by
    intro path z hplace
    unfold WritesFile Enclosure.FileAt
    rw [hplace, hrun]
    simp
  cases fileStep_filePatch hrun with
  | untouched hfiles hr =>
    refine .of_sameFiles hfiles ?_
    rintro z (⟨-, hnone, hsome⟩ | ⟨hr', -⟩)
    · rw [hrun] at hsome
      simp only at hsome
      rw [hfiles.1, hnone] at hsome
      cases hsome
    · rw [hrun] at hr'
      exact hr hr'
  | failed hplace hread hbackup hworking =>
    have hmarks : Marks l _ h { h with tree := h'.tree } := marks_backedUp hbackup
    have hmarks' : Marks l _ h h' := { hmarks with working_eq := hworking }
    refine hmarks'.congr fun z => ?_
    unfold Touches
    rw [hmakes hplace, hwrites hplace]
    constructor
    · rintro (⟨hlocate, hnone, -⟩ | ⟨hr, -⟩)
      · exact ⟨hlocate, hnone⟩
      · cases hr
    · intro hz
      obtain ⟨b, hb⟩ := hmarks'.file z hz
      exact Or.inl ⟨hz.1, hz.2, by rw [hb]; rfl⟩
  | @written path content new t h' hplace hread hbackup hwrite hworking =>
    have hfirst : Marks l _ h { h with tree := t } := marks_backedUp hbackup
    obtain ⟨-, z, hnamed, hnot, htree⟩ := Tree.replace_eq_ok_iff.mp hwrite
    have hnamed' := namedPlace_of_backedUp hbackup hnamed
    have hwrites' : WritesFile e p h z := (hwrites hplace).mpr ⟨rfl, false, hnamed'⟩
    have hrest : Marks l (· = z) { h with tree := t } h' := by
      refine .of_set hworking htree (Tree.isDirectory_eq_false hnot) fun hout b hget => ?_
      -- only a link can have been there, and making the backup has left it alone
      obtain ⟨target, hlink⟩ := (hwrites'.inside_or hroot hl).resolve_right hout
      have hkept := hfirst.frame z fun hz => by
        rw [hz.2] at hlink
        cases hlink
      rw [hkept, hlink] at hget
      cases hget
    have hmarks := hfirst.append hrest
    refine hmarks.congr fun q => ?_
    unfold Touches
    rw [hmakes hplace, hwrites hplace, hnamed']
    constructor
    · rintro (⟨hlocate, hnone, -⟩ | ⟨-, b, hq⟩)
      · exact Or.inl ⟨hlocate, hnone⟩
      · exact Or.inr (Prod.mk.inj (Except.ok.inj hq)).1.symm
    · intro hq
      obtain ⟨b, hb⟩ := hmarks.file q hq
      rcases hq with hq | rfl
      · exact Or.inl ⟨hq.1, hq.2, by rw [hb]; rfl⟩
      · exact Or.inr ⟨rfl, false, rfl⟩

end Apply

/-! ## 4. What a pass touches -/

/-- File patches that are tried one after the other leave marks, and the root stands whenever one of
them begins. -/
structure Marked (e : Enclosure) (l : Location) (xs : List (FilePatch × TreeHost))
    (h h' : TreeHost) : Prop where
  marks : Marks l (fun z => ∃ x ∈ xs, Apply.Touches e x.1 x.2 z) h h'
  stands : ∀ x ∈ xs, x.2.tree.Stands l

namespace Marked

variable {e : Enclosure} {l : Location} {xs ys : List (FilePatch × TreeHost)}
  {h h₁ h' : TreeHost}

theorem of_sameFiles (hsame : h.SameFiles h') : Marked e l [] h h' where
  marks := .of_sameFiles hsame (by simp)
  stands := by simp

theorem append (hfirst : Marked e l xs h h₁) (hrest : Marked e l ys h₁ h') :
    Marked e l (xs ++ ys) h h' where
  marks := by
    refine (hfirst.marks.append hrest.marks).congr fun z => ?_
    simp only [List.mem_append, or_and_right, exists_or]
  stands x hx := by
    rcases List.mem_append.mp hx with hx | hx
    · exact hfirst.stands x hx
    · exact hrest.stands x hx

end Marked

namespace Apply

variable {e : Enclosure} {l : Location}

theorem marked_filePatch (hroot : e.root = Path.ofNames l) {h h' : TreeHost}
    (hl : h.tree.Stands l) {p : FilePatch} {r : Except ApplicationError Bool}
    (hrun : (filePatch e p : OnTree _) h = (r, h')) : Marked e l [(p, h)] h h' where
  marks := (marks_filePatch hroot hl hrun).congr fun z => by simp
  stands := by simpa using hl

theorem marked_filePatches (hroot : e.root = Path.ofNames l) : ∀ {ps : List FilePatch}
    {h h' : TreeHost} {r : Except ApplicationError (List String)}, h.tree.Stands l →
    (filePatches e ps : OnTree _) h = (r, h') → Marked e l (tried e h ps) h h'
  | [], h, h', r, _, hrun => by
    obtain ⟨-, rfl⟩ := Prod.mk.inj hrun
    exact .of_sameFiles (.refl _)
  | p :: rest, h, h', r, hl, hrun => by
    rw [tried]
    rcases filePatches_cons hrun with ⟨cause, hfile, -⟩ | ⟨w, h₁, r₁, hfile, hrest, -⟩
    · rw [hfile]
      exact marked_filePatch hroot hl hfile
    · have hfirst := marked_filePatch hroot hl hfile
      rw [hfile]
      exact hfirst.append (marked_filePatches hroot (hfirst.marks.stands hl) hrest)

theorem marked_descriptor (hroot : e.root = Path.ofNames l) {h h' : TreeHost}
    (hl : h.tree.Stands l) {id identity : String} {manifest manifest' : Manifest}
    {d : Descriptor} {r : Except ApplicationError PatchResult}
    (hrun : (descriptor e id identity manifest d : OnTree _) h = ((manifest', r), h')) :
    Marked e l (Attempt.tried ⟨e.root, d, ⟨identity, id, r⟩, h, h'⟩) h h' := by
  rcases descriptor_cases hrun with ⟨-, -, rfl, hsame⟩ | ⟨-, r₁, h₁, hfiles, hsame, hr⟩
  · exact .of_sameFiles hsame
  · have htried : Attempt.tried ⟨e.root, d, ⟨identity, id, r⟩, h, h'⟩ = tried e h d.files := by
      rcases hr with ⟨files, -, -, rfl⟩ | ⟨cause, -, -, rfl⟩
      · rfl
      · rfl
    rw [htried, ← List.append_nil (tried e h d.files)]
    exact (marked_filePatches hroot hl hfiles).append (.of_sameFiles hsame)

/-- **The marks of all file patches that are tried on an extension.** -/
theorem marked_descriptors (hroot : e.root = Path.ofNames l) {id : String}
    {source : PatchSource} : ∀ {ds : List Descriptor} {manifest manifest' : Manifest}
      {h h' : TreeHost} {outcomes : List PatchOutcome}, h.tree.Stands l →
      (descriptors e id source manifest ds : OnTree _) h = ((manifest', outcomes), h') →
        Marked e l ((attempts e id source manifest h ds).flatMap Attempt.tried) h h'
  | [], manifest, manifest', h, h', outcomes, _, hrun => by
    obtain ⟨-, rfl⟩ := Prod.mk.inj hrun
    exact .of_sameFiles (.refl _)
  | d :: rest, manifest, manifest', h, h', outcomes, hl, hrun => by
    obtain ⟨manifest₁, r, h₁, outcomes₁, hd, hrest, -, hlog⟩ := descriptors_cons hrun
    have hfirst := marked_descriptor hroot hl hd
    rw [hlog, List.flatMap_cons]
    exact hfirst.append (marked_descriptors hroot (hfirst.marks.stands hl) hrest)

end Apply

namespace Pass

variable {T : Pass} {l : Location}

/-- The file patches that a pass tries, each with the host that it meets. -/
def patches (T : Pass) : List (FilePatch × TreeHost) := T.attempts.flatMap Attempt.tried

/-- A pass puts the manifest that it writes at a place. -/
def WritesManifest (T : Pass) (z : Location) : Prop :=
  T.Writes ∧ ∃ b, T.tried.tree.namedPlace T.tried.working T.final.path = .ok (z, b)

/-- A pass touches a place. -/
def Touches (T : Pass) (z : Location) : Prop :=
  (∃ x ∈ T.patches, Apply.Touches T.enclosure x.1 x.2 z) ∨ T.WritesManifest z

theorem marked (hroot : T.enclosure.root = Path.ofNames l) (hl : T.before.tree.Stands l) :
    Marked T.enclosure l T.patches T.before T.tried :=
  Apply.marked_descriptors hroot hl T.trial_eq

end Pass

end TextPatch
