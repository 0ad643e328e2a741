/-
# Normal forms of target paths

A relative path is normalised by its text alone: a step up cancels the name before it, steps to the
same place and repeated slashes drop out.  `Path.Cancels` says what is left of the components of a
path, without the stack that the normalisation keeps; what is left is unique
(`Path.Cancels.unique`), and there is something left exactly if a walk along the components never
climbs above where it starts (`Path.exists_cancels_iff`).  It does not help to come back.

In a tree without links nothing else decides whether a path is accepted, and what it stands for is
the root with the names that are left behind it, be there a file or not (`resolve_normalises`).
-/
import TextPatch.Proofs.Files.Views
import TextPatch.Proofs.Extensions.Steps

namespace TextPatch

namespace Path

/-! ## 1. Cancelling -/

/-- Whether a component is a name. -/
def Component.isName : Component → Bool
  | .name _ => true
  | _ => false

/-- Reading from the left, there are never more steps up than names before them. -/
def NeverClimbsOut (cs : List Component) : Prop :=
  ∀ before, before <+: cs → before.count .up ≤ before.countP Component.isName

/-- The names that are left of components once each step up has cancelled the name before it, and
steps to the same place have been dropped. -/
inductive Cancels : List Component → List String → Prop
  | done (names : List String) : Cancels (names.map .name) names
  | here {before after : List Component} {names : List String}
      (h : Cancels (before ++ after) names) : Cancels (before ++ .here :: after) names
  | up {before after : List Component} {s : String} {names : List String}
      (h : Cancels (before ++ after) names) : Cancels (before ++ .name s :: .up :: after) names

variable {cs : List Component} {done names : List String}

/-- Normalising goes on from what the first part has left. -/
theorem normalise?_append (before after : List Component) : ∀ done : List String,
    normalise? done (before ++ after) = (normalise? done before).bind (normalise? · after) := by
  induction before with
  | nil => exact fun _ => rfl
  | cons c before ih =>
    intro done
    cases c with
    | root => rfl
    | here => exact ih done
    | name s => exact ih (s :: done)
    | up =>
      cases done with
      | nil => rfl
      | cons s done => exact ih done

theorem normalise?_names (names : List String) : ∀ done : List String,
    normalise? done (names.map .name) = some (names.reverse ++ done) := by
  induction names with
  | nil => exact fun _ => rfl
  | cons s names ih =>
    intro done
    rw [List.map_cons, normalise?, ih, List.reverse_cons, List.append_assoc, List.singleton_append]

/-- What normalising keeps is what cancelling leaves. -/
theorem cancels_of_normalise? : ∀ {cs : List Component} {done names : List String},
    normalise? done cs = some names → Cancels (done.reverse.map .name ++ cs) names.reverse
  | [], done, names, h => by
    obtain rfl := Option.some.inj h
    rw [List.append_nil]
    exact .done _
  | .name s :: cs, done, names, h => by
    have hrest : Cancels ((s :: done).reverse.map .name ++ cs) names.reverse :=
      cancels_of_normalise? h
    simpa using hrest
  | .here :: cs, done, names, h => by
    have hrest : Cancels (done.reverse.map .name ++ cs) names.reverse := cancels_of_normalise? h
    exact .here hrest
  | .up :: cs, [], names, h => by cases h
  | .up :: cs, s :: done, names, h => by
    have hrest : Cancels (done.reverse.map .name ++ cs) names.reverse := cancels_of_normalise? h
    rw [List.reverse_cons, List.map_append, List.append_assoc]
    exact .up hrest
  | .root :: cs, done, names, h => by cases h

/-- **Normalising does what cancelling says.** -/
theorem normalise?_eq_some_iff : normalise? [] cs = some names ↔ Cancels cs names.reverse := by
  constructor
  · exact fun h => cancels_of_normalise? h
  · intro h
    generalize hleft : names.reverse = left at h
    obtain rfl : names = left.reverse := by rw [← hleft, List.reverse_reverse]
    clear hleft
    induction h with
    | done names => rw [normalise?_names, List.append_nil]
    | here _ ih => rwa [normalise?_append] at ih ⊢
    | up _ ih => rwa [normalise?_append] at ih ⊢

/-- What is left does not depend on the order in which steps cancel names. -/
theorem Cancels.unique {names' : List String} (h : Cancels cs names) (h' : Cancels cs names') :
    names = names' := by
  rw [← List.reverse_reverse names] at h
  rw [← List.reverse_reverse names'] at h'
  have heq := (normalise?_eq_some_iff.mpr h).symm.trans (normalise?_eq_some_iff.mpr h')
  exact List.reverse_inj.mp (Option.some.inj heq)

/-- What begins a sequence is empty or has the same first component. -/
theorem forall_opening_cons {P : List Component → Prop} {c : Component} (hnil : P []) :
    (∀ before, before <+: c :: cs → P before) ↔ ∀ before, before <+: cs → P (c :: before) := by
  constructor
  · exact fun h before hbefore => h _ (List.cons_prefix_cons.mpr ⟨rfl, hbefore⟩)
  · intro h before hbefore
    rcases List.prefix_cons_iff.mp hbefore with rfl | ⟨tail, rfl, htail⟩
    · exact hnil
    · exact h tail htail

/-- Normalising fails where the steps up are more than the names that are left. -/
theorem isSome_normalise?_iff : ∀ {cs : List Component} {done : List String},
    (normalise? done cs).isSome ↔ .root ∉ cs ∧
      ∀ before, before <+: cs → before.count .up ≤ done.length + before.countP Component.isName
  | [], done => by simp [normalise?]
  | c :: cs, done => by
    rw [forall_opening_cons (Nat.zero_le _)]
    cases c with
    | root => simp [normalise?]
    | here =>
      rw [normalise?, isSome_normalise?_iff]
      simp [Component.isName]
    | name s =>
      rw [normalise?, isSome_normalise?_iff]
      simp only [List.length_cons, List.mem_cons, reduceCtorEq, false_or, ne_eq, not_false_eq_true,
        List.count_cons_of_ne, List.countP_cons, Component.isName, if_true]
      refine and_congr_right fun _ => forall₂_congr fun before _ => ?_
      omega
    | up =>
      cases done with
      | nil =>
        simp only [normalise?, Option.isSome_none, Bool.false_eq_true, false_iff, not_and]
        intro _ h
        have hfirst := h [] List.nil_prefix
        simp [Component.isName] at hfirst
      | cons s done =>
        rw [normalise?, isSome_normalise?_iff]
        simp only [List.length_cons, List.mem_cons, reduceCtorEq, false_or, List.count_cons_self,
          List.countP_cons, Component.isName, Bool.false_eq_true, if_false, Nat.add_zero]
        refine and_congr_right fun _ => forall₂_congr fun before _ => ?_
        omega

/-- **Something is left** of components without a root exactly if they never climb out. -/
theorem exists_cancels_iff (hroot : .root ∉ cs) :
    (∃ names, Cancels cs names) ↔ NeverClimbsOut cs := by
  have hsome : (normalise? [] cs).isSome ↔ _ := isSome_normalise?_iff
  simp only [hroot, not_false_eq_true, true_and, List.length_nil, Nat.zero_add] at hsome
  rw [NeverClimbsOut, ← hsome, Option.isSome_iff_exists]
  constructor
  · rintro ⟨names, h⟩
    exact ⟨names.reverse, normalise?_eq_some_iff.mpr (by rwa [List.reverse_reverse])⟩
  · rintro ⟨names, h⟩
    exact ⟨names.reverse, normalise?_eq_some_iff.mp h⟩

/-! ## 2. Relative paths -/

variable {p : Path}

theorem root_not_mem_filterMap (ts : List Text) : .root ∉ ts.filterMap Component.ofPiece? := by
  intro hmem
  obtain ⟨t, -, ht⟩ := List.mem_filterMap.mp hmem
  unfold Component.ofPiece? at ht
  split at ht
  · cases ht
  · split at ht <;> cases ht

/-- A path has a root exactly if that is one of its components. -/
theorem root_mem_components_iff : .root ∈ p.components ↔ p.hasRoot = true := by
  have hpieces := root_not_mem_filterMap p.pieces
  unfold components
  simp only
  split
  · rename_i h
    simp [h]
  · rename_i h
    split <;> simp [h, hpieces]

/-- Nothing is left of a path with a root, for nothing cancels the root. -/
theorem Cancels.not_hasRoot (h : Cancels p.components names) : p.hasRoot = false := by
  rw [← List.reverse_reverse names, ← normalise?_eq_some_iff] at h
  have hsome := isSome_normalise?_iff.mp (Option.isSome_of_eq_some h)
  rw [root_mem_components_iff] at hsome
  simpa using hsome.1

/-- Which paths have a normal form. -/
theorem exists_cancels_components_iff : (∃ names, Cancels p.components names) ↔
    p.hasRoot = false ∧ NeverClimbsOut p.components := by
  constructor
  · rintro ⟨names, h⟩
    have hrelative := h.not_hasRoot
    have hroot : .root ∉ p.components := by simp [root_mem_components_iff, hrelative]
    exact ⟨hrelative, (exists_cancels_iff hroot).mp ⟨names, h⟩⟩
  · rintro ⟨hrelative, h⟩
    have hroot : .root ∉ p.components := by simp [root_mem_components_iff, hrelative]
    exact (exists_cancels_iff hroot).mpr h

/-- The relative path along some names. -/
def along (names : Location) : Path := ⟨String.intercalate "/" names⟩

theorem toList_along (s : String) (l : Location) :
    (along (s :: l)).text.toList = s.toList ++ slashed l := by
  have hrooted := toList_ofNames (l := s :: l) (by simp)
  rw [ofNames, String.toList_append, slashed_cons] at hrooted
  exact (List.cons.inj hrooted).2

/-- Names are all that the relative path along them is made of. -/
theorem components_along : ∀ {names : Location}, AreNames names →
    (along names).components = names.map .name
  | [], _ => by decide
  | s :: l, hnames => by
    have hs := hnames s List.mem_cons_self
    have hpieces : (along (s :: l)).pieces = s.toList :: l.map String.toList := by
      rw [pieces, toList_along]
      exact fields_slashed hs.no_slash fun u hu => hnames u (List.mem_cons_of_mem s hu)
    have hroot : (along (s :: l)).hasRoot = false := by
      have hname := hs.not_hasRoot
      unfold hasRoot at hname ⊢
      rw [toList_along, List.head?_append, List.head?_eq_some_head hs.ne_nil, Option.some_or,
        ← List.head?_eq_some_head hs.ne_nil]
      exact hname
    have hhere : (s.toList :: l.map String.toList).head? ≠ some ['.'] := by
      simpa using hs.ne_here
    unfold components
    simp only [hroot, hpieces, beq_eq_false_iff_ne.mpr hhere, Bool.false_eq_true, if_false]
    exact filterMap_ofPiece? hnames

/-- What is left of the components of a path are names that entries can have. -/
theorem Cancels.areNames (h : Cancels p.components names) : AreNames names := by
  rw [← List.reverse_reverse names] at h
  have hnames := areNames_of_normalise? _ _ (fun _ => isName_of_mem_components) (by simp [AreNames])
    (normalise?_eq_some_iff.mpr h)
  exact fun s hs => hnames s (List.mem_reverse.mpr hs)

end Path

/-! ## 3. Resolving -/

namespace Enclosure

variable {e : Enclosure} {root : Location} {h : TreeHost}

/-- A directory that paths are kept in has the path of a place for its root. -/
theorem exists_names_of_ofRoot (ht : h.tree.Plain) {dir : Path} {h' : TreeHost}
    (hrun : (ofRoot dir : OnTree _) h = (.ok e, h')) :
    ∃ root, AreNames root ∧ e = ⟨.ofNames root⟩ := by
  unfold ofRoot at hrun
  rw [OnTree.bind_apply, OnTree.canonicalPath_apply] at hrun
  cases hcanonical : h.tree.canonicalPath h.working dir with
  | error cause =>
    rw [hcanonical] at hrun
    cases hrun
  | ok q =>
    rw [hcanonical] at hrun
    obtain ⟨he, -⟩ := Prod.mk.inj hrun
    cases he
    obtain ⟨l, -, hthere, -, rfl⟩ := Tree.canonicalPath_eq_ok_iff.mp hcanonical
    exact ⟨l, ht.names l hthere, rfl⟩

/-- The place of a path, by its text: the root with the names that are left of the path. -/
theorem place_eq_ok_iff (hroot : AreNames root) {p file : Path} :
    place ⟨.ofNames root⟩ p = .ok file ↔
      ∃ names, Path.Cancels p.components names ∧ file = .ofNames (root ++ names) := by
  have hinside : ∀ names, p.inside? = some names ↔ Path.Cancels p.components names := by
    intro names
    unfold Path.inside?
    split
    · rename_i hrooted
      refine ⟨by simp, fun hcancels => ?_⟩
      rw [hcancels.not_hasRoot] at hrooted
      cases hrooted
    · rw [Option.map_eq_some_iff]
      constructor
      · rintro ⟨left, hleft, rfl⟩
        exact Path.normalise?_eq_some_iff.mp hleft
      · intro hcancels
        refine ⟨names.reverse, Path.normalise?_eq_some_iff.mpr ?_, List.reverse_reverse names⟩
        rwa [List.reverse_reverse]
  rw [place_eq_ok (e := ⟨.ofNames root⟩) rfl hroot]
  simp only [hinside]

/-- **Without links the text of a path decides**: whatever is there lies in the root. -/
theorem resolve_eq_place (ht : h.tree.Unlinked) (hroot : AreNames root) (p : Path) :
    (resolve ⟨.ofNames root⟩ p : OnTree _) h = (place ⟨.ofNames root⟩ p, h) := by
  unfold resolve
  cases hplace : place ⟨.ofNames root⟩ p with
  | error cause => rfl
  | ok file =>
    obtain ⟨names, hcancels, rfl⟩ := (place_eq_ok_iff hroot).mp hplace
    have hnames := hroot.append hcancels.areNames
    simp only
    rw [OnTree.bind_apply, OnTree.present_apply]
    by_cases hpresent : h.tree.present h.working (.ofNames (root ++ names)) = true
    · obtain ⟨l, hlocate, hthere⟩ := Tree.present_eq_true_iff.mp hpresent
      obtain ⟨rfl, hreaches⟩ := (Tree.locate_ofNames_iff ht hnames).mp hlocate
      have hcanonical := Tree.canonicalPath_eq_ok_iff.mpr
        ⟨root ++ names, hlocate, hthere, hreaches.short, rfl⟩
      have hbelow := (Path.isBelow_ofNames_iff hroot hnames).mpr (List.prefix_append root names)
      simp only
      rw [if_pos hpresent, confirm]
      simp only [OnTree.bind_apply, OnTree.canonicalPath_apply, hcanonical, hbelow, if_true]
      rfl
    · simp only
      rw [if_neg hpresent]
      rfl

/-- What resolving a relative path in the directory `root` comes to, on a given host. -/
structure Normalises (root : Location) (h : TreeHost) : Prop where
  /-- A path with a root is refused as one, and no other path is. -/
  absolute_iff : ∀ p cause, (resolve ⟨.ofNames root⟩ p : OnTree _) h =
    (.error (.absolutePath cause), h) ↔ p.hasRoot = true ∧ cause = p
  /-- A path without one is accepted exactly if it never climbs out. -/
  accepted_iff : ∀ p, (∃ file, (resolve ⟨.ofNames root⟩ p : OnTree _) h = (.ok file, h)) ↔
    p.hasRoot = false ∧ Path.NeverClimbsOut p.components
  /-- It stands for the root with the names that are left of it behind. -/
  file_iff : ∀ p file, (resolve ⟨.ofNames root⟩ p : OnTree _) h = (.ok file, h) ↔
    ∃ names, Path.Cancels p.components names ∧ file = .ofNames (root ++ names)
  /-- Otherwise it leads out of the root. -/
  outside : ∀ p, p.hasRoot = false → ¬ Path.NeverClimbsOut p.components →
    (resolve ⟨.ofNames root⟩ p : OnTree _) h = (.error (.outsideRoot p (.ofNames root)), h)
  /-- Two paths stand for the same file exactly if the same names are left of them. -/
  same_iff : ∀ p q, (∃ file, (resolve ⟨.ofNames root⟩ p : OnTree _) h = (.ok file, h) ∧
      (resolve ⟨.ofNames root⟩ q : OnTree _) h = (.ok file, h)) ↔
    ∃ names, Path.Cancels p.components names ∧ Path.Cancels q.components names
  /-- The path along the names that are left stands for the same file. -/
  again : ∀ p names, Path.Cancels p.components names →
    (resolve ⟨.ofNames root⟩ (.along names) : OnTree _) h =
      (resolve ⟨.ofNames root⟩ p : OnTree _) h

/-- **Target paths are normalised exactly, and never climb out**, in a tree without links. -/
theorem resolve_normalises (ht : h.tree.Unlinked) (hroot : AreNames root) : Normalises root h := by
  have hfile : ∀ p file, (resolve ⟨.ofNames root⟩ p : OnTree _) h = (.ok file, h) ↔
      ∃ names, Path.Cancels p.components names ∧ file = .ofNames (root ++ names) := by
    intro p file
    rw [resolve_eq_place ht hroot, Prod.mk.injEq, place_eq_ok_iff hroot]
    simp
  constructor
  · intro p cause
    rw [resolve_eq_place ht hroot, Prod.mk.injEq]
    unfold place
    split
    · rename_i hrooted
      simp [hrooted, eq_comm]
    · rename_i hrelative
      split <;> simp [hrelative]
  · intro p
    simp only [hfile]
    rw [← Path.exists_cancels_components_iff, exists_comm]
    simp
  · exact hfile
  · intro p hrelative hclimbs
    rw [resolve_eq_place ht hroot, Prod.mk.injEq]
    unfold place
    rw [if_neg (by simp [hrelative])]
    split
    · exact ⟨rfl, rfl⟩
    · rename_i left hleft
      rw [← List.reverse_reverse left, Path.normalise?_eq_some_iff] at hleft
      exact absurd (Path.exists_cancels_components_iff.mp ⟨_, hleft⟩).2 hclimbs
  · intro p q
    simp only [hfile]
    constructor
    · rintro ⟨file, ⟨names, hp, rfl⟩, names', hq, hsame⟩
      obtain rfl : names = names' := by
        have hnames := Path.ofNames_injective (hroot.append hp.areNames)
          (hroot.append hq.areNames) hsame
        simpa using hnames
      exact ⟨names, hp, hq⟩
    · rintro ⟨names, hp, hq⟩
      exact ⟨_, ⟨names, hp, rfl⟩, names, hq, rfl⟩
  · intro p names hcancels
    have hagain : Path.Cancels (Path.along names).components names := by
      rw [Path.components_along hcancels.areNames]
      exact .done names
    exact ((hfile _ _).mpr ⟨names, hagain, rfl⟩).trans ((hfile _ _).mpr ⟨names, hcancels, rfl⟩).symm

/-- A host with a directory and a file in it. -/
def rootedHost : TreeHost :=
  .ofTree ⟨[(["x"], .directory), (["x", "a.js"], .file "one".toUTF8)]⟩

theorem rootedHost_normalises : rootedHost.tree.Unlinked ∧ AreNames ["x"] ∧
    (ofRoot ⟨"/x/../x/."⟩ : OnTree _) rootedHost = (.ok ⟨.ofNames ["x"]⟩, rootedHost) ∧
      Normalises ["x"] rootedHost := by
  have hplain : rootedHost.tree.Plain := Tree.plain_of_isPlain (by decide +kernel)
  have hnames : AreNames ["x"] := by decide
  have hroot : ((ofRoot ⟨"/x/../x/."⟩ : OnTree _) rootedHost).1 = .ok ⟨.ofNames ["x"]⟩ :=
    eq_ok_of_toOption (by decide +kernel)
  exact ⟨hplain.no_link, hnames, Prod.ext hroot rfl, resolve_normalises hplain.no_link hnames⟩

-- leaving the root is refused, although the path comes back
example : normalise? [] (⟨"a/../b//./c"⟩ : Path).components = some ["c", "b"] ∧
    normalise? [] (⟨"a/../../x/b"⟩ : Path).components = none := by decide

end Enclosure

end TextPatch
