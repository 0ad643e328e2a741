/-
# What remembering can be told by

Maps are remembered under the path without links, and read through the path that is given.  Keys are
compared by their components.  On a host whose files do not change, that makes one difference:

* the key of a path leads where the path leads (`locate_keyAt`), and keys with the same components
  lead to one place if they lead anywhere (`Tree.locate_of_components`);
* so a map that is remembered under the components of the key of a path is what the file holds to
  which that path leads (`Faithful.documentAt_eq`), and every call keeps it so (`load_step`,
  `Call.faithful`);
* but a path that leads nowhere, such as that of a file with a slash behind it, may have the
  components of a key, too.  Read anew it fails; a map that is remembered is found
  (`Mistaken`).

`calls_transparent` is what that comes to: after any calls, a map that is asked for is answered as
if it were read anew, such paths apart, no more than `memoryLimit` maps are remembered, and a call
that fails leaves them as they were.
-/
import TextPatch.Proofs.Files.Components
import TextPatch.Proofs.Extensions.Steps
import TextPatch.Proofs.Files.Lawful
import TextPatch.SourceMap.Memory

namespace TextPatch.SourceMap

variable {h h' : TreeHost} {p q key : Path} {d : Document}

/-! ## 1. Keys -/

/-- The map in a file, read anew. -/
def documentAt (h : TreeHost) (p : Path) : Except SourceMapError Document :=
  ((readDocument p : OnTree _) h).1

/-- The path that a map is remembered under. -/
def keyAt (h : TreeHost) (p : Path) : Path := ((memoryKey p : OnTree _) h).1

/-- Reading a map changes nothing. -/
theorem readDocument_apply (p : Path) (h : TreeHost) :
    (readDocument p : OnTree _) h = (documentAt h p, h) := by
  refine Prod.ext rfl ?_
  unfold readDocument
  rw [OnTree.bind_apply, OnTree.read_apply]
  cases h.tree.read h.working p with
  | error cause => rfl
  | ok bytes =>
    simp only
    cases Document.ofBytes bytes <;> rfl

theorem memoryKey_apply (p : Path) (h : TreeHost) :
    (memoryKey p : OnTree _) h = (keyAt h p, h) := by
  refine Prod.ext rfl ?_
  unfold memoryKey
  rw [OnTree.bind_apply, OnTree.canonicalPath_apply]
  cases h.tree.canonicalPath h.working p <;> rfl

/-- A map can be read if its file can be read, and holds one. -/
theorem documentAt_eq_ok_iff : documentAt h p = .ok d ↔
    ∃ bytes, h.tree.read h.working p = .ok bytes ∧ Document.ofBytes bytes = .ok d := by
  unfold documentAt readDocument
  rw [OnTree.bind_apply, OnTree.read_apply]
  cases h.tree.read h.working p with
  | error cause => exact ⟨nofun, fun ⟨_, hread, _⟩ => nomatch hread⟩
  | ok bytes =>
    simp only [Except.ok.injEq, exists_eq_left']
    cases Document.ofBytes bytes with
    | error fault => exact ⟨nofun, nofun⟩
    | ok d' => simp only [OnTree.pure_apply, Except.ok.injEq]

theorem keyAt_of_canonicalPath (hp : h.tree.canonicalPath h.working p = .ok key) :
    keyAt h p = key := by
  unfold keyAt memoryKey
  rw [OnTree.bind_apply, OnTree.canonicalPath_apply, hp]
  rfl

theorem keyAt_of_error {cause : IoError} (hp : h.tree.canonicalPath h.working p = .error cause) :
    keyAt h p = p := by
  unfold keyAt memoryKey
  rw [OnTree.bind_apply, OnTree.canonicalPath_apply, hp]
  rfl

/-- A key has been made of a path without links, or is the path that was given. -/
theorem keyAt_cases (h : TreeHost) (p : Path) :
    h.tree.canonicalPath h.working p = .ok (keyAt h p) ∨
      keyAt h p = p ∧ ∀ c, h.tree.canonicalPath h.working p ≠ .ok c := by
  cases hp : h.tree.canonicalPath h.working p with
  | ok c => exact Or.inl (by rw [keyAt_of_canonicalPath hp])
  | error cause => exact Or.inr ⟨keyAt_of_error hp, by simp⟩

/-- **The key of a path** leads where the path leads. -/
theorem locate_keyAt (ht : h.tree.Lawful) (p : Path) :
    h.tree.locate h.working true (keyAt h p) = h.tree.locate h.working true p := by
  rcases keyAt_cases h p with hp | ⟨hp, -⟩
  · exact (ht.canonical hp).same h.working
  · rw [hp]

/-- A path that leads nowhere is its own key. -/
theorem keyAt_of_nowhere {cause : IoError} (hp : h.tree.locate h.working true p = .error cause) :
    keyAt h p = p := by
  have hcanonical : h.tree.canonicalPath h.working p = .error cause := by
    unfold Tree.canonicalPath
    rw [hp]
    rfl
  exact keyAt_of_error hcanonical

/-- A path that leads nowhere cannot be read. -/
theorem documentAt_of_nowhere {cause : IoError}
    (hp : h.tree.locate h.working true p = .error cause) :
    documentAt h p = .error (.io p cause) := by
  unfold documentAt readDocument
  rw [OnTree.bind_apply, OnTree.read_apply]
  unfold Tree.read
  rw [hp]
  rfl

/-- **Keys with the same components** belong to one map, if both paths lead anywhere. -/
theorem documentAt_of_components (ht : h.tree.Lawful)
    (hkeys : (keyAt h q).components = (keyAt h p).components) (hq : documentAt h q = .ok d)
    {l : Location} (hp : h.tree.locate h.working true p = .ok l) : documentAt h p = .ok d := by
  rw [documentAt_eq_ok_iff] at hq ⊢
  obtain ⟨bytes, hread, hbytes⟩ := hq
  obtain ⟨l', hq, hget⟩ := Tree.read_eq_ok_iff.mp hread
  obtain rfl := Tree.locate_of_components hkeys ((locate_keyAt ht q).trans hq)
    ((locate_keyAt ht p).trans hp)
  exact ⟨bytes, Tree.read_eq_ok_iff.mpr ⟨l', hp, hget⟩, hbytes⟩

theorem documentAt_congr (hsame : h.SameFiles h') (p : Path) :
    documentAt h' p = documentAt h p := by
  unfold documentAt readDocument
  rw [OnTree.bind_apply, OnTree.bind_apply, OnTree.read_apply, OnTree.read_apply, hsame.1, hsame.2]
  cases h.tree.read h.working p with
  | error cause => rfl
  | ok bytes =>
    simp only
    cases Document.ofBytes bytes <;> rfl

theorem keyAt_congr (hsame : h.SameFiles h') (p : Path) : keyAt h' p = keyAt h p := by
  unfold keyAt memoryKey
  rw [OnTree.bind_apply, OnTree.bind_apply, OnTree.canonicalPath_apply,
    OnTree.canonicalPath_apply, hsame.1, hsame.2]
  cases h.tree.canonicalPath h.working p <;> rfl

/-! ## 2. One call -/

/-- **Every way in which a map is loaded.** -/
theorem load_cases (p : Path) (h : TreeHost) :
    (∃ d, remembered? h.maps (keyAt h p) = some d ∧ (load p : OnTree _) h = (.ok d, h)) ∨
      remembered? h.maps (keyAt h p) = none ∧
        ((∃ cause, documentAt h p = .error cause ∧ (load p : OnTree _) h = (.error cause, h)) ∨
          ∃ d journal, documentAt h p = .ok d ∧ (load p : OnTree _) h =
            (.ok d, { h with maps := remember h.maps (keyAt h p) d, journal })) := by
  have hmaps : (Host.maps : OnTree _) h = (h.maps, h) := rfl
  unfold load
  rw [OnTree.bind_apply, memoryKey_apply, OnTree.bind_apply, hmaps]
  simp only
  cases hrecall : remembered? h.maps (keyAt h p) with
  | some d => exact Or.inl ⟨d, rfl, rfl⟩
  | none =>
    refine Or.inr ⟨rfl, ?_⟩
    simp only
    unfold readAndRemember
    rw [OnTree.bind_apply, readDocument_apply]
    cases hd : documentAt h p with
    | error cause => exact Or.inl ⟨cause, rfl, rfl⟩
    | ok d => exact Or.inr ⟨d, _, rfl, rfl⟩

/-- What is recalled is remembered under a key with the same components. -/
theorem exists_of_remembered {maps : MapMemory} (hrecall : remembered? maps key = some d) :
    ∃ key', (key', d) ∈ maps ∧ key'.components = key.components := by
  obtain ⟨⟨key', d'⟩, hfind, rfl⟩ := Option.map_eq_some_iff.mp hrecall
  exact ⟨key', List.mem_of_find?_eq_some hfind, by simpa using List.find?_some hfind⟩

theorem remembered_eq_none_iff {maps : MapMemory} :
    remembered? maps key = none ↔ ∀ x ∈ maps, x.1.components ≠ key.components := by
  simp [remembered?]

/-- What is remembered has been read from files, under keys with different components. -/
structure Faithful (h : TreeHost) : Prop where
  read : ∀ key d, (key, d) ∈ h.maps → ∃ p, keyAt h p = key ∧ documentAt h p = .ok d
  distinct : (h.maps.map fun x => x.1.components).Nodup
  bounded : h.maps.length ≤ memoryLimit

theorem faithful_of_nothing (hempty : h.maps = []) : Faithful h where
  read := by simp [hempty]
  distinct := by simp [hempty]
  bounded := by simp [hempty]

/-- **What is remembered for a path** that leads somewhere is what its file holds. -/
theorem Faithful.documentAt_eq (hh : Faithful h) (ht : h.tree.Lawful)
    (hrecall : remembered? h.maps (keyAt h p) = some d) {l : Location}
    (hp : h.tree.locate h.working true p = .ok l) : documentAt h p = .ok d := by
  obtain ⟨key, hmem, hkeys⟩ := exists_of_remembered hrecall
  obtain ⟨q, rfl, hd⟩ := hh.read key d hmem
  exact documentAt_of_components ht hkeys hd hp

/-- One more map is remembered, or it alone. -/
theorem mem_remember {maps : MapMemory} {x : Path × Document} (hx : x ∈ remember maps key d) :
    x ∈ maps ∨ x = (key, d) := by
  unfold remember at hx
  split at hx
  · exact Or.inr (List.mem_singleton.mp hx)
  · simpa using hx

theorem length_remember_le (maps : MapMemory) (key : Path) (d : Document) :
    (remember maps key d).length ≤ memoryLimit := by
  unfold remember
  split
  · simp [memoryLimit]
  · rw [List.length_append, List.length_singleton]
    omega

theorem nodup_remember {maps : MapMemory} (hmaps : (maps.map fun x => x.1.components).Nodup)
    (hrecall : remembered? maps key = none) (d : Document) :
    ((remember maps key d).map fun x => x.1.components).Nodup := by
  unfold remember
  split
  · simp
  · rw [List.map_append, List.nodup_append]
    refine ⟨hmaps, by simp, fun a ha b hb => ?_⟩
    obtain ⟨x, hx, rfl⟩ := List.mem_map.mp ha
    obtain rfl : b = key.components := by simpa using hb
    exact remembered_eq_none_iff.mp hrecall x hx

/-- Reading one more map keeps what is remembered faithful. -/
theorem Faithful.remember (hh : Faithful h) (hrecall : remembered? h.maps (keyAt h p) = none)
    (hd : documentAt h p = .ok d) (journal : List Remark) :
    Faithful { h with maps := remember h.maps (keyAt h p) d, journal } := by
  have hsame : h.SameFiles { h with maps := SourceMap.remember h.maps (keyAt h p) d, journal } :=
    ⟨rfl, rfl⟩
  refine ⟨fun key d' hmem => ?_, nodup_remember hh.distinct hrecall d,
    length_remember_le h.maps _ d⟩
  rcases mem_remember hmem with hold | hnew
  · obtain ⟨q, hkey, hq⟩ := hh.read key d' hold
    exact ⟨q, by rw [keyAt_congr hsame, hkey], by rw [documentAt_congr hsame, hq]⟩
  · obtain ⟨rfl, rfl⟩ := Prod.mk.inj hnew
    exact ⟨p, keyAt_congr hsame p, by rw [documentAt_congr hsame, hd]⟩

/-- A path that leads nowhere, although a map is remembered under its components. -/
structure Mistaken (h : TreeHost) (maps : MapMemory) (p : Path) (d : Document) : Prop where
  nowhere : ∃ cause, h.tree.locate h.working true p = .error cause
  recalled : remembered? maps p = some d

/-- What one call does that loads a map. -/
structure LoadStep (h : TreeHost) (p : Path) (answer : Except SourceMapError Document)
    (h' : TreeHost) : Prop where
  files : h.SameFiles h'
  faithful : Faithful h'
  answer_cases : answer = documentAt h p ∧ (∀ d, ¬ Mistaken h h.maps p d) ∨
    ∃ d, Mistaken h h.maps p d ∧ answer = .ok d
  failed : ∀ cause, answer = .error cause → h' = h

/-- **Loading a map** answers what its file holds or, for a path that leads nowhere, what is
remembered under its components; and it keeps what is remembered faithful. -/
theorem load_step (ht : h.tree.Lawful) (hh : Faithful h) (p : Path) :
    LoadStep h p ((load p : OnTree _) h).1 ((load p : OnTree _) h).2 := by
  have hnot : remembered? h.maps (keyAt h p) = none → ∀ d, ¬ Mistaken h h.maps p d := by
    rintro hrecall d ⟨⟨cause, hnowhere⟩, hd⟩
    rw [keyAt_of_nowhere hnowhere, hd] at hrecall
    cases hrecall
  rcases load_cases p h with
    ⟨d, hrecall, hrun⟩ | ⟨hrecall, ⟨cause, hd, hrun⟩ | ⟨d, journal, hd, hrun⟩⟩
  · rw [hrun]
    refine ⟨.refl h, hh, ?_, fun _ _ => rfl⟩
    cases hlocate : h.tree.locate h.working true p with
    | ok l =>
      refine Or.inl ⟨(hh.documentAt_eq ht hrecall hlocate).symm, ?_⟩
      rintro d' ⟨⟨cause, hnowhere⟩, -⟩
      cases hlocate.symm.trans hnowhere
    | error cause =>
      rw [keyAt_of_nowhere hlocate] at hrecall
      exact Or.inr ⟨d, ⟨⟨cause, hlocate⟩, hrecall⟩, rfl⟩
  · rw [hrun]
    exact ⟨.refl h, hh, Or.inl ⟨hd.symm, hnot hrecall⟩, fun _ _ => rfl⟩
  · rw [hrun]
    exact ⟨⟨rfl, rfl⟩, hh.remember hrecall hd journal, Or.inl ⟨hd.symm, hnot hrecall⟩, nofun⟩

/-! ## 3. Any calls -/

/-- A call that uses what is remembered, or forgets it. -/
inductive Call where
  | load (path : Path)
  | forget

/-- The host after a call. -/
def Call.after (h : TreeHost) : Call → TreeHost
  | .load p => ((SourceMap.load p : OnTree _) h).2
  | .forget => ((SourceMap.forget : OnTree _) h).2

/-- The host after some calls, the first one first. -/
def afterCalls (calls : List Call) (h : TreeHost) : TreeHost := calls.foldl Call.after h

theorem Call.faithful (ht : h.tree.Lawful) (hh : Faithful h) :
    ∀ c : Call, h.SameFiles (c.after h) ∧ Faithful (c.after h)
  | .load p => ⟨(load_step ht hh p).files, (load_step ht hh p).faithful⟩
  | .forget => ⟨⟨rfl, rfl⟩, faithful_of_nothing rfl⟩

/-- Calls change no files and keep what is remembered faithful. -/
theorem faithful_afterCalls : ∀ (calls : List Call) {h : TreeHost}, h.tree.Lawful → Faithful h →
    h.SameFiles (afterCalls calls h) ∧ Faithful (afterCalls calls h)
  | [], h, _, hh => ⟨.refl h, hh⟩
  | c :: calls, h, ht, hh => by
    obtain ⟨hsame, hh'⟩ := c.faithful ht hh
    obtain ⟨hsame', hfaithful⟩ := faithful_afterCalls calls (hsame.1 ▸ ht) hh'
    exact ⟨hsame.trans hsame', hfaithful⟩

/-- What can be told of the memory on a host that was `h` when nothing was remembered. -/
structure Transparent (h h' : TreeHost) : Prop where
  /-- A map is answered as reading its file anew would answer it, unless the path is mistaken for
  one that is remembered. -/
  answers_iff : ∀ p, ((load p : OnTree _) h').1 = ((readDocument p : OnTree _) h).1 ↔
    ∀ d, ¬ Mistaken h h'.maps p d
  mistaken : ∀ p d, Mistaken h h'.maps p d → ((load p : OnTree _) h').1 = .ok d
  bounded : h'.maps.length ≤ memoryLimit
  distinct : (h'.maps.map fun x => x.1.components).Nodup
  failed : ∀ p cause, ((load p : OnTree _) h').1 = .error cause →
    ((load p : OnTree _) h').2.maps = h'.maps

/-- **What remembering can be told by.**  After any calls, a map that is asked for is answered as
reading its file anew would answer it, exactly unless the path leads nowhere and has the components
of one that is remembered.  No more than `memoryLimit` maps are remembered, each under components of
its own, and a call that fails leaves them as they were. -/
theorem calls_transparent (ht : h.tree.Lawful) (hempty : h.maps = []) (calls : List Call) :
    Transparent h (afterCalls calls h) := by
  obtain ⟨hsame, hh⟩ := faithful_afterCalls calls ht (faithful_of_nothing hempty)
  have hstep := load_step (hsame.1.symm ▸ ht) hh
  have hdocument : ∀ p, documentAt (afterCalls calls h) p = documentAt h p := documentAt_congr hsame
  have hmistaken : ∀ p d, Mistaken (afterCalls calls h) (afterCalls calls h).maps p d ↔
      Mistaken h (afterCalls calls h).maps p d := by
    intro p d
    constructor <;> rintro ⟨hnowhere, hrecalled⟩
    · exact ⟨by rwa [hsame.1, hsame.2] at hnowhere, hrecalled⟩
    · exact ⟨by rwa [hsame.1, hsame.2], hrecalled⟩
  have hok : ∀ p d, Mistaken h (afterCalls calls h).maps p d →
      ((load p : OnTree _) (afterCalls calls h)).1 = .ok d := by
    intro p d hd
    rcases (hstep p).answer_cases with ⟨-, hnot⟩ | ⟨d', hd', hanswer⟩
    · exact absurd ((hmistaken p d).mpr hd) (hnot d)
    · rw [hanswer, Option.some.inj (hd'.recalled.symm.trans hd.recalled)]
  refine ⟨fun p => ⟨fun hanswer d hd => ?_, fun hnot => ?_⟩, hok, hh.bounded, hh.distinct,
    fun p cause hfailed => by rw [(hstep p).failed cause hfailed]⟩
  · -- a path that leads nowhere cannot be read
    obtain ⟨cause, hnowhere⟩ := hd.nowhere
    have hfails : ((readDocument p : OnTree _) h).1 = .error (.io p cause) :=
      documentAt_of_nowhere hnowhere
    rw [hok p d hd, hfails] at hanswer
    cases hanswer
  · rcases (hstep p).answer_cases with ⟨hanswer, -⟩ | ⟨d, hd, -⟩
    · exact hanswer.trans (hdocument p)
    · exact absurd ((hmistaken p d).mp hd) (hnot d)

/-- A map, and a link to it. -/
def linkedTree : Tree where
  entries := [(["m.map"], .file ("\x7b\"version\":3,\"sources\":[\"a.ts\"]," ++
      "\"sourcesContent\":[\"let a;\"],\"names\":[],\"mappings\":\"AAAA\"\x7d").toUTF8),
    (["l.map"], .link ⟨"./m.map"⟩), (["n.map"], .file "garbage".toUTF8)]

/-- Calls for the map, for the link to it, and for a file that holds no map. -/
def linkedCalls : List Call := [.load ⟨"/m.map"⟩, .load ⟨"l.map"⟩, .load ⟨"n.map"⟩]

theorem linkedCalls_transparent :
    linkedTree.Lawful ∧ (TreeHost.ofTree linkedTree).maps = [] ∧
    (documentAt (.ofTree linkedTree) ⟨"l.map"⟩).isOk = true ∧
    (afterCalls linkedCalls (.ofTree linkedTree)).maps.map Prod.fst = [⟨"/m.map"⟩] ∧
    Transparent (.ofTree linkedTree) (afterCalls linkedCalls (.ofTree linkedTree)) := by
  have ht : linkedTree.Lawful := Tree.lawful_of_isLawful (by decide +kernel)
  exact ⟨ht, rfl, by decide +kernel, by decide +kernel,
    calls_transparent (h := .ofTree linkedTree) ht rfl linkedCalls⟩

/-- **A slash behind the path of a file** makes it a path that leads nowhere.  Read anew it fails;
once the file has been read, it is answered. -/
theorem slashed_path_recalled :
    ¬ ∀ (h : TreeHost) (calls : List Call) (p : Path), h.tree.Lawful → h.maps = [] →
      ((load p : OnTree _) (afterCalls calls h)).1 = ((readDocument p : OnTree _) h).1 := by
  intro hclaim
  have ht : linkedTree.Lawful := Tree.lawful_of_isLawful (by decide +kernel)
  have hanswer := hclaim (.ofTree linkedTree) [.load ⟨"/m.map"⟩] ⟨"/m.map/"⟩ ht rfl
  have hread : ((readDocument ⟨"/m.map/"⟩ : OnTree _) (.ofTree linkedTree)).1.isOk = false := by
    decide +kernel
  have hload : ((load ⟨"/m.map/"⟩ : OnTree _)
      (afterCalls [.load ⟨"/m.map"⟩] (.ofTree linkedTree))).1.isOk = true := by
    decide +kernel
  rw [hanswer, hread] at hload
  cases hload

end TextPatch.SourceMap
