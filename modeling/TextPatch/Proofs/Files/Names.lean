/-
# Paths made of names

The path of a place is written with one slash before each of its names (`toList_ofNames`).  If the
names are ones that a directory can hold, nothing is lost: the steps of the path are its names again
(`steps_ofNames`), joining a name adds it to the place (`join_ofNames`), and taking the backup of
the path changes the last name only (`backup_ofNames`).

A relative path that an enclosure accepts leads to such a place (`Enclosure.place_eq_ok`).
-/
import TextPatch.Backup
import TextPatch.Enclosure
import TextPatch.Files.Operations
import TextPatch.Proofs.Run
import TextPatch.Proofs.Text.Cuts

namespace TextPatch

/-! ## 1. Names -/

/-- A name that an entry of a directory can have. -/
structure IsName (s : String) : Prop where
  ne_nil : s.toList ≠ []
  ne_here : s.toList ≠ ['.']
  ne_up : s.toList ≠ ['.', '.']
  no_slash : '/' ∉ s.toList

instance (s : String) : Decidable (IsName s) :=
  decidable_of_iff (s.toList ≠ [] ∧ s.toList ≠ ['.'] ∧ s.toList ≠ ['.', '.'] ∧ '/' ∉ s.toList)
    ⟨fun ⟨h₁, h₂, h₃, h₄⟩ => ⟨h₁, h₂, h₃, h₄⟩, fun ⟨h₁, h₂, h₃, h₄⟩ => ⟨h₁, h₂, h₃, h₄⟩⟩

/-- Names in a row. -/
def AreNames (l : Location) : Prop := ∀ s ∈ l, IsName s

instance (l : Location) : Decidable (AreNames l) := List.decidableBAll IsName l

theorem AreNames.append {l k : Location} (hl : AreNames l) (hk : AreNames k) :
    AreNames (l ++ k) := by
  intro s hs
  rcases List.mem_append.mp hs with hs | hs
  · exact hl s hs
  · exact hk s hs

theorem AreNames.left {l k : Location} (h : AreNames (l ++ k)) : AreNames l :=
  fun s hs => h s (List.mem_append_left k hs)

/-- The last character of a name is no slash. -/
theorem IsName.getLast?_ne {s : String} (h : IsName s) : s.toList.getLast? ≠ some '/' := by
  intro hlast
  exact h.no_slash (List.mem_of_getLast? hlast)

/-- A name has no root. -/
theorem IsName.not_hasRoot {s : String} (h : IsName s) : (⟨s⟩ : Path).hasRoot = false := by
  unfold Path.hasRoot
  cases hs : s.toList with
  | nil => rfl
  | cons c t =>
    have hc : c ≠ '/' := fun e => h.no_slash (by simp [hs, e])
    simpa using hc

/-- A name stays one when more is written behind it that has no slash. -/
theorem IsName.append {s u : String} (h : IsName s) (hu : '/' ∉ u.toList)
    (hlen : 2 ≤ u.toList.length) : IsName (s ++ u) := by
  have hpos : 0 < s.toList.length := List.length_pos_iff.mpr h.ne_nil
  refine ⟨?_, ?_, ?_, ?_⟩
  · intro e
    have := congrArg List.length e
    simp at this
    simp [this.1] at hpos
  · intro e
    have := congrArg List.length e
    simp only [String.toList_append, List.length_append, List.length_singleton] at this
    omega
  · intro e
    have := congrArg List.length e
    simp only [String.toList_append, List.length_append, List.length_cons, List.length_nil] at this
    omega
  · rw [String.toList_append, List.mem_append]
    rintro (hs | hs)
    · exact h.no_slash hs
    · exact hu hs

/-- What stands behind the name of a file in the name of its backup. -/
def backupSuffix : String := ".backup"

/-- The backup of a file has a name. -/
theorem AreNames.backup {l : Location} {s : String} (h : AreNames (l ++ [s])) :
    AreNames (l ++ [s ++ backupSuffix]) := by
  refine h.left.append fun x hx => ?_
  obtain rfl : x = s ++ backupSuffix := by simpa using hx
  exact (h s (by simp)).append (by decide) (by decide)

/-! ## 2. The text of a place -/

/-- Names with a slash before each of them. -/
def slashed (l : Location) : Text := l.flatMap fun s => '/' :: s.toList

@[simp] theorem slashed_nil : slashed [] = [] := rfl

@[simp] theorem slashed_cons (s : String) (l : Location) :
    slashed (s :: l) = '/' :: (s.toList ++ slashed l) := rfl

@[simp] theorem slashed_append (l k : Location) : slashed (l ++ k) = slashed l ++ slashed k := by
  simp [slashed]

namespace Path

theorem ext_toList {p q : Path} (h : p.text.toList = q.text.toList) : p = q := by
  cases p
  cases q
  rw [Path.mk.injEq]
  exact String.toList_inj.mp h

theorem toList_ofNames_nil : (ofNames []).text.toList = ['/'] := by
  simp [ofNames]

/-- The path of a place is its names with a slash before each of them. -/
theorem toList_ofNames : ∀ {l : Location}, l ≠ [] → (ofNames l).text.toList = slashed l
  | [], h => absurd rfl h
  | [s], _ => by simp [ofNames]
  | s :: s' :: l, _ => by
    have ih := toList_ofNames (l := s' :: l) (by simp)
    simp only [ofNames, String.toList_append] at ih ⊢
    rw [String.intercalate_cons_cons, String.toList_append, String.toList_append, slashed_cons,
      ← ih]
    simp

theorem hasRoot_ofNames (l : Location) : (ofNames l).hasRoot = true := by
  simp [ofNames, hasRoot]

theorem text_ofNames_ne (l : Location) : (ofNames l).text.isEmpty = false := by
  have h : (ofNames l).text ≠ "" := by
    intro e
    have := congrArg String.toList e
    simp [ofNames] at this
  simpa using h

end Path

/-! ## 3. Its pieces -/

theorem fields_slashed {u : Text} (hu : '/' ∉ u) : ∀ {l : Location}, AreNames l →
    Text.fields '/' (u ++ slashed l) = u :: l.map String.toList
  | [], _ => by simpa using Text.fields_of_not_mem hu
  | s :: l, hl => by
    have hs := (hl s (by simp)).no_slash
    rw [slashed_cons, Text.fields_append_cons hu,
      fields_slashed hs fun s' hs' => hl s' (by simp [hs'])]
    rfl

namespace Path

theorem pieces_ofNames_nil : (ofNames []).pieces = [[], []] := by
  rw [pieces, toList_ofNames_nil]
  rfl

theorem pieces_ofNames {l : Location} (hl : AreNames l) (hne : l ≠ []) :
    (ofNames l).pieces = [] :: l.map String.toList := by
  rw [pieces, toList_ofNames hne]
  exact fields_slashed (u := []) (by simp) hl

end Path

/-- The name that a step goes to. -/
def Step.name? : Step → Option String
  | .name s => some s
  | _ => none

theorem Step.ofPiece_of_isName {s : String} (h : IsName s) :
    Step.ofPiece s.toList = .name s := by
  unfold Step.ofPiece
  rw [if_neg (by simp [h.ne_nil, h.ne_here]), if_neg h.ne_up, String.ofList_toList]

theorem Step.ofPieces_names : ∀ {l : Location}, AreNames l →
    Step.ofPieces (l.map String.toList) = l.map Step.name
  | [], _ => rfl
  | [s], hl => by
    have hs := Step.ofPiece_of_isName (hl s (by simp))
    simp [Step.ofPieces, hs]
  | s :: s' :: l, hl => by
    have hs := hl s (by simp)
    have ih := Step.ofPieces_names (l := s' :: l) fun x hx => hl x (by simp [hx])
    simp only [List.map_cons] at ih ⊢
    rw [Step.ofPieces, if_neg hs.ne_nil, ih, Step.ofPiece_of_isName hs]
    simp

namespace Path

/-- The steps of the path of a place are its names. -/
theorem steps_ofNames {l : Location} (hl : AreNames l) (hne : l ≠ []) :
    (ofNames l).steps = l.map Step.name := by
  obtain ⟨s, l', rfl⟩ := List.exists_cons_of_ne_nil hne
  rw [steps, pieces_ofNames hl hne, ← Step.ofPieces_names hl]
  rfl

theorem steps_ofNames_nil : (ofNames []).steps = [.here] := by
  rw [steps, pieces_ofNames_nil]
  rfl

/-- Places with the same path are the same. -/
theorem ofNames_injective {l k : Location} (hl : AreNames l) (hk : AreNames k)
    (h : ofNames l = ofNames k) : l = k := by
  have hnames : ∀ {q : Location}, AreNames q → (ofNames q).steps.filterMap Step.name? = q := by
    intro q hq
    by_cases hne : q = []
    · subst hne
      rw [steps_ofNames_nil]
      rfl
    · rw [steps_ofNames hq hne, List.filterMap_map]
      exact List.filterMap_some
  rw [← hnames hl, h, hnames hk]

end Path

/-! ## 4. Joining, cutting and renaming -/

namespace Path

/-- The last character of the path of a place is the last one of its last name. -/
theorem getLast?_slashed {l : Location} {s : String} (hs : IsName s) :
    (slashed (l ++ [s])).getLast? ≠ some '/' := by
  have hlast : (slashed (l ++ [s])).getLast? = s.toList.getLast? := by
    have hsplit : slashed (l ++ [s]) = (slashed l ++ ['/']) ++ s.toList := by simp
    rw [hsplit, List.getLast?_append, List.getLast?_eq_some_getLast hs.ne_nil]
    rfl
  rw [hlast]
  exact hs.getLast?_ne

/-- `getLast?_slashed` for a place that is not the root. -/
theorem getLast?_slashed_ne {l : Location} (hl : AreNames l) (hne : l ≠ []) :
    (slashed l).getLast? ≠ some '/' := by
  obtain ⟨k, s, rfl⟩ := (List.eq_nil_or_concat l).resolve_left hne
  rw [List.concat_eq_append] at hl ⊢
  exact getLast?_slashed (hl s (by simp))

/-- Joining a name to the path of a place adds it to the place. -/
theorem join_ofNames {l : Location} (hnames : AreNames l) {s : String} (hs : IsName s) :
    (ofNames l).join ⟨s⟩ = ofNames (l ++ [s]) := by
  apply ext_toList
  have hgoal : (ofNames (l ++ [s])).text.toList = slashed l ++ '/' :: s.toList := by
    rw [toList_ofNames (by simp), slashed_append]
    simp
  unfold join
  rw [hs.not_hasRoot, text_ofNames_ne, hgoal]
  by_cases hl : l = []
  · subst hl
    rw [toList_ofNames_nil]
    simp [ofNames]
  · have hlast := getLast?_slashed_ne hnames hl
    have hend : ((slashed l).getLast? == some '/') = false := by simpa using hlast
    rw [toList_ofNames hl, hend]
    simp [toList_ofNames hl]

/-- Joining something to a path does not make it shorter. -/
theorem utf8ByteSize_le_join (p : Path) {q : Path} (hq : q.hasRoot = false) :
    p.text.utf8ByteSize ≤ (p.join q).text.utf8ByteSize := by
  unfold join
  rw [hq]
  simp only [Bool.false_eq_true, if_false]
  split
  · rw [String.utf8ByteSize_append]
    omega
  · rw [String.utf8ByteSize_append, String.utf8ByteSize_append]
    omega

/-- Joining names one after the other adds them all. -/
theorem foldl_join_ofNames : ∀ {names l : Location}, AreNames l → AreNames names →
    names.foldl (fun p name => p.join ⟨name⟩) (ofNames l) = ofNames (l ++ names)
  | [], l, _, _ => by simp
  | s :: names, l, hl, hnames => by
    have hs := hnames s (by simp)
    have hl' : AreNames (l ++ [s]) := hl.append (by simpa [AreNames] using hs)
    rw [List.foldl_cons, join_ofNames hl hs,
      foldl_join_ofNames hl' fun x hx => hnames x (by simp [hx])]
    simp

/-- The path of a place is as long as that of its directory, a slash and its name. -/
theorem utf8ByteSize_ofNames_concat (l : Location) (s : String) :
    (ofNames (l ++ [s])).text.utf8ByteSize = Text.byteLength (slashed l) + (1 + s.utf8ByteSize) := by
  rw [Text.utf8ByteSize_eq, toList_ofNames (by simp), slashed_append, Text.byteLength_append,
    slashed_cons, slashed_nil, List.append_nil, Text.byteLength_cons, Text.utf8ByteSize_eq]
  rfl

/-- The backup of a file has its name and the suffix behind it. -/
theorem backup_ofNames (l : Location) (s : String) :
    (ofNames (l ++ [s])).backup = ofNames (l ++ [s ++ backupSuffix]) := by
  apply ext_toList
  rw [backup, toList_ofNames (by simp), String.toList_append, toList_ofNames (by simp)]
  simp [backupSuffix]

/-- A text that does not end with a slash has none to be dropped. -/
theorem withoutSlashes_eq_self {p : Path} (hne : p.text.toList ≠ [])
    (hlast : p.text.toList.getLast? ≠ some '/') : Tree.withoutSlashes p = (p, false) := by
  have hdrop : p.text.toList.reverse.dropWhile (· == '/') = p.text.toList.reverse := by
    rw [← List.head?_reverse] at hlast
    cases hrev : p.text.toList.reverse with
    | nil => rfl
    | cons c t =>
      rw [hrev] at hlast
      have hc : c ≠ '/' := by simpa using hlast
      rw [List.dropWhile_cons_of_neg (by simpa using hc)]
  unfold Tree.withoutSlashes
  rw [hdrop, if_neg (by simpa using hne), List.reverse_reverse, List.length_reverse,
    String.length_toList, String.ofList_toList]
  simp

theorem withoutSlashes_ofNames {l : Location} {s : String} (hs : IsName s) :
    Tree.withoutSlashes (ofNames (l ++ [s])) = (ofNames (l ++ [s]), false) := by
  have htext := toList_ofNames (l := l ++ [s]) (by simp)
  refine withoutSlashes_eq_self ?_ ?_
  · rw [htext]
    simp
  · rw [htext]
    exact getLast?_slashed hs

theorem withoutSlashes_join (p : Path) {s : String} (hs : IsName s) :
    Tree.withoutSlashes (p.join ⟨s⟩) = (p.join ⟨s⟩, false) := by
  obtain ⟨before, hbefore⟩ : ∃ before, (p.join ⟨s⟩).text.toList = before ++ s.toList := by
    unfold join
    rw [hs.not_hasRoot, if_neg (by simp)]
    split
    · exact ⟨p.text.toList, by simp⟩
    · exact ⟨p.text.toList ++ ['/'], by simp⟩
  refine withoutSlashes_eq_self ?_ ?_
  · rw [hbefore]
    simp [hs.ne_nil]
  · rw [hbefore, List.getLast?_append, List.getLast?_eq_some_getLast hs.ne_nil, Option.some_or,
      ← List.getLast?_eq_some_getLast hs.ne_nil]
    exact hs.getLast?_ne

end Path

/-! ## 5. Places in an enclosure -/

/-- A component of a path that is a name is one that an entry can have. -/
theorem Path.isName_of_mem_components {p : Path} {s : String}
    (h : Path.Component.name s ∈ p.components) : IsName s := by
  have hpiece : Path.Component.name s ∈ p.pieces.filterMap Path.Component.ofPiece? := by
    unfold Path.components at h
    simp only at h
    split at h
    · simpa using h
    · split at h
      · simpa using h
      · exact h
  obtain ⟨t, ht, hs⟩ := List.mem_filterMap.mp hpiece
  have hslash := Text.not_mem_of_mem_fields ht
  unfold Path.Component.ofPiece? at hs
  split at hs
  · cases hs
  · rename_i hempty
    split at hs
    · cases hs
    · rename_i hup
      cases hs
      rw [not_or] at hempty
      constructor
      · simpa using hempty.1
      · simpa using hempty.2
      · simpa using hup
      · simpa using hslash

/-- Normalising keeps names. -/
theorem areNames_of_normalise? : ∀ (cs : List Path.Component) (done : List String)
    {names : List String}, (∀ s, Path.Component.name s ∈ cs → IsName s) → AreNames done →
      normalise? done cs = some names → AreNames names
  | [], done, names, _, hdone, h => by
    cases h
    exact hdone
  | .name s :: cs, done, names, hcs, hdone, h => by
    refine areNames_of_normalise? cs (s :: done) (fun x hx => hcs x (by simp [hx])) ?_ h
    intro x hx
    rcases List.mem_cons.mp hx with rfl | hx
    · exact hcs x (by simp)
    · exact hdone x hx
  | .here :: cs, done, names, hcs, hdone, h =>
    areNames_of_normalise? cs done (fun x hx => hcs x (by simp [hx])) hdone h
  | .up :: cs, done, names, hcs, hdone, h => by
    cases done with
    | nil => cases h
    | cons x done =>
      exact areNames_of_normalise? cs done (fun x hx => hcs x (by simp [hx]))
        (fun y hy => hdone y (by simp [hy])) h
  | .root :: cs, done, names, hcs, hdone, h => by cases h

/-- The names below the root to which a relative path leads by its text alone. -/
def Path.inside? (relative : Path) : Option Location :=
  if relative.hasRoot then none else (normalise? [] relative.components).map List.reverse

theorem Path.areNames_of_inside? {relative : Path} {names : Location}
    (h : relative.inside? = some names) : AreNames names := by
  unfold Path.inside? at h
  split at h
  · cases h
  · obtain ⟨rest, hrest, rfl⟩ := Option.map_eq_some_iff.mp h
    have hnames := areNames_of_normalise? _ _ (fun s => Path.isName_of_mem_components)
      (by simp [AreNames]) hrest
    intro s hs
    exact hnames s (by simpa using hs)

/-- **A relative path that is accepted leads to a place below the root.** -/
theorem Enclosure.place_eq_ok {e : Enclosure} {root : Location} (he : e.root = Path.ofNames root)
    (hroot : AreNames root) {relative path : Path} :
    e.place relative = .ok path ↔
      ∃ names, relative.inside? = some names ∧ path = Path.ofNames (root ++ names) := by
  unfold Enclosure.place Path.inside?
  split
  · simp
  · cases hnorm : normalise? [] relative.components with
    | none => simp
    | some names =>
      have hinside : relative.inside? = some names.reverse := by
        unfold Path.inside?
        rw [if_neg (by assumption), hnorm]
        rfl
      have hnames := Path.areNames_of_inside? hinside
      have hpath := Path.foldl_join_ofNames hroot hnames
      simp only [he, hpath]
      simp [eq_comm]

end TextPatch
