/-
# Finding extensions by their names

Two names that differ in the case of ASCII letters only are spellings of one name (`SameName`).  The
scan and the list of loaded extensions know no difference between them (`scannedRoot_congr`,
`isActive_congr`), but an override is looked up under its own spelling.

* `spelling_matters_iff` says exactly when two spellings of a name find the same extension.
* `other_spelling_misses_override` is an override that another spelling of its name passes by.
* `exists_installed_of_scanned` and `mem_installed_of_override` say which roots are among all
  extensions: those of the overrides, and of every other name the newest that the scan has found.
-/
import TextPatch.Locator

namespace TextPatch

/-! ## 1. Spellings of a name -/

/-- Two strings are spellings of one name. -/
def SameName (a b : String) : Prop := Text.lowerAscii a.toList = Text.lowerAscii b.toList

instance (a b : String) : Decidable (SameName a b) :=
  inferInstanceAs (Decidable (Text.lowerAscii a.toList = Text.lowerAscii b.toList))

theorem equalsIgnoringAsciiCase_iff {a b : String} :
    equalsIgnoringAsciiCase a b = true ↔ SameName a b := beq_iff_eq

theorem SameName.refl (a : String) : SameName a a := rfl

theorem SameName.symm {a b : String} (h : SameName a b) : SameName b a := Eq.symm h

theorem SameName.trans {a b c : String} (h : SameName a b) (h' : SameName b c) : SameName a c :=
  Eq.trans h h'

/-- What is compared with a name does not see how it is spelled. -/
theorem SameName.compare_eq {a b : String} (h : SameName a b) (name : String) :
    equalsIgnoringAsciiCase name a = equalsIgnoringAsciiCase name b := by
  rw [Bool.eq_iff_iff, equalsIgnoringAsciiCase_iff, equalsIgnoringAsciiCase_iff]
  exact ⟨fun ha => ha.trans h, fun hb => hb.trans h.symm⟩

namespace ExtensionDirectory

variable {d : ExtensionDirectory} {a b : String}

theorem isActive_congr (h : SameName a b) : d.isActive a = d.isActive b := by
  unfold isActive
  simp only [h.compare_eq]

theorem candidates_congr (h : SameName a b) : d.candidates a = d.candidates b := by
  unfold candidates
  simp only [h.compare_eq]

/-- The root of the extension that the scan has found for a name. -/
def scannedRoot (d : ExtensionDirectory) (id : String) : Option Path :=
  (newest (d.candidates id)).map ScannedExtension.root

theorem scannedRoot_congr (h : SameName a b) : d.scannedRoot a = d.scannedRoot b := by
  unfold scannedRoot
  rw [candidates_congr h]

/-! ## 2. What two spellings find -/

/-- Two findings are of one extension: they have the same root, and both are loaded or none. -/
def FoundAlike (x y : Option InstalledExtension) : Prop :=
  x.map (fun e => (e.root, e.isActive)) = y.map fun e => (e.root, e.isActive)

instance (x y : Option InstalledExtension) : Decidable (FoundAlike x y) :=
  inferInstanceAs (Decidable (_ = _))

/-- An override has the root that the scan has found for its name. -/
def IsNoChange (d : ExtensionDirectory) (override : Option Path) (id : String) : Prop :=
  override.isSome ∧ override = d.scannedRoot id

/-- Spellings find one extension exactly if they find one root. -/
theorem foundAlike_iff (h : SameName a b) :
    FoundAlike (d.find a) (d.find b) ↔ d.rootOf a = d.rootOf b := by
  unfold FoundAlike find
  rw [isActive_congr h]
  cases d.rootOf a <;> cases d.rootOf b <;> simp

theorem rootOf_of_override {id : String} {root : Path} (h : d.overrides.lookup id = some root) :
    d.rootOf id = some root := by
  rw [rootOf, h]

theorem rootOf_of_no_override {id : String} (h : d.overrides.lookup id = none) :
    d.rootOf id = d.scannedRoot id := by
  rw [rootOf, h]
  rfl

/-- What the spelling of a name decides, and what not. -/
structure Spellings (d : ExtensionDirectory) (a b : String) : Prop where
  active : d.isActive a = d.isActive b
  scanned : d.scannedRoot a = d.scannedRoot b
  /-- The spellings find the same exactly if both have the same override or none, or one of them
  has an override that changes nothing. -/
  alike_iff : FoundAlike (d.find a) (d.find b) ↔
    d.overrides.lookup a = d.overrides.lookup b ∨
      (d.overrides.lookup b = none ∧ d.IsNoChange (d.overrides.lookup a) a) ∨
        (d.overrides.lookup a = none ∧ d.IsNoChange (d.overrides.lookup b) b)
  /-- An override takes precedence under another spelling exactly if it stands under that one, too,
  or changes nothing. -/
  precedes_iff : ∀ root, d.overrides.lookup a = some root →
    (d.rootOf b = some root ↔ d.overrides.lookup b = some root ∨
      (d.overrides.lookup b = none ∧ d.scannedRoot a = some root))

/-- **When two spellings of a name find the same.** -/
theorem spelling_matters_iff (d : ExtensionDirectory) {a b : String} (h : SameName a b) :
    d.Spellings a b := by
  have hscanned := scannedRoot_congr (d := d) h
  refine ⟨isActive_congr h, hscanned, ?_, fun root hroot => ?_⟩
  · rw [foundAlike_iff h]
    unfold IsNoChange
    cases ha : d.overrides.lookup a with
    | none =>
      rw [rootOf_of_no_override ha]
      cases hb : d.overrides.lookup b with
      | none => simp [rootOf_of_no_override hb, hscanned]
      | some root => simp [rootOf_of_override hb, hscanned, eq_comm]
    | some root =>
      rw [rootOf_of_override ha]
      cases hb : d.overrides.lookup b with
      | none => simp [rootOf_of_no_override hb, hscanned]
      | some root' => simp [rootOf_of_override hb]
  · cases hb : d.overrides.lookup b with
    | none => simp [rootOf_of_no_override hb, hscanned]
    | some root' => simp [rootOf_of_override hb]

/-- A scanned extension that has an override, and is loaded. -/
def overridden : ExtensionDirectory where
  scanned := [⟨"pub.ext", "1.0.0", ⟨"/exts/a"⟩⟩]
  overrides := [("pub.ext", ⟨"/dev"⟩)]
  active := ["Pub.Ext"]

theorem overridden_spellings :
    SameName "pub.ext" "PUB.EXT" ∧ overridden.Spellings "pub.ext" "PUB.EXT" := by
  have h : SameName "pub.ext" "PUB.EXT" := by decide +kernel
  exact ⟨h, spelling_matters_iff overridden h⟩

/-- **Another spelling of a name passes its override by** and finds what the scan has found. -/
theorem other_spelling_misses_override :
    ¬ ∀ (d : ExtensionDirectory) (a b : String), SameName a b →
      FoundAlike (d.find a) (d.find b) := by
  intro hclaim
  exact absurd (hclaim overridden "pub.ext" "PUB.EXT" (by decide +kernel)) (by decide +kernel)

/-! ## 3. All extensions -/

theorem prefix_addNames : ∀ (names : List String) (es : List ScannedExtension),
    names <+: addNames names es
  | names, [] => List.prefix_refl names
  | names, e :: rest => by
    rw [addNames]
    split
    · exact prefix_addNames names rest
    · exact (List.prefix_append names [e.id]).trans (prefix_addNames _ rest)

/-- Every scanned extension comes under some spelling of its name. -/
theorem exists_mem_addNames {e : ScannedExtension} : ∀ (names : List String)
    {es : List ScannedExtension}, e ∈ es → ∃ name ∈ addNames names es, SameName name e.id
  | names, e' :: rest, he => by
    rw [addNames]
    rcases List.mem_cons.mp he with rfl | he
    · split
      · rename_i hany
        obtain ⟨name, hname, hsame⟩ := List.any_eq_true.mp hany
        exact ⟨name, (prefix_addNames names rest).subset hname,
          equalsIgnoringAsciiCase_iff.mp hsame⟩
      · exact ⟨e.id, (prefix_addNames _ rest).subset (by simp), .refl _⟩
    · exact exists_mem_addNames _ he

theorem mem_installed_of_name {id : String} {root : Path}
    (hname : id ∈ addNames (d.overrides.map Prod.fst) d.scanned) (hroot : d.rootOf id = some root) :
    ⟨id, root, d.isActive id⟩ ∈ d.installed := by
  refine List.mem_filterMap.mpr ⟨id, hname, ?_⟩
  rw [find, hroot]
  rfl

/-- **Every override is among all extensions.** -/
theorem mem_installed_of_override {id : String} {root : Path}
    (h : d.overrides.lookup id = some root) : ⟨id, root, d.isActive id⟩ ∈ d.installed := by
  obtain ⟨before, after, heq, -⟩ := List.lookup_eq_some_iff.mp h
  have hkey : id ∈ d.overrides.map Prod.fst := by simp [heq]
  exact mem_installed_of_name ((prefix_addNames _ d.scanned).subset hkey) (rootOf_of_override h)

/-- A name has no override under any spelling. -/
def HasNoOverride (d : ExtensionDirectory) (id : String) : Prop :=
  ∀ key ∈ d.overrides.map Prod.fst, ¬ SameName key id

instance (d : ExtensionDirectory) (id : String) : Decidable (d.HasNoOverride id) :=
  inferInstanceAs (Decidable (∀ key ∈ d.overrides.map Prod.fst, ¬ SameName key id))

/-- **What the scan has found for a name without an override** is among all extensions. -/
theorem exists_installed_of_scanned {e : ScannedExtension} {root : Path} (he : e ∈ d.scanned)
    (hnone : d.HasNoOverride e.id) (hroot : d.scannedRoot e.id = some root) :
    ∃ x ∈ d.installed, x.root = root := by
  obtain ⟨name, hname, hsame⟩ := exists_mem_addNames (d.overrides.map Prod.fst) he
  have hlookup : d.overrides.lookup name = none := by
    rw [List.lookup_eq_none_iff]
    intro p hp
    have hkey := hnone p.1 (List.mem_map_of_mem hp)
    simp only [bne_iff_ne, ne_eq]
    rintro rfl
    exact hkey hsame
  refine ⟨_, mem_installed_of_name hname ?_, rfl⟩
  rw [rootOf_of_no_override hlookup, scannedRoot_congr hsame, hroot]

end ExtensionDirectory

end TextPatch
