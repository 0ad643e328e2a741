/-
# Listing every extension once

Several extensions that a scan has found may have one name, in different spellings.  The list of all
extensions has the name only once, in the spelling and at the place where the scan has met it first
(`ListsOnce`, `installed_listsOnce`).  Each entry is what is found for its name, so that a search
for a name and the list agree on where the extension is (`find_of_mem_installed`).

Names are added one by one.  What is listed so far lists the names that have been met so far
(`ListsOnce.addName`), and therefore the whole list lists them all (`ListsOnce.addNames`).
-/
import TextPatch.Proofs.Extensions.Finding

namespace TextPatch

namespace ExtensionDirectory

/-! ## 1. The first of the spellings -/

variable {names all : List String} {n a : String}

/-- Where a name is met first, in any spelling. -/
def firstIndex (all : List String) (n : String) : Nat := all.findIdx fun a => SameName a n

/-- Names are listed once: each one in the spelling that is met first, in the order in which they
are met. -/
structure ListsOnce (names all : List String) : Prop where
  spelling : ∀ n ∈ names, all[firstIndex all n]? = some n
  ascending : names.Pairwise fun m n => firstIndex all m < firstIndex all n
  distinct : names.Pairwise fun m n => ¬ SameName m n
  complete : ∀ a ∈ all, ∃ n ∈ names, SameName n a

/-- What comes later does not change where a name has been met first. -/
theorem firstIndex_append_of_mem (h : ∃ a ∈ all, SameName a n) (more : List String) :
    firstIndex (all ++ more) n = firstIndex all n := by
  obtain ⟨a, ha, hsame⟩ := h
  have hlt : firstIndex all n < all.length :=
    List.findIdx_lt_length_of_exists ⟨a, ha, decide_eq_true hsame⟩
  unfold firstIndex at hlt ⊢
  rw [List.findIdx_append, if_pos hlt]

/-- A name that has not been met is met where the names end. -/
theorem firstIndex_append_self (h : ∀ a ∈ all, ¬ SameName a n) :
    firstIndex (all ++ [n]) n = all.length := by
  have hlength : all.findIdx (fun a => SameName a n) = all.length :=
    List.findIdx_eq_length.mpr fun a ha => decide_eq_false (h a ha)
  unfold firstIndex
  rw [List.findIdx_append, hlength, if_neg (Nat.lt_irrefl _), List.findIdx_cons]
  simp [SameName.refl]

/-- A listed name has been met. -/
theorem ListsOnce.mem (h : ListsOnce names all) (hn : n ∈ names) : n ∈ all :=
  List.mem_of_getElem? (h.spelling n hn)

theorem ListsOnce.firstIndex_append (h : ListsOnce names all) (hn : n ∈ names)
    (more : List String) : firstIndex (all ++ more) n = firstIndex all n :=
  firstIndex_append_of_mem ⟨n, h.mem hn, SameName.refl n⟩ more

theorem ListsOnce.firstIndex_lt (h : ListsOnce names all) (hn : n ∈ names) :
    firstIndex all n < all.length :=
  (List.getElem?_eq_some_iff.mp (h.spelling n hn)).1

/-- A listed name remains in the spelling that is met first. -/
theorem ListsOnce.spelling_append (h : ListsOnce names all) (hn : n ∈ names)
    (more : List String) : (all ++ more)[firstIndex (all ++ more) n]? = some n := by
  rw [h.firstIndex_append hn, List.getElem?_append_left (h.firstIndex_lt hn)]
  exact h.spelling n hn

/-- Listed names remain in their order. -/
theorem ListsOnce.ascending_append (h : ListsOnce names all) (more : List String) :
    names.Pairwise fun m n => firstIndex (all ++ more) m < firstIndex (all ++ more) n := by
  refine h.ascending.imp_of_mem fun hm hn hlt => ?_
  rwa [h.firstIndex_append hm, h.firstIndex_append hn]

/-! ## 2. One name more -/

/-- A name that is listed already, in some spelling, is not listed again. -/
theorem ListsOnce.again (h : ListsOnce names all) (ha : ∃ n ∈ names, SameName n a) :
    ListsOnce names (all ++ [a]) := by
  refine ⟨fun n hn => h.spelling_append hn [a], h.ascending_append [a], h.distinct, fun b hb => ?_⟩
  rcases List.mem_append.mp hb with hb | hb
  · exact h.complete b hb
  · obtain rfl := List.mem_singleton.mp hb
    exact ha

/-- A name that is not listed in any spelling has not been met, and comes last. -/
theorem ListsOnce.more (h : ListsOnce names all) (ha : ∀ n ∈ names, ¬ SameName n a) :
    ListsOnce (names ++ [a]) (all ++ [a]) := by
  -- Every name that has been met is listed, so one that is not listed is met for the first time.
  have hunmet : ∀ b ∈ all, ¬ SameName b a := by
    intro b hb hsame
    obtain ⟨n, hn, hsame'⟩ := h.complete b hb
    exact ha n hn (hsame'.trans hsame)
  have hlast := firstIndex_append_self hunmet
  refine ⟨fun n hn => ?spelling, ?ascending, ?distinct, fun b hb => ?complete⟩
  case spelling =>
    rcases List.mem_append.mp hn with hn | hn
    · exact h.spelling_append hn [a]
    · obtain rfl := List.mem_singleton.mp hn
      rw [hlast, List.getElem?_concat_length]
  case ascending =>
    refine List.pairwise_append.mpr ⟨h.ascending_append [a], List.pairwise_singleton _ _, ?_⟩
    intro m hm n hn
    obtain rfl := List.mem_singleton.mp hn
    rw [h.firstIndex_append hm, hlast]
    exact h.firstIndex_lt hm
  case distinct =>
    refine List.pairwise_append.mpr ⟨h.distinct, List.pairwise_singleton _ _, ?_⟩
    intro m hm n hn
    obtain rfl := List.mem_singleton.mp hn
    exact ha m hm
  case complete =>
    rcases List.mem_append.mp hb with hb | hb
    · obtain ⟨n, hn, hsame⟩ := h.complete b hb
      exact ⟨n, List.mem_append_left [a] hn, hsame⟩
    · obtain rfl := List.mem_singleton.mp hb
      exact ⟨b, List.mem_append_right names hb, SameName.refl b⟩

/-! ## 3. All names -/

/-- **Names are listed once**, however many are added. -/
theorem ListsOnce.addNames : ∀ {es : List ScannedExtension} {names all : List String},
    ListsOnce names all →
      ListsOnce (ExtensionDirectory.addNames names es) (all ++ es.map ScannedExtension.id)
  | [], names, all, h => by
    rw [List.map_nil, List.append_nil]
    exact h
  | e :: es, names, all, h => by
    have hstep : ListsOnce
        (if names.any fun name => equalsIgnoringAsciiCase name e.id then names else names ++ [e.id])
        (all ++ [e.id]) := by
      split
      · rename_i hany
        obtain ⟨n, hn, hsame⟩ := List.any_eq_true.mp hany
        exact h.again ⟨n, hn, equalsIgnoringAsciiCase_iff.mp hsame⟩
      · rename_i hnone
        refine h.more fun n hn hsame => hnone (List.any_eq_true.mpr ⟨n, hn, ?_⟩)
        exact equalsIgnoringAsciiCase_iff.mpr hsame
    rw [List.map_cons, List.append_cons]
    exact hstep.addNames

theorem listsOnce_nil : ListsOnce [] [] := ⟨nofun, .nil, .nil, nofun⟩

/-! ## 4. What is listed is found -/

variable {d : ExtensionDirectory} {id : String} {x : InstalledExtension}

theorem mem_candidates_iff {e : ScannedExtension} :
    e ∈ d.candidates id ↔ e ∈ d.scanned ∧ SameName e.id id := by
  rw [candidates, List.mem_filter, equalsIgnoringAsciiCase_iff]

theorem isSome_newest (es : List ScannedExtension) : (newest es).isSome ↔ es ≠ [] := by
  cases es <;> simp [newest]

/-- Without overrides, exactly the names that the scan has met are found. -/
theorem isSome_find_iff (hnone : d.overrides = []) :
    (d.find id).isSome ↔ ∃ e ∈ d.scanned, SameName e.id id := by
  have hlookup : d.overrides.lookup id = none := by rw [hnone, List.lookup_nil]
  unfold find
  rw [Option.isSome_map, rootOf_of_no_override hlookup, scannedRoot, Option.isSome_map,
    isSome_newest]
  constructor
  · intro hne
    obtain ⟨e, he⟩ := List.exists_mem_of_ne_nil _ hne
    exact ⟨e, mem_candidates_iff.mp he⟩
  · rintro ⟨e, he⟩
    exact List.ne_nil_of_mem (mem_candidates_iff.mpr he)

/-- What is found has the name that was asked for. -/
theorem id_of_find (h : d.find id = some x) : x.id = id := by
  obtain ⟨root, -, rfl⟩ := Option.map_eq_some_iff.mp h
  rfl

/-- Each entry of the list is what is found for its name. -/
theorem find_of_mem_installed (h : x ∈ d.installed) : d.find x.id = some x := by
  obtain ⟨n, -, hfind⟩ := List.mem_filterMap.mp h
  rw [id_of_find hfind]
  exact hfind

theorem map_id_filterMap_find : ∀ {names : List String}, (∀ n ∈ names, (d.find n).isSome) →
    (names.filterMap d.find).map InstalledExtension.id = names
  | [], _ => rfl
  | n :: names, h => by
    obtain ⟨x, hfind⟩ := Option.isSome_iff_exists.mp (h n List.mem_cons_self)
    rw [List.filterMap_cons_some hfind, List.map_cons, id_of_find hfind,
      map_id_filterMap_find fun m hm => h m (List.mem_cons_of_mem n hm)]

/-- **Without overrides, the list has every name of the scan once**, at the place of the first
extension of that name. -/
theorem installed_listsOnce (hnone : d.overrides = []) :
    ListsOnce (d.installed.map InstalledExtension.id) (d.scanned.map ScannedExtension.id) := by
  have hlists : ListsOnce (ExtensionDirectory.addNames [] d.scanned)
      ([] ++ d.scanned.map ScannedExtension.id) := listsOnce_nil.addNames
  rw [List.nil_append] at hlists
  have hfound : ∀ n ∈ ExtensionDirectory.addNames [] d.scanned, (d.find n).isSome := by
    intro n hn
    obtain ⟨e, he, heq⟩ := List.mem_map.mp (hlists.mem hn)
    exact (isSome_find_iff hnone).mpr ⟨e, he, heq ▸ SameName.refl e.id⟩
  unfold installed
  rw [hnone, List.map_nil, map_id_filterMap_find hfound]
  exact hlists

end ExtensionDirectory

end TextPatch
