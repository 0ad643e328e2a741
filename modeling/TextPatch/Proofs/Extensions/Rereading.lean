/-
# Manifests that are written and read again

A manifest is read from a file, entries are recorded and the record is emptied, any number of times
and in any order, and then it is written.  Reading it again gives the same document
(`survives_rewriting`), provided that it holds no binary numbers:

* all other keys have the values that they had, one behind the other as they were;
* the record holds what has been recorded since it was last emptied, behind what the file held if it
  was not, in the order in which the identities were first recorded, each with the files that were
  recorded for it last.

A record in the file that is no object counts as empty.
-/
import Mathlib
import TextPatch.Proofs.Extensions.Groups
import TextPatch.Proofs.Extensions.Records
import TextPatch.Proofs.Files.Links
import TextPatch.Proofs.Json.Pretty

namespace TextPatch

/-! ## 1. Actions -/

namespace Manifest

/-- What can be done to a manifest. -/
inductive Action where
  | record (identity : String) (files : List String)
  | clear
  deriving DecidableEq, Repr

/-- A manifest after an action. -/
def act (d : Manifest) : Action → Manifest
  | .record identity files => d.record identity files
  | .clear => d.clear

/-- A manifest after some actions. -/
def acts (d : Manifest) (as : List Action) : Manifest := as.foldl act d

theorem acts_concat (d : Manifest) (as : List Action) (a : Action) :
    d.acts (as ++ [a]) = (d.acts as).act a := by
  rw [acts, List.foldl_append]
  rfl

/-- What has been recorded since the record was last emptied, the first entry first. -/
def sinceCleared (as : List Action) : List (String × List String) :=
  as.foldl (fun entries a => match a with
    | .record identity files => entries ++ [(identity, files)]
    | .clear => []) []

theorem sinceCleared_record (as : List Action) (identity : String) (files : List String) :
    sinceCleared (as ++ [.record identity files]) = sinceCleared as ++ [(identity, files)] := by
  rw [sinceCleared, List.foldl_append]
  rfl

theorem sinceCleared_clear (as : List Action) : sinceCleared (as ++ [.clear]) = [] := by
  rw [sinceCleared, List.foldl_append]
  rfl

/-- The entries of the file that are still there. -/
def kept (d : Manifest) (as : List Action) : List (String × List String) :=
  if Action.clear ∈ as then [] else d.applied

theorem kept_record (d : Manifest) (as : List Action) (identity : String) (files : List String) :
    d.kept (as ++ [.record identity files]) = d.kept as := by
  simp [kept]

theorem kept_clear (d : Manifest) (as : List Action) : d.kept (as ++ [.clear]) = [] := by
  simp [kept]

/-! ## 2. Documents that can be written -/

/-- A manifest without binary numbers. -/
def Integral (d : Manifest) : Prop := Json.Integral (.object d.members)

/-- A manifest that is read back exactly. -/
def Exact (d : Manifest) : Prop := Json.Exact Json.Read.deepest (.object d.members)

theorem exact_insert {depth : Nat} {ms : Members} (h : Json.Exact (depth + 1) (.object ms))
    (key : String) {v : Json} (hv : Json.Exact depth v) :
    Json.Exact (depth + 1) (.object (ms.insert key v)) := by
  cases h with
  | object hkeys h =>
    refine .object (Json.nodup_keys_insert key v hkeys) fun m hm => ?_
    rcases Json.mem_insert hm with rfl | hm
    · exact hv
    · exact h m hm

theorem exact_empty (depth : Nat) : Json.Exact (depth + 1) (.object []) :=
  .object List.nodup_nil fun _ hm => absurd hm List.not_mem_nil

theorem exact_entry (depth : Nat) (files : List String) :
    Json.Exact (depth + 1) (.array (files.map .string)) := by
  refine .array fun v hv => ?_
  obtain ⟨s, -, rfl⟩ := List.mem_map.mp hv
  exact .string s

/-- The record is as exact as the manifest. -/
theorem exact_recordMembers {depth : Nat} {d : Manifest}
    (h : Json.Exact (depth + 2) (.object d.members)) :
    Json.Exact (depth + 1) (.object (d.recordMembers?.getD [])) := by
  unfold recordMembers?
  cases hget : d.members.get? recordKey with
  | none => exact exact_empty depth
  | some v =>
    cases h with
    | object _ h =>
      have hv := h _ (Json.mem_of_get? hget)
      cases v with
      | object record => exact hv
      | _ => exact exact_empty depth

/-- **An action keeps a manifest exact.** -/
theorem Exact.act {d : Manifest} (h : d.Exact) (a : Action) : (d.act a).Exact := by
  cases a with
  | record identity files =>
    exact exact_insert h recordKey
      (exact_insert (exact_recordMembers h) identity (exact_entry _ files))
  | clear => exact exact_insert h recordKey (exact_empty _)

theorem Exact.acts {d : Manifest} (h : d.Exact) (as : List Action) : (d.acts as).Exact := by
  induction as using List.reverseRecOn with
  | nil => exact h
  | append_singleton as a ih =>
    rw [acts_concat]
    exact ih.act a

/-- A manifest that has been read is exact, if it holds no binary numbers. -/
theorem exact_of_ofText {path : Path} {text : String} {d : Manifest}
    (h : ofText path text = .ok d) (hints : d.Integral) : d.Exact := by
  unfold ofText at h
  split at h
  · rename_i members hparse
    cases h
    exact Json.exact_of_parse hparse hints
  · cases h
  · cases h

/-- **A manifest that has been written is read as it was.** -/
theorem Exact.ofText_written {d : Manifest} (h : d.Exact) : ofText d.path d.written = .ok d := by
  unfold ofText written
  rw [String.toList_ofList, Json.parse_pretty h]

theorem path_acts (d : Manifest) (as : List Action) : (d.acts as).path = d.path := by
  induction as using List.reverseRecOn with
  | nil => rfl
  | append_singleton as a ih =>
    rw [acts_concat, ← ih]
    cases a with
    | record identity files => rfl
    | clear => rfl

/-! ## 3. Other keys -/

/-- All members but the record, in their order. -/
def others (d : Manifest) : Members := d.members.filter fun m => m.1 ≠ recordKey

theorem filter_insert (key : String) (v : Json) : ∀ ms : Members,
    (ms.insert key v).filter (fun m => m.1 ≠ key) = ms.filter fun m => m.1 ≠ key
  | [] => by simp [Members.insert]
  | (k, w) :: ms => by
    have ih := filter_insert key v ms
    rw [Members.insert]
    by_cases hk : k = key
    · rw [if_pos hk, List.filter_cons_of_neg (by simpa using hk),
        List.filter_cons_of_neg (by simpa using hk)]
    · rw [if_neg hk, List.filter_cons_of_pos (by simpa using hk),
        List.filter_cons_of_pos (by simpa using hk), ih]

theorem others_acts (d : Manifest) (as : List Action) : (d.acts as).others = d.others := by
  induction as using List.reverseRecOn with
  | nil => rfl
  | append_singleton as a ih =>
    rw [acts_concat, ← ih]
    cases a with
    | record identity files => exact filter_insert recordKey _ _
    | clear => exact filter_insert recordKey _ _

/-! ## 4. The record -/

theorem map_fst_applied (d : Manifest) :
    d.applied.map Prod.fst = Members.keys (d.recordMembers?.getD []) := by
  rw [applied, List.map_map]
  rfl

theorem lookup_applied (d : Manifest) (x : String) :
    d.applied.lookup x = (Members.get? (d.recordMembers?.getD []) x).map stringItems := by
  unfold applied Members.get?
  induction d.recordMembers?.getD [] with
  | nil => rfl
  | cons m ms ih =>
    obtain ⟨k, v⟩ := m
    rw [List.map_cons, List.lookup_cons, List.lookup_cons, ih]
    cases x == k <;> rfl

theorem keys_insert_eq (key : String) (v : Json) : ∀ ms : Members,
    (ms.insert key v).keys = if key ∈ ms.keys then ms.keys else ms.keys ++ [key]
  | [] => by simp [Members.insert, Members.keys]
  | (k, w) :: ms => by
    have ih := keys_insert_eq key v ms
    unfold Members.keys at ih ⊢
    rw [Members.insert]
    by_cases hk : k = key
    · subst hk
      simp
    · rw [if_neg hk, List.map_cons, ih, List.map_cons]
      by_cases hmem : key ∈ ms.map Prod.fst
      · rw [if_pos hmem, if_pos (List.mem_cons_of_mem k hmem)]
      · rw [if_neg hmem, if_neg fun h => (List.mem_cons.mp h).elim (Ne.symm hk) hmem]
        rfl

theorem eraseDups_of_nodup {xs : List String} (h : xs.Nodup) : xs.eraseDups = xs := by
  induction xs using List.reverseRecOn with
  | nil => rfl
  | append_singleton xs x ih =>
    obtain ⟨hxs, -, hx⟩ := List.nodup_append.mp h
    rw [eraseDups_concat, ih hxs, if_neg fun hmem => hx x hmem x (by simp) rfl]

/-- What the record holds after some actions on a manifest. -/
structure Holds (d₀ d : Manifest) (as : List Action) : Prop where
  /-- Identities come in the order in which they were first recorded. -/
  order : d.applied.map Prod.fst =
    ((d₀.kept as).map Prod.fst ++ (sinceCleared as).map Prod.fst).eraseDups
  /-- Each has the files that were recorded last. -/
  files : ∀ x, d.applied.lookup x =
    ((sinceCleared as).reverse.lookup x).or ((d₀.kept as).lookup x)

/-- **What an action does to the record.** -/
theorem Holds.act {d₀ d : Manifest} {as : List Action} (h : Holds d₀ d as) :
    ∀ a, Holds d₀ (d.act a) (as ++ [a])
  | .record identity files => by
    constructor
    · have hkeys := h.order
      rw [map_fst_applied] at hkeys
      rw [sinceCleared_record, kept_record, List.map_append, List.map_singleton,
        ← List.append_assoc, eraseDups_concat, ← hkeys, map_fst_applied, Manifest.act,
        recordMembers?_record, Option.getD_some, keys_insert_eq]
      have hmem : identity ∈ Members.keys (d.recordMembers?.getD []) ↔
          identity ∈ (d₀.kept as).map Prod.fst ++ (sinceCleared as).map Prod.fst := by
        rw [hkeys, List.mem_eraseDups]
      by_cases hin : identity ∈ Members.keys (d.recordMembers?.getD [])
      · rw [if_pos hin, if_pos (hmem.mp hin)]
      · rw [if_neg hin, if_neg fun hnot => hin (hmem.mpr hnot)]
    · intro x
      have hfiles := h.files x
      rw [lookup_applied] at hfiles
      rw [sinceCleared_record, kept_record, lookup_applied, Manifest.act, recordMembers?_record,
        Option.getD_some, List.reverse_append, List.reverse_singleton, List.singleton_append,
        List.lookup_cons]
      by_cases hx : x = identity
      · subst hx
        rw [Members.get?_insert_self, beq_self_eq_true, Option.map_some, stringItems_strings]
        rfl
      · rw [Members.get?_insert_ne _ _ hx, beq_false_of_ne hx, hfiles]
  | .clear => by
    have hnone : (d.act .clear).applied = [] := by
      simp [Manifest.act, clear, applied, recordMembers?, Json.members?]
    constructor
    · rw [hnone, sinceCleared_clear, kept_clear]
      rfl
    · intro x
      rw [hnone, sinceCleared_clear, kept_clear]
      rfl

/-- **What the record holds after some actions.** -/
theorem holds_acts {d₀ : Manifest} (h : d₀.Distinct) (as : List Action) :
    Holds d₀ (d₀.acts as) as := by
  induction as using List.reverseRecOn with
  | nil =>
    have hkeys : (d₀.applied.map Prod.fst).Nodup := by
      rw [map_fst_applied]
      unfold recordMembers?
      cases hget : d₀.members.get? recordKey with
      | none => exact List.nodup_nil
      | some v =>
        have hv := distinct_get? h.2 hget
        cases v with
        | object record => exact hv.1
        | _ => exact List.nodup_nil
    constructor
    · rw [acts, List.foldl_nil, sinceCleared, List.foldl_nil, kept, if_neg List.not_mem_nil,
        List.map_nil, List.append_nil, eraseDups_of_nodup hkeys]
    · intro x
      rw [acts, List.foldl_nil, sinceCleared, List.foldl_nil, kept, if_neg List.not_mem_nil]
      rfl
  | append_singleton as a ih =>
    rw [acts_concat]
    exact ih.act a

/-- The identities that are recorded. -/
theorem Holds.contains_iff {d₀ d : Manifest} {as : List Action} (h : Holds d₀ d as) (x : String) :
    d.contains x = true ↔
      x ∈ (sinceCleared as).map Prod.fst ∨ (Action.clear ∉ as ∧ d₀.contains x = true) := by
  rw [Manifest.contains_iff, h.order, List.mem_eraseDups, List.mem_append, or_comm]
  refine or_congr_right ?_
  unfold kept
  split
  · rename_i hclear
    simp [hclear]
  · rename_i hclear
    simp only [hclear, not_false_eq_true, true_and]
    exact Manifest.contains_iff.symm

/-! ## 5. Writing and reading again -/

/-- A text that is written is decoded to itself. -/
theorem decodeText_toUTF8 (s : String) : Host.decodeText s.toUTF8 = .ok s := by
  have hvalid : s.toUTF8.IsValidUTF8 := s.isValidUTF8
  unfold Host.decodeText String.fromUTF8?
  rw [dif_pos hvalid]
  rfl

/-- **A manifest that is written into its file is read from there.** -/
theorem read_of_write {root : Path} {h h' : TreeHost} {d₀ d : Manifest}
    (hread : ((Manifest.read root : OnTree _) h).1 = .ok d₀) (hpath : d.path = d₀.path)
    (hd : d.Exact) (hwrite : (d.write : OnTree _) h = (.ok (), h')) :
    ((Manifest.read root : OnTree _) h').1 = .ok d := by
  rcases hrun : (Manifest.read root : OnTree _) h with ⟨r, h₁⟩
  obtain ⟨-, hparts⟩ := Manifest.read_apply hrun
  rw [hrun] at hread
  obtain ⟨hroot, b, text, hbytes, -, -⟩ := hparts d₀ hread
  rcases Manifest.write_apply hwrite with ⟨cause, -, hr, -⟩ | ⟨hreplace, -, hworking⟩
  · cases hr
  · rw [hpath, hroot] at hreplace
    rw [hroot] at hbytes
    have hnow := (Tree.read_of_replace_end (Path.withoutSlashes_join _ manifestName_isName)
      hreplace hbytes).1
    refine read_of_bytes (hworking ▸ hnow) (decodeText_toUTF8 d.written) ?_
    rw [← hroot, ← hpath]
    exact hd.ofText_written

/-- What becomes of a manifest `d₀` that was read from a file by some actions. -/
structure Survives (d₀ : Manifest) (as : List Action) : Prop where
  /-- Its text is read as the same document. -/
  reread : ofText d₀.path (d₀.acts as).written = .ok (d₀.acts as)
  /-- So is the file, after it has been written. -/
  stored : ∀ (root : Path) (h h' : TreeHost), ((Manifest.read root : OnTree _) h).1 = .ok d₀ →
    ((d₀.acts as).write : OnTree _) h = (.ok (), h') →
      ((Manifest.read root : OnTree _) h').1 = .ok (d₀.acts as)
  others : (d₀.acts as).others = d₀.others
  contains : ∀ x, (d₀.acts as).contains x = true ↔
    x ∈ (sinceCleared as).map Prod.fst ∨ (Action.clear ∉ as ∧ d₀.contains x = true)
  holds : Holds d₀ (d₀.acts as) as

/-- **A manifest survives rewriting**, whatever is done to its record. -/
theorem survives_rewriting {path : Path} {text : String} {d₀ : Manifest}
    (h : ofText path text = .ok d₀) (hints : d₀.Integral) (as : List Action) :
    d₀.Survives as := by
  have hexact := (exact_of_ofText h hints).acts as
  have hholds := holds_acts (distinct_of_ofText h) as
  refine ⟨?_, fun root h h' hread hwrite => ?_, others_acts d₀ as, hholds.contains_iff, hholds⟩
  · have hreread := hexact.ofText_written
    rwa [path_acts] at hreread
  · exact read_of_write hread (path_acts d₀ as) hexact hwrite

/-- A manifest with nested values and a record in which an identity has no list of files. -/
def nestedManifest : Manifest where
  path := ⟨"x/package.json"⟩
  members := [("name", .string "\u00e9\n"), (recordKey, .object [("local-a", .null)]),
    ("sizes", .array [.number (.integer (-1)), .object [], .array [.bool true]])]

/-- The text of this manifest. -/
def nestedText : String :=
  "\x7b\"name\":\"\\u00e9\\n\", \"customPatches-appliedPatches\": \x7b\"local-a\": null\x7d," ++
    "\"sizes\": [-1, \x7b\x7d, [true]]\x7d"

theorem nestedManifest_survives :
    ofText nestedManifest.path nestedText = .ok nestedManifest ∧ nestedManifest.Integral ∧
      nestedManifest.Survives [.record "local-b" ["a.js"], .record "local-a" ["b.js"]] := by
  have hread : ofText nestedManifest.path nestedText = .ok nestedManifest := by cbv
  have hints : nestedManifest.Integral := by
    refine .object ?_
    simp only [nestedManifest, List.forall_mem_cons]
    exact ⟨.string _, .object (by simpa using .null),
      .array (by simpa using ⟨.integer _, .object (by simp), .array (by simpa using .bool _)⟩),
      by simp⟩
  exact ⟨hread, hints, survives_rewriting hread hints _⟩

end Manifest

end TextPatch
