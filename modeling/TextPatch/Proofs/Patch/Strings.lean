/-
# Where the strings of a patch set stand

The identifiers, files, needles and insertions of a patch set are strings of the document that it is
read from, each at its own place: a field of a record, by its name or in its place among the items
of an array (`Json.field?`).

A record is read member by member, and each member fills the one field that it names.  So a field of
the record is what its member was read as, if the document has each key once (`foldlM_field_cases`).
-/
import Mathlib.Data.List.Forall2
import TextPatch.Patch.Loading
import TextPatch.Proofs.Json.Rewriting

namespace TextPatch

open Json

/-! ## 1. Fields of records -/

namespace Json

/-- The members of a record that is written as an object, or as an array of its fields. -/
def pairs? (fields : List String) : Json → Option Members
  | .object ms => some ms
  | .array vs => some (fields.zip vs)
  | _ => none

/-- The value of a field of a record. -/
def field? (fields : List String) (name : String) (v : Json) : Option Json :=
  (v.pairs? fields).bind fun ms => ms.get? name

theorem field?_eq {fields : List String} {v : Json} {ms : Members}
    (h : v.pairs? fields = some ms) (name : String) : v.field? fields name = ms.get? name := by
  rw [field?, h]
  rfl

theorem Distinct.of_mem_values {ms : Members} (h : DistinctValues ms) {m : String × Json}
    (hm : m ∈ ms) : Distinct m.2 := by
  induction ms with
  | nil => cases hm
  | cons p ms ih =>
    rcases List.mem_cons.mp hm with rfl | hm
    · exact h.1
    · exact ih h.2 hm

theorem Distinct.of_mem_items {vs : List Json} (h : DistinctItems vs) {v : Json} (hv : v ∈ vs) :
    Distinct v := by
  induction vs with
  | nil => cases hv
  | cons w vs ih =>
    rcases List.mem_cons.mp hv with rfl | hv
    · exact h.1
    · exact ih h.2 hv

/-- The items of an array fill fields in their order. -/
theorem keys_zip : ∀ (fields : List String) (vs : List Json),
    (Members.keys (fields.zip vs)).Sublist fields
  | [], _ => .slnil
  | _ :: _, [] => List.nil_sublist _
  | f :: fields, _ :: vs => (keys_zip fields vs).cons_cons f

/-- The fields of a record have different names, and their values have each key once. -/
theorem Distinct.pairs? {fields : List String} (hfields : fields.Nodup) {v : Json}
    (hv : Distinct v) {ms : Members} (h : v.pairs? fields = some ms) :
    ms.keys.Nodup ∧ ∀ m ∈ ms, Distinct m.2 := by
  cases v with
  | object ns =>
    cases h
    exact ⟨hv.1, fun m hm => Distinct.of_mem_values hv.2 hm⟩
  | array vs =>
    cases h
    exact ⟨hfields.sublist (keys_zip fields vs),
      fun m hm => Distinct.of_mem_items hv (List.of_mem_zip hm).2⟩
  | _ => cases h

end Json

/-- **A field is what its member was read as**, or as it was before the first member. -/
theorem foldlM_field_cases {D F : Type} (read : D → String → Json → Except DecodeError D)
    (get : D → F) (name : String) (R : Json → F → Prop)
    (hother : ∀ {d n v d'}, n ≠ name → read d n v = .ok d' → get d' = get d)
    (hself : ∀ {d v d'}, read d name v = .ok d' → R v (get d')) :
    ∀ {ms : Members} {d d' : D}, ms.keys.Nodup →
      ms.foldlM (fun d m => read d m.1 m.2) d = .ok d' →
        (∃ v, ms.get? name = some v ∧ R v (get d')) ∨ (ms.get? name = none ∧ get d' = get d)
  | [], d, d', _, h => by
    cases h
    exact Or.inr ⟨rfl, rfl⟩
  | (k, v) :: ms, d, d', hkeys, h => by
    rw [List.foldlM_cons] at h
    obtain ⟨d₁, hread, h⟩ := bind_eq_ok.mp h
    rw [Members.keys, List.map_cons, List.nodup_cons] at hkeys
    have hrest := foldlM_field_cases read get name R hother hself hkeys.2 h
    rw [Members.get?, List.lookup_cons]
    by_cases hk : name = k
    · subst hk
      rw [beq_self_eq_true]
      refine Or.inl ⟨v, rfl, ?_⟩
      -- no later member has the same name
      rcases hrest with ⟨w, hw, -⟩ | ⟨-, hget⟩
      · exact absurd (List.mem_map_of_mem (Json.mem_of_get? hw)) hkeys.1
      · rw [hget]
        exact hself hread
    · rw [beq_false_of_ne hk]
      rcases hrest with h | ⟨hnone, hget⟩
      · exact Or.inl h
      · exact Or.inr ⟨hnone, hget.trans (hother (Ne.symm hk) hread)⟩

/-- A field that must be there is what its member was read as. -/
theorem foldlM_field_of_some {D F : Type} (read : D → String → Json → Except DecodeError D)
    (get : D → Option F) (name : String) (R : Json → F → Prop)
    (hother : ∀ {d n v d'}, n ≠ name → read d n v = .ok d' → get d' = get d)
    (hself : ∀ {d v d'}, read d name v = .ok d' → ∃ x, R v x ∧ get d' = some x) {ms : Members}
    {d d' : D} {x : F} (hkeys : ms.keys.Nodup)
    (h : ms.foldlM (fun d m => read d m.1 m.2) d = .ok d') (hstart : get d = none)
    (hend : get d' = some x) : ∃ v, ms.get? name = some v ∧ R v x := by
  rcases foldlM_field_cases read get name (fun v y => ∃ x, R v x ∧ y = some x) hother hself hkeys h
    with ⟨v, hv, y, hy, hd⟩ | ⟨-, hd⟩
  · rw [hend] at hd
    cases hd
    exact ⟨v, hv, hy⟩
  · rw [hend, hstart] at hd
    cases hd

/-- What is read item by item is in the order of the items. -/
theorem forall₂_of_mapM {α β ε : Type} {f : α → Except ε β} : ∀ {xs : List α} {ys : List β},
    xs.mapM f = .ok ys → List.Forall₂ (fun y x => f x = .ok y) ys xs
  | [], ys, h => by
    cases h
    exact .nil
  | x :: xs, ys, h => by
    rw [List.mapM_cons] at h
    obtain ⟨y, hy, h⟩ := bind_eq_ok.mp h
    obtain ⟨ys', hys, h⟩ := bind_eq_ok.mp h
    cases h
    exact .cons hy (forall₂_of_mapM hys)

theorem eq_map_of_mapM_string? : ∀ {vs : List Json} {ss : List String},
    vs.mapM string? = some ss → vs = ss.map .string
  | [], ss, h => by
    cases h
    rfl
  | v :: vs, ss, h => by
    rw [List.mapM_cons, Option.bind_eq_bind, Option.bind_eq_some_iff] at h
    obtain ⟨s, hs, h⟩ := h
    rw [Option.bind_eq_bind, Option.bind_eq_some_iff] at h
    obtain ⟨ss', hss, h⟩ := h
    cases h
    rw [eq_map_of_mapM_string? hss]
    cases v with
    | string u =>
      cases hs
      rfl
    | _ => cases hs

/-! ## 2. Places -/

/-- The needles of a search are written in a document. -/
def Search.StandsIn : Search → Json → Prop
  | .one s, v => v = .string s
  | .many ss, v => v = .array (ss.map .string)

/-- Identifiers are written in a document. -/
def ExtensionIds.StandsIn : ExtensionIds → Json → Prop
  | .one id, v => v = .string id
  | .many ids, v => v = .array (ids.map .string)

/-- The identifiers of a target are written in a document. -/
def Target.StandsIn : Target → Json → Prop
  | .extensions ids, v => ∃ w, ids.StandsIn w ∧ (v = .object [("extension", w)] ∨ v = .array [w])
  | .bundledScript _, _ => True

/-- The strings of a rule are written in a document. -/
structure EditRule.StandsIn (r : EditRule) (v : Json) : Prop where
  search : ∃ w, v.field? fields "search" = some w ∧ r.search.StandsIn w
  insertText : ∀ s, r.insertText = some s ↔ v.field? fields "insertText" = some (.string s)

/-- The strings of a file patch are written in a document. -/
structure FilePatch.StandsIn (p : FilePatch) (v : Json) : Prop where
  file : v.field? fields "file" = some (.string p.file)
  rules : ∃ vs, (v.field? fields "patches").getD (.array []) = .array vs ∧
    List.Forall₂ EditRule.StandsIn p.rules vs

/-- The strings of a descriptor are written in a document. -/
structure Descriptor.StandsIn (d : Descriptor) (v : Json) : Prop where
  target : ∃ w, v.field? fields "target" = some w ∧ d.target.StandsIn w
  files : ∃ vs, v.field? fields "patches" = some (.array vs) ∧
    List.Forall₂ FilePatch.StandsIn d.files vs

/-- The strings of a patch set are written in a document, descriptor by descriptor. -/
def PatchSet.StandsIn (s : PatchSet) (v : Json) : Prop :=
  ∃ vs, (v = .array vs ∨ ∃ ms, v = .object ms ∧ vs = ms.map Prod.snd) ∧
    List.Forall₂ Descriptor.StandsIn s.descriptors vs

/-! ## 3. What is read stands in its place -/

theorem Search.standsIn_of_decode {v : Json} {s : Search} (h : Search.decode v = .ok s) :
    s.StandsIn v := by
  cases v with
  | string t =>
    cases h
    rfl
  | array vs =>
    simp only [Search.decode] at h
    split at h
    · rename_i ss hss
      cases h
      exact congrArg Json.array (eq_map_of_mapM_string? hss)
    · cases h
  | _ => cases h

theorem ExtensionIds.standsIn_of_decode? {v : Json} {ids : ExtensionIds}
    (h : ExtensionIds.decode? v = some ids) : ids.StandsIn v := by
  cases v with
  | string t =>
    cases h
    rfl
  | array vs =>
    rw [ExtensionIds.decode?, Option.map_eq_some_iff] at h
    obtain ⟨ss, hss, rfl⟩ := h
    exact congrArg Json.array (eq_map_of_mapM_string? hss)
  | _ => cases h

theorem Target.standsIn_of_decode {v : Json} {t : Target} (h : Target.decode v = .ok t) :
    t.StandsIn v := by
  have hextensions : ∀ {w : Json}, Target.decode.extensions w = .ok t →
      (v = .object [("extension", w)] ∨ v = .array [w]) → t.StandsIn v := by
    intro w hw hv
    unfold Target.decode.extensions at hw
    split at hw
    · rename_i ids hids
      cases hw
      exact ⟨w, ExtensionIds.standsIn_of_decode? hids, hv⟩
    · cases hw
  unfold Target.decode at h
  split at h
  · exact hextensions h (Or.inl rfl)
  · cases h
    trivial
  · cases h
    trivial
  · cases h
    trivial
  · exact hextensions h (Or.inr rfl)
  · cases h

/-- What a record is read from: its members one after the other. -/
theorem EditRule.fields_of_decode {v : Json} {r : EditRule} (h : EditRule.decode v = .ok r) :
    ∃ ms d, v.pairs? fields = some ms ∧
      ms.foldlM (fun d m => Draft.read d m.1 m.2) Draft.start = .ok d ∧
        ∃ s, d.search = some s ∧ r = { d.rest with search := s } := by
  cases v with
  | object ms =>
    obtain ⟨d, hd, h⟩ := bind_eq_ok.mp h
    refine ⟨ms, d, rfl, hd, ?_⟩
    unfold Draft.ofMembers at h
    split at h
    · rename_i s hs
      cases h
      exact ⟨s, hs, rfl⟩
    · cases h
  | array vs =>
    obtain ⟨d, hd, h⟩ := bind_eq_ok.mp h
    obtain ⟨r', hr, h⟩ := bind_eq_ok.mp h
    refine ⟨_, d, rfl, hd, ?_⟩
    split at h
    · cases h
      unfold Draft.ofItems at hr
      split at hr
      · rename_i s hs
        cases hr
        exact ⟨s, hs, rfl⟩
      · cases hr
    · cases h
  | _ => cases h

theorem FilePatch.fields_of_decode {v : Json} {p : FilePatch} (h : FilePatch.decode v = .ok p) :
    ∃ ms d, v.pairs? fields = some ms ∧
      ms.foldlM (fun d m => Draft.read d m.1 m.2) Draft.start = .ok d ∧
        d.file = some p.file ∧ d.rules = p.rules := by
  cases v with
  | object ms =>
    obtain ⟨d, hd, h⟩ := bind_eq_ok.mp h
    refine ⟨ms, d, rfl, hd, ?_⟩
    unfold Draft.ofMembers at h
    split at h
    · rename_i file hfile
      cases h
      exact ⟨hfile, rfl⟩
    · cases h
  | array vs =>
    obtain ⟨d, hd, h⟩ := bind_eq_ok.mp h
    obtain ⟨p', hp, h⟩ := bind_eq_ok.mp h
    refine ⟨_, d, rfl, hd, ?_⟩
    split at h
    · cases h
      unfold Draft.ofItems at hp
      split at hp
      · rename_i file hfile
        cases hp
        exact ⟨hfile, rfl⟩
      · cases hp
    · cases h
  | _ => cases h

theorem Descriptor.fields_of_decode {v : Json} {p : Descriptor} (h : Descriptor.decode v = .ok p) :
    ∃ ms d, v.pairs? fields = some ms ∧
      ms.foldlM (fun d m => Draft.read d m.1 m.2) Draft.start = .ok d ∧
        d.target = some p.target ∧ d.files = some p.files := by
  cases v with
  | object ms =>
    obtain ⟨d, hd, h⟩ := bind_eq_ok.mp h
    refine ⟨ms, d, rfl, hd, ?_⟩
    unfold Draft.ofMembers at h
    split at h
    · rename_i target files htarget hfiles
      cases h
      exact ⟨htarget, hfiles⟩
    · cases h
    · cases h
  | array vs =>
    obtain ⟨d, hd, h⟩ := bind_eq_ok.mp h
    obtain ⟨p', hp, h⟩ := bind_eq_ok.mp h
    refine ⟨_, d, rfl, hd, ?_⟩
    split at h
    · cases h
      unfold Draft.ofItems at hp
      split at hp
      · rename_i target files htarget hfiles
        cases hp
        exact ⟨htarget, hfiles⟩
      · cases hp
      · cases hp
    · cases h
  | _ => cases h

/-- A member of a rule fills its own field only. -/
theorem EditRule.read_other {d d' : Draft} {n : String} {v : Json} (h : d.read n v = .ok d') :
    (n ≠ "search" → d'.search = d.search) ∧
      (n ≠ "insertText" → d'.rest.insertText = d.rest.insertText) := by
  unfold Draft.read at h
  simp only at h
  split at h
  · obtain ⟨s, -, h⟩ := bind_eq_ok.mp h
    cases h
    exact ⟨fun hne => absurd rfl hne, fun _ => rfl⟩
  · obtain ⟨x, -, h⟩ := bind_eq_ok.mp h
    cases h
    exact ⟨fun _ => rfl, fun _ => rfl⟩
  · obtain ⟨x, -, h⟩ := bind_eq_ok.mp h
    cases h
    exact ⟨fun _ => rfl, fun hne => absurd rfl hne⟩
  · obtain ⟨x, -, h⟩ := bind_eq_ok.mp h
    cases h
    exact ⟨fun _ => rfl, fun _ => rfl⟩
  · obtain ⟨x, -, h⟩ := bind_eq_ok.mp h
    cases h
    exact ⟨fun _ => rfl, fun _ => rfl⟩
  · obtain ⟨x, -, h⟩ := bind_eq_ok.mp h
    cases h
    exact ⟨fun _ => rfl, fun _ => rfl⟩
  · obtain ⟨x, -, h⟩ := bind_eq_ok.mp h
    cases h
    exact ⟨fun _ => rfl, fun _ => rfl⟩
  · obtain ⟨x, -, h⟩ := bind_eq_ok.mp h
    cases h
    exact ⟨fun _ => rfl, fun _ => rfl⟩
  · cases h

theorem FilePatch.read_other {d d' : Draft} {n : String} {v : Json} (h : d.read n v = .ok d') :
    (n ≠ "file" → d'.file = d.file) ∧ (n ≠ "patches" → d'.rules = d.rules) := by
  unfold Draft.read at h
  split at h
  · obtain ⟨x, -, h⟩ := bind_eq_ok.mp h
    cases h
    exact ⟨fun hne => absurd rfl hne, fun _ => rfl⟩
  · obtain ⟨x, -, h⟩ := bind_eq_ok.mp h
    cases h
    exact ⟨fun _ => rfl, fun _ => rfl⟩
  · obtain ⟨x, -, h⟩ := bind_eq_ok.mp h
    cases h
    exact ⟨fun _ => rfl, fun hne => absurd rfl hne⟩
  · cases h

theorem Descriptor.read_other {d d' : Draft} {n : String} {v : Json} (h : d.read n v = .ok d') :
    (n ≠ "target" → d'.target = d.target) ∧ (n ≠ "patches" → d'.files = d.files) := by
  unfold Draft.read at h
  split at h
  · obtain ⟨x, -, h⟩ := bind_eq_ok.mp h
    cases h
    exact ⟨fun hne => absurd rfl hne, fun _ => rfl⟩
  · obtain ⟨x, -, h⟩ := bind_eq_ok.mp h
    cases h
    exact ⟨fun _ => rfl, fun hne => absurd rfl hne⟩
  · cases h

/-- A string that may be left out is there if a string is. -/
theorem decodeOption_string {v : Json} {x : Option String}
    (h : decodeOption decodeString v = .ok x) (s : String) : x = some s ↔ v = .string s := by
  cases v with
  | null =>
    cases h
    simp
  | string t =>
    cases h
    simp
  | _ => cases h

theorem EditRule.standsIn_of_decode {v : Json} {r : EditRule} (hv : Distinct v)
    (h : EditRule.decode v = .ok r) : r.StandsIn v := by
  obtain ⟨ms, d, hms, hfold, s, hs, rfl⟩ := fields_of_decode h
  obtain ⟨hkeys, -⟩ := Distinct.pairs? (by decide) hv hms
  constructor
  · obtain ⟨w, hw, hdecode⟩ := foldlM_field_of_some Draft.read Draft.search "search"
      (fun w s => Search.decode w = .ok s)
      (fun hne hread => (read_other hread).1 hne)
      (fun hread => by
        obtain ⟨s, hs, h⟩ := bind_eq_ok.mp hread
        cases h
        exact ⟨s, hs, rfl⟩) hkeys hfold rfl hs
    exact ⟨w, (field?_eq hms _).trans hw, Search.standsIn_of_decode hdecode⟩
  · intro t
    rw [field?_eq hms]
    rcases foldlM_field_cases Draft.read (fun d => d.rest.insertText) "insertText"
      (fun w x => decodeOption decodeString w = .ok x)
      (fun hne hread => (read_other hread).2 hne)
      (fun hread => by
        obtain ⟨x, hx, h⟩ := bind_eq_ok.mp hread
        cases h
        exact hx) hkeys hfold with ⟨w, hw, hx⟩ | ⟨hw, hd⟩
    · rw [hw, Option.some.injEq]
      exact decodeOption_string hx t
    · rw [hw]
      constructor
      · intro hsome
        cases hd.symm.trans hsome
      · intro hsome
        cases hsome

/-- What stands item by item in an array. -/
theorem standsIn_of_decodeList {α : Type} {f : Decoder α} {StandsIn : α → Json → Prop}
    (hf : ∀ {v a}, Distinct v → f v = .ok a → StandsIn a v) {v : Json} {as : List α}
    (hv : Distinct v) (h : decodeList f v = .ok as) :
    ∃ vs, v = .array vs ∧ List.Forall₂ StandsIn as vs := by
  cases v with
  | array vs =>
    refine ⟨vs, rfl, ?_⟩
    have hall := forall₂_of_mapM h
    clear h
    induction hall with
    | nil => exact .nil
    | cons hhead _ ih => exact .cons (hf hv.1 hhead) (ih hv.2)
  | _ => cases h

theorem FilePatch.standsIn_of_decode {v : Json} {p : FilePatch} (hv : Distinct v)
    (h : FilePatch.decode v = .ok p) : p.StandsIn v := by
  obtain ⟨ms, d, hms, hfold, hfile, hrules⟩ := fields_of_decode h
  obtain ⟨hkeys, hvalues⟩ := Distinct.pairs? (by decide) hv hms
  constructor
  · obtain ⟨w, hw, rfl⟩ := foldlM_field_of_some Draft.read Draft.file "file"
      (fun w s => w = .string s)
      (fun hne hread => (read_other hread).1 hne)
      (fun {d w d'} hread => by
        obtain ⟨s, hs, h⟩ := bind_eq_ok.mp hread
        cases h
        cases w with
        | string t =>
          cases hs
          exact ⟨s, rfl, rfl⟩
        | _ => cases hs) hkeys hfold rfl hfile
    exact (field?_eq hms _).trans hw
  · rw [field?_eq hms]
    rcases foldlM_field_cases Draft.read Draft.rules "patches"
      (fun w x => decodeList EditRule.decode w = .ok x)
      (fun hne hread => (read_other hread).2 hne)
      (fun hread => by
        obtain ⟨x, hx, h⟩ := bind_eq_ok.mp hread
        cases h
        exact hx) hkeys hfold with ⟨w, hw, hx⟩ | ⟨hw, hd⟩
    · rw [hrules] at hx
      obtain ⟨vs, rfl, hvs⟩ := standsIn_of_decodeList EditRule.standsIn_of_decode
        (hvalues _ (mem_of_get? hw)) hx
      exact ⟨vs, by rw [hw]; rfl, hvs⟩
    · rw [hrules] at hd
      rw [hw, hd]
      exact ⟨[], rfl, .nil⟩

theorem Descriptor.standsIn_of_decode {v : Json} {d : Descriptor} (hv : Distinct v)
    (h : Descriptor.decode v = .ok d) : d.StandsIn v := by
  obtain ⟨ms, draft, hms, hfold, htarget, hfiles⟩ := fields_of_decode h
  obtain ⟨hkeys, hvalues⟩ := Distinct.pairs? (by decide) hv hms
  constructor
  · obtain ⟨w, hw, ht⟩ := foldlM_field_of_some Draft.read Draft.target "target"
      (fun w t => Target.decode w = .ok t)
      (fun hne hread => (read_other hread).1 hne)
      (fun hread => by
        obtain ⟨t, ht, h⟩ := bind_eq_ok.mp hread
        cases h
        exact ⟨t, ht, rfl⟩) hkeys hfold rfl htarget
    exact ⟨w, (field?_eq hms _).trans hw, Target.standsIn_of_decode ht⟩
  · obtain ⟨w, hw, hps⟩ := foldlM_field_of_some Draft.read Draft.files "patches"
      (fun w ps => decodeList FilePatch.decode w = .ok ps)
      (fun hne hread => (read_other hread).2 hne)
      (fun hread => by
        obtain ⟨x, hx, h⟩ := bind_eq_ok.mp hread
        cases h
        exact ⟨x, hx, rfl⟩) hkeys hfold rfl hfiles
    obtain ⟨vs, rfl, hvs⟩ := standsIn_of_decodeList FilePatch.standsIn_of_decode
      (hvalues _ (mem_of_get? hw)) hps
    exact ⟨vs, (field?_eq hms _).trans hw, hvs⟩

/-- **The strings of a set stand in the document that it is read from.** -/
theorem PatchSet.standsIn_of_ofDocument {v : Json} {ds : List Descriptor} (hv : Distinct v)
    (h : PatchSet.ofDocument v = .ok ds) : PatchSet.StandsIn ⟨ds⟩ v := by
  cases v with
  | object ms =>
    refine ⟨ms.map Prod.snd, Or.inr ⟨ms, rfl, rfl⟩, ?_⟩
    rw [List.forall₂_map_right_iff]
    have hall := forall₂_of_mapM h
    clear h
    simp only
    have hvalues := fun m (hm : m ∈ ms) => Distinct.of_mem_values hv.2 hm
    clear hv
    induction hall with
    | nil => exact .nil
    | @cons d m ds ms hhead _ ih =>
      refine .cons ?_ (ih fun m' hm' => hvalues m' (List.mem_cons_of_mem m hm'))
      obtain ⟨name, v⟩ := m
      simp only at hhead
      split at hhead
      · rename_i d' hd
        cases hhead
        exact Descriptor.standsIn_of_decode (hvalues (name, v) List.mem_cons_self) hd
      · cases hhead
  | _ =>
    simp only [PatchSet.ofDocument] at h
    split at h
    · rename_i ds' hds
      cases h
      obtain ⟨vs, hvs, hstand⟩ := standsIn_of_decodeList Descriptor.standsIn_of_decode hv hds
      exact ⟨vs, Or.inl hvs, hstand⟩
    · cases h

end TextPatch
