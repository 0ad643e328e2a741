/-
# Written descriptors decoded

What is written of a descriptor is decoded as the descriptor (`Descriptor.decode_toJson`).  A record
is decoded member by member, and each member fills the field that it was written from; a member that
was left out leaves its field unset, as it was (`foldlM_optionalMember`).

The documents are also exact: they hold no numbers but integers of 64 bits, and no record writes a
member twice.  So nothing is lost on the way through a text either.
-/
import TextPatch.Patch.Decode
import TextPatch.Patch.Encode
import TextPatch.Proofs.Json.Compact

namespace TextPatch

open Json

/-! ## 1. Values -/

/-- A list is decoded if its items are. -/
theorem mapM_map_of_decode {α : Type} {f : Decoder α} {write : α → Json} :
    ∀ {as : List α}, (∀ a ∈ as, f (write a) = .ok a) → (as.map write).mapM f = .ok as := by
  intro as
  induction as with
  | nil => exact fun _ => rfl
  | cons a as ih =>
    intro h
    have hrest := ih fun b hb => h b (List.mem_cons_of_mem a hb)
    rw [List.map_cons, List.mapM_cons, h a List.mem_cons_self, hrest]
    rfl

theorem mapM_string? (ss : List String) : (ss.map Json.string).mapM string? = some ss := by
  induction ss with
  | nil => rfl
  | cons s ss ih =>
    rw [List.map_cons, List.mapM_cons, ih]
    rfl

theorem exact_strings (ss : List String) : Exact 1 (.array (ss.map .string)) := by
  refine .array fun v hv => ?_
  obtain ⟨s, -, rfl⟩ := List.mem_map.mp hv
  exact .string s

theorem decodeInt64_ofInt64 (n : Int64) : decodeInt64 (ofInt64 n) = .ok n := by
  have hlow := n.le_toInt
  have hhigh := n.toInt_lt
  rw [ofInt64, decodeInt64, if_pos (by omega), Int64.ofInt_toInt]

theorem exact_ofInt64 (n : Int64) : Exact 0 (ofInt64 n) := by
  have hlow := n.le_toInt
  have hhigh := n.toInt_lt
  exact .integer (by omega) (by omega)

theorem OffsetRange.decode_toJson (r : OffsetRange) : OffsetRange.decode r.toJson = .ok r := by
  rw [OffsetRange.toJson, OffsetRange.decode, decodeInt64_ofInt64, decodeInt64_ofInt64]
  rfl

theorem OffsetRange.exact_toJson (r : OffsetRange) : Exact 1 r.toJson := by
  refine .array fun v hv => ?_
  rcases List.mem_cons.mp hv with rfl | hv
  · exact exact_ofInt64 r.start
  · rw [List.mem_singleton.mp hv]
    exact exact_ofInt64 r.stop

theorem Search.decode_toJson (s : Search) : Search.decode s.toJson = .ok s := by
  cases s with
  | one needle => rfl
  | many needles =>
    rw [Search.toJson, Search.decode]
    simp only [mapM_string?]

theorem Search.exact_toJson (s : Search) : Exact 1 s.toJson := by
  cases s with
  | one needle => exact .string needle
  | many needles => exact exact_strings needles

theorem ExtensionIds.decode?_toJson (ids : ExtensionIds) : decode? ids.toJson = some ids := by
  cases ids with
  | one id => rfl
  | many ids =>
    rw [ExtensionIds.toJson, decode?, mapM_string?]
    rfl

theorem ExtensionIds.exact_toJson (ids : ExtensionIds) : Exact 1 ids.toJson := by
  cases ids with
  | one id => exact .string id
  | many ids => exact exact_strings ids

theorem SearchMode.exists_word (m : SearchMode) :
    ∃ s, m.toJson = .string s ∧ SearchMode.decode (.string s) = .ok m := by
  cases m with
  | single => exact ⟨"single", rfl, rfl⟩
  | multiple => exact ⟨"multiple", rfl, rfl⟩
  | regex => exact ⟨"regex", rfl, rfl⟩

theorem InsertMode.exists_word (m : InsertMode) :
    ∃ s, m.toJson = .string s ∧ InsertMode.decode (.string s) = .ok m := by
  cases m with
  | before => exact ⟨"before", rfl, rfl⟩
  | after => exact ⟨"after", rfl, rfl⟩
  | replace => exact ⟨"replace", rfl, rfl⟩

/-! ## 2. Optional members -/

/-- A value that is set is decoded as such, unless it is written as `null`. -/
theorem decodeOption_eq_ok {α : Type} {f : Decoder α} {v : Json} {a : α} (hv : v ≠ .null)
    (h : f v = .ok a) : decodeOption f v = .ok (some a) := by
  unfold decodeOption
  split
  · exact absurd rfl hv
  · rw [h]
    rfl

theorem mem_optionalMember {name : String} {v : Option Json} {m : String × Json} :
    m ∈ optionalMember name v ↔ ∃ w, v = some w ∧ m = (name, w) := by
  cases v with
  | none => simp [optionalMember]
  | some w => simp [optionalMember]

/-- The keys of an optional member are its name, or nothing. -/
theorem keys_optionalMember (name : String) (v : Option Json) :
    (Members.keys (optionalMember name v)).Sublist [name] := by
  cases v with
  | none => exact List.nil_sublist _
  | some w => exact List.Sublist.refl _

/-- An optional member fills its field, and its absence leaves the field unset. -/
theorem foldlM_optionalMember {δ α : Type} {read : δ → String × Json → Except DecodeError δ}
    {name : String} {x : Option α} {write : α → Json} {d d' : δ} (hnone : x = none → d = d')
    (hsome : ∀ a, x = some a → read d (name, write a) = .ok d') :
    (optionalMember name (x.map write)).foldlM read d = .ok d' := by
  cases x with
  | none =>
    rw [hnone rfl]
    rfl
  | some a =>
    rw [Option.map_some, optionalMember, List.foldlM_cons, hsome a rfl]
    rfl

/-! ## 3. Rules -/

namespace EditRule

/-- The members that are written of a rule. -/
def members (r : EditRule) : Members :=
  ("search", r.search.toJson) ::
    (optionalMember "searchMode" (r.searchMode.map SearchMode.toJson) ++
      optionalMember "insertText" (r.insertText.map .string) ++
      optionalMember "insertMode" (r.insertMode.map InsertMode.toJson) ++
      optionalMember "insertOffset" (r.insertOffset.map Json.ofInt64) ++
      optionalMember "removeRange" (r.removeRange.map OffsetRange.toJson) ++
      optionalMember "removeRangeAfter" (r.removeRangeAfter.map OffsetRange.toJson) ++
      optionalMember "patchOptional" (r.patchOptional.map .bool))

theorem toJson_eq (r : EditRule) : r.toJson = .object r.members := rfl

/-- The members that a rule can have, with their values. -/
inductive IsMember (r : EditRule) : String × Json → Prop
  | search : IsMember r ("search", r.search.toJson)
  | searchMode {m : SearchMode} (h : r.searchMode = some m) : IsMember r ("searchMode", m.toJson)
  | insertText {s : String} (h : r.insertText = some s) : IsMember r ("insertText", .string s)
  | insertMode {m : InsertMode} (h : r.insertMode = some m) : IsMember r ("insertMode", m.toJson)
  | insertOffset {n : Int64} (h : r.insertOffset = some n) :
      IsMember r ("insertOffset", ofInt64 n)
  | removeRange {range : OffsetRange} (h : r.removeRange = some range) :
      IsMember r ("removeRange", range.toJson)
  | removeRangeAfter {range : OffsetRange} (h : r.removeRangeAfter = some range) :
      IsMember r ("removeRangeAfter", range.toJson)
  | patchOptional {b : Bool} (h : r.patchOptional = some b) : IsMember r ("patchOptional", .bool b)

theorem isMember_of_mem {r : EditRule} {m : String × Json} (h : m ∈ r.members) : r.IsMember m := by
  simp only [members, List.mem_cons, List.mem_append, mem_optionalMember,
    Option.map_eq_some_iff] at h
  rcases h with rfl | ((((((⟨w, ⟨a, ha, rfl⟩, rfl⟩ | ⟨w, ⟨a, ha, rfl⟩, rfl⟩) |
    ⟨w, ⟨a, ha, rfl⟩, rfl⟩) | ⟨w, ⟨a, ha, rfl⟩, rfl⟩) | ⟨w, ⟨a, ha, rfl⟩, rfl⟩) |
    ⟨w, ⟨a, ha, rfl⟩, rfl⟩) | ⟨w, ⟨a, ha, rfl⟩, rfl⟩)
  · exact .search
  · exact .searchMode ha
  · exact .insertText ha
  · exact .insertMode ha
  · exact .insertOffset ha
  · exact .removeRange ha
  · exact .removeRangeAfter ha
  · exact .patchOptional ha

/-- The members are written in the order of their declaration. -/
theorem keys_members (r : EditRule) : r.members.keys.Sublist fields := by
  unfold members Members.keys
  simp only [List.map_cons, List.map_append]
  refine List.Sublist.cons_cons "search" ?_
  exact ((((((keys_optionalMember "searchMode" _).append
    (keys_optionalMember "insertText" _)).append (keys_optionalMember "insertMode" _)).append
    (keys_optionalMember "insertOffset" _)).append (keys_optionalMember "removeRange" _)).append
    (keys_optionalMember "removeRangeAfter" _)).append (keys_optionalMember "patchOptional" _)

section

variable (d : Draft)

theorem read_search (s : Search) :
    d.read "search" s.toJson = .ok { d with search := some s } := by
  simp only [Draft.read, Search.decode_toJson]
  rfl

theorem read_searchMode (m : SearchMode) : d.read "searchMode" m.toJson =
    .ok { d with rest := { d.rest with searchMode := some m } } := by
  cases m <;> rfl

theorem read_insertMode (m : InsertMode) : d.read "insertMode" m.toJson =
    .ok { d with rest := { d.rest with insertMode := some m } } := by
  cases m <;> rfl

theorem read_insertOffset (n : Int64) : d.read "insertOffset" (ofInt64 n) =
    .ok { d with rest := { d.rest with insertOffset := some n } } := by
  have hdecode : decodeOption decodeInt64 (ofInt64 n) = .ok (some n) :=
    decodeOption_eq_ok (by simp [ofInt64]) (decodeInt64_ofInt64 n)
  simp only [Draft.read, hdecode]
  rfl

theorem decodeOption_range (range : OffsetRange) :
    decodeOption OffsetRange.decode range.toJson = .ok (some range) :=
  decodeOption_eq_ok (by simp [OffsetRange.toJson]) range.decode_toJson

theorem read_removeRange (range : OffsetRange) : d.read "removeRange" range.toJson =
    .ok { d with rest := { d.rest with removeRange := some range } } := by
  simp only [Draft.read, decodeOption_range]
  rfl

theorem read_removeRangeAfter (range : OffsetRange) : d.read "removeRangeAfter" range.toJson =
    .ok { d with rest := { d.rest with removeRangeAfter := some range } } := by
  simp only [Draft.read, decodeOption_range]
  rfl

end

/-- An optional member fills the field that `set` sets. -/
theorem foldlM_field {α : Type} {name : String} {write : α → Json}
    (set : EditRule → Option α → EditRule)
    (hread : ∀ (d : Draft) a, d.read name (write a) = .ok { d with rest := set d.rest (some a) })
    {d : Draft} (hunset : set d.rest none = d.rest) (x : Option α) :
    (optionalMember name (x.map write)).foldlM (fun d m => Draft.read d m.1 m.2) d =
      .ok { d with rest := set d.rest x } := by
  refine foldlM_optionalMember ?_ ?_
  · rintro rfl
    rw [hunset]
  · rintro a rfl
    exact hread d a

/-- **The draft that the members of a rule make** has all its fields. -/
theorem foldlM_read (r : EditRule) :
    r.members.foldlM (fun d m => Draft.read d m.1 m.2) Draft.start =
      .ok ⟨some r.search, { r with search := .one "" }⟩ := by
  rw [members, List.foldlM_cons]
  simp only [List.append_assoc]
  refine bind_eq_ok.mpr ⟨_, read_search Draft.start r.search, ?_⟩
  rw [List.foldlM_append]
  refine bind_eq_ok.mpr ⟨_, foldlM_field (fun r x => { r with searchMode := x }) read_searchMode
    rfl r.searchMode, ?_⟩
  rw [List.foldlM_append]
  refine bind_eq_ok.mpr ⟨_, foldlM_field (fun r x => { r with insertText := x }) (fun _ _ => rfl)
    rfl r.insertText, ?_⟩
  rw [List.foldlM_append]
  refine bind_eq_ok.mpr ⟨_, foldlM_field (fun r x => { r with insertMode := x }) read_insertMode
    rfl r.insertMode, ?_⟩
  rw [List.foldlM_append]
  refine bind_eq_ok.mpr ⟨_, foldlM_field (fun r x => { r with insertOffset := x })
    read_insertOffset rfl r.insertOffset, ?_⟩
  rw [List.foldlM_append]
  refine bind_eq_ok.mpr ⟨_, foldlM_field (fun r x => { r with removeRange := x })
    read_removeRange rfl r.removeRange, ?_⟩
  rw [List.foldlM_append]
  refine bind_eq_ok.mpr ⟨_, foldlM_field (fun r x => { r with removeRangeAfter := x })
    read_removeRangeAfter rfl r.removeRangeAfter, ?_⟩
  exact foldlM_field (fun r x => { r with patchOptional := x }) (fun _ _ => rfl) rfl r.patchOptional

theorem decode_toJson (r : EditRule) : decode r.toJson = .ok r := by
  rw [toJson_eq]
  exact bind_eq_ok.mpr ⟨_, foldlM_read r, rfl⟩

theorem exact_toJson (r : EditRule) : Exact 2 r.toJson := by
  rw [toJson_eq]
  refine .object ((keys_members r).nodup (by decide)) fun m hm => ?_
  cases isMember_of_mem hm with
  | search => exact r.search.exact_toJson
  | @searchMode m h =>
    obtain ⟨s, hs, -⟩ := m.exists_word
    rw [hs]
    exact .string s
  | @insertText s h => exact .string s
  | @insertMode m h =>
    obtain ⟨s, hs, -⟩ := m.exists_word
    rw [hs]
    exact .string s
  | @insertOffset n h => exact (exact_ofInt64 n).mono (by decide)
  | @removeRange range h => exact range.exact_toJson
  | @removeRangeAfter range h => exact range.exact_toJson
  | @patchOptional b h => exact .bool b

end EditRule

/-! ## 4. File patches -/

namespace FilePatch

/-- The members that are written of a file patch. -/
def members (p : FilePatch) : Members :=
  ("file", .string p.file) ::
    (optionalMember "fileCanBeMissing" (p.fileCanBeMissing.map .bool) ++
      [("patches", .array (p.rules.map EditRule.toJson))])

theorem toJson_eq (p : FilePatch) : p.toJson = .object p.members := rfl

/-- The members that a file patch can have, with their values. -/
inductive IsMember (p : FilePatch) : String × Json → Prop
  | file : IsMember p ("file", .string p.file)
  | fileCanBeMissing {b : Bool} (h : p.fileCanBeMissing = some b) :
      IsMember p ("fileCanBeMissing", .bool b)
  | rules : IsMember p ("patches", .array (p.rules.map EditRule.toJson))

theorem isMember_of_mem {p : FilePatch} {m : String × Json} (h : m ∈ p.members) :
    p.IsMember m := by
  simp only [members, List.mem_cons, List.mem_append, mem_optionalMember,
    Option.map_eq_some_iff, List.not_mem_nil, or_false] at h
  rcases h with rfl | ⟨w, ⟨a, ha, rfl⟩, rfl⟩ | rfl
  · exact .file
  · exact .fileCanBeMissing ha
  · exact .rules

theorem keys_members (p : FilePatch) : p.members.keys.Sublist fields := by
  unfold members Members.keys
  simp only [List.map_cons, List.map_append, List.map_nil]
  refine List.Sublist.cons_cons "file" ?_
  exact (keys_optionalMember "fileCanBeMissing" _).append (List.Sublist.refl ["patches"])

theorem read_rules (d : Draft) (rules : List EditRule) :
    d.read "patches" (.array (rules.map EditRule.toJson)) = .ok { d with rules } := by
  have hdecode : decodeList EditRule.decode (.array (rules.map EditRule.toJson)) = .ok rules :=
    mapM_map_of_decode fun r _ => r.decode_toJson
  simp only [Draft.read, hdecode]
  rfl

/-- The draft that the members of a file patch make. -/
theorem foldlM_read (p : FilePatch) :
    p.members.foldlM (fun d m => Draft.read d m.1 m.2) Draft.start =
      .ok ⟨some p.file, p.fileCanBeMissing, p.rules⟩ := by
  have hmissing : (optionalMember "fileCanBeMissing" (p.fileCanBeMissing.map .bool)).foldlM
      (fun d m => Draft.read d m.1 m.2) ⟨some p.file, none, []⟩ =
        .ok ⟨some p.file, p.fileCanBeMissing, []⟩ := by
    refine foldlM_optionalMember (fun h => by rw [h]) fun b h => ?_
    rw [h]
    rfl
  rw [members, List.foldlM_cons]
  refine bind_eq_ok.mpr ⟨⟨some p.file, none, []⟩, rfl, ?_⟩
  rw [List.foldlM_append]
  refine bind_eq_ok.mpr ⟨_, hmissing, ?_⟩
  exact bind_eq_ok.mpr ⟨_, read_rules _ p.rules, rfl⟩

theorem decode_toJson (p : FilePatch) : decode p.toJson = .ok p := by
  rw [toJson_eq]
  exact bind_eq_ok.mpr ⟨_, foldlM_read p, rfl⟩

theorem exact_rules (p : FilePatch) : Exact 3 (.array (p.rules.map EditRule.toJson)) := by
  refine .array fun v hv => ?_
  obtain ⟨r, -, rfl⟩ := List.mem_map.mp hv
  exact r.exact_toJson

theorem exact_toJson (p : FilePatch) : Exact 4 p.toJson := by
  rw [toJson_eq]
  refine .object ((keys_members p).nodup (by decide)) fun m hm => ?_
  cases isMember_of_mem hm with
  | file => exact .string p.file
  | @fileCanBeMissing b h => exact .bool b
  | rules => exact p.exact_rules

end FilePatch

/-! ## 5. Descriptors -/

theorem Target.decode_toJson (t : Target) : Target.decode t.toJson = .ok t := by
  cases t with
  | extensions ids =>
    rw [Target.toJson, Target.decode, Target.decode.extensions, ExtensionIds.decode?_toJson]
  | bundledScript enabled => rfl

theorem Target.exact_toJson (t : Target) : Exact 2 t.toJson := by
  cases t with
  | extensions ids =>
    refine .object (by simp [Members.keys]) fun m hm => ?_
    rw [List.mem_singleton.mp hm]
    exact ids.exact_toJson
  | bundledScript enabled =>
    refine .object (by simp [Members.keys]) fun m hm => ?_
    rw [List.mem_singleton.mp hm]
    exact .bool enabled

namespace Descriptor

/-- The members that are written of a descriptor. -/
def members (d : Descriptor) : Members :=
  [("target", d.target.toJson), ("patches", .array (d.files.map FilePatch.toJson))]

theorem toJson_eq (d : Descriptor) : d.toJson = .object d.members := rfl

theorem read_target (d : Draft) (t : Target) :
    d.read "target" t.toJson = .ok { d with target := some t } := by
  simp only [Draft.read, Target.decode_toJson]
  rfl

theorem read_files (d : Draft) (files : List FilePatch) :
    d.read "patches" (.array (files.map FilePatch.toJson)) = .ok { d with files := some files } := by
  have hdecode : decodeList FilePatch.decode (.array (files.map FilePatch.toJson)) = .ok files :=
    mapM_map_of_decode fun p _ => p.decode_toJson
  simp only [Draft.read, hdecode]
  rfl

/-- The draft that the members of a descriptor make. -/
theorem foldlM_read (d : Descriptor) :
    d.members.foldlM (fun d m => Draft.read d m.1 m.2) Draft.start =
      .ok ⟨some d.target, some d.files⟩ :=
  bind_eq_ok.mpr ⟨_, read_target Draft.start d.target,
    bind_eq_ok.mpr ⟨_, read_files _ d.files, rfl⟩⟩

/-- **What is written of a descriptor is decoded as the descriptor.** -/
theorem decode_toJson (d : Descriptor) : decode d.toJson = .ok d := by
  rw [toJson_eq]
  exact bind_eq_ok.mpr ⟨_, foldlM_read d, rfl⟩

theorem exact_toJson (d : Descriptor) : Exact 6 d.toJson := by
  rw [toJson_eq]
  refine .object (by simp [members, Members.keys]) fun m hm => ?_
  rcases List.mem_cons.mp hm with rfl | hm
  · exact d.target.exact_toJson.mono (by decide)
  · rw [List.mem_singleton.mp hm]
    refine .array fun v hv => ?_
    obtain ⟨p, -, rfl⟩ := List.mem_map.mp hv
    exact p.exact_toJson

end Descriptor

end TextPatch
