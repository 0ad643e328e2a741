/-
# What identifies a descriptor

The written form of a descriptor is read back as the descriptor, whether the reader makes a document
of the text first or reads the fields straight from it (`Descriptor.read_written`).  So different
descriptors have different written forms, and their identities are the same only if the digest of two
texts is; identities with different sources never are (`Descriptor.written_identifies`).
-/
import TextPatch.Patch.Reading
import TextPatch.Proofs.Bundle.History
import TextPatch.Proofs.Json.Typed
import TextPatch.Proofs.Patch.Decoding

namespace TextPatch

open Json Json.Read Json.Typed

/-! ## 1. Reading straight from a text -/

/-- A rule is read from its written form. -/
theorem EditRule.reads_toJson (r : EditRule) {depth : Nat} (hdepth : 1 ≤ depth) :
    Reads (EditRule.read depth) r.toJson r := by
  rw [EditRule.toJson_eq]
  refine reads_fields (fun m hm => ?_) (fun m hm d d' hread => ?_)
    ((keys_members r).nodup (by decide)) (foldlM_read r) rfl
  · exact (keys_members r).subset (List.mem_map_of_mem hm)
  · cases isMember_of_mem hm with
    | search => exact reads_document (r.search.exact_toJson.mono hdepth) hread
    | @searchMode m h =>
      obtain ⟨s, hs, -⟩ := m.exists_word
      rw [hs] at hread ⊢
      exact reads_oneWord hread
    | @insertText s h => exact reads_scalar (.string s) hread
    | @insertMode m h =>
      obtain ⟨s, hs, -⟩ := m.exists_word
      rw [hs] at hread ⊢
      exact reads_oneWord hread
    | @insertOffset n h => exact reads_scalar (exact_ofInt64 n) hread
    | @removeRange range h => exact reads_twoIntegers hread
    | @removeRangeAfter range h => exact reads_twoIntegers hread
    | @patchOptional b h => exact reads_scalar (.bool b) hread

/-- A file patch is read from its written form. -/
theorem FilePatch.reads_toJson (p : FilePatch) {depth : Nat} (hdepth : 3 ≤ depth) :
    Reads (FilePatch.read depth) p.toJson p := by
  rw [FilePatch.toJson_eq]
  refine reads_fields (fun m hm => ?_) (fun m hm d d' hread => ?_)
    ((keys_members p).nodup (by decide)) (foldlM_read p) rfl
  · exact (keys_members p).subset (List.mem_map_of_mem hm)
  · cases isMember_of_mem hm with
    | file => exact reads_scalar (.string p.file) hread
    | @fileCanBeMissing b h => exact reads_scalar (.bool b) hread
    | rules =>
      have hrules : Reads (list (EditRule.read (depth - 2)))
          (.array (p.rules.map EditRule.toJson)) p.rules :=
        reads_list fun r _ => r.reads_toJson (by omega)
      have hd' : d' = { d with rules := p.rules } := by
        rw [read_rules] at hread
        exact (Except.ok.inj hread).symm
      intro t ht
      simp only [hrules t ht, hd', bind, Except.bind, pure, Except.pure]

/-- A target is read from its written form. -/
theorem Target.reads_toJson (target : Target) {depth : Nat} (hdepth : 2 ≤ depth) :
    Reads (Target.read depth) target.toJson target := by
  -- both kinds of targets are written as an object with one member
  have hmember : ∀ {k : String} {v : Json}, target.toJson = .object [(k, v)] → Exact 1 v →
      Reads (Target.read depth) (.object [(k, v)]) target := by
    intro k v htarget hv t ht
    have hfuel : [(k, v)].length < (inObject [(k, v)] ++ t).length + 1 := by
      have hle := length_le_inObject [(k, v)]
      rw [List.length_append]
      omega
    have hdecode := target.decode_toJson
    rw [htarget] at hdecode
    rw [compact_object, List.cons_append]
    unfold Target.read
    rw [skipBlanks_cons (by decide)]
    refine bind_eq_ok.mpr ⟨([(k, v)], '\x7d' :: t),
      Passes.members_inObject (.member (fun t ht => ?_) (.done _)) t _ hfuel, ?_⟩
    · have hread := reads_document (f := .ok) (hv.mono (by omega : 1 ≤ depth - 1)) rfl t ht
      simp only [mark_cons (show isBlank ':' = false by decide), hread, bind, Except.bind, pure,
        Except.pure, List.nil_append]
    · refine bind_eq_ok.mpr ⟨t, mark_cons (by decide) t, ?_⟩
      simp only [hdecode, decided]
  cases target with
  | extensions ids => exact hmember rfl ids.exact_toJson
  | bundledScript enabled => exact hmember rfl (.bool enabled)

namespace Descriptor

/-- A descriptor is read from its written form. -/
theorem reads_toJson (d : Descriptor) {depth : Nat} (hdepth : 5 ≤ depth) :
    Reads (Descriptor.read depth) d.toJson d := by
  rw [toJson_eq]
  refine reads_fields (fun m hm => ?_) (fun m hm dr dr' hread => ?_)
    (by simp [members, Members.keys]) (foldlM_read d) rfl
  · rcases List.mem_cons.mp hm with rfl | hm
    · exact List.mem_cons_self
    · rw [List.mem_singleton.mp hm]
      exact List.mem_cons_of_mem _ List.mem_cons_self
  · rcases List.mem_cons.mp hm with rfl | hm
    · have htarget := d.target.reads_toJson (by omega : 2 ≤ depth)
      have hdr : dr' = { dr with target := some d.target } := by
        rw [read_target] at hread
        exact (Except.ok.inj hread).symm
      intro t ht
      simp only [htarget t ht, hdr, bind, Except.bind, pure, Except.pure]
    · obtain rfl := List.mem_singleton.mp hm
      have hfiles : Reads (list (FilePatch.read (depth - 2)))
          (.array (d.files.map FilePatch.toJson)) d.files :=
        reads_list fun p _ => p.reads_toJson (by omega)
      have hdr : dr' = { dr with files := some d.files } := by
        rw [read_files] at hread
        exact (Except.ok.inj hread).symm
      intro t ht
      refine bind_eq_ok.mpr ⟨_, hfiles t ht, ?_⟩
      rw [hdr]
      rfl

/-- **The written form of a descriptor is read back as the descriptor**, by way of a document and
straight from the text. -/
theorem read_written (d : Descriptor) : Json.parse d.written.toList = .ok d.toJson ∧
    Descriptor.read (deepest - 1) d.written.toList = .ok (d, []) := by
  have hparse := parse_compact (d.exact_toJson.mono (by decide : 6 ≤ deepest))
  have hread := d.reads_toJson (by decide : 5 ≤ deepest - 1) [] ends_nil
  rw [List.append_nil] at hread
  rw [written, String.toList_ofList]
  exact ⟨hparse, hread⟩

theorem written_injective {d d' : Descriptor} (h : d.written = d'.written) : d = d' := by
  have hread := d.read_written.2
  rw [h, d'.read_written.2] at hread
  exact (Prod.mk.inj (Except.ok.inj hread)).1.symm

end Descriptor

/-! ## 2. Identities -/

namespace Digest

/-- The number that hexadecimal digits stand for. -/
def hexValue (t : Text) : Nat := t.foldl (fun n c => n * 16 + (Text.digit? c).getD 0) 0

theorem hexValue_toDigits (n : Nat) : hexValue (Nat.toDigits 16 n) = n := by
  induction n using Nat.strongRecOn with
  | _ n ih =>
    by_cases hlt : n < 16
    · rw [Nat.toDigits_of_lt_base hlt, hexValue, List.foldl_cons, Json.Read.digit?_digitChar hlt]
      simp
    · have hrest := ih (n / 16) (by omega)
      rw [hexValue] at hrest
      rw [Nat.toDigits_of_base_le (by decide) (by omega), hexValue, List.foldl_append, hrest,
        List.foldl_cons, Json.Read.digit?_digitChar (Nat.mod_lt n (by decide))]
      simp only [Option.getD_some, List.foldl_nil]
      omega

/-- The digits of a digest stand for the digest. -/
theorem hexValue_hex (n : Nat) : hexValue (hex n).toList = n := by
  have hzeros : ∀ k, (List.replicate k '0').foldl
      (fun n c => n * 16 + (Text.digit? c).getD 0) 0 = 0 := by
    intro k
    induction k with
    | zero => rfl
    | succ k ih => rw [List.replicate_succ, List.foldl_cons]; exact ih
  rw [hex, String.toList_ofList, hexValue, List.foldl_append, hzeros]
  exact hexValue_toDigits n

theorem hex_injective {m n : Nat} (h : hex m = hex n) : m = n := by
  rw [← hexValue_hex m, h, hexValue_hex]

end Digest

namespace Descriptor

/-- Identities tell their sources and the digests in them. -/
theorem identity_eq_iff {s s' : PatchSource} {d d' : Descriptor} :
    d.identity s = d'.identity s' ↔
      s = s' ∧ Digest.xxh3 d.written.toUTF8 = Digest.xxh3 d'.written.toUTF8 := by
  constructor
  · intro h
    have htext := congrArg String.toList h
    simp only [identity, String.toList_append] at htext
    have hsame : s = s' := by
      cases s with
      | here =>
        cases s' with
        | here => rfl
        | remote => cases (List.cons.inj htext).1
      | remote =>
        cases s' with
        | here => cases (List.cons.inj htext).1
        | remote => rfl
    subst hsame
    have hhex := List.append_cancel_left htext
    exact ⟨rfl, Digest.hex_injective (String.toList_inj.mp hhex)⟩
  · rintro ⟨rfl, hdigest⟩
    rw [identity, identity, hdigest]

/-- **The written form of a descriptor identifies it.**  The bytes that are digested hold a text that
is read back as the descriptor, both ways; so descriptors with the same bytes are the same, and
identities are the same exactly if the sources are and the digests of the bytes are. -/
theorem written_identifies :
    (∀ d : Descriptor, ∃ text v, Host.decodeText d.written.toUTF8 = .ok text ∧
      Json.parse text.toList = .ok v ∧ Descriptor.decode v = .ok d ∧
        Descriptor.read (deepest - 1) text.toList = .ok (d, [])) ∧
    (∀ d d' : Descriptor, d.written.toUTF8 = d'.written.toUTF8 ↔ d = d') ∧
    ∀ (s s' : PatchSource) (d d' : Descriptor), d.identity s = d'.identity s' ↔
      s = s' ∧ Digest.xxh3 d.written.toUTF8 = Digest.xxh3 d'.written.toUTF8 := by
  refine ⟨fun d => ?_, fun d d' => ?_, fun s s' d d' => identity_eq_iff⟩
  · exact ⟨d.written, d.toJson, Host.decodeText_toUTF8 d.written, d.read_written.1,
      d.decode_toJson, d.read_written.2⟩
  · constructor
    · intro h
      exact written_injective (String.toByteArray_inj.mp h)
    · rintro rfl
      rfl

end Descriptor

end TextPatch
