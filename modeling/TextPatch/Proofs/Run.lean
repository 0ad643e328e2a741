/-
# How steps run

Two small calculi that every proof about a run starts from.  A sequence of steps that can fail
succeeds exactly when each step does (`bind_eq_ok`).  A sequence of steps on a tree of files runs
each step on the host that the one before it left (`OnTree.bind_apply`), and every operation of the
host is spelled out as a function of the host; operations that only tell or print something change
the journal and nothing else.
-/
import TextPatch.Host.OnTree

namespace TextPatch

/-! ## 1. Steps that can fail -/

/-- Two steps succeed exactly when the first does and the second does on its answer. -/
theorem bind_eq_ok {x : Except ε α} {f : α → Except ε β} {b : β} :
    (x >>= f) = .ok b ↔ ∃ a, x = .ok a ∧ f a = .ok b := by
  constructor
  · intro h
    cases x with
    | error e => cases h
    | ok a => exact ⟨a, rfl, h⟩
  · rintro ⟨a, rfl, h⟩
    exact h

/-- Two steps fail exactly when the first does, or the second does on its answer. -/
theorem bind_eq_error {x : Except ε α} {f : α → Except ε β} {e : ε} :
    (x >>= f) = .error e ↔ x = .error e ∨ ∃ a, x = .ok a ∧ f a = .error e := by
  cases x with
  | error e' => simp [bind, Except.bind]
  | ok a => simp [bind, Except.bind]

theorem eq_ok_of_toOption {x : Except ε α} {a : α} (h : x.toOption = some a) : x = .ok a := by
  cases x with
  | error e => cases h
  | ok b => exact congrArg Except.ok (Option.some.inj h)

/-- A step succeeds on all items of a list, or there is a first one on which it fails. -/
theorem all_ok_or_first_error (f : α → Except ε β) : ∀ xs : List α,
    (∀ x ∈ xs, ∃ b, f x = .ok b) ∨ ∃ before x after e, xs = before ++ x :: after ∧
      (∀ q ∈ before, ∃ b, f q = .ok b) ∧ f x = .error e
  | [] => Or.inl (by simp)
  | x :: xs => by
    cases hx : f x with
    | error e => exact Or.inr ⟨[], x, xs, e, rfl, by simp, hx⟩
    | ok b =>
      rcases all_ok_or_first_error f xs with hall | ⟨before, y, after, e, rfl, hbefore, hy⟩
      · exact Or.inl (List.forall_mem_cons.mpr ⟨⟨b, hx⟩, hall⟩)
      · have hbefore' := List.forall_mem_cons.mpr ⟨⟨b, hx⟩, hbefore⟩
        exact Or.inr ⟨x :: before, y, after, e, rfl, hbefore', hy⟩

/-! ## 2. Steps on a tree of files -/

namespace OnTree

variable {α β : Type}

@[simp] theorem pure_apply (a : α) (h : TreeHost) : (pure a : OnTree α) h = (a, h) := rfl

@[simp] theorem bind_apply (x : OnTree α) (f : α → OnTree β) (h : TreeHost) :
    (x >>= f) h = f (x h).1 (x h).2 := rfl

/-- Telling something adds to the journal and does nothing else. -/
@[simp] theorem note_apply (level : Level) (text : String) (h : TreeHost) :
    (Host.note level text : OnTree Unit) h =
      ((), { h with journal := h.journal ++ [.note level text] }) := rfl

/-- Telling several things adds them to the journal and does nothing else. -/
@[simp] theorem noteAll_apply (level : Level) (notes : List String) (h : TreeHost) :
    (Host.noteAll level notes : OnTree Unit) h =
      ((), { h with journal := h.journal ++ notes.map (Remark.note level) }) := by
  unfold Host.noteAll
  induction notes generalizing h with
  | nil => simp
  | cons s notes ih =>
    have hstep : (s :: notes).forM (Host.note level : String → OnTree Unit) =
        (Host.note level s >>= fun _ => notes.forM (Host.note level)) := rfl
    rw [hstep, bind_apply, note_apply, ih]
    simp

end OnTree

end TextPatch
