/-
# The places that a path looks at

Following a path looks at places on the way: the directories that it passes, the links that it
follows, and the place that it comes to (`Tree.way`).  What stands elsewhere makes no difference:

* Trees that agree on the way of a path agree on where it leads (`locate_of_way`), and that place is
  on the way, too (`mem_way_of_locate`).
* When a file has been put somewhere, what is read through a path is that file, or what was read
  before (`read_of_set`).  It is that file under its name in its directory (`read_join_of_set`).

Unlike `Follows`, the way of a path is there when it leads nowhere, too.
-/
import TextPatch.Proofs.Files.Guarded

namespace TextPatch.Tree

/-! ## 1. The way of a path -/

/-- The places that following steps looks at; `onward` answers those behind a link. -/
def lookedSteps (t : Tree) (onward : Location → List Step → List Location) (l : Location) :
    List Step → List Location
  | [] => [l]
  | step :: rest =>
    l :: if !t.isDirectory l then []
    else match step with
      | .here => lookedSteps t onward l rest
      | .up => lookedSteps t onward l.dropLast rest
      | .name s =>
        if nameLimit < s.utf8ByteSize then []
        else match t.get? (l ++ [s]) with
          | some (.link target) =>
            (l ++ [s]) :: onward (if target.hasRoot then [] else l) (target.steps ++ rest)
          | _ => lookedSteps t onward (l ++ [s]) rest

/-- The places that following steps looks at.  `links` is how many links may still be on the way. -/
def looked (t : Tree) : (links : Nat) → Location → List Step → List Location
  | 0 => lookedSteps t fun _ _ => []
  | links + 1 => lookedSteps t (looked t links)

/-- The places that following a path looks at. -/
def way (t : Tree) (working : Location) (p : Path) : List Location :=
  t.looked linkLimit (if p.hasRoot then [] else working) p.steps

variable {t t' : Tree} {working l r z : Location} {links : List Location} {steps : List Step}
  {p : Path} {b content : ByteArray}

@[simp] theorem looked_nil (t : Tree) (n : Nat) (l : Location) : looked t n l [] = [l] := by
  cases n <;> rfl

/-- One step of what is looked at. -/
theorem looked_cons (t : Tree) (n : Nat) (l : Location) (step : Step) (rest : List Step) :
    looked t n l (step :: rest) =
      l :: if !t.isDirectory l then []
      else match step with
        | .here => looked t n l rest
        | .up => looked t n l.dropLast rest
        | .name s =>
          if nameLimit < s.utf8ByteSize then []
          else match t.get? (l ++ [s]) with
            | some (.link target) => (l ++ [s]) :: match n with
              | 0 => []
              | n + 1 => looked t n (if target.hasRoot then [] else l) (target.steps ++ rest)
            | _ => looked t n (l ++ [s]) rest := by
  cases n <;> rfl

/-- Where following steps starts is looked at. -/
theorem mem_looked_self (t : Tree) (n : Nat) (l : Location) : ∀ steps, l ∈ looked t n l steps
  | [] => by simp
  | step :: rest => by
    rw [looked_cons]
    exact List.mem_cons_self

/-! ## 2. Trees that agree on the way -/

/-- **Trees that agree on what is looked at** are walked alike. -/
theorem walk_of_looked : ∀ (n : Nat) (steps : List Step) (l : Location),
    (∀ z ∈ looked t n l steps, t'.get? z = t.get? z) →
      walk t' true n l steps = walk t true n l steps
  | n, [], l, _ => by rw [walk_nil, walk_nil]
  | n, step :: rest, l, hagree => by
    have hl : t'.get? l = t.get? l := hagree l (mem_looked_self t n l _)
    have hdirs : t'.isDirectory l = t.isDirectory l := by
      unfold isDirectory
      rw [hl]
    rw [looked_cons] at hagree
    rw [walk_cons, walk_cons, hdirs, noWayOn, noWayOn, hl]
    cases hdir : t.isDirectory l with
    | false => rfl
    | true =>
      rw [hdir] at hagree
      simp only [Bool.not_true, Bool.false_eq_true, if_false] at hagree ⊢
      cases step with
      | here => exact walk_of_looked n rest l fun z hz => hagree z (List.mem_cons_of_mem _ hz)
      | up => exact walk_of_looked n rest _ fun z hz => hagree z (List.mem_cons_of_mem _ hz)
      | name s =>
        simp only at hagree ⊢
        split
        · rfl
        · rename_i hlen
          rw [if_neg hlen] at hagree
          have hnext : t'.get? (l ++ [s]) = t.get? (l ++ [s]) := by
            refine hagree _ (List.mem_cons_of_mem _ ?_)
            split
            · exact List.mem_cons_self
            · exact mem_looked_self t n _ rest
          rw [hnext]
          cases hget : t.get? (l ++ [s]) with
          | none =>
            rw [hget] at hagree
            exact walk_of_looked n rest _ fun z hz => hagree z (List.mem_cons_of_mem _ hz)
          | some e =>
            rw [hget] at hagree
            cases e with
            | file content =>
              exact walk_of_looked n rest _ fun z hz => hagree z (List.mem_cons_of_mem _ hz)
            | directory =>
              exact walk_of_looked n rest _ fun z hz => hagree z (List.mem_cons_of_mem _ hz)
            | link target =>
              cases n with
              | zero => rfl
              | succ n =>
                simp only [Bool.and_false, Bool.false_eq_true, if_false]
                exact walk_of_looked n _ _ fun z hz =>
                  hagree z (List.mem_cons_of_mem _ (List.mem_cons_of_mem _ hz))
  termination_by n steps => (n, steps.length)

/-- Where steps lead is looked at. -/
theorem Follows.mem_looked (h : Follows t links l steps r) :
    ∀ {n}, links.length ≤ n → r ∈ looked t n l steps := by
  induction h with
  | done l =>
    intro n _
    simp
  | here hdir _ ih =>
    intro n hn
    rw [looked_cons, hdir]
    exact List.mem_cons_of_mem _ (ih hn)
  | up hdir _ ih =>
    intro n hn
    rw [looked_cons, hdir]
    exact List.mem_cons_of_mem _ (ih hn)
  | @name links l r rest s hdir hlen hnot _ ih =>
    intro n hn
    rw [looked_cons, hdir]
    simp only [Bool.not_true, Bool.false_eq_true, if_false, Nat.not_lt.mpr hlen]
    exact List.mem_cons_of_mem _ (ih hn)
  | link hdir hlen hlink _ ih =>
    intro n hn
    cases n with
    | zero => simp at hn
    | succ n =>
      rw [looked_cons, hdir]
      simp only [Bool.not_true, Bool.false_eq_true, if_false, Nat.not_lt.mpr hlen, hlink]
      exact List.mem_cons_of_mem _ (List.mem_cons_of_mem _ (ih (by simpa using hn)))

/-- The place that a path leads to is on its way. -/
theorem mem_way_of_locate (h : t.locate working true p = .ok l) : l ∈ t.way working p := by
  obtain ⟨-, -, -, hwalk⟩ := locate_eq_ok_iff.mp h
  obtain ⟨links, hlinks, hfollows⟩ := walk_eq_ok_iff.mp hwalk
  exact hfollows.mem_looked hlinks

/-- **Trees that agree on the way of a path** agree on where it leads. -/
theorem locate_of_way (hagree : ∀ z ∈ t.way working p, t'.get? z = t.get? z) :
    t'.locate working true p = t.locate working true p := by
  unfold locate
  rw [walk_of_looked linkLimit p.steps _ hagree]

/-- A place is on the way of a path, or above a place on the way. -/
def OnWay (t : Tree) (working : Location) (p : Path) (z : Location) : Prop :=
  ∃ v ∈ t.way working p, z <+: v

instance (t : Tree) (working : Location) (p : Path) (z : Location) :
    Decidable (t.OnWay working p z) :=
  inferInstanceAs (Decidable (∃ v ∈ t.way working p, z <+: v))

/-! ## 3. A file that has been put somewhere -/

/-- Steps lead to a file that has been put somewhere, or to where they led before. -/
theorem Follows.of_set (hz : z ≠ []) (h : Follows (t.set z (.file content)) links l steps r) :
    r = z ∨ Follows t links l steps r := by
  have hself : (t.set z (.file content)).isDirectory z = false :=
    isDirectory_eq_false (by rw [get?_set_self t _ hz]; simp)
  have hdirs : ∀ {q : Location}, (t.set z (.file content)).isDirectory q = true →
      t.isDirectory q = true := by
    intro q hq
    have hne : q ≠ z := by
      rintro rfl
      rw [hself] at hq
      cases hq
    rwa [isDirectory, get?_set_ne t _ hne] at hq
  induction h with
  | done l => exact Or.inr (.done l)
  | here hdir _ ih => exact ih.imp_right (.here (hdirs hdir))
  | up hdir _ ih => exact ih.imp_right (.up (hdirs hdir))
  | @name links l r rest s hdir hlen hnot hrest ih =>
    by_cases hnext : l ++ [s] = z
    · -- a file is the end of the way
      rw [hnext] at hrest
      obtain rfl := hrest.eq_nil hself
      cases hrest
      exact Or.inl rfl
    · refine ih.imp_right (.name (hdirs hdir) hlen fun target => ?_)
      rw [← get?_set_ne t (.file content) hnext]
      exact hnot target
  | @link links l r rest s target hdir hlen hlink hrest ih =>
    have hnext : l ++ [s] ≠ z := by
      rintro hnext
      rw [hnext, get?_set_self t _ hz] at hlink
      cases hlink
    rw [get?_set_ne t _ hnext] at hlink
    exact ih.imp_right (.link (hdirs hdir) hlen hlink)

/-- **When a file has been put somewhere**, what is read is that file, or what was read before. -/
theorem read_of_set (hz : z ≠ []) (h : (t.set z (.file content)).read working p = .ok b) :
    b = content ∨ t.read working p = .ok b := by
  obtain ⟨hlimits, links, r, hlinks, hfollows, hget⟩ := read_eq_ok_iff_leadsThrough.mp h
  by_cases hr : r = z
  · subst hr
    rw [get?_set_self t _ hz] at hget
    cases hget
    exact Or.inl rfl
  · rw [get?_set_ne t _ hr] at hget
    exact Or.inr (read_eq_ok_iff_leadsThrough.mpr
      ⟨hlimits, links, r, hlinks, (Follows.of_set hz hfollows).resolve_left hr, hget⟩)

/-- A path with a name behind it leads where the name leads from the directory. -/
theorem exists_follows_join {root : Path} {s : String} (hs : IsName s)
    (hlocate : t.locate working true root = .ok l)
    (h : t'.LeadsThrough working (root.join ⟨s⟩) links r)
    (hsame : ∀ ks q steps, Follows t' ks (if root.hasRoot then [] else working) steps q →
      q = z ∨ Follows t ks (if root.hasRoot then [] else working) steps q) :
    ∃ ms q, Follows t' ms q [.name s] r ∧ (q = z ∨ q = l) := by
  obtain ⟨-, hempty, -, hwalk⟩ := locate_eq_ok_iff.mp hlocate
  obtain ⟨links', -, hfollows⟩ := walk_eq_ok_iff.mp hwalk
  have hne : root.text.toList ≠ [] := by simpa using hempty
  obtain ⟨before, hjoin, hroot⟩ := Path.steps_join hne hs
  unfold LeadsThrough at h
  rw [hjoin, Path.hasRoot_join hne hs.not_hasRoot] at h
  obtain ⟨q, ks, ms, -, hbefore, hname⟩ := follows_append h
  refine ⟨ms, q, hname, (hsame ks q before hbefore).imp_right fun hq => ?_⟩
  rcases hroot with hsteps | hsteps
  · rw [hsteps] at hfollows
    exact (hq.unique hfollows).2
  · rw [hsteps] at hfollows
    obtain ⟨q', ks', ms', -, hbefore', hhere⟩ := follows_append hfollows
    obtain ⟨-, rfl⟩ := hq.unique hbefore'
    cases hhere with
    | here _ hrest =>
      cases hrest
      rfl

/-- **A file that has been put into a directory** is what is read under its name there. -/
theorem read_join_of_set {root : Path} {s : String} (hs : IsName s)
    (hlocate : t.locate working true root = .ok l)
    (h : (t.set (l ++ [s]) (.file content)).read working (root.join ⟨s⟩) = .ok b) :
    b = content := by
  have hz : l ++ [s] ≠ [] := by simp
  have hself := get?_set_self t (.file content) hz
  obtain ⟨-, links, r, -, hleads, hget⟩ := read_eq_ok_iff_leadsThrough.mp h
  obtain ⟨ms, q, hname, rfl | rfl⟩ := exists_follows_join hs hlocate hleads
    fun ks q steps hfollows => Follows.of_set hz hfollows
  · cases hname.eq_nil (isDirectory_eq_false (by rw [hself]; simp))
  · cases hname with
    | name _ _ _ hrest =>
      cases hrest
      rw [hself] at hget
      cases hget
      rfl
    | link _ _ hlink _ =>
      rw [hself] at hlink
      cases hlink

end TextPatch.Tree
