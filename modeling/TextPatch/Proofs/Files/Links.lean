/-
# Following links

`Follows t links l steps r` says that the steps lead from `l` to `r`, and through which links, one
after the other.  It is what `Tree.walk` does when it comes to an end (`walk_eq_ok_iff`), without
the count of the links that may still be on the way, so it composes (`follows_append`).

When a file is put at a place, a path that leads elsewhere, through other links, still leads there
(`Follows.set`).  A path that leads through the place leads to it from then on, provided that the
place itself led to a file (`Follows.set_end`).  From these it follows what is read after a backup
has been written (`read_of_write`) and after a file has been replaced (`read_of_replace`,
`read_of_replace_end`).
-/
import TextPatch.Proofs.Files.Plain

namespace TextPatch.Tree

/-! ## 1. The places that steps lead through -/

/-- Steps lead from a place to another one, through the links that stand at some places. -/
inductive Follows (t : Tree) : List Location → Location → List Step → Location → Prop
  | done (l : Location) : Follows t [] l [] l
  | here {links : List Location} {l r : Location} {rest : List Step}
      (hdir : t.isDirectory l = true) (hrest : Follows t links l rest r) :
      Follows t links l (.here :: rest) r
  | up {links : List Location} {l r : Location} {rest : List Step}
      (hdir : t.isDirectory l = true) (hrest : Follows t links l.dropLast rest r) :
      Follows t links l (.up :: rest) r
  | name {links : List Location} {l r : Location} {rest : List Step} {s : String}
      (hdir : t.isDirectory l = true) (hlen : s.utf8ByteSize ≤ nameLimit)
      (hnot : ∀ target, t.get? (l ++ [s]) ≠ some (.link target))
      (hrest : Follows t links (l ++ [s]) rest r) : Follows t links l (.name s :: rest) r
  | link {links : List Location} {l r : Location} {rest : List Step} {s : String} {target : Path}
      (hdir : t.isDirectory l = true) (hlen : s.utf8ByteSize ≤ nameLimit)
      (hlink : t.get? (l ++ [s]) = some (.link target))
      (hrest : Follows t links (if target.hasRoot then [] else l) (target.steps ++ rest) r) :
      Follows t ((l ++ [s]) :: links) l (.name s :: rest) r

variable {t : Tree} {links : List Location} {l r z : Location} {steps : List Step}

theorem Follows.walk_eq (h : Follows t links l steps r) :
    ∀ {n}, links.length ≤ n → walk t true n l steps = .ok r := by
  induction h with
  | done l =>
    intro n _
    exact walk_nil t true n l
  | here hdir _ ih =>
    intro n hn
    rw [walk_cons, hdir]
    exact ih hn
  | up hdir _ ih =>
    intro n hn
    rw [walk_cons, hdir]
    exact ih hn
  | name hdir hlen hnot _ ih =>
    intro n hn
    rw [walk_cons, hdir]
    simp only [Bool.not_true, Bool.false_eq_true, if_false, Nat.not_lt.mpr hlen]
    exact ih hn
  | link hdir hlen hlink _ ih =>
    intro n hn
    cases n with
    | zero => simp at hn
    | succ n =>
      rw [walk_cons, hdir]
      simp only [Bool.not_true, Bool.false_eq_true, if_false, Nat.not_lt.mpr hlen, hlink,
        Bool.and_false]
      exact ih (by simpa using hn)

/-- **A walk follows the first part of its steps**, and walks on from where they lead.  A link at
the end of that part is followed, unless it is the end of the walk. -/
theorem exists_follows_of_walk {follow : Bool} {b : List Step} (hlast : follow = true ∨ b ≠ [])
    {n : Nat} : ∀ {a : List Step} {l : Location}, walk t follow n l (a ++ b) = .ok r →
      ∃ links q m, links.length + m = n ∧ Follows t links l a q ∧ walk t follow m q b = .ok r := by
  have hgo : ∀ rest : List Step, ((rest ++ b).isEmpty && !follow) = false := by
    intro rest
    rcases hlast with rfl | hb
    · rw [Bool.not_true, Bool.and_false]
    · have hne : rest ++ b ≠ [] := by simp [hb]
      rw [List.isEmpty_eq_false_iff.mpr hne, Bool.false_and]
  induction n using Nat.strongRecOn with
  | ind n ihn =>
    intro a
    induction a with
    | nil =>
      intro l h
      exact ⟨[], l, n, by simp, .done l, h⟩
    | cons step rest ih =>
      intro l h
      rw [List.cons_append, walk_cons] at h
      split at h
      · cases h
      · rename_i hdir
        have hdir : t.isDirectory l = true := by simpa using hdir
        cases step with
        | here =>
          obtain ⟨links, q, m, hn, hrest, hwalk⟩ := ih h
          exact ⟨links, q, m, hn, .here hdir hrest, hwalk⟩
        | up =>
          obtain ⟨links, q, m, hn, hrest, hwalk⟩ := ih h
          exact ⟨links, q, m, hn, .up hdir hrest, hwalk⟩
        | name s =>
          simp only at h
          split at h
          · cases h
          · rename_i hlen
            have hlen := Nat.not_lt.mp hlen
            split at h
            · rename_i target hlink
              rw [hgo, if_neg (by simp)] at h
              cases n with
              | zero => cases h
              | succ n =>
                simp only at h
                rw [← List.append_assoc] at h
                obtain ⟨links, q, m, hn, hrest, hwalk⟩ := ihn n (Nat.lt_succ_self n) h
                exact ⟨(l ++ [s]) :: links, q, m, by rw [List.length_cons]; omega,
                  .link hdir hlen hlink hrest, hwalk⟩
            · rename_i hnot
              obtain ⟨links, q, m, hn, hrest, hwalk⟩ := ih h
              exact ⟨links, q, m, hn, .name hdir hlen hnot hrest, hwalk⟩

/-- **What a walk comes to.** -/
theorem walk_eq_ok_iff {n : Nat} : walk t true n l steps = .ok r ↔
    ∃ links, links.length ≤ n ∧ Follows t links l steps r := by
  constructor
  · intro h
    rw [← List.append_nil steps] at h
    obtain ⟨links, q, m, hn, hfollows, hwalk⟩ := exists_follows_of_walk (Or.inl rfl) h
    rw [walk_nil] at hwalk
    obtain rfl := Except.ok.inj hwalk
    exact ⟨links, Nat.le.intro hn, hfollows⟩
  · rintro ⟨links, hlinks, h⟩
    exact h.walk_eq hlinks

/-- Steps lead to one place, through one sequence of links. -/
theorem Follows.unique {links' : List Location} {r' : Location} (h : Follows t links l steps r)
    (h' : Follows t links' l steps r') : links = links' ∧ r = r' := by
  induction h generalizing links' r' with
  | done l =>
    cases h'
    exact ⟨rfl, rfl⟩
  | here _ _ ih =>
    cases h' with
    | here _ hrest => exact ih hrest
  | up _ _ ih =>
    cases h' with
    | up _ hrest => exact ih hrest
  | name _ _ hnot _ ih =>
    cases h' with
    | name _ _ _ hrest => exact ih hrest
    | link _ _ hlink _ => exact absurd hlink (hnot _)
  | link _ _ hlink _ ih =>
    cases h' with
    | name _ _ hnot _ => exact absurd hlink (hnot _)
    | link _ _ hlink' hrest =>
      rw [hlink] at hlink'
      cases hlink'
      obtain ⟨rfl, rfl⟩ := ih hrest
      exact ⟨rfl, rfl⟩

/-- Steps are followed one part after the other. -/
theorem follows_append {a b : List Step} (h : Follows t links l (a ++ b) r) :
    ∃ q ks ms, links = ks ++ ms ∧ Follows t ks l a q ∧ Follows t ms q b r := by
  generalize hsteps : a ++ b = steps at h
  induction h generalizing a with
  | done l =>
    obtain ⟨rfl, rfl⟩ := List.append_eq_nil_iff.mp hsteps
    exact ⟨l, [], [], rfl, .done l, .done l⟩
  | here hdir hrest ih =>
    cases a with
    | nil =>
      rw [List.nil_append] at hsteps
      exact ⟨_, [], _, rfl, .done _, hsteps ▸ .here hdir hrest⟩
    | cons step a =>
      obtain ⟨rfl, hrest'⟩ := List.cons.inj hsteps
      obtain ⟨q, ks, ms, rfl, ha, hb⟩ := ih hrest'
      exact ⟨q, ks, ms, rfl, .here hdir ha, hb⟩
  | up hdir hrest ih =>
    cases a with
    | nil =>
      rw [List.nil_append] at hsteps
      exact ⟨_, [], _, rfl, .done _, hsteps ▸ .up hdir hrest⟩
    | cons step a =>
      obtain ⟨rfl, hrest'⟩ := List.cons.inj hsteps
      obtain ⟨q, ks, ms, rfl, ha, hb⟩ := ih hrest'
      exact ⟨q, ks, ms, rfl, .up hdir ha, hb⟩
  | name hdir hlen hnot hrest ih =>
    cases a with
    | nil =>
      rw [List.nil_append] at hsteps
      exact ⟨_, [], _, rfl, .done _, hsteps ▸ .name hdir hlen hnot hrest⟩
    | cons step a =>
      obtain ⟨rfl, hrest'⟩ := List.cons.inj hsteps
      obtain ⟨q, ks, ms, rfl, ha, hb⟩ := ih hrest'
      exact ⟨q, ks, ms, rfl, .name hdir hlen hnot ha, hb⟩
  | link hdir hlen hlink hrest ih =>
    cases a with
    | nil =>
      rw [List.nil_append] at hsteps
      exact ⟨_, [], _, rfl, .done _, hsteps ▸ .link hdir hlen hlink hrest⟩
    | cons step a =>
      obtain ⟨rfl, hrest'⟩ := List.cons.inj hsteps
      have hrest' : a ++ b = _ := hrest'
      obtain ⟨q, ks, ms, rfl, ha, hb⟩ := ih (by rw [List.append_assoc, hrest'])
      exact ⟨q, _ :: ks, ms, rfl, .link hdir hlen hlink ha, hb⟩

theorem Follows.append {a b : List Step} {ks ms : List Location} {q : Location}
    (ha : Follows t ks l a q) (hb : Follows t ms q b r) : Follows t (ks ++ ms) l (a ++ b) r := by
  induction ha with
  | done l => exact hb
  | here hdir _ ih => exact .here hdir (ih hb)
  | up hdir _ ih => exact .up hdir (ih hb)
  | name hdir hlen hnot _ ih => exact .name hdir hlen hnot (ih hb)
  | link hdir hlen hlink _ ih =>
    have hrest := ih hb
    rw [List.append_assoc] at hrest
    exact .link hdir hlen hlink hrest

/-- No step leads on from what is no directory. -/
theorem Follows.eq_nil (h : Follows t links l steps r) (hl : t.isDirectory l = false) :
    steps = [] := by
  cases h with
  | done => rfl
  | here hdir => rw [hl] at hdir; cases hdir
  | up hdir => rw [hl] at hdir; cases hdir
  | name hdir => rw [hl] at hdir; cases hdir
  | link hdir => rw [hl] at hdir; cases hdir

theorem Follows.link_of_mem (h : Follows t links l steps r) :
    ∀ x ∈ links, ∃ target, t.get? x = some (.link target) := by
  induction h with
  | done => simp
  | here _ _ ih => exact ih
  | up _ _ ih => exact ih
  | name _ _ _ _ ih => exact ih
  | link _ _ hlink _ ih =>
    intro x hx
    rcases List.mem_cons.mp hx with rfl | hx
    · exact ⟨_, hlink⟩
    · exact ih x hx

theorem Follows.not_mem_links {z : Location} (h : Follows t links l steps r)
    (hz : ∀ target, t.get? z ≠ some (.link target)) : z ∉ links := by
  intro hmem
  obtain ⟨target, htarget⟩ := h.link_of_mem z hmem
  exact hz target htarget

/-- Without links, no walk goes through any. -/
theorem Follows.no_links (h : Follows t links l steps r)
    (ht : ∀ q target, t.get? q ≠ some (.link target)) : links = [] :=
  List.eq_nil_iff_forall_not_mem.mpr fun q => h.not_mem_links (ht q)

/-! ## 2. When a file is put at a place -/

section

variable {content : ByteArray}

theorem get?_set_file (hz : t.isDirectory z = false) :
    (t.set z (.file content)).get? z = some (.file content) := by
  refine get?_set_self t _ ?_
  rintro rfl
  rw [isDirectory_iff.mpr (get?_nil t)] at hz
  cases hz

/-- The directories stay the same. -/
theorem isDirectory_set (hz : t.isDirectory z = false) :
    (t.set z (.file content)).isDirectory l = t.isDirectory l := by
  by_cases heq : l = z
  · subst heq
    rw [hz]
    exact isDirectory_eq_false (by rw [get?_set_file hz]; simp)
  · rw [isDirectory, isDirectory, get?_set_ne t _ heq]

/-- Steps that lead through other links lead to where they did. -/
theorem Follows.set (hz : t.isDirectory z = false) (h : Follows t links l steps r)
    (hnot : z ∉ links) : Follows (t.set z (.file content)) links l steps r := by
  induction h with
  | done l => exact .done l
  | here hdir _ ih => exact .here ((isDirectory_set hz).trans hdir) (ih hnot)
  | up hdir _ ih => exact .up ((isDirectory_set hz).trans hdir) (ih hnot)
  | @name links l r rest s hdir hlen hnotlink _ ih =>
    refine .name ((isDirectory_set hz).trans hdir) hlen (fun target hlink => ?_) (ih hnot)
    by_cases heq : l ++ [s] = z
    · rw [heq, get?_set_file hz] at hlink
      cases hlink
    · rw [get?_set_ne t _ heq] at hlink
      exact hnotlink target hlink
  | @link links l r rest s target hdir hlen hlink _ ih =>
    rw [List.mem_cons, not_or] at hnot
    refine .link ((isDirectory_set hz).trans hdir) hlen ?_ (ih hnot.2)
    rw [get?_set_ne t _ (Ne.symm hnot.1)]
    exact hlink

/-- The name of a place leads to another place, through links. -/
def Ends (t : Tree) (z : Location) (final : Location) : Prop :=
  ∃ q s links, z = q ++ [s] ∧ Follows t links q [.name s] final

/-- What stands at a place is a file from then on. -/
theorem Follows.name_set {q : Location} {s : String} (hdir : t.isDirectory q = true)
    (hlen : s.utf8ByteSize ≤ nameLimit) (hz : t.isDirectory (q ++ [s]) = false) :
    Follows (t.set (q ++ [s]) (.file content)) [] q [.name s] (q ++ [s]) := by
  refine .name ((isDirectory_set hz).trans hdir) hlen (fun target hlink => ?_) (.done _)
  rw [get?_set_file hz] at hlink
  cases hlink

/-- **Steps that lead through a place which is now a file lead to it**, if the place led to a file
before; and other steps lead to where they did. -/
theorem Follows.set_end {final : Location} (content : ByteArray)
    (hz : t.isDirectory z = false) (hend : Ends t z final)
    (hfinal : t.isDirectory final = false) (h : Follows t links l steps r) :
    ∃ links', links'.length ≤ links.length ∧
      (Follows (t.set z (.file content)) links' l steps r ∨
        Follows (t.set z (.file content)) links' l steps z ∧ r = final) := by
  -- a step to the place is the last one
  have hlast : ∀ {links l r s rest}, l ++ [s] = z → t.isDirectory l = true →
      s.utf8ByteSize ≤ nameLimit → Follows t links l (.name s :: rest) r →
      Follows (t.set z (.file content)) [] l (.name s :: rest) z ∧ r = final := by
    intro links l r s rest heq hdir hlen h
    obtain ⟨q, u, ks, hq, hfollows⟩ := hend
    obtain ⟨rfl, hsu⟩ : l = q ∧ s = u := by simpa using heq.trans hq
    subst hsu
    obtain ⟨q', ks', ms, -, hname, hrest⟩ := follows_append (a := [.name s]) h
    obtain ⟨-, rfl⟩ := hname.unique hfollows
    obtain rfl := hrest.eq_nil hfinal
    cases hrest
    subst heq
    exact ⟨.name_set hdir hlen hz, rfl⟩
  induction h with
  | done l => exact ⟨[], Nat.le_refl _, Or.inl (.done l)⟩
  | here hdir _ ih =>
    obtain ⟨links', hlen', h' | ⟨h', hr⟩⟩ := ih
    · exact ⟨links', hlen', Or.inl (.here ((isDirectory_set hz).trans hdir) h')⟩
    · exact ⟨links', hlen', Or.inr ⟨.here ((isDirectory_set hz).trans hdir) h', hr⟩⟩
  | up hdir _ ih =>
    obtain ⟨links', hlen', h' | ⟨h', hr⟩⟩ := ih
    · exact ⟨links', hlen', Or.inl (.up ((isDirectory_set hz).trans hdir) h')⟩
    · exact ⟨links', hlen', Or.inr ⟨.up ((isDirectory_set hz).trans hdir) h', hr⟩⟩
  | @name links l r rest s hdir hlen hnot hrest ih =>
    by_cases heq : l ++ [s] = z
    · exact ⟨[], Nat.zero_le _, Or.inr (hlast heq hdir hlen (.name hdir hlen hnot hrest))⟩
    · have hnot' : ∀ target, (t.set z (.file content)).get? (l ++ [s]) ≠ some (.link target) := by
        intro target
        rw [get?_set_ne t _ heq]
        exact hnot target
      obtain ⟨links', hlen', h' | ⟨h', hr⟩⟩ := ih
      · exact ⟨links', hlen', Or.inl (.name ((isDirectory_set hz).trans hdir) hlen hnot' h')⟩
      · exact ⟨links', hlen', Or.inr ⟨.name ((isDirectory_set hz).trans hdir) hlen hnot' h', hr⟩⟩
  | @link links l r rest s target hdir hlen hlink hrest ih =>
    by_cases heq : l ++ [s] = z
    · exact ⟨[], Nat.zero_le _, Or.inr (hlast heq hdir hlen (.link hdir hlen hlink hrest))⟩
    · have hlink' : (t.set z (.file content)).get? (l ++ [s]) = some (.link target) := by
        rw [get?_set_ne t _ heq]
        exact hlink
      obtain ⟨links', hlen', h' | ⟨h', hr⟩⟩ := ih
      · exact ⟨(l ++ [s]) :: links', by simpa using hlen',
          Or.inl (.link ((isDirectory_set hz).trans hdir) hlen hlink' h')⟩
      · exact ⟨(l ++ [s]) :: links', by simpa using hlen',
          Or.inr ⟨.link ((isDirectory_set hz).trans hdir) hlen hlink' h', hr⟩⟩

end

/-! ## 3. Walks to a name -/

/-- A walk that does not follow a link at the end comes to the name in the directory that the steps
before it lead to. -/
theorem exists_name_of_walk {n : Nat} {s : String}
    (h : walk t false n l (steps ++ [.name s]) = .ok z) : ∃ links q, links.length ≤ n ∧
      Follows t links l steps q ∧ t.isDirectory q = true ∧ s.utf8ByteSize ≤ nameLimit ∧
        z = q ++ [s] := by
  obtain ⟨links, q, m, hn, hfollows, hwalk⟩ := exists_follows_of_walk (Or.inr (by simp)) h
  rw [walk_cons] at hwalk
  split at hwalk
  · cases hwalk
  · rename_i hdir
    simp only at hwalk
    split at hwalk
    · cases hwalk
    · rename_i hlen
      refine ⟨links, q, Nat.le.intro hn, hfollows, by simpa using hdir, Nat.not_lt.mp hlen, ?_⟩
      split at hwalk
      · rw [if_pos (by rfl)] at hwalk
        exact (Except.ok.inj hwalk).symm
      · rw [walk_nil] at hwalk
        exact (Except.ok.inj hwalk).symm

/-- Where two trees have the same directories and the same links, walks come to the same places. -/
theorem walk_congr {t' : Tree} {follow : Bool} (hdirs : ∀ l, t'.isDirectory l = t.isDirectory l)
    (hlinks : ∀ l target, t'.get? l = some (.link target) ↔ t.get? l = some (.link target))
    {n : Nat} : ∀ {steps : List Step} {l : Location},
      walk t' follow n l steps = .ok r → walk t follow n l steps = .ok r := by
  induction n using Nat.strongRecOn with
  | ind n ihn =>
    intro steps
    induction steps with
    | nil =>
      intro l h
      rw [walk_nil] at h ⊢
      exact h
    | cons step rest ih =>
      intro l h
      rw [walk_cons, hdirs] at h
      rw [walk_cons]
      cases hdir : t.isDirectory l with
      | false =>
        rw [hdir] at h
        cases h
      | true =>
        rw [hdir] at h
        simp only [Bool.not_true, Bool.false_eq_true, if_false] at h ⊢
        cases step with
        | here => exact ih h
        | up => exact ih h
        | name s =>
          simp only at h ⊢
          by_cases hlen : nameLimit < s.utf8ByteSize
          · rw [if_pos hlen] at h
            cases h
          · rw [if_neg hlen] at h ⊢
            split at h
            · rename_i target hlink
              rw [(hlinks _ _).mp hlink]
              simp only
              split at h
              · rename_i hend
                rw [if_pos hend]
                exact h
              · rename_i hend
                rw [if_neg hend]
                cases n with
                | zero => cases h
                | succ n => exact ihn n (Nat.lt_succ_self n) h
            · rename_i hnot
              split
              · rename_i target hlink
                exact absurd ((hlinks _ _).mpr hlink) (hnot target)
              · exact ih h

/-- Where nothing was, a file is no way on, so walks come to where they did. -/
theorem walk_of_set {follow : Bool} {n : Nat} {content : ByteArray} (hz : t.get? z = none)
    (h : walk (t.set z (.file content)) follow n l steps = .ok r) :
    walk t follow n l steps = .ok r := by
  have hne : z ≠ [] := by
    rintro rfl
    simp at hz
  have hget := fun k => get?_set t hne (.file content) k
  refine walk_congr (fun l => ?_) (fun l target => ?_) h
  · rw [Bool.eq_iff_iff, isDirectory_iff, isDirectory_iff, hget]
    split
    · rename_i heq
      rw [heq, hz]
      simp
    · rfl
  · rw [hget]
    split
    · rename_i heq
      rw [heq, hz]
      simp
    · rfl

/-! ## 4. What is read afterwards -/

/-- A path leads to a place through the links that stand at some places. -/
def LeadsThrough (t : Tree) (working : Location) (p : Path) (links : List Location)
    (r : Location) : Prop :=
  Follows t links (if p.hasRoot then [] else working) p.steps r

section

variable {t' : Tree} {working : Location} {p q : Path} {b b' content : ByteArray}

/-- A file is read exactly if its path leads to it, and breaks no limit. -/
theorem read_eq_ok_iff_leadsThrough : t.read working p = .ok b ↔
    ('\x00' ∉ p.text.toList ∧ p.text.isEmpty = false ∧ p.text.utf8ByteSize ≤ pathLimit) ∧
      ∃ links r, links.length ≤ linkLimit ∧ t.LeadsThrough working p links r ∧
        t.get? r = some (.file b) := by
  rw [read_eq_ok_iff]
  constructor
  · rintro ⟨r, hlocate, hget⟩
    obtain ⟨hzero, hempty, hlen, hwalk⟩ := locate_eq_ok_iff.mp hlocate
    obtain ⟨links, hlinks, hfollows⟩ := walk_eq_ok_iff.mp hwalk
    exact ⟨⟨hzero, hempty, hlen⟩, links, r, hlinks, hfollows, hget⟩
  · rintro ⟨⟨hzero, hempty, hlen⟩, links, r, hlinks, hfollows, hget⟩
    exact ⟨r, locate_eq_ok_iff.mpr ⟨hzero, hempty, hlen, hfollows.walk_eq hlinks⟩, hget⟩

/-- Without links, the path of a place leads to that place or nowhere. -/
theorem LeadsThrough.ofNames (ht : ∀ q target, t.get? q ≠ some (.link target)) (hl : AreNames l)
    (hne : l ≠ []) (h : t.LeadsThrough working (Path.ofNames l) links r) : links = [] ∧ r = l := by
  have hwalk := Follows.walk_eq h (Nat.le_refl _)
  rw [Path.steps_ofNames hl hne, if_pos (Path.hasRoot_ofNames l), walk_names_iff ht] at hwalk
  exact ⟨Follows.no_links h ht, hwalk.1⟩

/-- What a path leads to is read as before when a file is put elsewhere. -/
theorem read_set (hread : t.read working p = .ok b) (hz : t.isDirectory z = false)
    (havoids : ∀ links r, t.LeadsThrough working p links r → z ∉ links ∧ z ≠ r) :
    (t.set z (.file content)).read working p = .ok b := by
  obtain ⟨hlimits, links, r, hlinks, hfollows, hget⟩ := read_eq_ok_iff_leadsThrough.mp hread
  obtain ⟨hnot, hne⟩ := havoids links r hfollows
  refine read_eq_ok_iff_leadsThrough.mpr ⟨hlimits, links, r, hlinks, hfollows.set hz hnot, ?_⟩
  rw [get?_set_ne t _ (Ne.symm hne)]
  exact hget

/-- Writing a file where nothing was puts it where its path leads. -/
theorem exists_place_of_write (habsent : t.present working q = false)
    (hwrite : t.write working q content = .ok t') :
    ∃ z, t.locate working true q = .ok z ∧ t.get? z = none ∧ t' = t.set z (.file content) := by
  obtain ⟨z, hlocate, -, rfl⟩ := write_eq_ok_iff.mp hwrite
  exact ⟨z, hlocate, get?_of_not_present habsent hlocate, rfl⟩

/-- **Writing a file where nothing was** changes nothing that could be read. -/
theorem read_of_write (habsent : t.present working q = false)
    (hwrite : t.write working q content = .ok t') :
    ∃ z, t.get? z = none ∧ t' = t.set z (.file content) ∧
      ∀ {p b}, t.read working p = .ok b → t'.read working p = .ok b := by
  obtain ⟨z, -, hnone, rfl⟩ := exists_place_of_write habsent hwrite
  have hz : t.isDirectory z = false := isDirectory_eq_false (by rw [hnone]; simp)
  refine ⟨z, hnone, rfl, fun {p b} hread => read_set hread hz fun links r hfollows => ?_⟩
  constructor
  · exact Follows.not_mem_links hfollows fun _ => by rw [hnone]; simp
  · rintro rfl
    obtain ⟨-, links', r', -, hfollows', hget⟩ := read_eq_ok_iff_leadsThrough.mp hread
    obtain ⟨-, rfl⟩ := hfollows.unique hfollows'
    rw [hnone] at hget
    cases hget

/-- A file that has been put where nothing was changes no place that a path names. -/
theorem namedPlace_of_set {x : Location × Bool} (hz : t.get? z = none)
    (h : (t.set z (.file content)).namedPlace working p = .ok x) :
    t.namedPlace working p = .ok x := by
  unfold namedPlace at h ⊢
  obtain ⟨l, hlocate, h⟩ := bind_eq_ok.mp h
  obtain ⟨hzero, hempty, hlen, hwalk⟩ := locate_eq_ok_iff.mp hlocate
  exact bind_eq_ok.mpr ⟨l, locate_eq_ok_iff.mpr ⟨hzero, hempty, hlen, walk_of_set hz hwalk⟩, h⟩

/-- **Replacing a file** changes nothing that is read through other places. -/
theorem read_of_replace (hreplace : t.replace working q content = .ok t')
    (hread : t.read working p = .ok b) (havoids : ∀ z slashed,
      t.namedPlace working q = .ok (z, slashed) →
        ∀ links r, t.LeadsThrough working p links r → z ∉ links ∧ z ≠ r) :
    t'.read working p = .ok b := by
  obtain ⟨-, z, hnamed, hnot, rfl⟩ := replace_eq_ok_iff.mp hreplace
  have hz : t.isDirectory z = false := isDirectory_eq_false hnot
  exact read_set hread hz (havoids z false hnamed)

/-- **Replacing a file that can be read.**  What was read through its place is the new content from
then on, and it was the content of that file. -/
theorem read_of_replace_end (hslashes : withoutSlashes q = (q, false))
    (hreplace : t.replace working q content = .ok t') (hread' : t.read working q = .ok b') :
    t'.read working q = .ok content ∧ ∀ {p b}, t.read working p = .ok b →
      t'.read working p = .ok b ∨ t'.read working p = .ok content ∧ b = b' := by
  obtain ⟨-, z, hnamed, hnot, rfl⟩ := replace_eq_ok_iff.mp hreplace
  have hz : t.isDirectory z = false := isDirectory_eq_false hnot
  -- the place is a name in a directory
  unfold namedPlace at hnamed
  rw [hslashes] at hnamed
  obtain ⟨l, hlocate, hnamed⟩ := bind_eq_ok.mp hnamed
  obtain ⟨steps, s, hsteps, rfl⟩ : ∃ steps s, q.steps = steps ++ [.name s] ∧ l = z := by
    split at hnamed
    · rename_i s hs
      obtain ⟨steps, hsteps⟩ := List.getLast?_eq_some_iff.mp hs
      exact ⟨steps, s, hsteps, (Prod.mk.inj (Except.ok.inj hnamed)).1⟩
    · cases hnamed
  obtain ⟨-, -, -, hwalk⟩ := locate_eq_ok_iff.mp hlocate
  rw [hsteps] at hwalk
  obtain ⟨ks, k, hks, hfirst, hdir, hlen, rfl⟩ := exists_name_of_walk hwalk
  -- and that name leads to the file
  obtain ⟨hlimits, links', final, -, hfollows', hget'⟩ := read_eq_ok_iff_leadsThrough.mp hread'
  unfold LeadsThrough at hfollows'
  rw [hsteps] at hfollows'
  obtain ⟨k', ks', ms, -, hfirst', hname⟩ := follows_append hfollows'
  obtain ⟨-, rfl⟩ := hfirst.unique hfirst'
  have hend : Ends t (k ++ [s]) final := ⟨k, s, ms, rfl, hname⟩
  have hfinal : t.isDirectory final = false := isDirectory_eq_false (by rw [hget']; simp)
  constructor
  · obtain ⟨ks₁, hks₁, hfirst₁ | ⟨-, rfl⟩⟩ := hfirst.set_end content hz hend hfinal
    · refine read_eq_ok_iff_leadsThrough.mpr ⟨hlimits, ks₁ ++ [], k ++ [s], ?_, ?_,
        get?_set_file hz⟩
      · rw [List.append_nil]
        exact Nat.le_trans hks₁ hks
      · unfold LeadsThrough
        rw [hsteps]
        exact hfirst₁.append (.name_set hdir hlen hz)
    · rw [hdir] at hfinal
      cases hfinal
  · intro p b hread
    obtain ⟨hlimits, links, r, hlinks, hfollows, hget⟩ := read_eq_ok_iff_leadsThrough.mp hread
    obtain ⟨links₁, hlen₁, hset | ⟨hset, rfl⟩⟩ :=
      hfollows.set_end content hz hend hfinal
    · by_cases hr : r = k ++ [s]
      · -- no link stands at the place, so it is where both paths lead
        subst hr
        have hself : Follows t [] k [.name s] (k ++ [s]) :=
          .name hdir hlen (fun target hlink => by rw [hget] at hlink; cases hlink) (.done _)
        obtain ⟨-, rfl⟩ := hself.unique hname
        rw [hget] at hget'
        cases hget'
        exact Or.inr ⟨read_eq_ok_iff_leadsThrough.mpr ⟨hlimits, links₁, _,
          Nat.le_trans hlen₁ hlinks, hset, get?_set_file hz⟩, rfl⟩
      · refine Or.inl (read_eq_ok_iff_leadsThrough.mpr ⟨hlimits, links₁, r,
          Nat.le_trans hlen₁ hlinks, hset, ?_⟩)
        rw [get?_set_ne t _ hr]
        exact hget
    · rw [hget] at hget'
      cases hget'
      exact Or.inr ⟨read_eq_ok_iff_leadsThrough.mpr ⟨hlimits, links₁, _,
        Nat.le_trans hlen₁ hlinks, hset, get?_set_file hz⟩, rfl⟩

end

end TextPatch.Tree
