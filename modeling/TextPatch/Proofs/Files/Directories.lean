/-
# The directory that a path is written with

A path that ends with a name is written with a directory: what stands before the name, its end
trimmed.  Trimming takes away slashes and steps to the same place, so the directory is followed
along the steps before the name, and its text is the beginning of that of the path
(`directoryOf_name`).  Nothing is asked of the path but that its last step is a name; what links it
leads through does not matter here.
-/
import TextPatch.Proofs.Files.Names

namespace TextPatch

/-! ## 1. The steps of a path -/

theorem Text.fields_append_sep (sep : Char) (v : Text) : ∀ u : Text,
    Text.fields sep (u ++ sep :: v) = Text.fields sep u ++ Text.fields sep v
  | [] => by simp [Text.fields]
  | c :: u => by
    have ih := Text.fields_append_sep sep v u
    rw [List.cons_append, Text.fields, Text.fields]
    split
    · rw [ih, List.cons_append]
    · rw [ih]
      cases hu : Text.fields sep u with
      | nil => exact absurd hu (Text.fields_ne_nil sep u)
      | cons f fs => rfl

/-- A text ends with its last field. -/
theorem Text.exists_last_field (sep : Char) : ∀ t : Text,
    ∃ f, sep ∉ f ∧ (t = f ∨ ∃ u, t = u ++ sep :: f)
  | [] => ⟨[], by simp, Or.inl rfl⟩
  | c :: t => by
    obtain ⟨f, hf, rfl | ⟨u, rfl⟩⟩ := Text.exists_last_field sep t
    · by_cases hc : c = sep
      · exact ⟨t, hf, Or.inr ⟨[], by rw [hc]; rfl⟩⟩
      · exact ⟨c :: t, by simpa using ⟨Ne.symm hc, hf⟩, Or.inl rfl⟩
    · exact ⟨f, hf, Or.inr ⟨c :: u, rfl⟩⟩

namespace Step

/-- The steps between the slashes of a text, empty ones left out. -/
def along (u : Text) : List Step := ((Text.fields '/' u).filter (· ≠ [])).map ofPiece

theorem along_nil : along [] = [] := rfl

theorem along_append_slash (u v : Text) : along (u ++ '/' :: v) = along u ++ along v := by
  rw [along, Text.fields_append_sep, List.filter_append, List.map_append]
  rfl

theorem along_slash (v : Text) : along ('/' :: v) = along v := along_append_slash [] v

theorem ofPieces_concat (t : Text) : ∀ ts : List Text,
    ofPieces (ts ++ [t]) = (ts.filter (· ≠ [])).map ofPiece ++ [ofPiece t]
  | [] => rfl
  | u :: ts => by
    obtain ⟨v, vs, hv⟩ := List.exists_cons_of_ne_nil (l := ts ++ [t]) (by simp)
    have ih := ofPieces_concat t ts
    rw [hv] at ih
    rw [List.cons_append, hv, ofPieces, ih]
    · by_cases hu : u = [] <;> simp [hu]
    · simp

/-- A step that is a name is one that an entry can have. -/
theorem isName_of_ofPiece {t : Text} {s : String} (ht : '/' ∉ t) (h : ofPiece t = .name s) :
    IsName s ∧ t = s.toList := by
  unfold ofPiece at h
  split at h
  · cases h
  · rename_i hplain
    split at h
    · cases h
    · rename_i hup
      cases h
      rw [not_or] at hplain
      rw [String.toList_ofList]
      exact ⟨⟨by simpa using hplain.1, by simpa using hplain.2, by simpa using hup,
        by simpa using ht⟩, rfl⟩

theorem exists_piece_of_mem {step : Step} : ∀ {ts : List Text}, step ∈ ofPieces ts →
    ∃ t ∈ ts, step = ofPiece t
  | [], h => by cases h
  | [t], h => ⟨t, by simp, by simpa [ofPieces] using h⟩
  | t :: u :: ts, h => by
    rw [ofPieces] at h
    · split at h
      · obtain ⟨v, hv, hstep⟩ := exists_piece_of_mem h
        exact ⟨v, List.mem_cons_of_mem _ hv, hstep⟩
      · rcases List.mem_cons.mp h with rfl | h
        · exact ⟨t, by simp, rfl⟩
        · obtain ⟨v, hv, hstep⟩ := exists_piece_of_mem h
          exact ⟨v, List.mem_cons_of_mem _ hv, hstep⟩
    · simp

end Step

namespace Path

/-- The names among the steps of a path are ones that entries can have. -/
theorem isName_of_mem_steps {p : Path} {s : String} (h : Step.name s ∈ p.steps) : IsName s := by
  obtain ⟨t, ht, hstep⟩ := Step.exists_piece_of_mem h
  exact (Step.isName_of_ofPiece (Text.not_mem_of_mem_fields ht) hstep.symm).1

/-- The last step of a path is that of its last field, and the steps before it are those along the
text before that. -/
theorem exists_steps (p : Path) : ∃ before f, '/' ∉ f ∧ p.steps = before ++ [Step.ofPiece f] ∧
    (p.text.toList = f ∧ before = [] ∨
      ∃ u, p.text.toList = u ++ '/' :: f ∧ before = Step.along u) := by
  obtain ⟨f, hf, htext | ⟨u, htext⟩⟩ := Text.exists_last_field '/' p.text.toList
  · refine ⟨[], f, hf, ?_, Or.inl ⟨htext, rfl⟩⟩
    rw [steps, pieces, htext, Text.fields_of_not_mem hf]
    rfl
  · refine ⟨Step.along u, f, hf, ?_, Or.inr ⟨u, htext, rfl⟩⟩
    rw [steps, pieces, htext, Text.fields_append_sep, Text.fields_of_not_mem hf,
      Step.ofPieces_concat]
    rfl

/-- A path that does not end with a slash is followed along its text. -/
theorem steps_eq_along {p : Path} (hne : p.text.toList ≠ [])
    (hlast : p.text.toList.getLast? ≠ some '/') : p.steps = Step.along p.text.toList := by
  have hpiece : ∀ f : Text, '/' ∉ f → f ≠ [] → Step.along f = [Step.ofPiece f] := by
    intro f hf hf0
    rw [Step.along, Text.fields_of_not_mem hf]
    simp [hf0]
  obtain ⟨before, f, hf, hsteps, ⟨htext, rfl⟩ | ⟨u, htext, rfl⟩⟩ := exists_steps p
  · rw [hsteps, htext, hpiece f hf (by rw [← htext]; exact hne)]
    rfl
  · have hf0 : f ≠ [] := by
      rintro rfl
      rw [htext] at hlast
      simp at hlast
    rw [hsteps, htext, Step.along_append_slash, hpiece f hf hf0]

/-- A path whose last step is a name ends with that name. -/
theorem exists_name_of_steps {p : Path} {before : List Step} {s : String}
    (h : p.steps = before ++ [.name s]) : IsName s ∧
      (p.text.toList = s.toList ∧ before = [] ∨
        ∃ u, p.text.toList = u ++ '/' :: s.toList ∧ before = Step.along u) := by
  obtain ⟨before', f, hf, hsteps, htext⟩ := exists_steps p
  obtain ⟨rfl, hstep⟩ : before = before' ∧ Step.name s = Step.ofPiece f := by
    rw [hsteps] at h
    simpa [eq_comm] using h.symm
  obtain ⟨hs, rfl⟩ := Step.isName_of_ofPiece hf hstep.symm
  exact ⟨hs, htext⟩

theorem hasRoot_join {p q : Path} (hne : p.text.toList ≠ []) (hq : q.hasRoot = false) :
    (p.join q).hasRoot = p.hasRoot := by
  obtain ⟨c, t, hp⟩ := List.exists_cons_of_ne_nil hne
  unfold join
  rw [hq]
  simp only [Bool.false_eq_true, if_false]
  unfold hasRoot
  split <;> simp [hp]

/-- The steps of a path with a name behind it are its own and that name, but for the last of its own
if it ends with a slash. -/
theorem steps_join {p : Path} {s : String} (hne : p.text.toList ≠ []) (hs : IsName s) :
    ∃ before, (p.join ⟨s⟩).steps = before ++ [.name s] ∧
      (p.steps = before ∨ p.steps = before ++ [.here]) := by
  have hname : Step.along s.toList = [.name s] := by
    rw [Step.along, Text.fields_of_not_mem hs.no_slash, ← Step.ofPiece_of_isName hs]
    simp [hs.ne_nil]
  have hjoined : ∀ u : Text, (p.join ⟨s⟩).text.toList = u ++ '/' :: s.toList →
      (p.join ⟨s⟩).steps = Step.along u ++ [.name s] := by
    intro u htext
    rw [steps_eq_along (by rw [htext]; simp), htext, Step.along_append_slash, hname]
    rw [htext, List.append_cons, List.getLast?_append]
    have hlast := hs.getLast?_ne
    cases h : s.toList.getLast? with
    | none => exact absurd (List.getLast?_eq_none_iff.mp h) hs.ne_nil
    | some c =>
      rw [h] at hlast
      simpa using hlast
  have hempty : p.text.isEmpty = false := by
    simpa using hne
  by_cases hlast : p.text.toList.getLast? = some '/'
  · obtain ⟨u, htext⟩ := List.getLast?_eq_some_iff.mp hlast
    refine ⟨Step.along u, hjoined u ?_, Or.inr ?_⟩
    · unfold join
      rw [hs.not_hasRoot, hempty, hlast]
      simp [htext]
    · have hnil : Text.fields '/' [] = [[]] := rfl
      rw [steps, pieces, htext, Text.fields_append_sep, hnil, Step.ofPieces_concat]
      rfl
  · refine ⟨Step.along p.text.toList, hjoined _ ?_, Or.inl (steps_eq_along hne hlast)⟩
    unfold join
    rw [hs.not_hasRoot, hempty]
    simp [hlast]

/-! ## 2. The directory of a path -/

/-- What is trimmed stands at the end; texts are given backwards. -/
theorem exists_append_trimEnd (keep : Bool) (t : Text) : ∃ v, t = v ++ trimEnd keep t := by
  fun_induction trimEnd keep t with
  | case1 => exact ⟨[], rfl⟩
  | case2 t ih =>
    obtain ⟨v, hv⟩ := ih
    exact ⟨'/' :: v, by rw [List.cons_append, ← hv]⟩
  | case3 => exact ⟨[], rfl⟩
  | case4 => exact ⟨['.'], rfl⟩
  | case5 t ih =>
    obtain ⟨v, hv⟩ := ih
    exact ⟨'.' :: '/' :: v, by rw [List.cons_append, List.cons_append, ← hv]⟩
  | case6 t => exact ⟨[], rfl⟩

/-- No slash is left at the end. -/
theorem head?_trimEnd (keep : Bool) (t : Text) : (trimEnd keep t).head? ≠ some '/' := by
  fun_induction trimEnd keep t with
  | case1 => simp
  | case2 t ih => exact ih
  | case3 => simp
  | case4 => simp
  | case5 t ih => exact ih
  | case6 t _ hslash =>
    intro h
    obtain ⟨t', rfl⟩ := List.head?_eq_some_iff.mp h
    exact hslash t' rfl

/-- Only steps to the same place are trimmed. -/
theorem along_trimEnd (keep : Bool) (t : Text) : ∃ n,
    Step.along t.reverse = Step.along (trimEnd keep t).reverse ++ List.replicate n .here := by
  fun_induction trimEnd keep t with
  | case1 => exact ⟨0, rfl⟩
  | case2 t ih =>
    obtain ⟨n, hn⟩ := ih
    refine ⟨n, ?_⟩
    rw [List.reverse_cons, Step.along_append_slash, Step.along_nil, List.append_nil, hn]
  | case3 => exact ⟨0, rfl⟩
  | case4 => exact ⟨1, rfl⟩
  | case5 t ih =>
    obtain ⟨n, hn⟩ := ih
    refine ⟨n + 1, ?_⟩
    have hsplit : ('.' :: '/' :: t).reverse = t.reverse ++ '/' :: ['.'] := by simp
    have hdot : Step.along ['.'] = [.here] := rfl
    rw [hsplit, Step.along_append_slash, hn, hdot, List.append_assoc, List.replicate_succ']
  | case6 t => exact ⟨0, by simp⟩

/-- What is left of a text once its end is trimmed. -/
theorem trimmed (keep : Bool) (u : Text) : ∃ e n, u = (trimEnd keep u.reverse).reverse ++ e ∧
    (trimEnd keep u.reverse).reverse.getLast? ≠ some '/' ∧
      Step.along u = Step.along (trimEnd keep u.reverse).reverse ++ List.replicate n .here := by
  obtain ⟨v, hv⟩ := exists_append_trimEnd keep u.reverse
  obtain ⟨n, hn⟩ := along_trimEnd keep u.reverse
  refine ⟨v.reverse, n, ?_, ?_, by rw [← hn, List.reverse_reverse]⟩
  · rw [← List.reverse_append, ← hv, List.reverse_reverse]
  · rw [List.getLast?_reverse]
    exact head?_trimEnd keep u.reverse

/-- A name at the end of a text stays when the end is trimmed; texts are given backwards. -/
theorem trimEnd_name {s : String} (hs : IsName s) (keep : Bool) (t : Text) :
    trimEnd keep (s.toList.reverse ++ t) = s.toList.reverse ++ t := by
  have hno : '/' ∉ s.toList.reverse := by simpa using hs.no_slash
  have hne : s.toList.reverse ≠ [] := by simpa using hs.ne_nil
  have hdot : s.toList.reverse ≠ ['.'] := by
    intro e
    exact hs.ne_here (by simpa using congrArg List.reverse e)
  obtain ⟨c, u, hcu⟩ := List.exists_cons_of_ne_nil hne
  rw [hcu] at hno hdot ⊢
  have hc : c ≠ '/' := fun e => hno (by simp [e])
  have hu : '/' ∉ u := fun e => hno (by simp [e])
  rw [List.cons_append, trimEnd]
  · intro h
    cases h
  · intro t' h
    exact hc (List.cons.inj h).1
  · intro h
    obtain ⟨rfl, hut⟩ := List.cons.inj h
    have hu0 := (List.append_eq_nil_iff.mp hut).1
    exact hdot (by rw [hu0])
  · intro t' h
    obtain ⟨rfl, hut⟩ := List.cons.inj h
    cases u with
    | nil => exact hdot rfl
    | cons d u =>
      obtain ⟨rfl, -⟩ := List.cons.inj hut
      exact hu (by simp)

/-- A name holds no slash to stop at. -/
theorem dropWhile_name {s : String} (hs : IsName s) (v : Text) :
    (s.toList.reverse ++ v).dropWhile (· != '/') = v.dropWhile (· != '/') := by
  refine List.dropWhile_append_of_pos fun c hc => ?_
  simp only [bne_iff_ne, ne_eq]
  rintro rfl
  exact hs.no_slash (by simpa using hc)

/-- The text of a path without its last name: what stands before it, trimmed. -/
theorem parent?_name {p : Path} {u : Text} {s : String} (hs : IsName s)
    (htext : p.text.toList = u ++ '/' :: s.toList) :
    p.parent? = some ⟨String.ofList (if p.hasRoot then
      '/' :: (trimEnd false (u.drop 1).reverse).reverse else (trimEnd true u.reverse).reverse)⟩ := by
  have hbefore : ∀ (keep : Bool) (v : Text),
      trimEnd keep ((s.toList.reverse ++ '/' :: v).dropWhile (· != '/')) = trimEnd keep v := by
    intro keep v
    rw [dropWhile_name hs, List.dropWhile_cons_of_neg (by simp), trimEnd]
  unfold parent?
  cases hroot : p.hasRoot with
  | false =>
    have hbody : p.text.toList.reverse = s.toList.reverse ++ '/' :: u.reverse := by
      simp [htext]
    simp only [Bool.false_eq_true, if_false, Bool.not_false, hbody, trimEnd_name hs, hbefore]
    rw [if_neg (by simp)]
  | true =>
    simp only [if_true, Bool.not_true]
    cases u with
    | nil =>
      have hbody : (p.text.toList.drop 1).reverse = s.toList.reverse := by simp [htext]
      have hname := trimEnd_name hs false []
      rw [List.append_nil] at hname
      have hnone := dropWhile_name hs []
      rw [List.append_nil] at hnone
      rw [hbody, hname, hnone, if_neg (by simpa using hs.ne_nil)]
      rfl
    | cons c w =>
      have hbody : (p.text.toList.drop 1).reverse = s.toList.reverse ++ '/' :: w.reverse := by
        simp [htext]
      simp only [hbody, trimEnd_name hs, hbefore]
      rw [if_neg (by simp)]
      rfl

theorem parent?_lone_name {p : Path} {s : String} (hs : IsName s)
    (htext : p.text.toList = s.toList) : p.parent? = some ⟨""⟩ := by
  have hroot : p.hasRoot = false := by
    have hname := hs.not_hasRoot
    unfold hasRoot at hname ⊢
    rwa [htext]
  have hname := trimEnd_name hs true []
  rw [List.append_nil] at hname
  have hnone : s.toList.reverse.dropWhile (· != '/') = [] := by
    have hdrop := dropWhile_name hs []
    rwa [List.append_nil] at hdrop
  unfold parent?
  simp only [hroot, Bool.false_eq_true, if_false, Bool.not_false, htext, hname, hnone]
  rw [if_neg (by simpa using hs.ne_nil)]
  rfl

/-- The directory of a place is the place without its last name. -/
theorem directoryOf_ofNames {l : Location} {s : String} (hl : AreNames l) (hs : IsName s) :
    Tree.directoryOf (ofNames (l ++ [s])) = ofNames l := by
  have htext : (ofNames (l ++ [s])).text.toList = slashed l ++ '/' :: s.toList := by
    rw [toList_ofNames (by simp)]
    simp
  have hparent := parent?_name hs htext
  rw [if_pos (hasRoot_ofNames _)] at hparent
  have hbefore : ⟨String.ofList ('/' :: (trimEnd false ((slashed l).drop 1).reverse).reverse)⟩ =
      ofNames l := by
    apply ext_toList
    rw [String.toList_ofList]
    rcases List.eq_nil_or_concat l with rfl | ⟨k, r, rfl⟩
    · rfl
    · -- the text before the name ends with a name, so nothing is trimmed
      rw [List.concat_eq_append] at hl ⊢
      obtain ⟨u, hu⟩ : ∃ u, slashed (k ++ [r]) = '/' :: (u ++ r.toList) := by
        cases k with
        | nil => exact ⟨[], by simp⟩
        | cons a k => exact ⟨a.toList ++ (slashed k ++ ['/']), by simp⟩
      have hr : IsName r := hl r (by simp)
      rw [toList_ofNames (by simp), hu, List.drop_one, List.tail_cons, List.reverse_append,
        trimEnd_name hr]
      simp
  unfold Tree.directoryOf
  rw [hparent, hbefore]
  simp only [text_ofNames_ne]
  rfl

theorem temporaryName_isName : IsName Tree.temporaryName := by decide

/-- A new file for a place is made in the same directory. -/
theorem temporaryPath_ofNames (working : Location) {l : Location} {s : String} (hl : AreNames l)
    (hs : IsName s) :
    Tree.temporaryPath working (ofNames (l ++ [s])) = ofNames (l ++ [Tree.temporaryName]) := by
  unfold Tree.temporaryPath
  rw [directoryOf_ofNames hl hs]
  have habsolute : (ofNames working).join (ofNames l) = ofNames l := by
    unfold join
    rw [if_pos (hasRoot_ofNames l)]
  rw [habsolute, join_ofNames hl temporaryName_isName]

/-- A path that leads to the same place as a directory is written with: the steps along its text, or
one to the same place if there are none. -/
def LeadsAlong (d : Path) (way : List Step) : Prop :=
  d.steps = way ∨ way = [] ∧ d.steps = [.here]

/-- **The directory of a path** that ends with a name is written with the beginning of its text, or
with a dot if that is empty, and its steps are those before the name, steps to the same place
aside. -/
theorem directoryOf_name {p : Path} {before : List Step} {s : String}
    (h : p.steps = before ++ [.name s]) :
    ((Tree.directoryOf p).text = "." ∧ p.hasRoot = false ∨
      (Tree.directoryOf p).text.toList ≠ [] ∧
        ∃ e, p.text.toList = (Tree.directoryOf p).text.toList ++ e) ∧
    ∃ way n, before = way ++ List.replicate n .here ∧ LeadsAlong (Tree.directoryOf p) way := by
  have hdot : ∀ {d : Path}, d.text = "." → d.steps = [.here] := by
    rintro ⟨_⟩ rfl
    decide
  obtain ⟨hs, ⟨htext, rfl⟩ | ⟨u, htext, rfl⟩⟩ := exists_name_of_steps h
  · have hroot : p.hasRoot = false := by
      have hname := hs.not_hasRoot
      unfold hasRoot at hname ⊢
      rwa [htext]
    have hd : Tree.directoryOf p = ⟨"."⟩ := by
      unfold Tree.directoryOf
      rw [parent?_lone_name hs htext]
      rfl
    rw [hd]
    exact ⟨Or.inl ⟨rfl, hroot⟩, [], 0, rfl, Or.inr ⟨rfl, hdot rfl⟩⟩
  · have hparent := parent?_name hs htext
    cases hroot : p.hasRoot with
    | true =>
      obtain ⟨e, n, hsplit, hend, hn⟩ := trimmed false (u.drop 1)
      rw [hroot, if_pos rfl] at hparent
      generalize (trimEnd false (u.drop 1).reverse).reverse = rest at *
      have hd : Tree.directoryOf p = ⟨String.ofList ('/' :: rest)⟩ := by
        unfold Tree.directoryOf
        rw [hparent]
        simp
      -- what stands before the name starts with the slash of the root, unless it is empty
      have hu : u = [] ∨ u = '/' :: u.drop 1 := by
        cases u with
        | nil => exact Or.inl rfl
        | cons c w =>
          unfold hasRoot at hroot
          rw [htext] at hroot
          have hc : c = '/' := by simpa using hroot
          exact Or.inr (by rw [hc]; rfl)
      have halong : Step.along u = Step.along (u.drop 1) := by
        rcases hu with rfl | hu
        · rfl
        · rw [hu, Step.along_slash]
          rfl
      rw [hd]
      refine ⟨Or.inr ⟨by simp, ?_⟩, Step.along rest, n, by rw [halong, hn], ?_⟩
      · rw [String.toList_ofList, htext]
        rcases hu with rfl | hu
        · obtain ⟨rfl, -⟩ := List.append_eq_nil_iff.mp hsplit.symm
          exact ⟨s.toList, rfl⟩
        · refine ⟨e ++ '/' :: s.toList, ?_⟩
          rw [hu, hsplit]
          simp
      · by_cases hrest : rest = []
        · subst hrest
          exact Or.inr ⟨rfl, rfl⟩
        · refine Or.inl ?_
          rw [steps_eq_along (by simp) ?_, String.toList_ofList, Step.along_slash]
          rw [String.toList_ofList, List.getLast?_cons_of_ne_nil hrest]
          exact hend
    | false =>
      obtain ⟨e, n, hsplit, hend, hn⟩ := trimmed true u
      rw [hroot, if_neg (by simp)] at hparent
      generalize (trimEnd true u.reverse).reverse = rest at *
      by_cases hrest : rest = []
      · subst hrest
        have hd : Tree.directoryOf p = ⟨"."⟩ := by
          unfold Tree.directoryOf
          rw [hparent]
          rfl
        rw [hd]
        exact ⟨Or.inl ⟨rfl, rfl⟩, [], n, hn, Or.inr ⟨rfl, hdot rfl⟩⟩
      · have hd : Tree.directoryOf p = ⟨String.ofList rest⟩ := by
          unfold Tree.directoryOf
          rw [hparent]
          simp [hrest]
        rw [hd]
        refine ⟨Or.inr ⟨by simpa using hrest, ?_⟩, Step.along rest, n, hn, Or.inl ?_⟩
        · rw [String.toList_ofList, htext, hsplit]
          exact ⟨e ++ '/' :: s.toList, by simp⟩
        · rw [steps_eq_along (by simpa using hrest) (by simpa using hend), String.toList_ofList]

end Path

end TextPatch
