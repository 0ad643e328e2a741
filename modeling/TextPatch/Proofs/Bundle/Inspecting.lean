/-
# Inspections and runs

An inspection looks needles up in the pristine script, and so does the first rule of a run, if these
needles in double braces are all it searches for.  The two come by the script, the map and the place
on ways of their own: the run may make a backup first, asks for the map when a rule needs it, and
reads an identifier at the place, which the inspection does not.

`inspection_agrees` says that they agree.  A place that an inspection shows is where the rule edits,
unless there is no identifier at it, and then the rule fails for just that; what an inspection
cannot find the rule cannot find either, for the same reason.  This holds on every host, for every
run from the same files.

* `resolve_of_identifierAt` is the search of such a rule, and `ComesFirst` its place in a patch set;
* `patchSet_pristine` follows a run to its report, whatever it does about the backup;
* `shows_of_inDocument` says what there is in an inspection.
-/
import TextPatch.Inspect
import TextPatch.Proofs.Bundle.Failures
import TextPatch.Proofs.Bundle.DryRun
import TextPatch.Proofs.Edits.Optional
import TextPatch.Proofs.Edits.Errors
import TextPatch.Proofs.Search.Grammar
import TextPatch.Proofs.Text.Excerpts

namespace TextPatch

open SourceMap (Document Trace Translates IsNameAt IsLastEntry LeastPlace)

/-! ## 1. Rules for needles in braces -/

namespace SearchSpec

variable {needles : List String}

/-- Needles in braces are all looked up. -/
theorem split_braced (mode : SearchMode) (label : String) :
    ∀ {needles : List String}, (∀ n ∈ needles, n ≠ "") →
      split mode true label false (needles.map braced) = .ok (needles, [])
  | [], _ => rfl
  | n :: needles, h => by
    have hn : n.isEmpty = false := by simpa using h n List.mem_cons_self
    have hrest := split_braced mode label fun q hq => h q (List.mem_cons_of_mem n hq)
    simp only [List.map_cons, split, if_true, sourceNeedle?_braced, hn, hrest, Bool.false_eq_true,
      if_false]
    rfl

/-- **A search for needles in braces only is a good one** in the bundled script. -/
theorem exists_ofSearch_braced {search : Search} (hsearch : search.needles = needles.map braced)
    (hne : needles ≠ []) (hneedles : ∀ n ∈ needles, n ≠ "") (mode : SearchMode)
    (isOptional : Bool) : ∃ s, ofSearch search mode isOptional true = .ok s ∧
      s.sourceNeedles = needles ∧ s.needles = [] := by
  have hempty : (search.needles.isEmpty || search == .one "") = false := by
    rw [Bool.or_eq_false_iff, beq_eq_false_iff_ne]
    refine ⟨by simpa [hsearch] using hne, ?_⟩
    rintro rfl
    have hmem : "" ∈ needles.map braced := by
      rw [← hsearch]
      exact List.mem_singleton_self ""
    obtain ⟨n, -, hn⟩ := List.mem_map.mp hmem
    exact braced_ne_empty n hn
  have hsplit := split_braced mode search.label hneedles
  unfold ofSearch
  rw [hempty, if_neg Bool.false_ne_true]
  exact ⟨_, bind_eq_ok.mpr ⟨(needles, []), by rw [hsearch]; exact hsplit, rfl⟩, rfl, rfl⟩

/-- Such a search has the identifier that its needles stand for as its one match, or fails with what
their lookup fails with. -/
theorem resolve_of_identifierAt {s : SearchSpec} (hsource : s.sourceNeedles = needles)
    (hneedles : s.needles = []) (hne : needles ≠ []) (d : Document) (file hint : String)
    (text : Text) : s.resolve file text (some (d.lookup hint)) =
      match d.identifierAt hint text needles with
      | .error cause => .error (.sourceMap cause)
      | .ok i => .ok ⟨[⟨i.offset, i.name.utf8ByteSize⟩], some i⟩ := by
  have hsome : needles.isEmpty = false := by simpa using hne
  unfold resolve identifier
  simp only [hneedles, hsource, hsome, Document.lookup, Bool.false_eq_true, if_false,
    List.isEmpty_nil, if_true]
  cases d.identifierAt hint text needles <;> rfl

end SearchSpec

namespace RulePlan

variable {rule : EditRule} {needles : List String}

theorem exists_ofRule_braced (hsearch : rule.search.needles = needles.map braced)
    (hne : needles ≠ []) (hneedles : ∀ n ∈ needles, n ≠ "") :
    ∃ p, ofRule rule true = .ok p ∧ p.search.sourceNeedles = needles ∧ p.search.needles = [] := by
  obtain ⟨search, hs, hsource, hregular⟩ := SearchSpec.exists_ofSearch_braced hsearch hne hneedles
    (rule.searchMode.getD .single) (rule.patchOptional.getD false)
  exact ⟨_, bind_eq_ok.mpr ⟨search, hs, rfl⟩, hsource, hregular⟩

theorem ofRules_cons {p : RulePlan} {rules : List EditRule} {plans : List RulePlan}
    {sourceMapped : Bool} (hp : ofRule rule sourceMapped = .ok p)
    (hplans : ofRules sourceMapped rules = .ok plans) :
    ofRules sourceMapped (rule :: rules) = .ok (p :: plans) := by
  unfold ofRules at hplans ⊢
  rw [List.mapM_cons, hp]
  simp only [bind, Except.bind, hplans]
  rfl

end RulePlan

namespace Bundle

/-! ## 2. The first rule of a run -/

/-- A rule is the first one of some descriptors, with the source in which its needles are looked up
and the number of its descriptor: there are no rules before it, and the ones behind it in its file
patch are good rules. -/
inductive ComesFirst (hint : String) (rule : EditRule) : List Descriptor → Nat → Prop
  | here {target : Target} {idle others : List FilePatch} {p : FilePatch} {rules : List EditRule}
      {plans : List RulePlan} {rest : List Descriptor} (hidle : ∀ f ∈ idle, f.rules = [])
      (hfile : p.file = hint) (hrules : p.rules = rule :: rules)
      (hplans : RulePlan.ofRules true rules = .ok plans) :
      ComesFirst hint rule (⟨target, idle ++ p :: others⟩ :: rest) 0
  | later {d : Descriptor} {rest : List Descriptor} {index : Nat}
      (hidle : ∀ f ∈ d.files, f.rules = []) (h : ComesFirst hint rule rest index) :
      ComesFirst hint rule (d :: rest) (index + 1)

section

variable {answer : Answer} {hint : String} {rule : EditRule} {plan : RulePlan} {text : Text}

/-- File patches without rules leave a text as it is. -/
theorem editFiles_idle : ∀ {idle : List FilePatch}, (∀ f ∈ idle, f.rules = []) →
    ∀ others : List FilePatch,
      editFiles answer text (idle ++ others) = editFiles answer text others
  | [], _, others => rfl
  | p :: idle, h, others => by
    have hp : editFile answer text p = .ok text := by
      unfold editFile
      rw [h p List.mem_cons_self]
      rfl
    rw [List.cons_append, editFiles, hp]
    exact editFiles_idle (fun f hf => h f (List.mem_cons_of_mem p hf)) others

theorem visitFiles_idle (d : Document) (a : Draft) : ∀ {idle : List FilePatch},
    (∀ f ∈ idle, f.rules = []) →
      ∀ others : List FilePatch, visitFiles d a (idle ++ others) = visitFiles d a others
  | [], _, others => rfl
  | p :: idle, h, others => by
    have hp : visitFile d a p = ([], some a) := by
      unfold visitFile
      rw [h p List.mem_cons_self]
      rfl
    have hrest := visitFiles_idle d a (fun f hf => h f (List.mem_cons_of_mem p hf)) others
    rw [List.cons_append, visitFiles, hp]
    simp only [hrest, List.nil_append]

/-- A descriptor whose first rule fails fails with what that rule fails with. -/
theorem ComesFirst.mem_failures {cause : ApplicationError} {ds : List Descriptor} {n : Nat}
    (h : ComesFirst hint rule ds n) (hplan : RulePlan.ofRule rule true = .ok plan)
    (hfails : ∀ p plans, p.file = hint → RulePlan.ofRules true p.rules = .ok (plan :: plans) →
      editFile answer text p = .error cause) (index : Nat) :
    (index + n, cause) ∈ (settle answer text index ds).failures := by
  induction h generalizing index with
  | @here target idle others p rules plans rest hidle hfile hrules hplans =>
    have hall : RulePlan.ofRules true p.rules = .ok (plan :: plans) := by
      rw [hrules]
      exact RulePlan.ofRules_cons hplan hplans
    have hfiles : editFiles answer text (idle ++ p :: others) = .error cause := by
      rw [editFiles_idle hidle, editFiles, hfails p plans hfile hall]
      rfl
    rw [settle, hfiles]
    exact List.mem_cons_self
  | @later d rest n hidle _ ih =>
    have hfiles : editFiles answer text d.files = .ok text := by
      have hnone : editFiles answer text (d.files ++ []) = editFiles answer text [] :=
        editFiles_idle hidle []
      rwa [List.append_nil] at hnone
    rw [settle, hfiles, Nat.add_comm n 1, ← Nat.add_assoc]
    exact ih (index + 1)

/-- A rule that comes first is the first to be visited. -/
theorem ComesFirst.head?_visitAll {ds : List Descriptor} {n : Nat}
    (h : ComesFirst hint rule ds n) (hplan : RulePlan.ofRule rule true = .ok plan)
    (huses : plan.usesSourceMap = true) (d : Document) (a : Draft) :
    (visitAll d a ds).1.head? = some ⟨hint, plan, some (d.lookup hint), a⟩ := by
  induction h with
  | @here target idle others p rules plans rest hidle hfile hrules hplans =>
    have hall : RulePlan.ofRules true p.rules = .ok (plan :: plans) := by
      rw [hrules]
      exact RulePlan.ofRules_cons hplan hplans
    have hfirst : (visitFile d a p).1.head? = some ⟨hint, plan, some (d.lookup hint), a⟩ := by
      unfold visitFile lookupFor
      simp only [hall, List.any_cons, huses, Bool.true_or, if_true, hfile]
      rw [visitRules]
      split <;> rfl
    have hfiles : (visitFiles d a (idle ++ p :: others)).1.head? =
        some ⟨hint, plan, some (d.lookup hint), a⟩ := by
      rw [visitFiles_idle d a hidle, visitFiles]
      split
      · rename_i visits heq
        rwa [heq] at hfirst
      · rename_i visits b heq
        rw [heq] at hfirst
        rw [List.head?_append, hfirst]
        rfl
    rw [visitAll]
    simp only [List.head?_append, hfiles, Option.some_or]
  | @later d' rest n hidle _ ih =>
    have hnone := visitFiles_idle d a hidle []
    rw [List.append_nil] at hnone
    rw [visitAll, hnone]
    exact ih

/-- Without a map, a file patch that needs it fails. -/
theorem editFile_of_no_map {p : FilePatch} {plans : List RulePlan} {cause : SourceMapError}
    (hplans : RulePlan.ofRules true p.rules = .ok (plan :: plans))
    (huses : plan.usesSourceMap = true) :
    editFile (.error cause) text p = .error (.edit p.file (.sourceMap cause)) := by
  unfold editFile mapOf
  simp only [hplans, List.any_cons, huses, Bool.true_or, if_true]
  rfl

/-- A file patch fails if the search of its first rule does. -/
theorem editFile_of_unresolved {p : FilePatch} {plans : List RulePlan} {d : Document}
    {cause : NeedleError} (hplans : RulePlan.ofRules true p.rules = .ok (plan :: plans))
    (huses : plan.usesSourceMap = true)
    (hresolve : plan.search.resolve p.file text (some (d.lookup p.file)) = .error cause) :
    editFile (.ok d) text p = .error (.edit p.file (.resolve cause)) := by
  have hrule := applyRule_eq_resolve_iff.mpr hresolve
  unfold editFile mapOf editRules
  simp only [hplans, List.any_cons, huses, Bool.true_or, if_true, Except.map, Option.map_some,
    applyRules, hrule]
  rfl

end

/-- A visit is that of a rule which is the first one of a run from a text. -/
structure FirstVisit (d : Document) (s : PatchSet) (hint : String) (rule : EditRule) (text : Text)
    (v : Visit) : Prop where
  head?_eq : (visitAll d ⟨text, []⟩ s.forBundledScript).1.head? = some v
  plan_eq : RulePlan.ofRule rule true = .ok v.plan
  file_eq : v.file = hint
  text_eq : v.draft.text = text

/-- What becomes of the rule that is the first one of a run: its matches in the text that the run
starts from, or the error of the source map that its descriptor fails with. -/
inductive FirstRule (answer : Answer) (s : PatchSet) (hint : String) (rule : EditRule)
    (index : Nat) (report : BundleReport) : Except SourceMapError (List Match) → Prop
  | unmapped {cause : SourceMapError} (hanswer : answer = .error cause)
      (hfailure : (index, .edit hint (.sourceMap cause)) ∈ report.failures) :
      FirstRule answer s hint rule index report (.error cause)
  | unresolved {d : Document} {v : Visit} {cause : SourceMapError} (hanswer : answer = .ok d)
      (hvisit : FirstVisit d s hint rule report.pristine v)
      (hresolve : v.plan.search.resolve v.file v.draft.text v.lookup = .error (.sourceMap cause))
      (hfailure : (index, .edit hint (.resolve (.sourceMap cause))) ∈ report.failures) :
      FirstRule answer s hint rule index report (.error cause)
  | resolved {d : Document} {v : Visit} {r : Resolution} (hanswer : answer = .ok d)
      (hvisit : FirstVisit d s hint rule report.pristine v)
      (hresolve : v.plan.search.resolve v.file v.draft.text v.lookup = .ok r) :
      FirstRule answer s hint rule index report (.ok r.found)

section

variable {answer : Answer} {s : PatchSet} {hint : String} {rule : EditRule} {index : Nat}
  {needles : List String} {text : Text} {cause : SourceMapError}

/-- The plan of a rule that searches for needles in braces needs the map. -/
theorem ComesFirst.exists_plan (hsearch : rule.search.needles = needles.map braced)
    (hne : needles ≠ []) (hneedles : ∀ n ∈ needles, n ≠ "") :
    ∃ p, RulePlan.ofRule rule true = .ok p ∧ p.usesSourceMap = true ∧
      p.search.sourceNeedles = needles ∧ p.search.needles = [] := by
  obtain ⟨p, hp, hsource, hregular⟩ := RulePlan.exists_ofRule_braced hsearch hne hneedles
  refine ⟨p, hp, ?_, hsource, hregular⟩
  rw [RulePlan.usesSourceMap, hsource, Bool.or_eq_true]
  exact Or.inl (by simpa using hne)

/-- The identifier that needles stand for in a text, as the one match of a search. -/
def matchesOf (answer : Answer) (hint : String) (needles : List String) (text : Text) :
    Except SourceMapError (List Match) := do
  let d ← answer
  let i ← d.identifierAt hint text needles
  return [⟨i.offset, i.name.utf8ByteSize⟩]

theorem matchesOf_of_trace {d : Document} {t : Trace}
    (h : d.trace hint text (.needles needles) = .ok t) :
    matchesOf (.ok d) hint needles text =
      (Document.readIdentifier text t.offset).map fun i => [⟨i.offset, i.name.utf8ByteSize⟩] := by
  simp only [matchesOf, Document.identifierAt, bind, Except.bind, h]
  cases Document.readIdentifier text t.offset <;> rfl

theorem matchesOf_of_trace_error {d : Document}
    (h : d.trace hint text (.needles needles) = .error cause) :
    matchesOf (.ok d) hint needles text = .error cause := by
  simp only [matchesOf, Document.identifierAt, bind, Except.bind, h]

/-- **The first rule comes to what its needles stand for.** -/
theorem ComesFirst.firstRule (h : ComesFirst hint rule s.forBundledScript index)
    (hsearch : rule.search.needles = needles.map braced) (hne : needles ≠ [])
    (hneedles : ∀ n ∈ needles, n ≠ "") :
    FirstRule answer s hint rule index (reportOn answer text s)
      (matchesOf answer hint needles text) := by
  obtain ⟨p, hp, huses, hsource, hregular⟩ := exists_plan hsearch hne hneedles
  cases answer with
  | error cause =>
    have hfile : ∀ q plans, q.file = hint → RulePlan.ofRules true q.rules = .ok (p :: plans) →
        editFile (.error cause) text q = .error (.edit hint (.sourceMap cause)) := by
      rintro q plans rfl hplans
      exact editFile_of_no_map hplans huses
    have hmem := h.mem_failures hp hfile 0
    rw [Nat.zero_add] at hmem
    exact .unmapped rfl hmem
  | ok d =>
    have hvisit : FirstVisit d s hint rule (reportOn (.ok d) text s).pristine
        ⟨hint, p, some (d.lookup hint), ⟨text, []⟩⟩ :=
      ⟨h.head?_visitAll hp huses d ⟨text, []⟩, hp, rfl, rfl⟩
    have hresolve := SearchSpec.resolve_of_identifierAt hsource hregular hne d hint hint text
    have hmatches : matchesOf (.ok d) hint needles text =
        (d.identifierAt hint text needles).map fun i => [⟨i.offset, i.name.utf8ByteSize⟩] := rfl
    rw [hmatches]
    cases hi : d.identifierAt hint text needles with
    | ok i =>
      rw [hi] at hresolve
      exact .resolved rfl hvisit hresolve
    | error cause =>
      rw [hi] at hresolve
      have hfile : ∀ q plans, q.file = hint → RulePlan.ofRules true q.rules = .ok (p :: plans) →
          editFile (.ok d) text q = .error (.edit hint (.resolve (.sourceMap cause))) := by
        rintro q plans rfl hplans
        exact editFile_of_unresolved hplans huses hresolve
      have hmem := h.mem_failures hp hfile 0
      rw [Nat.zero_add] at hmem
      exact .unresolved rfl hvisit hresolve hmem

end

end Bundle

/-! ## 3. Inspections -/

namespace Inspect

variable {d : Document} {hint : String} {needles : List String} {text : Text} {i : Inspection}

/-- What there is in an inspection of a pristine text: the place of the last entry about the least
place of the source that the needles lead to, the byte of that place, and the text around it. -/
structure Shows (d : Document) (hint : String) (needles : List String) (text : Text)
    (i : Inspection) : Prop where
  entry : ∃ source n place m, d.Picks hint source ∧
    LeastPlace source.content.toList 0 needles n ∧ Text.IsAt source.content.toList n place ∧
    IsLastEntry d.mappings source.index place m ∧ i.source = source.path ∧ i.place = m.generated
  offset?_eq : Position.offset? text i.place = some i.offset
  excerpt : IsExcerpt text i.offset i.excerpt

theorem source_of_trace {target : SourceMap.SourcePlace} {t : Trace}
    (h : d.trace hint text target = .ok t) : d.find hint = .ok t.source := by
  obtain ⟨source, hsource, h⟩ := bind_eq_ok.mp h
  obtain ⟨byte, -, h⟩ := bind_eq_ok.mp h
  simp only at h
  split at h
  · cases h
  · split at h
    · cases h
    · cases h
      exact hsource

/-- **What an inspection shows.** -/
theorem shows_of_inDocument (h : inDocument d hint needles text = .ok i) :
    Shows d hint needles text i ∧
      ∃ t, d.trace hint text (.needles needles) = .ok t ∧ t.offset = i.offset := by
  obtain ⟨t, htrace, hi⟩ := bind_eq_ok.mp h
  cases hi
  have hfind := source_of_trace htrace
  have hoffset : (d.trace hint text (.needles needles)).map Trace.offset = .ok t.offset := by
    rw [htrace]
    rfl
  refine ⟨?_, t, htrace, rfl⟩
  cases SourceMap.translates_iff.mpr hoffset with
  | @found source n place m _ hsource hleast hplace hlast hstarts =>
    have hpath : t.source = source := by
      rw [Document.find_of_picks hsource] at hfind
      exact (Except.ok.inj hfind).symm
    have hoffset? := Text.offset?_eq_some_iff_startsAt.mpr hstarts
    have hgenerated : Position.ofOffset text t.offset = m.generated :=
      Position.ofOffset_of_offset? hoffset?
    exact ⟨⟨source, n, place, m, hsource, hleast, hplace, hlast, by rw [hpath], hgenerated⟩,
      by rw [hgenerated, hoffset?], isExcerpt_excerpt text t.offset⟩

theorem inDocument_eq_error_iff {cause : SourceMapError} :
    inDocument d hint needles text = .error cause ↔
      d.trace hint text (.needles needles) = .error cause := by
  unfold inDocument
  cases d.trace hint text (.needles needles) <;> simp [bind, Except.bind, pure, Except.pure]

open TextPatch.Bundle

variable {script : Path} {provider : SourceMap.Provider OnTree} {answer : Path → Text → Answer}

/-- An inspection without the host. -/
theorem place_eq (hprovider : Answering provider answer) (h : TreeHost) :
    ((place script hint needles provider : OnTree _) h).1 =
        (match pristineIn h script with
          | .error (.io path cause) => .error (.io path cause)
          | .error (.backup cause) => .error (.backup cause)
          | .ok text =>
            match (answer script text).bind fun d => inDocument d hint needles text with
            | .error cause => .error (.edit hint (.sourceMap cause))
            | .ok i => .ok i) ∧
      h.SameFiles ((place script hint needles provider : OnTree _) h).2 := by
  unfold place
  rw [OnTree.bind_apply, readPristine_apply]
  rcases pristineIn h script with (⟨path, cause⟩ | cause) | text
  · exact ⟨rfl, .refl h⟩
  · exact ⟨rfl, .refl h⟩
  · have hanswer := hprovider.answer_eq script text h
    have hsame := hprovider.sameFiles script text h
    rcases hrun : provider script text h with ⟨a, h₁⟩
    rw [hrun] at hanswer hsame
    simp only [OnTree.bind_apply]
    rw [hrun, ← hanswer]
    cases a with
    | error cause => exact ⟨rfl, hsame⟩
    | ok d =>
      simp only [OnTree.bind_apply, OnTree.noteAll_apply, Except.bind]
      cases inDocument d hint needles text <;> exact ⟨rfl, hsame.trans ⟨rfl, rfl⟩⟩

theorem place_eq_ok_iff (hprovider : Answering provider answer) {h : TreeHost} :
    ((place script hint needles provider : OnTree _) h).1 = .ok i ↔
      ∃ text d, pristineIn h script = .ok text ∧ answer script text = .ok d ∧
        inDocument d hint needles text = .ok i := by
  rw [(place_eq hprovider h).1]
  rcases pristineIn h script with (e | e) | text
  · simp
  · simp
  · cases hanswer : answer script text with
    | error cause => simp [hanswer, Except.bind]
    | ok d => cases hd : inDocument d hint needles text <;> simp [hanswer, hd, Except.bind]

theorem place_eq_error_iff (hprovider : Answering provider answer) {h : TreeHost}
    {cause : SourceMapError} : ((place script hint needles provider : OnTree _) h).1 =
        .error (.edit hint (.sourceMap cause)) ↔
      ∃ text, pristineIn h script = .ok text ∧ (answer script text = .error cause ∨
        ∃ d, answer script text = .ok d ∧ d.trace hint text (.needles needles) = .error cause) := by
  simp only [← inDocument_eq_error_iff]
  rw [(place_eq hprovider h).1]
  rcases pristineIn h script with (e | e) | text
  · simp
  · simp
  · cases hanswer : answer script text with
    | error cause => simp [hanswer, Except.bind]
    | ok d => cases hd : inDocument d hint needles text <;> simp [hanswer, hd, Except.bind]

end Inspect

/-! ## 4. Runs from a pristine text -/

/-- What is written where nothing was can be read, whatever links lead there. -/
theorem Tree.read_written {t t' : Tree} {working : Location} {q : Path} {content : ByteArray}
    (habsent : t.present working q = false) (hwrite : t.write working q content = .ok t') :
    t'.read working q = .ok content := by
  obtain ⟨z, hlocate, hnone, rfl⟩ := exists_place_of_write habsent hwrite
  obtain ⟨hzero, hempty, hsize, hwalk⟩ := locate_eq_ok_iff.mp hlocate
  obtain ⟨links, hlinks, hfollows⟩ := walk_eq_ok_iff.mp hwalk
  exact read_eq_ok_iff_leadsThrough.mpr ⟨⟨hzero, hempty, hsize⟩, links, z, hlinks,
    hfollows.set_none hnone, get?_set_file (isDirectory_eq_false (by rw [hnone]; simp))⟩

namespace Bundle

variable {script : Path} {h h' : TreeHost} {text : Text}

theorem pristineIn_sameFiles (hsame : h.SameFiles h') :
    pristineIn h' script = pristineIn h script := by
  obtain ⟨htree, hworking⟩ := hsame
  unfold pristineIn
  simp only [htree, hworking]

/-- **Opening a script gives the text that is pristine already**, unless no backup can be made. -/
theorem Opening.eq_ok_or {r : Except BundleError Text} (hopen : Opening script h r h')
    (hpristine : pristineIn h script = .ok text) :
    r = .ok text ∨ ∃ cause, h.tree.copy h.working script script.backup = .error cause ∧
      r = .error (.backup (.create script cause)) := by
  cases hopen with
  | kept _ => exact Or.inl hpristine
  | refused _ hcopy => exact Or.inr ⟨_, hcopy, rfl⟩
  | copied habsent hcopy hworking =>
    obtain ⟨b, hread, hwrite⟩ := Tree.copy_eq_ok_iff.mp hcopy
    have hbackup := Tree.read_written habsent hwrite
    rw [← hworking] at hbackup
    rw [pristineIn_eq_ok_iff, sourceIn_of_absent habsent, hread] at hpristine
    exact Or.inl (pristineIn_eq_ok_iff.mpr
      (by rw [sourceIn_of_read hbackup, hbackup, hpristine]))

/-- **A run over a script whose pristine text can be read** reports on that text, unless no backup
can be made. -/
theorem patchSet_pristine {s : PatchSet} {provider : SourceMap.Provider OnTree}
    {answer : Path → Text → Answer} {dryRun : Bool} {r : Except BundleError BundleReport}
    (hprovider : Answering provider answer) (hpristine : pristineIn h script = .ok text)
    (hrun : (patchSet script s provider dryRun : OnTree _) h = (r, h')) :
    (dryRun = false ∧ ∃ cause, h.tree.copy h.working script script.backup = .error cause ∧
        r = .error (.backup (.create script cause))) ∨
      ∃ h₁, Ending script (reportOn (answer script text) text s) h₁ dryRun r h' := by
  have hopening : ∀ x h₁, (openScript script dryRun : OnTree _) h = (x, h₁) →
      x = .ok text ∨ dryRun = false ∧ ∃ cause,
        h.tree.copy h.working script script.backup = .error cause ∧
          x = .error (.backup (.create script cause)) := by
    intro x h₁ hopen
    cases dryRun with
    | true =>
      rw [openScript_dry] at hopen
      obtain ⟨rfl, -⟩ := Prod.mk.inj hopen
      exact Or.inl hpristine
    | false =>
      exact ((openScript_cases hopen).eq_ok_or hpristine).imp_right fun hrefused => ⟨rfl, hrefused⟩
  rcases patchSet_cases hprovider hrun with ⟨e, hopen, rfl⟩ | ⟨pristine, h₁, hopen, hend⟩
  · rcases hopening _ _ hopen with heq | ⟨hdry, cause, hcopy, heq⟩
    · cases heq
    · cases heq
      exact Or.inl ⟨hdry, cause, hcopy, rfl⟩
  · rcases hopening _ _ hopen with heq | ⟨-, cause, -, heq⟩
    · cases heq
      exact Or.inr ⟨h₁, hend⟩
    · cases heq

/-- What the rule comes to that is the first one of a run, if it searches for these needles in
braces.  The run starts from the same files, and from the pristine text, unless no backup can be
made; it may be a dry one. -/
def FirstRules (script : Path) (hint : String) (needles : List String)
    (provider : SourceMap.Provider OnTree) (answer : Path → Text → Answer) (h : TreeHost)
    (outcome : Except SourceMapError (List Match)) : Prop :=
  ∃ text, pristineIn h script = .ok text ∧
    ∀ (s : PatchSet) (rule : EditRule) (index : Nat),
      rule.search.needles = needles.map braced → ComesFirst hint rule s.forBundledScript index →
        ∀ dryRun h₀ r h', h.SameFiles h₀ →
          (patchSet script s provider dryRun : OnTree _) h₀ = (r, h') →
            (dryRun = false ∧ ∃ cause, h₀.tree.copy h₀.working script script.backup = .error cause ∧
                r = .error (.backup (.create script cause))) ∨
              ∃ report h₁, Ending script report h₁ dryRun r h' ∧ report.pristine = text ∧
                FirstRule (answer script text) s hint rule index report outcome

theorem firstRules_matchesOf {hint : String} {needles : List String}
    {provider : SourceMap.Provider OnTree} {answer : Path → Text → Answer}
    (hprovider : Answering provider answer) (hne : needles ≠ []) (hneedles : ∀ n ∈ needles, n ≠ "")
    (hpristine : pristineIn h script = .ok text) :
    FirstRules script hint needles provider answer h
      (matchesOf (answer script text) hint needles text) := by
  refine ⟨text, hpristine, fun s rule index hsearch hfirst dryRun h₀ r h' hsame hrun => ?_⟩
  rw [← pristineIn_sameFiles hsame] at hpristine
  refine (patchSet_pristine hprovider hpristine hrun).imp_right fun ⟨h₁, hend⟩ => ?_
  exact ⟨_, h₁, hend, rfl, hfirst.firstRule hsearch hne hneedles⟩

/-! ## 5. Agreement -/

/-- How an inspection of a script on a host and the runs over it agree. -/
structure Agrees (script : Path) (hint : String) (needles : List String)
    (provider : SourceMap.Provider OnTree) (answer : Path → Text → Answer) (h : TreeHost) :
    Prop where
  /-- An inspection changes no file. -/
  same_files : h.SameFiles ((Inspect.place script hint needles provider : OnTree _) h).2
  /-- The place that is shown is where the match of the rule starts, or there is no name there, and
  the rule fails with that. -/
  shown : ∀ i, ((Inspect.place script hint needles provider : OnTree _) h).1 = .ok i →
    ∃ text d, pristineIn h script = .ok text ∧ answer script text = .ok d ∧
      Inspect.Shows d hint needles text i ∧
        ((∃ name, IsNameAt text i.offset name ∧
            FirstRules script hint needles provider answer h
              (.ok [⟨i.offset, name.utf8ByteSize⟩])) ∨
          (∀ name, ¬ IsNameAt text i.offset name) ∧
            FirstRules script hint needles provider answer h (.error (.notAnIdentifier i.offset)))
  /-- The rule fails with the error of the source map that the inspection fails with. -/
  failed : ∀ cause, ((Inspect.place script hint needles provider : OnTree _) h).1 =
      .error (.edit hint (.sourceMap cause)) →
    FirstRules script hint needles provider answer h (.error cause)

/-- **An inspection shows where a run will edit**, on every host. -/
theorem inspection_agrees {provider : SourceMap.Provider OnTree} {answer : Path → Text → Answer}
    {needles : List String} (hprovider : Answering provider answer) (hne : needles ≠ [])
    (hneedles : ∀ n ∈ needles, n ≠ "") (script : Path) (hint : String) (h : TreeHost) :
    Agrees script hint needles provider answer h := by
  refine ⟨(Inspect.place_eq hprovider h).2, fun i hi => ?_, fun cause hcause => ?_⟩
  · obtain ⟨text, d, hpristine, hanswer, hd⟩ := (Inspect.place_eq_ok_iff hprovider).mp hi
    have hrules : FirstRules script hint needles provider answer h _ :=
      firstRules_matchesOf hprovider hne hneedles hpristine
    obtain ⟨hshows, t, htrace, hoffset⟩ := Inspect.shows_of_inDocument hd
    rw [hanswer, matchesOf_of_trace htrace, hoffset] at hrules
    refine ⟨text, d, hpristine, hanswer, hshows, ?_⟩
    by_cases hname : ∃ name, IsNameAt text i.offset name
    · obtain ⟨name, hname⟩ := hname
      have hread : Document.readIdentifier text i.offset = .ok ⟨i.offset, name⟩ :=
        SourceMap.readIdentifier_eq_ok_iff_isNameAt.mpr ⟨rfl, hname⟩
      rw [hread] at hrules
      exact Or.inl ⟨name, hname, hrules⟩
    · rw [SourceMap.readIdentifier_of_no_name (not_exists.mp hname)] at hrules
      exact Or.inr ⟨not_exists.mp hname, hrules⟩
  · obtain ⟨text, hpristine, hfailed⟩ := (Inspect.place_eq_error_iff hprovider).mp hcause
    have hrules : FirstRules script hint needles provider answer h _ :=
      firstRules_matchesOf hprovider hne hneedles hpristine
    rcases hfailed with hanswer | ⟨d, hanswer, htrace⟩
    · rwa [hanswer] at hrules
    · rwa [hanswer, matchesOf_of_trace_error htrace] at hrules

/-- A rule that takes away the first character of the identifier which `c` stands for. -/
def seekRule : EditRule :=
  ⟨.one "\x7b\x7bc\x7d\x7d", none, none, none, none, some ⟨0, 1⟩, none, none⟩

/-- A set in which it comes first, behind a descriptor and a file patch without rules. -/
def seekSet : PatchSet where
  descriptors := [⟨.bundledScript true, [⟨"t.ts", none, []⟩]⟩,
    ⟨.bundledScript true, [⟨"t.ts", none, []⟩, ⟨"s.ts", none, [seekRule]⟩]⟩]

theorem cutHost_agrees :
    Answering (SourceMap.fixed (.ok cutMap)) (fun _ _ => .ok cutMap) ∧ ["c"] ≠ [] ∧
    (∀ n ∈ ["c"], n ≠ "") ∧
    ((Inspect.place ⟨"/x.js"⟩ "s.ts" ["c"] (SourceMap.fixed (.ok cutMap)) : OnTree _) cutHost).1 =
      .ok ⟨"s.ts", 3, ⟨0, 3⟩, ['a', 'b', '=', 'c', 'd']⟩ ∧
    seekRule.search.needles = ["c"].map braced ∧
    ComesFirst "s.ts" seekRule seekSet.forBundledScript 1 ∧
    Agrees ⟨"/x.js"⟩ "s.ts" ["c"] (SourceMap.fixed (.ok cutMap)) (fun _ _ => .ok cutMap)
      cutHost := by
  have hplace : ((Inspect.place ⟨"/x.js"⟩ "s.ts" ["c"] (SourceMap.fixed (.ok cutMap)) : OnTree _)
      cutHost).1 = .ok ⟨"s.ts", 3, ⟨0, 3⟩, ['a', 'b', '=', 'c', 'd']⟩ :=
    eq_ok_of_toOption (by decide +kernel)
  have hset : seekSet.forBundledScript = [⟨.bundledScript true, [⟨"t.ts", none, []⟩]⟩,
      ⟨.bundledScript true, [⟨"t.ts", none, []⟩] ++ [⟨"s.ts", none, [seekRule]⟩]⟩] := rfl
  have hfirst : ComesFirst "s.ts" seekRule seekSet.forBundledScript 1 := by
    rw [hset]
    exact .later (by simp) (.here (by simp) rfl rfl rfl)
  exact ⟨answering_fixed _, by simp, by simp, hplace, rfl, hfirst,
    inspection_agrees (answering_fixed _) (by simp) (by simp) _ _ _⟩

end Bundle

end TextPatch
