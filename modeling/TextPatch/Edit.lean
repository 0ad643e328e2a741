/-
# Edits

A rule whose search has been checked is a `RulePlan`.  `applyRule` resolves the search against the
text as it comes in, then does the edits of the rule at one match after the other: it removes the
range counted from the start of the match, removes the range counted from its end, and writes the
insert text.  Each edit is a splice; the sum of their growths so far (the *shift*) moves the
matches that come after.

Offsets are 64-bit words.  A rule may ask for any word, so where it asks for one that is far behind
the text, the sum with the start of the match does not fit (`Edited.offset`).

References in double braces in an insert text stand for the names that the source map gives them;
`Insertion.expand` puts the names in.
-/
import TextPatch.Search
import TextPatch.Text.Splice

namespace TextPatch

/-- Why an edit fails. -/
inductive EditError where
  | splice (cause : SpliceError)
  | negativeOffset (offset : Int64)
  | resolve (cause : NeedleError)
  | sourceMap (cause : SourceMapError)
  deriving DecidableEq, Repr

namespace EditError

/-- The wording of an error. -/
def message : EditError → String
  | splice cause => cause.message
  | negativeOffset offset => s!"computed offset {offset.toInt} is before the start of the buffer"
  | resolve cause => cause.message
  | sourceMap cause => "failed to resolve insert text reference: " ++ cause.message

end EditError

/-! ## 1. Insert texts -/

namespace Insertion

/-- A part of an insert text. -/
inductive Piece where
  | char (c : Char)
  | reference (inner : Text)
  deriving DecidableEq, Repr

/-- Reads a reference from behind its opening braces: the shortest text without a line feed up to
closing braces, and what follows these. -/
def closing? : Text → Option (Text × Text)
  | [] => none
  | '\x7d' :: '\x7d' :: t => some ([], t)
  | c :: t => if c = '\n' then none else (closing? t).map fun (inner, rest) => (c :: inner, rest)

theorem closing?_length : ∀ {t inner rest : Text}, closing? t = some (inner, rest) →
    rest.length < t.length := by
  intro t
  fun_induction closing? t with
  | case1 => intro inner rest h; cases h
  | case2 t =>
    intro inner rest h
    obtain ⟨rfl, rfl⟩ := Prod.mk.inj (Option.some.inj h)
    simp only [List.length_cons]
    omega
  | case3 => intro inner rest h; cases h
  | case4 c t _ _ ih =>
    intro inner rest h
    obtain ⟨⟨i, r⟩, hir, he⟩ := Option.map_eq_some_iff.1 h
    obtain ⟨rfl, rfl⟩ := Prod.mk.inj he
    have := ih hir
    simp only [List.length_cons]
    omega

/-- Reads a reference: opening braces, and what `closing?` reads. -/
def reference? : Text → Option (Text × Text)
  | '\x7b' :: '\x7b' :: t => closing? t
  | _ => none

theorem reference?_length {t inner rest : Text} (h : reference? t = some (inner, rest)) :
    rest.length < t.length := by
  unfold reference? at h
  split at h
  · have := closing?_length h
    simp only [List.length_cons]
    omega
  · cases h

/-- The parts of an insert text, references read as far left as possible. -/
def pieces : Text → List Piece
  | [] => []
  | c :: t =>
    match _h : reference? (c :: t) with
    | some (inner, rest) => .reference inner :: pieces rest
    | none => .char c :: pieces t
termination_by t => t.length
decreasing_by
  · exact reference?_length _h
  · exact Nat.lt_succ_self t.length

/-- Whether an insert text holds a reference. -/
def hasReference (t : Text) : Bool :=
  (pieces t).any fun p => match p with
    | .reference _ => true
    | .char _ => false

/-- The text of some parts, with the names that `name` gives to references; the first reference
without a name decides. -/
def render (name : Text → Except SourceMapError String) : List Piece → Except SourceMapError Text
  | [] => .ok []
  | .char c :: ps => (render name ps).map (c :: ·)
  | .reference inner :: ps => do
    let n ← name inner
    let t ← render name ps
    return n.toList ++ t

/-- The name that a reference has in a rule: the source needles of the rule come before it. -/
def nameIn (s : SearchSpec) (generated : Text) (lookup : Lookup) (inner : Text) :
    Except SourceMapError String :=
  (lookup generated (s.sourceNeedles ++ [String.ofList inner])).map Identifier.name

/-- An insert text with names for its references.  Without a lookup, or in a rule that is not for
the bundled script, it stays as it is. -/
def expand (s : SearchSpec) (generated : Text) (lookup : Option Lookup) (raw : Text) :
    Except SourceMapError Text :=
  match lookup with
  | some lookup =>
    if s.sourceMapped then render (nameIn s generated lookup) (pieces raw) else .ok raw
  | none => .ok raw

end Insertion

/-! ## 2. Rules -/

/-- A rule with its search checked and its defaults filled in. -/
structure RulePlan where
  search : SearchSpec
  insertText : Option String
  insertMode : InsertMode
  insertOffset : Int64
  removeRange : Option OffsetRange
  removeRangeAfter : Option OffsetRange
  deriving Repr

namespace RulePlan

/-- Checks a rule.  Needles in double braces are looked up only if `sourceMapped`. -/
def ofRule (rule : EditRule) (sourceMapped : Bool) : Except NeedleError RulePlan := do
  let search ← SearchSpec.ofSearch rule.search (rule.searchMode.getD .single)
    (rule.patchOptional.getD false) sourceMapped
  return {
    search
    insertText := rule.insertText
    insertMode := rule.insertMode.getD .after
    insertOffset := rule.insertOffset.getD 0
    removeRange := rule.removeRange
    removeRangeAfter := rule.removeRangeAfter }

/-- Checks rules in order. -/
def ofRules (sourceMapped : Bool) (rules : List EditRule) : Except NeedleError (List RulePlan) :=
  rules.mapM fun rule => ofRule rule sourceMapped

/-- Whether a rule needs the source map. -/
def usesSourceMap (p : RulePlan) : Bool :=
  !p.search.sourceNeedles.isEmpty ||
    (p.search.sourceMapped && p.insertText.any fun t => Insertion.hasReference t.toList)

end RulePlan

/-! ## 3. Edits at matches -/

/-- A text that is being edited, and how much it has grown. -/
structure Edited where
  text : Text
  shift : Int
  deriving DecidableEq, Repr

namespace Edited

/-- A text before its first edit. -/
def ofText (t : Text) : Edited := ⟨t, 0⟩

/-- The offset that a sum of words comes to, unless it lies before the text.  Every offset in the
text fits into a word; so far behind it that none does, the sum wraps around and comes out
negative. -/
def offset (t : Text) (n : Int) : Except EditError Nat :=
  if 0 ≤ n ∧ (n ≤ t.byteLength ∨ n ≤ Int64.maxValue.toInt) then .ok n.toNat
  else .error (.negativeOffset (Int64.ofInt n))

/-- An offset that a sum comes to is that sum. -/
theorem offset_eq_ok {t : Text} {n : Int} {k : Nat} (h : offset t n = .ok k) : n = k := by
  unfold offset at h
  split at h
  · rename_i hn
    cases h
    exact (Int.toNat_of_nonneg hn.1).symm
  · cases h

/-- A sum that is an offset in the text comes to itself. -/
theorem offset_of_le {t : Text} {k : Nat} (h : k ≤ t.byteLength) : offset t k = .ok k := by
  rw [offset, if_pos ⟨Int.natCast_nonneg k, Or.inl (Int.ofNat_le.mpr h)⟩, Int.toNat_natCast]

/-- Writes `newText` over the bytes from `start` up to `stop`. -/
def splice (e : Edited) (start stop : Int) (newText : Text) : Except EditError Edited := do
  let s : Splice := ⟨← offset e.text start, ← offset e.text stop, newText⟩
  match s.apply e.text with
  | .error cause => .error (.splice cause)
  | .ok text => .ok ⟨text, e.shift + s.growth⟩

/-- Removes a range, if there is one, counted from byte `origin`. -/
def remove (e : Edited) (origin : Int) (range : Option OffsetRange) : Except EditError Edited :=
  match range with
  | none => .ok e
  | some r => e.splice (origin + r.start.toInt) (origin + r.stop.toInt) []

/-- Writes the insert text of a rule, if it has one, for a match that starts at byte `start`. -/
def insert (e : Edited) (p : RulePlan) (start length : Int) (text : Option Text) :
    Except EditError Edited :=
  match text with
  | none => .ok e
  | some text =>
    let origin := start + p.insertOffset.toInt
    match p.insertMode with
    | .before => e.splice origin origin text
    | .after => e.splice (origin + length) (origin + length) text
    | .replace => e.splice origin (origin + length) text

/-- Does all edits of a rule at one match.  The removals do not move the match itself; the range
after the match and the insert text are placed by the match as it stood before them. -/
def editAt (p : RulePlan) (text : Option Text) (e : Edited) (m : Match) :
    Except EditError Edited := do
  let start : Int := m.start + e.shift
  let length : Int := m.length
  let e ← e.remove start p.removeRange
  let e ← e.remove (start + length) p.removeRangeAfter
  e.insert p start length text

end Edited

/-- The insert text of a rule, with names for its references. -/
def RulePlan.insertion (p : RulePlan) (text : Text) (lookup : Option Lookup) :
    Except EditError (Option Text) :=
  match p.insertText with
  | none => .ok none
  | some raw =>
    match Insertion.expand p.search text lookup raw.toList with
    | .error cause => .error (.sourceMap cause)
    | .ok t => .ok (some t)

/-- The text after one rule.  `file` is for messages only. -/
def applyRule (file : String) (text : Text) (p : RulePlan) (lookup : Option Lookup) :
    Except EditError Text :=
  match p.search.resolve file text lookup with
  | .error cause => .error (.resolve cause)
  | .ok r =>
    if r.found.isEmpty then .ok text
    else do
      let insertion ← p.insertion text lookup
      let e ← r.found.foldlM (Edited.editAt p insertion) (Edited.ofText text)
      return e.text

/-- The text after rules, each applied to what the one before it left. -/
def applyRules (file : String) (lookup : Option Lookup) :
    Text → List RulePlan → Except EditError Text
  | text, [] => .ok text
  | text, p :: ps => do
    let text ← applyRule file text p lookup
    applyRules file lookup text ps

/-- The text after one rule that has not been checked yet, without a source map. -/
def applyRuleToText (text : Text) (rule : EditRule) : Except EditError Text :=
  match RulePlan.ofRule rule false with
  | .error cause => .error (.resolve cause)
  | .ok p => applyRule "" text p none

/-! ## 4. What there is to tell -/

/-- What there is to tell about the references of an insert text, up to the first that fails. -/
def Insertion.notes (s : SearchSpec) (generated : Text) (lookup : Lookup)
    (lookupNotes : Text → List String → List String) : List Insertion.Piece → List String
  | [] => []
  | .char _ :: ps => notes s generated lookup lookupNotes ps
  | .reference inner :: ps =>
    let told := lookupNotes generated (s.sourceNeedles ++ [String.ofList inner])
    match nameIn s generated lookup inner with
    | .ok _ => told ++ notes s generated lookup lookupNotes ps
    | .error _ => told

/-- What there is to tell about one rule. -/
def ruleNotes (file : String) (text : Text) (p : RulePlan) (lookup : Option Lookup)
    (lookupNotes : Text → List String → List String) : List String :=
  let searched := p.search.notes file text lookup lookupNotes
  match p.search.resolve file text lookup, p.insertText, lookup with
  | .ok r, some raw, some l =>
    if r.found.isEmpty || !p.search.sourceMapped then searched
    else searched ++ Insertion.notes p.search text l lookupNotes (Insertion.pieces raw.toList)
  | _, _, _ => searched

/-- What there is to tell about rules, up to the first that fails. -/
def rulesNotes (file : String) (lookup : Option Lookup)
    (lookupNotes : Text → List String → List String) : Text → List RulePlan → List String
  | _, [] => []
  | text, p :: ps =>
    let told := ruleNotes file text p lookup lookupNotes
    match applyRule file text p lookup with
    | .ok text => told ++ rulesNotes file lookup lookupNotes text ps
    | .error _ => told

end TextPatch
