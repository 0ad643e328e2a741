/-
# Texts as tokens

A text with comments is divided into elements (`Lexed`): single blanks, comments, and between them
tokens, which are marks such as a bracket, string literals and atoms.  An atom, that is a number or
a word, goes on as far as it can.

* Every text that comments do not break can be divided (`exists_lexed`).
* Without its comments it is made of the same tokens in the same order, and of blanks
  (`Lexed.spaced`).

Nothing is said here about what tokens mean; a mark may as well be a character that no document
holds.
-/
import TextPatch.Json.Comment
import TextPatch.Json.Parser
import TextPatch.Proofs.Json.Rewriting

namespace TextPatch.Json

open Read

/-! ## 1. Elements -/

/-- Whether a character can stand in a number or a word. -/
def isAtomChar (c : Char) : Bool := c.isAlphanum || c == '+' || c == '-' || c == '.'

/-- Whether a character stands for itself. -/
def isMark (c : Char) : Bool := !isBlank c && !isAtomChar c && c != '"' && c != '/'

/-- What stands between the quotes of a string literal: no quote but behind a backslash. -/
inductive IsLiteral : Text → Prop
  | nil : IsLiteral []
  | plain {c : Char} {body : Text} (hquote : c ≠ '"') (hbackslash : c ≠ '\\') (h : IsLiteral body) :
      IsLiteral (c :: body)
  | escape (c : Char) {body : Text} (h : IsLiteral body) : IsLiteral ('\\' :: c :: body)

/-- What stands between the ends of a block comment. -/
def IsBlock (body : Text) : Prop := ¬ ['*', '/'] <:+: body

/-- What a document is made of. -/
inductive Token where
  /-- A character that stands for itself. -/
  | mark (c : Char)
  /-- A string, by what stands between its quotes. -/
  | literal (body : Text)
  /-- A number or a word. -/
  | atom (word : Text)

namespace Token

/-- How a token is written. -/
def text : Token → Text
  | mark c => [c]
  | literal body => '"' :: (body ++ ['"'])
  | atom word => word

/-- Tokens that are what they are called. -/
def Proper : Token → Prop
  | mark c => isMark c = true
  | literal body => IsLiteral body
  | atom word => word ≠ [] ∧ ∀ c ∈ word, isAtomChar c = true

/-- Whether a token is at its end where a text begins. -/
def EndsAt : Token → Text → Prop
  | atom _, t => ∀ c, t.head? = some c → isAtomChar c = false
  | _, _ => True

end Token

/-- What a text with comments is made of. -/
inductive Element where
  | blank (c : Char)
  /-- A comment up to the end of its line. -/
  | line (body : Text)
  /-- A comment up to a star and a slash. -/
  | block (body : Text)
  | token (k : Token)

namespace Element

/-- How an element is written. -/
def text : Element → Text
  | blank c => [c]
  | line body => '/' :: '/' :: (body ++ ['\n'])
  | block body => '/' :: '*' :: (body ++ ['*', '/'])
  | token k => k.text

/-- Elements that are what they are called. -/
def Proper : Element → Prop
  | blank c => isBlank c = true
  | line body => '\n' ∉ body
  | block body => IsBlock body
  | token k => k.Proper

/-- Whether an element is at its end where a text begins. -/
def EndsAt : Element → Text → Prop
  | token k, t => k.EndsAt t
  | _, _ => True

/-- The token that an element is. -/
def token? : Element → Option Token
  | token k => some k
  | _ => none

end Element

/-- The tokens among elements. -/
def tokens (es : List Element) : List Token := es.filterMap Element.token?

/-- A text is made of elements, one behind the other.  The last line may end in a comment. -/
inductive Lexed : List Element → Text → Prop
  | nil : Lexed [] []
  | unended {body : Text} (h : '\n' ∉ body) : Lexed [] ('/' :: '/' :: body)
  | cons {e : Element} {es : List Element} {t : Text} (hproper : e.Proper) (hends : e.EndsAt t)
      (h : Lexed es t) : Lexed (e :: es) (e.text ++ t)

/-- A text is made of tokens, with nothing but blanks between them. -/
inductive Spaced : List Token → Text → Prop
  | nil : Spaced [] []
  | blank {c : Char} {ks : List Token} {t : Text} (hc : isBlank c = true) (h : Spaced ks t) :
      Spaced ks (c :: t)
  | token {k : Token} {ks : List Token} {t : Text} (hproper : k.Proper) (hends : k.EndsAt t)
      (h : Spaced ks t) : Spaced (k :: ks) (k.text ++ t)

/-! ## 2. Characters -/

/-- The characters of numbers and words are no blanks, and do not begin anything else. -/
theorem not_isBlank_of_isAtomChar {c : Char} (h : isAtomChar c = true) :
    isBlank c = false ∧ c ≠ '"' ∧ c ≠ '/' := by
  have hne : ∀ d : Char, isAtomChar d = false → c ≠ d := by
    rintro d hd rfl
    rw [hd] at h
    cases h
  refine ⟨?_, hne _ (by decide), hne _ (by decide)⟩
  have h₁ := hne ' ' (by decide)
  have h₂ := hne '\n' (by decide)
  have h₃ := hne '\t' (by decide)
  have h₄ := hne '\r' (by decide)
  simp [isBlank, h₁, h₂, h₃, h₄]

theorem isBlank_cases {c : Char} (h : isBlank c = true) :
    c = ' ' ∨ c = '\n' ∨ c = '\t' ∨ c = '\r' := by
  simpa [isBlank, or_assoc] using h

theorem isMark_cases {c : Char} (h : isMark c = true) :
    isBlank c = false ∧ isAtomChar c = false ∧ c ≠ '"' ∧ c ≠ '/' := by
  simpa [isMark, and_assoc] using h

/-- A blank is not written where an atom goes on. -/
theorem not_isAtomChar_of_isBlank {c : Char} (h : isBlank c = true) : isAtomChar c = false := by
  rcases isBlank_cases h with rfl | rfl | rfl | rfl <;> decide

/-- A star and a slash end a block comment: they are not both in it. -/
theorem isBlock_cons {c : Char} {body : Text} :
    IsBlock (c :: body) ↔ IsBlock body ∧ ¬ (c = '*' ∧ body.head? = some '/') := by
  unfold IsBlock
  rw [List.infix_cons_iff, not_or, and_comm]
  refine and_congr Iff.rfl (not_congr ?_)
  cases body with
  | nil => simp
  | cons d body =>
    rw [List.cons_prefix_cons, List.cons_prefix_cons, List.head?_cons, Option.some.injEq]
    constructor
    · rintro ⟨rfl, rfl, -⟩
      exact ⟨rfl, rfl⟩
    · rintro ⟨rfl, rfl⟩
      exact ⟨rfl, rfl, List.nil_prefix⟩

theorem isBlock_nil : IsBlock [] := by simp [IsBlock]

/-- The first character of a token is no blank. -/
theorem Token.Proper.head {k : Token} (h : k.Proper) :
    ∃ c t, k.text = c :: t ∧ isBlank c = false := by
  cases k with
  | mark c => exact ⟨c, [], rfl, (isMark_cases h).1⟩
  | literal body => exact ⟨'"', _, rfl, by decide⟩
  | atom word =>
    obtain ⟨c, w, rfl⟩ := List.exists_cons_of_ne_nil h.1
    exact ⟨c, w, rfl, (not_isBlank_of_isAtomChar (h.2 c List.mem_cons_self)).1⟩

/-! ## 3. Taking comments out -/

/-- The blanks in the place of a text. -/
def blankOut (t : Text) : Text := t.flatMap blanks

/-- What remains is put behind some text. -/
def behind (s : Text) (r : Text × Bool) : Text × Bool := (s ++ r.1, r.2)

@[simp] theorem behind_nil (r : Text × Bool) : behind [] r = r := rfl

@[simp] theorem behind_behind (s u : Text) (r : Text × Bool) :
    behind s (behind u r) = behind (s ++ u) r := by
  simp [behind]

theorem keep_eq (c : Char) (r : Text × Bool) : stripFrom.keep c r = behind [c] r := rfl

theorem drop_eq (c : Char) (r : Text × Bool) : stripFrom.drop c r = behind (blankOut [c]) r := by
  simp [stripFrom.drop, behind, blankOut]

/-! What a character does in each state. -/

namespace stripFrom

variable (c : Char) (t : Text)

theorem code_step : stripFrom .code (c :: t) =
    if c = '"' then keep c (stripFrom .string t)
    else if c = '/' then drop c (stripFrom .slash t)
    else keep c (stripFrom .code t) := rfl

theorem string_step : stripFrom .string (c :: t) =
    keep c (stripFrom (if c = '"' then .code else if c = '\\' then .escaped else .string) t) := rfl

theorem escaped_step : stripFrom .escaped (c :: t) = keep c (stripFrom .string t) := rfl

theorem slash_step : stripFrom .slash (c :: t) =
    if c = '*' then drop c (stripFrom .block t)
    else if c = '/' then drop c (stripFrom .line t)
    else ([], true) := rfl

theorem line_step : stripFrom .line (c :: t) =
    if c = '\n' then keep c (stripFrom .code t) else drop c (stripFrom .line t) := rfl

theorem block_step : stripFrom .block (c :: t) =
    drop c (stripFrom (if c = '*' then .star else .block) t) := rfl

theorem star_step : stripFrom .star (c :: t) =
    drop c (stripFrom (if c = '/' then .code else if c = '*' then .star else .block) t) := rfl

end stripFrom

theorem blankOut_cons (c : Char) (t : Text) : blankOut (c :: t) = blankOut [c] ++ blankOut t := by
  simp [blankOut]

theorem blankOut_append (s t : Text) : blankOut (s ++ t) = blankOut s ++ blankOut t := by
  simp [blankOut]

/-- A character that begins nothing stays. -/
theorem stripFrom_code_cons {c : Char} (hquote : c ≠ '"') (hslash : c ≠ '/') (t : Text) :
    stripFrom .code (c :: t) = behind [c] (stripFrom .code t) := by
  rw [stripFrom.code_step, if_neg hquote, if_neg hslash, keep_eq]

theorem stripFrom_word (t : Text) : ∀ {w : Text}, (∀ c ∈ w, isAtomChar c = true) →
    stripFrom .code (w ++ t) = behind w (stripFrom .code t)
  | [], _ => rfl
  | c :: w, h => by
    have hc := not_isBlank_of_isAtomChar (h c List.mem_cons_self)
    rw [List.cons_append, stripFrom_code_cons hc.2.1 hc.2.2,
      stripFrom_word t fun d hd => h d (List.mem_cons_of_mem c hd), behind_behind]
    rfl

/-- A string literal stays. -/
theorem stripFrom_string {body : Text} (h : IsLiteral body) (t : Text) :
    stripFrom .string (body ++ '"' :: t) = behind (body ++ ['"']) (stripFrom .code t) := by
  induction h with
  | nil => rw [List.nil_append, stripFrom.string_step, if_pos rfl, keep_eq, List.nil_append]
  | @plain c body hquote hbackslash _ ih =>
    rw [List.cons_append, stripFrom.string_step, if_neg hquote, if_neg hbackslash, keep_eq, ih,
      behind_behind]
    rfl
  | @escape c body _ ih =>
    rw [List.cons_append, List.cons_append, stripFrom.string_step, if_neg (by decide), if_pos rfl,
      keep_eq, stripFrom.escaped_step, keep_eq, ih, behind_behind, behind_behind]
    rfl

/-- A comment at the end of a line is taken out, and the end of the line stays. -/
theorem stripFrom_line (t : Text) : ∀ {body : Text}, '\n' ∉ body →
    stripFrom .line (body ++ '\n' :: t) =
      behind (blankOut body ++ ['\n']) (stripFrom .code t)
  | [], _ => by
    rw [List.nil_append, stripFrom.line_step, if_pos rfl, keep_eq]
    rfl
  | c :: body, h => by
    rw [List.mem_cons, not_or] at h
    rw [List.cons_append, stripFrom.line_step, if_neg (Ne.symm h.1), drop_eq, stripFrom_line t h.2,
      behind_behind, blankOut_cons c body, List.append_assoc]

theorem stripFrom_unended : ∀ {body : Text}, '\n' ∉ body →
    stripFrom .line body = (blankOut body, false)
  | [], _ => rfl
  | c :: body, h => by
    rw [List.mem_cons, not_or] at h
    rw [stripFrom.line_step, if_neg (Ne.symm h.1), drop_eq, stripFrom_unended h.2,
      blankOut_cons c body]
    rfl

/-- A block comment is taken out.  Behind a star the comment goes on unless a slash follows. -/
theorem stripFrom_block (t : Text) : ∀ body : Text,
    (IsBlock body → stripFrom .block (body ++ '*' :: '/' :: t) =
        behind (blankOut (body ++ ['*', '/'])) (stripFrom .code t)) ∧
      (IsBlock ('*' :: body) → stripFrom .star (body ++ '*' :: '/' :: t) =
        behind (blankOut (body ++ ['*', '/'])) (stripFrom .code t))
  | [] => by
    have hstar : stripFrom .star ('/' :: t) = behind (blankOut ['/']) (stripFrom .code t) := by
      rw [stripFrom.star_step, if_pos rfl, drop_eq]
    constructor
    · intro _
      rw [List.nil_append, stripFrom.block_step, if_pos rfl, drop_eq, hstar, behind_behind,
        ← blankOut_append]
      rfl
    · intro _
      rw [List.nil_append, stripFrom.star_step, if_neg (by decide), if_pos rfl, drop_eq, hstar,
        behind_behind, ← blankOut_append]
      rfl
  | c :: body => by
    obtain ⟨ihblock, ihstar⟩ := stripFrom_block t body
    have hgoes : IsBlock (c :: body) → stripFrom (if c = '*' then .star else .block)
        (body ++ '*' :: '/' :: t) =
          behind (blankOut (body ++ ['*', '/'])) (stripFrom .code t) := by
      intro h
      by_cases hc : c = '*'
      · subst hc
        rw [if_pos rfl, ihstar h]
      · rw [if_neg hc, ihblock (isBlock_cons.mp h).1]
    constructor
    · intro h
      rw [List.cons_append, stripFrom.block_step, hgoes h, drop_eq, behind_behind,
        ← blankOut_append]
      rfl
    · intro h
      obtain ⟨hrest, hnone⟩ := isBlock_cons.mp h
      have hslash : c ≠ '/' := fun hc => hnone ⟨rfl, by rw [hc, List.head?_cons]⟩
      rw [List.cons_append, stripFrom.star_step, if_neg hslash, hgoes hrest, drop_eq, behind_behind,
        ← blankOut_append]
      rfl

namespace Element

/-- What stands in the place of an element without comments. -/
def stripped : Element → Text
  | line body => blankOut ('/' :: '/' :: body) ++ ['\n']
  | block body => blankOut ('/' :: '*' :: (body ++ ['*', '/']))
  | e => e.text

end Element

/-- **Comments are taken out element by element.** -/
theorem stripFrom_element {e : Element} (h : e.Proper) (t : Text) :
    stripFrom .code (e.text ++ t) = behind e.stripped (stripFrom .code t) := by
  cases e with
  | blank c =>
    have hne : c ≠ '"' ∧ c ≠ '/' := by
      rcases isBlank_cases h with rfl | rfl | rfl | rfl <;> decide
    exact stripFrom_code_cons hne.1 hne.2 t
  | line body =>
    simp only [Element.text, List.cons_append, List.append_assoc, List.nil_append]
    rw [stripFrom.code_step, if_neg (by decide), if_pos rfl, stripFrom.slash_step,
      if_neg (by decide), if_pos rfl, stripFrom_line t h, drop_eq, drop_eq, behind_behind,
      behind_behind, ← List.append_assoc, ← blankOut_append, ← blankOut_append]
    rfl
  | block body =>
    simp only [Element.text, List.cons_append, List.append_assoc, List.nil_append]
    rw [stripFrom.code_step, if_neg (by decide), if_pos rfl, stripFrom.slash_step, if_pos rfl,
      (stripFrom_block t body).1 h, drop_eq, drop_eq, behind_behind, behind_behind,
      ← blankOut_append, ← blankOut_append]
    rfl
  | token k =>
    cases k with
    | mark c =>
      obtain ⟨-, -, hquote, hslash⟩ := isMark_cases h
      exact stripFrom_code_cons hquote hslash t
    | literal body =>
      simp only [Element.text, Token.text, List.cons_append, List.append_assoc, List.nil_append]
      rw [stripFrom.code_step, if_pos rfl, stripFrom_string h t, keep_eq, behind_behind]
      rfl
    | atom word => exact stripFrom_word t h.2

/-! ## 4. What is left -/

/-- Blanks before a text do not change its tokens. -/
theorem Spaced.blanks {ks : List Token} {t : Text} (h : Spaced ks t) :
    ∀ n, Spaced ks (List.replicate n ' ' ++ t)
  | 0 => h
  | n + 1 => .blank (by decide) (h.blanks n)

theorem Spaced.blankOut {ks : List Token} {t : Text} (h : Spaced ks t) :
    ∀ s : Text, Spaced ks (blankOut s ++ t)
  | [] => h
  | c :: s => by
    have hrest := (h.blankOut s).blanks c.utf8Size
    simpa [Json.blankOut, Json.blanks] using hrest

/-- No character of a number or a word comes to stand at the front of a text without comments. -/
theorem head?_stripFrom {t : Text} {c : Char} (h : (stripFrom .code t).1.head? = some c) :
    isAtomChar c = false ∨ t.head? = some c := by
  cases t with
  | nil => cases h
  | cons d t =>
    rw [stripFrom.code_step] at h
    split at h
    · exact Or.inr h
    · split at h
      · rename_i hslash
        subst hslash
        have hhead : (stripFrom.drop '/' (stripFrom .slash t)).1.head? = some ' ' := by
          rw [drop_eq]
          rfl
        rw [hhead] at h
        cases h
        exact Or.inl (by decide)
      · exact Or.inr h

theorem Token.EndsAt.stripFrom {k : Token} {t : Text} (h : k.EndsAt t) :
    k.EndsAt (stripFrom .code t).1 := by
  cases k with
  | mark c => trivial
  | literal body => trivial
  | atom word =>
    intro c hc
    rcases head?_stripFrom hc with hnone | hhead
    · exact hnone
    · exact h c hhead

/-- **Without its comments a text has the same tokens**, and nothing else but blanks. -/
theorem Lexed.spaced {es : List Element} {t : Text} (h : Lexed es t) :
    (stripComments t).2 = false ∧ Spaced (tokens es) (stripComments t).1 := by
  unfold stripComments
  induction h with
  | nil => exact ⟨rfl, .nil⟩
  | @unended body hbody =>
    rw [stripFrom.code_step, if_neg (by decide), if_pos rfl, stripFrom.slash_step,
      if_neg (by decide), if_pos rfl, stripFrom_unended hbody, drop_eq, drop_eq]
    refine ⟨rfl, ?_⟩
    have hblanks := Spaced.nil.blankOut ('/' :: '/' :: body)
    rwa [List.append_nil, blankOut_cons, blankOut_cons '/' body] at hblanks
  | @cons e es t hproper hends _ ih =>
    rw [stripFrom_element hproper]
    refine ⟨ih.1, ?_⟩
    simp only [behind]
    cases e with
    | blank c => exact .blank hproper ih.2
    | line body =>
      rw [Element.stripped, List.append_assoc]
      exact (Spaced.blank (by decide) ih.2).blankOut _
    | block body => exact ih.2.blankOut _
    | token k => exact .token hproper (Token.EndsAt.stripFrom hends) ih.2

/-! ## 5. Every text is made of elements -/

/-- A string literal is found where the reader of comments comes to the end of it. -/
theorem exists_literal : ∀ {t : Text}, (stripFrom .string t).2 = false →
    ∃ body t', t = body ++ '"' :: t' ∧ IsLiteral body ∧ (stripFrom .code t').2 = false
  | [], h => by cases h
  | c :: t, h => by
    by_cases hquote : c = '"'
    · subst hquote
      rw [stripFrom.string_step, if_pos rfl] at h
      exact ⟨[], t, rfl, .nil, h⟩
    · by_cases hbackslash : c = '\\'
      · subst hbackslash
        rw [stripFrom.string_step, if_neg hquote, if_pos rfl] at h
        cases t with
        | nil => cases h
        | cons d t =>
          have hrest : (stripFrom .string t).2 = false := h
          obtain ⟨body, t', rfl, hbody, hcode⟩ := exists_literal hrest
          exact ⟨'\\' :: d :: body, t', rfl, .escape d hbody, hcode⟩
      · rw [stripFrom.string_step, if_neg hquote, if_neg hbackslash] at h
        obtain ⟨body, t', rfl, hbody, hcode⟩ := exists_literal (t := t) h
        exact ⟨c :: body, t', rfl, .plain hquote hbackslash hbody, hcode⟩

/-- A comment at the end of a line goes to its end, or to the end of the text. -/
theorem exists_line : ∀ {t : Text}, (stripFrom .line t).2 = false →
    '\n' ∉ t ∨ ∃ body t', t = body ++ '\n' :: t' ∧ '\n' ∉ body ∧ (stripFrom .code t').2 = false
  | [], _ => Or.inl List.not_mem_nil
  | c :: t, h => by
    rw [stripFrom.line_step] at h
    by_cases hc : c = '\n'
    · subst hc
      rw [if_pos rfl] at h
      exact Or.inr ⟨[], t, rfl, List.not_mem_nil, h⟩
    · rw [if_neg hc] at h
      rcases exists_line (t := t) h with hnone | ⟨body, t', rfl, hbody, hcode⟩
      · exact Or.inl (by simp [hnone, Ne.symm hc])
      · exact Or.inr ⟨c :: body, t', rfl, by simp [hbody, Ne.symm hc], hcode⟩

/-- A block comment goes to its end. -/
theorem exists_block : ∀ t : Text,
    ((stripFrom .block t).2 = false → ∃ body t', t = body ++ '*' :: '/' :: t' ∧ IsBlock body ∧
        (stripFrom .code t').2 = false) ∧
      ((stripFrom .star t).2 = false → ∃ body t', '*' :: t = body ++ '*' :: '/' :: t' ∧
        IsBlock body ∧ (stripFrom .code t').2 = false)
  | [] => by
    constructor
    · intro h
      cases h
    · intro h
      cases h
  | c :: t => by
    obtain ⟨ihblock, ihstar⟩ := exists_block t
    have hgoes : (stripFrom (if c = '*' then .star else .block) t).2 = false →
        ∃ body t', c :: t = body ++ '*' :: '/' :: t' ∧ IsBlock body ∧
          (stripFrom .code t').2 = false := by
      intro h
      by_cases hc : c = '*'
      · subst hc
        rw [if_pos rfl] at h
        exact ihstar h
      · rw [if_neg hc] at h
        obtain ⟨body, t', rfl, hbody, hcode⟩ := ihblock h
        exact ⟨c :: body, t', rfl, isBlock_cons.mpr ⟨hbody, fun h => hc h.1⟩, hcode⟩
    constructor
    · intro h
      exact hgoes h
    · intro h
      by_cases hslash : c = '/'
      · subst hslash
        rw [stripFrom.star_step, if_pos rfl] at h
        exact ⟨[], t, rfl, isBlock_nil, h⟩
      · rw [stripFrom.star_step, if_neg hslash] at h
        obtain ⟨body, t', htext, hbody, hcode⟩ := hgoes h
        refine ⟨'*' :: body, t', by rw [htext]; rfl, isBlock_cons.mpr ⟨hbody, ?_⟩, hcode⟩
        -- the star is not followed by a slash
        rintro ⟨-, hhead⟩
        cases body with
        | nil => cases hhead
        | cons d body =>
          obtain ⟨rfl, -⟩ := List.cons.inj htext
          exact hslash (Option.some.inj hhead)

/-- The characters of an atom, and what follows them. -/
theorem exists_atom : ∀ t : Text, ∃ w t', t = w ++ t' ∧ (∀ c ∈ w, isAtomChar c = true) ∧
    ∀ c, t'.head? = some c → isAtomChar c = false := by
  intro t
  refine ⟨t.takeWhile isAtomChar, t.dropWhile isAtomChar, List.takeWhile_append_dropWhile.symm,
    fun c hc => List.all_eq_true.mp List.all_takeWhile c hc, fun c hc => ?_⟩
  have hnot := List.head?_dropWhile_not isAtomChar t
  rw [hc] at hnot
  simpa using hnot

/-- A text that is not empty begins with an element, if comments do not break it; a comment may also
go to the end of it. -/
theorem exists_element {c : Char} {t : Text} (h : (stripFrom .code (c :: t)).2 = false) :
    (∃ body, c :: t = '/' :: '/' :: body ∧ '\n' ∉ body) ∨
      ∃ e t', c :: t = Element.text e ++ t' ∧ e.Proper ∧ e.EndsAt t' ∧
        (stripFrom .code t').2 = false := by
  by_cases hquote : c = '"'
  · subst hquote
    rw [stripFrom.code_step, if_pos rfl] at h
    obtain ⟨body, t', rfl, hbody, hcode⟩ := exists_literal (t := t) h
    exact Or.inr ⟨.token (.literal body), t', by simp [Element.text, Token.text], hbody, trivial,
      hcode⟩
  by_cases hslash : c = '/'
  · subst hslash
    rw [stripFrom.code_step, if_neg hquote, if_pos rfl] at h
    cases t with
    | nil => cases h
    | cons d t =>
      rw [stripFrom.slash_step] at h
      split at h
      · rename_i hd
        subst hd
        obtain ⟨body, t', rfl, hbody, hcode⟩ := (exists_block t).1 h
        exact Or.inr ⟨.block body, t', by simp [Element.text], hbody, trivial, hcode⟩
      · split at h
        · rename_i hd
          subst hd
          rcases exists_line (t := t) h with hnone | ⟨body, t', rfl, hbody, hcode⟩
          · exact Or.inl ⟨t, rfl, hnone⟩
          · exact Or.inr ⟨.line body, t', by simp [Element.text], hbody, trivial, hcode⟩
        · cases h
  by_cases hatom : isAtomChar c = true
  · obtain ⟨w, t', htext, hw, hends⟩ := exists_atom (c :: t)
    refine Or.inr ⟨.token (.atom w), t', htext, ⟨?_, hw⟩, hends, ?_⟩
    · rintro rfl
      rw [List.nil_append] at htext
      subst htext
      rw [hends c rfl] at hatom
      cases hatom
    · rw [htext, stripFrom_word t' hw] at h
      exact h
  rw [stripFrom_code_cons hquote hslash] at h
  by_cases hblank : isBlank c = true
  · exact Or.inr ⟨.blank c, t, rfl, hblank, trivial, h⟩
  · refine Or.inr ⟨.token (.mark c), t, rfl, ?_, trivial, h⟩
    simp [Element.Proper, Token.Proper, isMark, hblank, hatom, hquote, hslash]

/-- No element is empty. -/
theorem Element.Proper.text_ne_nil {e : Element} (h : e.Proper) : e.text ≠ [] := by
  cases e with
  | token k =>
    obtain ⟨c, t, htext, -⟩ := Token.Proper.head h
    rw [Element.text, htext]
    exact List.cons_ne_nil c t
  | _ => exact List.cons_ne_nil _ _

/-- **A text that comments do not break is made of elements.** -/
theorem exists_lexed {t : Text} (h : (stripComments t).2 = false) : ∃ es, Lexed es t := by
  unfold stripComments at h
  induction hn : t.length using Nat.strongRecOn generalizing t with
  | _ n ih =>
    cases t with
    | nil => exact ⟨[], .nil⟩
    | cons c t =>
      rcases exists_element h with ⟨body, htext, hbody⟩ | ⟨e, t', htext, hproper, hends, hcode⟩
      · rw [htext]
        exact ⟨[], .unended hbody⟩
      · rw [htext] at hn ⊢
        have hpos := List.length_pos_iff.mpr hproper.text_ne_nil
        rw [List.length_append] at hn
        obtain ⟨es, hes⟩ := ih t'.length (by omega) hcode rfl
        exact ⟨e :: es, .cons hproper hends hes⟩

end TextPatch.Json
