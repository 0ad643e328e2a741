/-
# Looking up properties of characters

`property?` and `propertyValue?` answer the set of characters that a name such as `Lu`, `Greek` or
`White_Space`, or a pair such as `Script` and `Greek`, stands for.  Names are compared loosely:
case, blanks, hyphens, underscores and a leading `is` do not count (`normalize`).

The classes that patterns use by letters are here too: `digit`, `blank` and `wordChar`.
-/
import TextPatch.Unicode.CharSet
import TextPatch.Unicode.Category
import TextPatch.Unicode.Script
import TextPatch.Unicode.ScriptExtensions
import TextPatch.Unicode.Property
import TextPatch.Unicode.Age
import TextPatch.Unicode.GraphemeBreak
import TextPatch.Unicode.WordBreak
import TextPatch.Unicode.SentenceBreak
import TextPatch.Unicode.CaseFolding

namespace TextPatch.Unicode

/-! ## 1. Names -/

/-- A name without the parts that do not count. -/
def normalize (name : String) : String :=
  let t := name.toList
  let hasIs := match t with
    | a :: b :: _ => (a == 'i' || a == 'I') && (b == 's' || b == 'S')
    | _ => false
  let kept := ((if hasIs then t.drop 2 else t).filter fun c =>
    c.toNat ≤ 0x7F && c != ' ' && c != '_' && c != '-').map Char.toLower
  if hasIs && kept == ['c'] then "isc" else String.ofList kept

/-- The row that lists a normalized name among its names. -/
def row? (table : List (String × List String)) (name : String) : Option (List String) :=
  (table.find? fun (names, _) =>
    (Text.fields ' ' names.toList).contains name.toList).map Prod.snd

/-! ## 2. General categories -/

/-- The union of written categories. -/
def categoryUnion (names : List String) : CharSet :=
  CharSet.ofRanges (names.flatMap fun name =>
    match row? categories name with
    | some row => (CharSet.ofTable row).ranges
    | none => [])

/-- All assigned characters. -/
def assigned : CharSet :=
  CharSet.ofRanges (categories.flatMap fun (_, row) => (CharSet.ofTable row).ranges)

/-- The categories that are made up of others. -/
def groupedCategory? (name : String) : Option CharSet :=
  match name with
  | "l" | "letter" => some (categoryUnion ["lu", "ll", "lt", "lm", "lo"])
  | "lc" | "casedletter" => some (categoryUnion ["lu", "ll", "lt"])
  | "m" | "mark" | "combiningmark" => some (categoryUnion ["mn", "mc", "me"])
  | "n" | "number" => some (categoryUnion ["nd", "nl", "no"])
  | "p" | "punct" | "punctuation" =>
    some (categoryUnion ["pc", "pd", "ps", "pe", "pi", "pf", "po"])
  | "s" | "symbol" => some (categoryUnion ["sm", "sc", "sk", "so"])
  | "z" | "separator" => some (categoryUnion ["zs", "zl", "zp"])
  | "cn" | "unassigned" => some assigned.complement
  | "c" | "other" =>
    some ((categoryUnion ["cc", "cf", "co"]).union assigned.complement)
  | "cs" | "surrogate" => some CharSet.empty
  | "any" => some CharSet.full
  | "assigned" => some assigned
  | "ascii" => some CharSet.ascii
  | _ => none

/-- The set of a normalized category name. -/
def category? (name : String) : Option CharSet :=
  match row? categories name with
  | some row => some (CharSet.ofTable row)
  | none => groupedCategory? name

/-! ## 3. The classes that have letters of their own -/

/-- The decimal digits. -/
def digit : CharSet := categoryUnion ["nd"]

/-- The set of a two-valued property; the empty set for a name that is none. -/
def binary (name : String) : CharSet :=
  match row? binaryProperties name with
  | some row => CharSet.ofTable row
  | none => CharSet.empty

/-- The blanks: the characters that separate words or lines. -/
def blank : CharSet := binary "whitespace"

/-- The characters of words. -/
def wordChar : CharSet :=
  CharSet.ofRanges ((binary "alphabetic").ranges ++ (binary "joincontrol").ranges ++
    (categoryUnion ["mn", "mc", "me", "nd", "pc"]).ranges)

/-! ## 4. Properties by name -/

/-- The set of a normalized script name. -/
def script? (name : String) : Option CharSet :=
  match row? scripts name with
  | some row => some (CharSet.ofTable row)
  | none =>
    if name == "zzzz" || name == "unknown" then
      some (CharSet.ofRanges (scripts.flatMap fun (_, row) => (CharSet.ofTable row).ranges)).complement
    else none

/-- The characters that are used with a script. -/
def scriptExtension? (name : String) : Option CharSet :=
  match script? name with
  | none => none
  | some own =>
    match scripts.find? fun (names, _) =>
        (Text.fields ' ' names.toList).contains name.toList with
    | some (names, _) =>
      match scriptExtensions.lookup names with
      | some row => some (CharSet.ofTable row)
      | none => some own
    | none => some own

/-- The characters that were there in a version: those it added and those of the versions before. -/
def age? (name : String) : Option CharSet :=
  let upTo := ages.takeWhile fun (names, _) =>
    !(Text.fields ' ' names.toList).contains name.toList
  match ages.drop upTo.length with
  | [] => none
  | row :: _ =>
    some (CharSet.ofRanges ((upTo ++ [row]).flatMap fun (_, r) => (CharSet.ofTable r).ranges))

/-- The set that a lone name stands for: a two-valued property, a general category or a script. -/
def property? (name : String) : Option CharSet :=
  let name := normalize name
  match row? binaryProperties name with
  | some row => some (CharSet.ofTable row)
  | none => (category? name).or (script? name)

/-- The set of the characters for which a property has a value. -/
def propertyValue? (property value : String) : Option CharSet :=
  let value := normalize value
  match normalize property with
  | "gc" | "generalcategory" | "category" => category? value
  | "sc" | "script" => script? value
  | "scx" | "scriptextensions" => scriptExtension? value
  | "age" => age? value
  | "gcb" | "graphemeclusterbreak" => (row? graphemeBreaks value).map CharSet.ofTable
  | "wb" | "wordbreak" => (row? wordBreaks value).map CharSet.ofTable
  | "sb" | "sentencebreak" => (row? sentenceBreaks value).map CharSet.ofTable
  | _ => none

/-! ## 5. Case -/

/-- The characters of one run of the folding table, each with what it folds to. -/
def readFolding (row : List Char) : List (Nat × Nat) :=
  match Text.fields '.' row with
  | [first, count, step, sign :: distance] =>
    let first := Text.numberIn 16 first
    let step := Text.numberIn 16 step
    let distance := Text.numberIn 16 distance
    (List.range (Text.numberIn 16 count)).map fun i =>
      let c := first + i * step
      (c, if sign == '-' then c - distance else c + distance)
  | _ => []

/-- The characters that fold to another one, with what they fold to. -/
def foldings : List (Nat × Nat) :=
  foldingRuns.flatMap fun line => (Text.fields ' ' line.toList).flatMap readFolding

/-- A set with all characters that differ from one of its members in case only. -/
def CharSet.closeCase (s : CharSet) : CharSet :=
  let targets := CharSet.ofRanges (foldings.filterMap fun (c, f) =>
    if CharSet.covers c s.ranges || CharSet.covers f s.ranges then some (f, f) else none)
  let members := foldings.filterMap fun (c, f) =>
    if CharSet.covers f targets.ranges then some (c, c) else none
  CharSet.ofRanges (s.ranges ++ targets.ranges ++ members)

/-- A set with the other case of its ASCII letters. -/
def CharSet.closeAsciiCase (s : CharSet) : CharSet :=
  let shift (low high : Nat) (f : Nat → Nat) :=
    (s.inter ⟨[(low, high)]⟩).ranges.map fun (a, b) => (f a, f b)
  CharSet.ofRanges (s.ranges ++ shift 65 90 (· + 32) ++ shift 97 122 (· - 32))

end TextPatch.Unicode
