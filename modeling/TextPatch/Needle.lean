/-
# Needles

A needle is what a search looks for: a literal text, or in regex mode a pattern written between
slashes with flags behind them.  `Needle.occurrence?` tells whether a needle occurs at a place and
how long the occurrence is; `Needle.find?` is the first place where it does.  So a needle is found
at the least possible place, and the length of the occurrence depends on the place alone.
-/
import TextPatch.Patch.Encode
import TextPatch.Regex
import TextPatch.SourceMap.Lookup

namespace TextPatch

/-- Why a search is not valid, or finds nothing. -/
inductive NeedleError where
  | emptySearch
  | emptyNeedle (search : String)
  | sourceNeedleAfterRegular (search : String)
  | invalidRegex (needle : String) (cause : RegexError)
  | unknownRegexFlag (needle : String) (flag : Char)
  | notFound (needle search file : String)
  | sourceMap (cause : SourceMapError)
  deriving DecidableEq, Repr

namespace NeedleError

/-- The wording of an error. -/
def message : NeedleError → String
  | emptySearch => "patch must have at least one search string"
  | emptyNeedle search => "empty needle in search query " ++ search
  | sourceNeedleAfterRegular search =>
    "sourcemap needle must not follow a regular needle in search query " ++ search
  | invalidRegex needle cause => "invalid regex needle " ++ needle ++ ": " ++ cause.message
  | unknownRegexFlag needle flag => s!"unsupported regex flag '{flag}' in needle " ++ needle
  | notFound needle search file =>
    "failed to find patch string \"" ++ needle ++ "\" from search query " ++ search ++
      " in file " ++ file
  | sourceMap cause => "source map lookup failed: " ++ cause.message

end NeedleError

/-- A needle that is looked for in the text itself. -/
inductive Needle where
  | literal (word : Text)
  /-- A pattern, with the token that it was written as; `isGlobal` if it asks for all matches. -/
  | pattern (token : String) (regex : Regex) (isGlobal : Bool)
  deriving Repr

/-- An occurrence: the byte at which it starts and its length in bytes. -/
structure Match where
  start : Nat
  length : Nat
  deriving DecidableEq, Repr

namespace Needle

/-- A needle as it is written. -/
def written : Needle → String
  | literal word => String.ofList word
  | pattern token _ _ => token

/-- Whether a needle asks for all matches by a flag of its own. -/
def asksForAll : Needle → Bool
  | literal _ => false
  | pattern _ _ g => g

/-- The flags that a pattern may have. -/
def regexFlags : Text := ['g', 'i', 'm', 's', 'u', 'x']

/-- The pattern and the flags of a token: what stands between the slash at its start and its last
slash, and the letters behind that. -/
def patternParts? (token : Text) : Option (Text × Text) :=
  match token with
  | '/' :: body =>
    let flags := (body.reverse.takeWhile (· != '/')).reverse
    match body.reverse.dropWhile (· != '/') with
    | _ :: source => if flags.all Char.isAlpha then some (source.reverse, flags) else none
    | [] => none
  | _ => none

/-- The needle of a token that has the shape of a pattern. -/
def ofPattern (token : String) (source flags : Text) : Except NeedleError Needle :=
  match flags.find? fun c => !regexFlags.contains c with
  | some flag => .error (.unknownRegexFlag token flag)
  | none =>
    match Regex.compile ⟨flags.contains 'i', flags.contains 'm', flags.contains 's',
        flags.contains 'x'⟩ source with
    | .error cause => .error (.invalidRegex token cause)
    | .ok regex => .ok (.pattern token regex (flags.contains 'g'))

/-- The needle of a token: a pattern in regex mode if the token has the shape of one, otherwise a
literal. -/
def ofToken (mode : SearchMode) (token : String) : Except NeedleError Needle :=
  match if mode = .regex then patternParts? token.toList else none with
  | some (source, flags) => ofPattern token source flags
  | none => .ok (.literal token.toList)

/-- The length in bytes of the occurrence that starts between two parts of a text; the first part
is given backwards. -/
def occurrence? (n : Needle) (before after : Text) : Option Nat :=
  match n with
  | literal word => if word.isPrefixOf after then some word.byteLength else none
  | pattern _ regex _ => regex.matchAt? before after

/-- The first occurrence at or behind byte `start`. -/
def find? (n : Needle) (text : Text) (start : Nat) : Option Match :=
  (Text.seek? n.occurrence? start [] 0 text).map fun (offset, length) => ⟨offset, length⟩

end Needle

end TextPatch
