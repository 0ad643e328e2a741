/-
# Arguments

The arguments of the patcher are a command with its options and operands.  An option is written with
two hyphens and its name, or with one hyphen and its letter; letters may be written together.  The
value of an option is the next argument, or follows the name behind an equals sign, or follows the
letter at once.  Behind two hyphens all arguments are operands.

The settings file and the verbosity may be given before the command or behind it; behind it counts.
`parse` answers what is to be done.
-/
import TextPatch.Files.Path

namespace TextPatch.CommandLine

/-! ## 1. What can be asked for -/

/-- A command with its options and operands. -/
inductive Command where
  | apply (patches : List Path) (downloaded extensionsDir : Option Path)
  | unpatch (ids : List String) (extensionsDir : Option Path)
  | status (ids : List String) (extensionsDir : Option Path)
  | bundle (script sourceMap : Option Path) (patches : List Path) (dryRun diff : Bool)
  | inspect (source : String) (needles : List String) (script sourceMap : Option Path)
  deriving DecidableEq, Repr

/-- A command and what holds for all commands. -/
structure Invocation where
  config : Option Path
  verbosity : Nat
  command : Command
  deriving DecidableEq, Repr

/-- What is to be done. -/
inductive Request where
  | help
  | version
  | misuse
  | run (invocation : Invocation)
  deriving DecidableEq, Repr

/-! ## 2. Options -/

/-- What an option takes, and how often it may be given. -/
inductive Arity where
  /-- No value; at most once. -/
  | flag
  /-- No value; any number of times. -/
  | counter
  /-- A value; at most once. -/
  | value
  /-- A value; any number of times. -/
  | values
  deriving DecidableEq, Repr

/-- An option of a command. -/
structure OptionSpec where
  name : String
  letter : Option Char
  arity : Arity
  /-- Whether the value may be empty; a path may not. -/
  mayBeEmpty : Bool
  deriving DecidableEq, Repr

/-- The options that all commands have. -/
def commonOptions : List OptionSpec :=
  [⟨"config", some 'c', .value, false⟩, ⟨"verbose", some 'v', .counter, false⟩]

/-- The names of the commands. -/
def commandNames : List String := ["apply", "unpatch", "status", "bundle", "inspect"]

/-- The options of a command. -/
def optionsOf : String → List OptionSpec
  | "apply" =>
    [⟨"patches", some 'p', .values, false⟩, ⟨"downloaded", none, .value, false⟩,
      ⟨"extensions-dir", some 'e', .value, false⟩]
  | "unpatch" => [⟨"extensions-dir", some 'e', .value, false⟩]
  | "status" => [⟨"extensions-dir", some 'e', .value, false⟩]
  | "bundle" =>
    [⟨"script", some 's', .value, false⟩, ⟨"source-map", some 'm', .value, false⟩,
      ⟨"patches", some 'p', .values, false⟩, ⟨"dry-run", some 'n', .flag, false⟩,
      ⟨"diff", some 'd', .flag, false⟩]
  | "inspect" =>
    [⟨"source", none, .value, true⟩, ⟨"script", some 's', .value, false⟩,
      ⟨"source-map", some 'm', .value, false⟩]
  | _ => []

/-- Whether a command takes operands. -/
def takesOperands (command : String) : Bool :=
  ["unpatch", "status", "inspect"].contains command

/-- Options that have been read, each with its value, in order; one without a value has an empty
one. -/
abbrev Given := List (String × String)

namespace Given

/-- The value of an option. -/
def value? (g : Given) (name : String) : Option String := g.lookup name

/-- The values of an option. -/
def values (g : Given) (name : String) : List String :=
  g.filterMap fun (n, v) => if n = name then some v else none

/-- The value of an option as a path. -/
def path? (g : Given) (name : String) : Option Path := (value? g name).map Path.mk

/-- The values of an option as paths. -/
def paths (g : Given) (name : String) : List Path := (values g name).map Path.mk

/-- Whether an option has been given. -/
def has (g : Given) (name : String) : Bool := (value? g name).isSome

/-- How often an option has been given. -/
def count (g : Given) (name : String) : Nat := (values g name).length

end Given

/-! ## 3. Reading -/

/-- Why reading stops. -/
inductive Stop where
  | help
  | version
  | misuse
  deriving DecidableEq, Repr

/-- Adds an option, unless it must not be given again or its value must not be empty. -/
def OptionSpec.add (spec : OptionSpec) (g : Given) (v : String) : Except Stop Given :=
  match spec.arity with
  | .flag => if g.has spec.name then .error .misuse else .ok (g ++ [(spec.name, v)])
  | .counter => .ok (g ++ [(spec.name, v)])
  | .value =>
    if g.has spec.name || (v.isEmpty && !spec.mayBeEmpty) then .error .misuse
    else .ok (g ++ [(spec.name, v)])
  | .values =>
    if v.isEmpty && !spec.mayBeEmpty then .error .misuse else .ok (g ++ [(spec.name, v)])

/-- Whether an option takes a value. -/
def OptionSpec.takesValue (spec : OptionSpec) : Bool :=
  match spec.arity with
  | .value => true
  | .values => true
  | _ => false

/-- Whether an argument is an option, or the two hyphens. -/
def looksLikeOption (arg : String) : Bool :=
  match arg.toList with
  | '-' :: _ :: _ => true
  | _ => false

/-- Reads the value of an option from the next argument. -/
def nextValue (spec : OptionSpec) (g : Given) : List String → Except Stop (Given × List String)
  | [] => .error .misuse
  | arg :: rest =>
    if looksLikeOption arg then .error .misuse
    else do return (← spec.add g arg, rest)

/-- Reads an option that is written with its name. -/
def readName (specs : List OptionSpec) (top : Bool) (t : Text) (g : Given) (rest : List String) :
    Except Stop (Given × List String) :=
  let name := String.ofList (t.takeWhile (· != '='))
  let attached : Option String := match t.dropWhile (· != '=') with
    | _ :: v => some (String.ofList v)
    | [] => none
  match specs.find? fun s => s.name = name with
  | some spec =>
    match spec.takesValue, attached with
    | true, some v => do return (← spec.add g v, rest)
    | true, none => nextValue spec g rest
    | false, some _ => .error .misuse
    | false, none => do return (← spec.add g "", rest)
  | none =>
    if attached.isSome then .error .misuse
    else if name = "help" then .error .help
    else if name = "version" && top then .error .version
    else .error .misuse

/-- Reads options that are written with their letters. -/
def readLetters (specs : List OptionSpec) (top : Bool) (rest : List String) :
    Text → Given → Except Stop (Given × List String)
  | [], g => .ok (g, rest)
  | c :: t, g =>
    match specs.find? fun s => s.letter = some c with
    | some spec =>
      if spec.takesValue then
        match t with
        | [] => nextValue spec g rest
        | '=' :: v => do return (← spec.add g (String.ofList v), rest)
        | v => do return (← spec.add g (String.ofList v), rest)
      else do
        let g ← spec.add g ""
        readLetters specs top rest t g
    | none =>
      if c = 'h' then .error .help
      else if c = 'V' && top then .error .version
      else .error .misuse

/-- Reads the option that an argument is, with its value from the arguments behind it. -/
def readOption (specs : List OptionSpec) (top : Bool) (arg : String) (g : Given)
    (rest : List String) : Except Stop (Given × List String) :=
  match arg.toList with
  | '-' :: '-' :: t => readName specs top t g rest
  | _ :: t => readLetters specs top rest t g
  | [] => .error .misuse

/-- Reads options up to the name of a command.  Answers the options, the name, and the arguments
behind it.  Every step takes an argument, so their number is enough fuel. -/
def readTop : (fuel : Nat) → Given → List String → Except Stop (Given × String × List String)
  | 0, _, _ => .error .misuse
  | _ + 1, _, [] => .error .misuse
  | fuel + 1, g, arg :: rest =>
    if arg = "--" then .error .misuse
    else if looksLikeOption arg then do
      let (g, rest) ← readOption commonOptions true arg g rest
      readTop fuel g rest
    else .ok (g, arg, rest)

/-- Reads the options and the operands of a command. -/
def readCommand (specs : List OptionSpec) (operandsAllowed : Bool) :
    (fuel : Nat) → Given → List String → List String → Except Stop (Given × List String)
  | 0, _, _, _ => .error .misuse
  | _ + 1, g, operands, [] => .ok (g, operands)
  | fuel + 1, g, operands, arg :: rest =>
    if arg = "--" then
      if operandsAllowed || rest.isEmpty then .ok (g, operands ++ rest) else .error .misuse
    else if looksLikeOption arg then do
      let (g, rest) ← readOption specs false arg g rest
      readCommand specs operandsAllowed fuel g operands rest
    else if operandsAllowed then
      readCommand specs operandsAllowed fuel g (operands ++ [arg]) rest
    else .error .misuse

/-! ## 4. Commands -/

/-- The command that has been read, if all that it needs is there. -/
def command? (name : String) (g : Given) (operands : List String) : Option Command :=
  match name with
  | "apply" => some (.apply (g.paths "patches") (g.path? "downloaded") (g.path? "extensions-dir"))
  | "unpatch" => some (.unpatch operands (g.path? "extensions-dir"))
  | "status" => some (.status operands (g.path? "extensions-dir"))
  | "bundle" =>
    some (.bundle (g.path? "script") (g.path? "source-map") (g.paths "patches") (g.has "dry-run")
      (g.has "diff"))
  | "inspect" =>
    match g.value? "source" with
    | some source =>
      if operands.isEmpty then none
      else some (.inspect source operands (g.path? "script") (g.path? "source-map"))
    | none => none
  | _ => none

/-- What `help` asks for: help on the patcher or on one command. -/
def readHelp : List String → Stop
  | [] => .help
  | [name] => if name = "help" || commandNames.contains name then .help else .misuse
  | _ => .misuse

/-- The invocation that arguments stand for. -/
def read (args : List String) : Except Stop Invocation := do
  let (common, name, rest) ← readTop (args.length + 1) [] args
  if name = "help" then .error (readHelp rest)
  else if !commandNames.contains name then .error .misuse
  else do
    let (g, operands) ← readCommand (commonOptions ++ optionsOf name) (takesOperands name)
      (rest.length + 1) [] [] rest
    let config := if g.has "config" then g else common
    let verbosity := if g.has "verbose" then g else common
    match command? name g operands with
    | some command => .ok ⟨config.path? "config", verbosity.count "verbose", command⟩
    | none => .error .misuse

/-- What arguments ask for. -/
def parse (args : List String) : Request :=
  match read args with
  | .ok invocation => .run invocation
  | .error .help => .help
  | .error .version => .version
  | .error .misuse => .misuse

end TextPatch.CommandLine
