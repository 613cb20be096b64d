/-!
# The command line

```text
[-v] render TEMPLATE [-i JSON] [--strict]
[-v] eval EXPRESSION [-i JSON] [-p] [--syntax-only]
--version
```

An option has a long name behind two dashes, and most have a letter behind one dash. Letters can be
joined; the value of an option follows in the next argument, behind an equals sign, or directly
behind the letter. An argument that starts with a dash is an option, unless it is a dash alone or
stands behind `--`. No option can be given twice, and every command has one operand.

* `Verb`, `Switch`: the commands and their options without a value.
* `Request`: what a command line asks for.
* `Request.ofArguments`: reads a command line.
-/
namespace TextTemplate

/-- The commands. -/
inductive Verb where
  | render
  | eval
deriving DecidableEq, Repr

/-- The command of a name. -/
def Verb.ofName? (name : String) : Option Verb :=
  if name = "render" then some .render
  else if name = "eval" then some .eval
  else none

/-- The options that take no value. -/
inductive Switch where
  | verbose
  | strict
  | pretty
  | syntaxOnly
deriving DecidableEq, Repr

namespace Switch

/-- The long name of an option. -/
def longName : Switch → String
  | .verbose => "verbose"
  | .strict => "strict"
  | .pretty => "pretty"
  | .syntaxOnly => "syntax-only"

/-- The letter of an option, if it has one. -/
def letter? : Switch → Option Char
  | .verbose => some 'v'
  | .pretty => some 'p'
  | _ => none

end Switch

/-- The options that a command takes. -/
def Verb.switches : Verb → List Switch
  | .render => [.verbose, .strict]
  | .eval => [.verbose, .pretty, .syntaxOnly]

/-- The long name of the option that takes a data context. -/
def inputName : String := "input"

/-- Why a command line cannot be read. -/
inductive UsageError where
  | noCommand
  | unknownCommand (name : String)
  | unknownOption (argument : String)
  | repeatedOption (name : String)
  | noValue (name : String)
  | unneededValue (name : String)
  | noOperand
  | secondOperand (argument : String)
deriving DecidableEq, Repr

/-- The message of an error in a command line. -/
def UsageError.message : UsageError → String
  | .noCommand => "a command is needed: render or eval"
  | .unknownCommand name => "unknown command: " ++ name
  | .unknownOption argument => "unknown option: " ++ argument
  | .repeatedOption name => "option given twice: " ++ name
  | .noValue name => "option without its value: " ++ name
  | .unneededValue name => "option that takes no value: " ++ name
  | .noOperand => "the command needs an operand"
  | .secondOperand argument => "the command takes no second operand: " ++ argument

/-! ## The arguments of a command -/

/-- What has been read of the arguments of a command. -/
structure Given where
  switches : List Switch := []
  input : Option String := none
  operand : Option String := none
deriving DecidableEq, Repr

namespace Given

/-- Notes an option. -/
def addSwitch (s : Switch) (g : Given) : Except UsageError Given :=
  if s ∈ g.switches then .error (.repeatedOption s.longName)
  else .ok { g with switches := s :: g.switches }

/-- Notes the text of the data context. -/
def setInput (value : String) (g : Given) : Except UsageError Given :=
  match g.input with
  | some _ => .error (.repeatedOption inputName)
  | none => .ok { g with input := some value }

/-- Notes the operand. -/
def setOperand (value : String) (g : Given) : Except UsageError Given :=
  match g.operand with
  | some _ => .error (.secondOperand value)
  | none => .ok { g with operand := some value }

end Given

/-- What the next argument of a command will be. -/
inductive Awaiting where
  /-- An option or the operand. -/
  | any
  /-- The value of the option for the data context. -/
  | inputValue
  /-- The operand, whatever it looks like. -/
  | operand
deriving DecidableEq, Repr

/-- A joined run of option letters: all but the last are options without a value. -/
def readLetters (verb : Verb) (argument : String) (g : Given) :
    List Char → Except UsageError (Given × Awaiting)
  | [] => .ok (g, .any)
  | 'i' :: [] => .ok (g, .inputValue)
  | 'i' :: '=' :: value => (g.setInput (String.ofList value)).map (·, .any)
  | 'i' :: value => (g.setInput (String.ofList value)).map (·, .any)
  | c :: more =>
    match verb.switches.find? (·.letter? == some c) with
    | none => .error (.unknownOption argument)
    | some s =>
      match g.addSwitch s with
      | .error e => .error e
      | .ok g => readLetters verb argument g more

/-- The name of a long option, and the value behind its equals sign if there is one. -/
def splitEquals (cs : List Char) : List Char × Option (List Char) :=
  match cs.dropWhile (· != '=') with
  | _ :: value => (cs.takeWhile (· != '='), some value)
  | [] => (cs, none)

/-- A long option, without its dashes. -/
def readLong (verb : Verb) (argument : String) (g : Given) (cs : List Char) :
    Except UsageError (Given × Awaiting) :=
  let (name, value?) := splitEquals cs
  if name = inputName.toList then
    match value? with
    | none => .ok (g, .inputValue)
    | some value => (g.setInput (String.ofList value)).map (·, .any)
  else
    match verb.switches.find? (·.longName.toList == name) with
    | none => .error (.unknownOption argument)
    | some s =>
      match value? with
      | none => (g.addSwitch s).map (·, .any)
      | some _ => .error (.unneededValue s.longName)

/-- One argument of a command. -/
def readArgument (verb : Verb) (argument : String) :
    Given × Awaiting → Except UsageError (Given × Awaiting)
  | (g, .operand) => (g.setOperand argument).map (·, .operand)
  | (g, awaiting) =>
    match argument.toList, awaiting with
    | '-' :: _ :: _, .inputValue => .error (.noValue inputName)
    | ['-', '-'], _ => .ok (g, .operand)
    | '-' :: '-' :: name, _ => readLong verb argument g name
    | '-' :: letter :: letters, _ => readLetters verb argument g (letter :: letters)
    | _, .inputValue => (g.setInput argument).map (·, .any)
    | _, _ => (g.setOperand argument).map (·, .any)

/-- All arguments of a command. -/
def readArguments (verb : Verb) : Given × Awaiting → List String → Except UsageError Given
  | (_, .inputValue), [] => .error (.noValue inputName)
  | (g, _), [] => .ok g
  | state, argument :: more =>
    match readArgument verb argument state with
    | .error e => .error e
    | .ok state => readArguments verb state more

/-! ## The whole command line -/

/-- A command with its operand and options. An absent data context is read from the standard
input. -/
inductive Command where
  | render (template : String) (input : Option String) (strict : Bool)
  | eval (expression : String) (input : Option String) (pretty syntaxOnly : Bool)
deriving DecidableEq, Repr

/-- What a command line asks for. -/
inductive Request where
  /-- The version of the program. -/
  | version
  /-- A command, with all events logged or only the warnings. -/
  | run (verbose : Bool) (command : Command)
deriving DecidableEq, Repr

namespace Request

/-- The request of a command and its arguments. -/
def ofGiven (verbose : Bool) (verb : Verb) (g : Given) : Except UsageError Request :=
  match g.operand with
  | none => .error .noOperand
  | some operand =>
    let command : Command :=
      match verb with
      | .render => .render operand g.input (.strict ∈ g.switches)
      | .eval => .eval operand g.input (.pretty ∈ g.switches) (.syntaxOnly ∈ g.switches)
    .ok (.run (verbose || .verbose ∈ g.switches) command)

/-- What option letters before a command say: more options are to come, which may be verbose, or
the version is asked for. -/
def readLeadingLetters (argument : String) (verbose : Bool) :
    List Char → Except UsageError (Option Bool)
  | [] => .ok (some verbose)
  | 'V' :: _ => .ok none
  | 'v' :: more =>
    if verbose then .error (.repeatedOption Switch.verbose.longName)
    else readLeadingLetters argument true more
  | _ => .error (.unknownOption argument)

/-- Reads a command line; `verbose` tells whether that option has been read. -/
def ofArgumentsFrom (verbose : Bool) : List String → Except UsageError Request
  | [] => .error .noCommand
  | argument :: more =>
    match Verb.ofName? argument with
    | some verb =>
      match readArguments verb ({}, .any) more with
      | .error e => .error e
      | .ok g => ofGiven verbose verb g
    | none =>
      match argument.toList with
      | '-' :: '-' :: name =>
        if name = "version".toList then .ok .version
        else if name = Switch.verbose.longName.toList then
          if verbose then .error (.repeatedOption Switch.verbose.longName)
          else ofArgumentsFrom true more
        else .error (.unknownOption argument)
      | '-' :: letter :: letters =>
        match readLeadingLetters argument verbose (letter :: letters) with
        | .error e => .error e
        | .ok none => .ok .version
        | .ok (some verbose) => ofArgumentsFrom verbose more
      | _ => .error (.unknownCommand argument)

/-- Reads a command line. -/
def ofArguments (arguments : List String) : Except UsageError Request :=
  ofArgumentsFrom false arguments

end Request
end TextTemplate
