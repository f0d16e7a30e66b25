import SdkLint.Finding.Listing

/-!
# Arguments

The program has three commands: `check` looks for violations, `list-rules` lists the rules, `init`
writes a first configuration.  An option is given by its name (`--name value`, `--name=value`) or
its letter (`-n value`, `-nvalue`, `-n=value`); options without a value may share one dash.  After
`--` all arguments are words.

Main definitions:

- `Reading.items`: the options and words that arguments consist of.
- `Invocation.ofArguments`: what the arguments of the program ask for.
-/

namespace SdkLint.CommandLine

/-! ## Options -/

/-- An option that a command knows. -/
structure OptionSpec where
  name : String
  letter : Option Char := none
  /-- Which values it may have; none if it has no value. -/
  accepts : Option (String → Bool) := none
  /-- Whether it may be given more than once. -/
  repeats : Bool := false

/-- Why no command is carried out. -/
inductive Interruption where
  /-- The arguments are none that the program knows. -/
  | misuse (complaint : String)
  /-- The version of the program is asked for. -/
  | version
  /-- Help is asked for. -/
  | help
deriving DecidableEq, Repr

/-- What a command line consists of. -/
inductive Item where
  | option (name : String) (value : String)
  | word (text : String)
deriving DecidableEq, Repr

namespace Item

/-- Whether an item is an option of a name. -/
def isOption (name : String) : Item → Bool
  | option other _ => other == name
  | word _ => false

/-- The value of an option of a name. -/
def value? (name : String) : Item → Option String
  | option other value => if other == name then some value else none
  | word _ => none

def word? : Item → Option String
  | option .. => none
  | word text => some text

end Item

/-! ## Reading -/

/-- What is read so far: the items, latest first. -/
structure Reading where
  specs : List OptionSpec
  items : List Item := []

/-- What one argument turns out to be. -/
inductive Reading.Step where
  /-- It is complete. -/
  | done (reading : Reading)
  /-- The next argument is the value of an option. -/
  | waiting (reading : Reading) (spec : OptionSpec)
  /-- It is a word. -/
  | word

namespace Reading

/-- Adds an option. -/
def add (r : Reading) (spec : OptionSpec) (value : String) : Except Interruption Reading :=
  if spec.name == "version" then .error .version
  else if spec.name == "help" then .error .help
  else if !spec.repeats && r.items.any (Item.isOption spec.name) then
    .error (.misuse ("the argument '--" ++ spec.name ++ "' cannot be used multiple times"))
  else if (spec.accepts.map fun accepts => accepts value).getD true then
    .ok { r with items := .option spec.name value :: r.items }
  else .error (.misuse ("invalid value '" ++ value ++ "' for '--" ++ spec.name ++ "'"))

/-- The complaint about an argument that is not expected. -/
def unexpected (text : String) : Interruption :=
  .misuse ("unexpected argument '" ++ text ++ "' found")

/-- The complaint about an option without its value. -/
def missing (spec : OptionSpec) : Interruption :=
  .misuse ("a value is required for '--" ++ spec.name ++ "' but none was supplied")

/-- Reads an option given by its name, with the value that is attached to it. -/
def longOption (r : Reading) (name : String) (value : Option String) : Except Interruption Step :=
  match r.specs.find? fun spec => spec.name == name with
  | none => .error (unexpected ("--" ++ name))
  | some spec =>
    match spec.accepts, value with
    | none, none => (r.add spec "").map .done
    | none, some _ => .error (unexpected ("--" ++ name))
    | some _, some value => (r.add spec value).map .done
    | some _, none => .ok (.waiting r spec)

/-- Reads options given by their letters.  The first one that takes a value has all that follows. -/
def letters (r : Reading) : List Char → Except Interruption Step
  | [] => .ok (.done r)
  | c :: cs =>
    match r.specs.find? fun spec => spec.letter == some c with
    | none => .error (unexpected (String.ofList ['-', c]))
    | some spec =>
      match spec.accepts, cs with
      | none, cs =>
        match r.add spec "" with
        | .ok r => letters r cs
        | .error e => .error e
      | some _, [] => .ok (.waiting r spec)
      | some _, '=' :: value => (r.add spec (String.ofList value)).map .done
      | some _, value => (r.add spec (String.ofList value)).map .done

/-- Whether an argument is read as an option: it begins with a dash and is more than that. -/
def looksLikeOption (argument : String) : Bool :=
  Text.startsWith "-" argument && argument != "-"

/-- Reads one argument. -/
def step (r : Reading) (argument : String) : Except Interruption Step :=
  match argument.toList with
  | '-' :: '-' :: name =>
    match Text.cutAt ['='] name with
    | some (name, value) => r.longOption (String.ofList name) (some (String.ofList value))
    | none => r.longOption (String.ofList name) none
  | '-' :: c :: cs => r.letters (c :: cs)
  | _ => .ok .word

/-- Reads arguments up to the first word, or to the end: what is read, and the word with what
follows it. -/
def options (r : Reading) : List String → Except Interruption (Reading × List String)
  | [] => .ok (r, [])
  | "--" :: [] => .ok (r, [])
  | "--" :: word :: _ => .error (unexpected word)
  | argument :: rest =>
    match r.step argument with
    | .error e => .error e
    | .ok .word => .ok (r, argument :: rest)
    | .ok (.done r) => options r rest
    | .ok (.waiting r spec) =>
      match rest with
      | [] => .error (missing spec)
      | value :: rest =>
        if looksLikeOption value then .error (missing spec)
        else match r.add spec value with
          | .ok r => options r rest
          | .error e => .error e

/-- Adds a word, if there are still words to come. -/
def addWord (r : Reading) (words : Nat) (text : String) : Except Interruption Reading :=
  if (r.items.filterMap Item.word?).length < words then
    .ok { r with items := .word text :: r.items }
  else .error (unexpected text)

/-- Reads arguments to the end, with at most `words` words among them. -/
def all (words : Nat) (r : Reading) : List String → Except Interruption Reading
  | [] => .ok r
  | "--" :: rest => rest.foldlM (fun r text => r.addWord words text) r
  | argument :: rest =>
    match r.step argument with
    | .error e => .error e
    | .ok .word =>
      match r.addWord words argument with
      | .ok r => all words r rest
      | .error e => .error e
    | .ok (.done r) => all words r rest
    | .ok (.waiting r spec) =>
      match rest with
      | [] => .error (missing spec)
      | value :: rest =>
        if looksLikeOption value then .error (missing spec)
        else match r.add spec value with
          | .ok r => all words r rest
          | .error e => .error e

/-- The latest value of an option. -/
def value? (r : Reading) (name : String) : Option String :=
  r.items.findSome? (Item.value? name)

/-- All values of an option, in order. -/
def values (r : Reading) (name : String) : List String :=
  r.items.reverse.filterMap (Item.value? name)

/-- Whether an option is given. -/
def has (r : Reading) (name : String) : Bool :=
  r.items.any (Item.isOption name)

end Reading

/-! ## Commands -/

/-- What `check` is asked to do. -/
structure CheckRequest where
  path : String := "."
  format : Format := .text
  /-- Names and codes of rules, which replace the configured ones. -/
  rules : Option String := none
  /-- A preset, which replaces the configured one. -/
  preset : Option String := none
  /-- Patterns of files that are left out in addition to the configured ones. -/
  exclude : List String := []
deriving DecidableEq, Repr, Inhabited

/-- A command with its options. -/
inductive Command where
  | check (request : CheckRequest)
  | listRules
  /-- Write a first configuration, and over another one if `force` says so. -/
  | init (force : Bool)
deriving DecidableEq, Repr

/-- What the program is asked to do. -/
structure Invocation where
  verbose : Bool := false
  /-- The path of a configuration. -/
  config : Option String := none
  command : Command
deriving DecidableEq, Repr

/-- Every text is a value. -/
def anyText (_ : String) : Bool :=
  true

/-- The options that all commands know. -/
def sharedOptions : List OptionSpec :=
  [{ name := "verbose", letter := some 'v' },
   { name := "config", letter := some 'c', accepts := some fun path => !path.isEmpty },
   { name := "help", letter := some 'h' }]

/-- The options of the program itself, which come before the command. -/
def programOptions : List OptionSpec :=
  { name := "version", letter := some 'V' } :: sharedOptions

/-- The options of `check`. -/
def checkOptions : List OptionSpec :=
  [{ name := "format", letter := some 'f', accepts := some fun v => (Format.ofName? v).isSome },
   { name := "rules", accepts := some anyText },
   { name := "preset", accepts := some anyText },
   { name := "exclude", letter := some 'e', accepts := some anyText, repeats := true }] ++
    sharedOptions

/-- The options of `init`. -/
def initOptions : List OptionSpec :=
  { name := "force" } :: sharedOptions

/-- Reads the arguments of `check`. -/
def readCheck (arguments : List String) : Except Interruption (Reading × Command) :=
  match Reading.all 1 { specs := checkOptions } arguments with
  | .error e => .error e
  | .ok r =>
    let path := (r.items.findSome? Item.word?).getD "."
    if path.isEmpty then .error (.misuse "a value is required for '[PATH]' but none was supplied")
    else
      let format := ((r.value? "format").bind Format.ofName?).getD .text
      .ok (r, .check
        { path, format, rules := r.value? "rules", preset := r.value? "preset"
          exclude := r.values "exclude" })

/-- The names of the commands. -/
def commandNames : List String :=
  ["check", "list-rules", "init", "help"]

/-- The complaint about a command that there is not. -/
def unrecognized (name : String) : Interruption :=
  .misuse ("unrecognized subcommand '" ++ name ++ "'")

/-- What a request for help comes to.  It may name one command. -/
def readHelp : List String → Interruption
  | [] => .help
  | name :: rest =>
    if commandNames.contains name then
      match rest with
      | [] => .help
      | other :: _ => unrecognized other
    else unrecognized name

/-- Reads the arguments of a command. -/
def readCommand (name : String) (arguments : List String) :
    Except Interruption (Reading × Command) :=
  match name with
  | "check" => readCheck arguments
  | "list-rules" =>
    (Reading.all 0 { specs := sharedOptions } arguments).map fun r => (r, .listRules)
  | "init" =>
    (Reading.all 0 { specs := initOptions } arguments).map fun r => (r, .init (r.has "force"))
  | "help" => .error (readHelp arguments)
  | _ => .error (unrecognized name)

/-- What the arguments of the program ask for.  A shared option counts before and after the command;
given in both places, the value after it counts. -/
def Invocation.ofArguments (arguments : List String) : Except Interruption Invocation :=
  match Reading.options { specs := programOptions } arguments with
  | .error e => .error e
  | .ok (_, []) => .error (.misuse "a subcommand is required but one was not provided")
  | .ok (before, name :: rest) =>
    match readCommand name rest with
    | .error e => .error e
    | .ok (after, command) => .ok
      { verbose := before.has "verbose" || after.has "verbose"
        config := (after.value? "config").or (before.value? "config")
        command }

end SdkLint.CommandLine
