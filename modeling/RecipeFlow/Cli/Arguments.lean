import RecipeFlow.Duration.Text
import RecipeFlow.Run.Recipe

/-! The arguments of the command line. -/
namespace RecipeFlow.Cli

/-- What is to be done. -/
inductive Command where
  | submit (dir : String) (options : SubmitOptions)
  | status (name : String)
  | validate (dir : String)
  | validateAll (root : String)
  | render (dir : String)
  deriving DecidableEq, Repr

structure Invocation where
  /-- How often more output was asked for. -/
  verbose : Nat
  /-- The file with the engine's settings. -/
  engineConfig : Option String
  command : Command
  deriving DecidableEq, Repr

/-- Options; some go with one command only. -/
inductive Flag where
  | verbose | engineConfig | help | version | wait | overwrite | pollInterval | timeout
  deriving DecidableEq, Repr

/-- Why arguments do not make a command. -/
inductive UsageFault where
  | unknownFlag (text : String)
  | unknownCommand (name : String)
  | missingCommand
  | missingArgument
  | extraArgument (text : String)
  | missingValue (flag : Flag)
  | needlessValue (flag : Flag)
  | repeated (flag : Flag)
  | badValue (text : String)
  deriving DecidableEq, Repr

/-- Why no command is run: the arguments are wrong or ask for something else. -/
inductive Stop where
  | usage (f : UsageFault)
  | help
  | version
  deriving DecidableEq, Repr

/-- The words that name commands. -/
inductive Verb where
  | submit | status | validate | validateAll | render
  deriving DecidableEq, Repr

def Verb.ofString? (s : String) : Option Verb :=
  match s with
  | "submit" => some .submit
  | "status" => some .status
  | "validate" => some .validate
  | "validate-all" => some .validateAll
  | "render" => some .render
  | _ => none

namespace Flag

def longName : Flag → String
  | verbose => "verbose"
  | engineConfig => "engine-config"
  | help => "help"
  | version => "version"
  | wait => "wait"
  | overwrite => "overwrite"
  | pollInterval => "poll-interval"
  | timeout => "timeout"

def takesValue : Flag → Bool
  | engineConfig | pollInterval | timeout => true
  | _ => false

/-- The options that may stand behind a command, or before one. -/
def known : Option Verb → List Flag
  | none => [verbose, engineConfig, help, version]
  | some .submit => [verbose, engineConfig, help, wait, overwrite, pollInterval, timeout]
  | some _ => [verbose, engineConfig, help]

def ofLong? (verb : Option Verb) (name : String) : Option Flag :=
  (known verb).find? (·.longName == name)

def ofShort? (verb : Option Verb) (c : Char) : Option Flag :=
  (known verb).find? fun f => match f with
    | verbose => c == 'v'
    | help => c == 'h'
    | version => c == 'V'
    | _ => false

end Flag

def UsageFault.text : UsageFault → String
  | unknownFlag t => "unexpected argument '" ++ t ++ "'"
  | unknownCommand n => "unrecognized subcommand '" ++ n ++ "'"
  | missingCommand => "a subcommand is required"
  | missingArgument => "the subcommand takes an argument, which is missing"
  | extraArgument t => "unexpected argument '" ++ t ++ "'"
  | missingValue f => "a value is required for '--" ++ f.longName ++ "'"
  | needlessValue f => "no value is allowed for '--" ++ f.longName ++ "'"
  | repeated f => "the argument '--" ++ f.longName ++ "' cannot be used multiple times"
  | badValue t => "invalid value '" ++ t ++ "'"

/-- One argument by its form. -/
inductive Word where
  /-- Two hyphens: no option follows. -/
  | divider
  | long (name : String) (value : Option String)
  | short (letters : List Char)
  | free (text : String)
  deriving DecidableEq, Repr

def Word.ofString (s : String) : Word :=
  match s.toList with
  | ['-', '-'] => .divider
  | '-' :: '-' :: r =>
    .long (String.ofList (r.takeWhile (· != '=')))
      (match r.dropWhile (· != '=') with
        | [] => none
        | _ :: v => some (String.ofList v))
  | '-' :: c :: r => .short (c :: r)
  | _ => .free s

/-- The options and other arguments so far. -/
structure Given where
  verbose : Nat := 0
  engineConfig : Option String := none
  wait : Bool := false
  overwrite : Bool := false
  pollInterval : Option Duration := none
  timeout : Option Duration := none
  free : List String := []

namespace Given

def wrong {α : Type} (f : UsageFault) : Except Stop α := .error (.usage f)

/-- Notes an option without value. -/
def flag (f : Flag) (g : Given) : Except Stop Given :=
  match f with
  | .verbose => .ok { g with verbose := g.verbose + 1 }
  | .help => .error .help
  | .version => .error .version
  | .wait => if g.wait then wrong (.repeated f) else .ok { g with wait := true }
  | .overwrite => if g.overwrite then wrong (.repeated f) else .ok { g with overwrite := true }
  | f => wrong (.missingValue f)

/-- Reads a length of time. -/
def duration (s : String) : Except Stop Duration :=
  match Duration.parse? s with
  | some d => .ok d
  | none => wrong (.badValue s)

/-- Notes an option with its value. -/
def option (f : Flag) (value : String) (g : Given) : Except Stop Given := do
  match f with
  | .engineConfig =>
    if g.engineConfig.isSome then wrong (.repeated f)
    else if value.isEmpty then wrong (.missingValue f)
    else .ok { g with engineConfig := some value }
  | .pollInterval =>
    if g.pollInterval.isSome then wrong (.repeated f)
    else .ok { g with pollInterval := some (← duration value) }
  | .timeout =>
    if g.timeout.isSome then wrong (.repeated f)
    else .ok { g with timeout := some (← duration value) }
  | f => wrong (.needlessValue f)

/-- Notes letters that stand behind one hyphen. -/
def letters (verb : Option Verb) (g : Given) : List Char → Except Stop Given
  | [] => .ok g
  | c :: r => do
    match Flag.ofShort? verb c with
    | some f => letters verb (← g.flag f) r
    | none => wrong (.unknownFlag (String.ofList ['-', c]))

/-- Notes an argument that is no option. Commands take one, and where it is a path it is not
empty. -/
def argument (verb : Option Verb) (s : String) (g : Given) : Except Stop Given :=
  if !g.free.isEmpty then wrong (.extraArgument s)
  else if s.isEmpty && verb != some .status then wrong .missingArgument
  else .ok { g with free := [s] }

end Given

/-- What a word does: it is noted, or it is an option that waits for its value. -/
def note (verb : Option Verb) (w : Word) (g : Given) : Except Stop (Option Flag × Given) :=
  match w with
  | .long name value =>
    match Flag.ofLong? verb name with
    | none => Given.wrong (.unknownFlag ("--" ++ name))
    | some f =>
      match value with
      | some v => (g.option f v).map (none, ·)
      | none => if f.takesValue then .ok (some f, g) else (g.flag f).map (none, ·)
  | .short cs => (g.letters verb cs).map (none, ·)
  | .free s => (g.argument verb s).map (none, ·)
  | .divider => .ok (none, g)

/-- Reads what follows a command; an option may be waiting for its value. -/
def readCommand (verb : Verb) : Option Flag → Given → List String → Except Stop Given
  | none, g, [] => .ok g
  | some f, _, [] => Given.wrong (.missingValue f)
  | waiting, g, a :: r =>
    match waiting, Word.ofString a with
    | some f, .free s => do readCommand verb none (← g.option f s) r
    | some f, _ => Given.wrong (.missingValue f)
    | none, .divider => r.foldlM (fun g s => g.argument (some verb) s) g
    | none, w => do
      let (waiting, g) ← note (some verb) w g
      readCommand verb waiting g r

/-- What follows the word `help`: nothing, or the name of what help is asked for. -/
def readHelp : List String → Stop
  | [] => .help
  | [s] =>
    if s = "help" || (Verb.ofString? s).isSome then .help else .usage (.unknownCommand s)
  | s :: t :: _ =>
    .usage (.unknownCommand (if s = "help" || (Verb.ofString? s).isSome then t else s))

/-- Reads what precedes a command, up to the command. -/
def readTop : Option Flag → Given → List String → Except Stop (Given × Verb × List String)
  | none, _, [] => Given.wrong .missingCommand
  | some f, _, [] => Given.wrong (.missingValue f)
  | waiting, g, a :: r =>
    match waiting, Word.ofString a with
    | some f, .free s => do readTop none (← g.option f s) r
    | some f, _ => Given.wrong (.missingValue f)
    | none, .divider => Given.wrong .missingCommand
    | none, .free s =>
      match Verb.ofString? s with
      | some v => .ok (g, v, r)
      | none => if s = "help" then .error (readHelp r) else Given.wrong (.unknownCommand s)
    | none, w => do
      let (waiting, g) ← note none w g
      readTop waiting g r

/-- The command of a verb and what follows it. -/
def command (verb : Verb) (g : Given) : Except Stop Command := do
  let s ← match g.free with
    | s :: _ => .ok s
    | [] => Given.wrong .missingArgument
  return match verb with
  | .status => .status s
  | .validate => .validate s
  | .validateAll => .validateAll s
  | .render => .render s
  | .submit =>
    .submit s {
      wait := g.wait
      overwrite := g.overwrite
      poll := { interval := g.pollInterval.getD (.ofSeconds 5), deadline := g.timeout } }

/-- Reads the arguments. Options that every command knows may stand before or behind it; those
behind it count. -/
def parse (args : List String) : Except Stop Invocation := do
  let (top, verb, rest) ← readTop none {} args
  let g ← readCommand verb none {} rest
  return {
    verbose := if g.verbose = 0 then top.verbose else g.verbose
    engineConfig := g.engineConfig.or top.engineConfig
    command := ← command verb g }

end RecipeFlow.Cli
