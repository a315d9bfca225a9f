import Signet.Event
import Signet.Text.Control

/-!
# The command line

The program is told where to listen, which configuration to use and how much to log. Each of these
is an option with a value, written as one argument with an equals sign or as two; some can come from
the environment, and all but the configuration have a default. There are no other arguments.

Arguments are read from left to right. A value that stands in an argument of its own is looked at
when the next option comes, or at the end; an argument that cannot be one is a fault at once.
-/

namespace Signet.CommandLine

/-! ## Options -/

def defaultHost : String :=
  "127.0.0.1"

def defaultPort : Nat :=
  3000

def defaultLevel : Level :=
  .info

inductive Setting
  | host
  | port
  | config
  | logLevel
  deriving DecidableEq, Repr

namespace Setting

/-- All options with values, in the order in which they are explained. -/
def all : List Setting :=
  [host, port, config, logLevel]

def name : Setting → String
  | host => "host"
  | port => "port"
  | config => "config"
  | logLevel => "log-level"

def label : Setting → String
  | host => "--host <HOST>"
  | port => "--port <PORT>"
  | config => "--config <CONFIG>"
  | logLevel => "--log-level <LOG_LEVEL>"

/-- The variable of the environment that an option can come from. -/
def environmentName? : Setting → Option String
  | host | port => none
  | config => "SIGNER_CONFIG"
  | logLevel => "SIGNER_LOG_LEVEL"

/-- What an option is for, where its name does not say it. -/
def purpose? : Setting → Option String
  | config => "JSON file listing keys and per-endpoint key usages"
  | host | port | logLevel => none

def default? : Setting → Option String
  | host => defaultHost
  | port => toString defaultPort
  | config => none
  | logLevel => defaultLevel.name.toLower

def ofName? (name : String) : Option Setting :=
  all.find? (·.name == name)

end Setting

/-! ## Faults -/

inductive UsageFault
  | unexpected (argument : String)
  | unexpectedValue (value : String)
  | missingValue (setting : Setting)
  | repeated (setting : Setting)
  | invalidValue (setting : Setting) (value reason : String)
  | missingConfig
  deriving DecidableEq, Repr

/-- How a fault is put into words. What was given is shown without control sequences. -/
def UsageFault.message : UsageFault → String
  | unexpected argument =>
    let argument := Text.withoutControls argument
    s!"error: unexpected argument '{argument}' found"
  | unexpectedValue value =>
    let value := Text.withoutControls value
    s!"error: unexpected value '{value}' for '--help' found; no more were expected"
  | missingValue setting =>
    s!"error: a value is required for '{setting.label}' but none was supplied"
  | repeated setting => s!"error: the argument '{setting.label}' cannot be used multiple times"
  | invalidValue setting value reason =>
    let value := Text.withoutControls value
    s!"error: invalid value '{value}' for '{setting.label}': {reason}"
  | missingConfig => "error: the following required arguments were not provided:"

/-- Why the program does not run: it was asked for help, or its command line is at fault. -/
inductive Stop
  | help
  | misuse (fault : UsageFault)
  deriving DecidableEq, Repr

/-! ## Help -/

def usage : String :=
  "Usage: signer [OPTIONS] --config <CONFIG>"

def explanationColumn : Nat :=
  31

/-- The line of an option that is explained beside its label. Where the explanation breaks its line,
it keeps to its column. The label ends what control sequence the line before has left open. -/
def explain (margin label explanation : String) : String :=
  let column := String.ofList (List.replicate explanationColumn ' ')
  let blanks := column.drop (margin.length + label.length)
  margin ++ Text.unmarked ++ label ++ blanks ++ explanation.replace "\n" ("\n" ++ column)

/-- What is told of an option: what it is for, the variable it can come from with the value that
this has now, and its default. -/
def Setting.explanation (environment : String → Option String) (setting : Setting) : String :=
  let source? := setting.environmentName?.map fun name =>
    let value := (environment name).getD ""
    s!"[env: {name}={value}]"
  let default? := setting.default?.map fun value => s!"[default: {value}]"
  " ".intercalate ([setting.purpose?, source?, default?].filterMap id)

/-- The lines of the help in an environment, without control sequences. One that a value has left
open hides what follows, line breaks among it. -/
def help (environment : String → Option String) : List String :=
  let settings := Setting.all.map fun setting =>
    explain "      " setting.label (setting.explanation environment)
  let lines := [usage, "", "Options:"] ++ settings ++ [explain "  " "-h, --help" "Print help"]
  (Text.withoutControls ("\n".intercalate lines)).splitOn "\n"

/-! ## Values -/

/-- Reads the digits of a number that has a bound. What is wrong is told of the first character that
cannot be taken: it is no digit, or the number gets too large with it. -/
def readDigits (bound : Nat) (tooLarge : String) : (value : Nat) → List Char → Except String Nat
  | value, [] => .ok value
  | value, c :: rest =>
    if !c.isDigit then .error "invalid digit found in string"
    else
      let next := value * 10 + (c.toNat - '0'.toNat)
      if bound < next then .error tooLarge else readDigits bound tooLarge next rest

/-- Reads a whole number of 64 bits with its sign. -/
def readInteger (text : String) : Except String Int :=
  let positive := fun digits =>
    (readDigits 9223372036854775807 "number too large to fit in target type" 0 digits).map
      Int.ofNat
  let negative := fun digits =>
    (readDigits 9223372036854775808 "number too small to fit in target type" 0 digits).map
      fun magnitude => -Int.ofNat magnitude
  match text.toList with
  | [] => .error "cannot parse integer from empty string"
  | ['+'] | ['-'] => .error "invalid digit found in string"
  | '+' :: digits => positive digits
  | '-' :: digits => negative digits
  | digits => positive digits

def readPort (text : String) : Except String Nat :=
  match readInteger text with
  | .error problem => .error problem
  | .ok number =>
    if 0 ≤ number ∧ number ≤ 65535 then .ok number.toNat
    else .error s!"{number} is not in 0..=65535"

/-- All levels, by their numbers from one on. -/
def levels : List Level :=
  [.error, .warn, .info, .debug, .trace]

/-- The number that a text is, if it is one without a sign but perhaps a plus. -/
def readNumber? (text : String) : Option Nat :=
  match text.toList with
  | ['+'] => none
  | '+' :: digits => (readDigits 18446744073709551615 "" 0 digits).toOption
  | digits => if digits.isEmpty then none else
    (readDigits 18446744073709551615 "" 0 digits).toOption

/-- Reads a level, by its number or by its name in whatever case. -/
def readLevel (text : String) : Except String Level :=
  let byNumber? := match readNumber? text with
    | some (number + 1) => levels[number]?
    | _ => none
  match byNumber?.or (levels.find? fun level => level.name == text.toUpper) with
  | some level => .ok level
  | none =>
    .error ("error parsing level: expected one of \"error\", \"warn\", \"info\", \"debug\", " ++
      "\"trace\", or a number 1-5")

/-! ## What is given -/

structure Given where
  host? : Option String := none
  port? : Option Nat := none
  config? : Option String := none
  logLevel? : Option Level := none

namespace Given

def has (given : Given) : Setting → Bool
  | .host => given.host?.isSome
  | .port => given.port?.isSome
  | .config => given.config?.isSome
  | .logLevel => given.logLevel?.isSome

/-- Gives an option a value. The name of a file cannot be empty. -/
def set (given : Given) (setting : Setting) (value : String) : Except Stop Given :=
  let refuse := fun reason => Stop.misuse (.invalidValue setting value reason)
  match setting with
  | .host => .ok { given with host? := some value }
  | .port =>
    ((readPort value).mapError refuse).map fun port => { given with port? := some port }
  | .config =>
    if value.isEmpty then .error (.misuse (.missingValue .config))
    else .ok { given with config? := some value }
  | .logLevel =>
    ((readLevel value).mapError refuse).map fun level => { given with logLevel? := some level }

/-- Gives an option a value on the command line, where it can have only one. -/
def take (given : Given) (setting : Setting) (value? : Option String) : Except Stop Given :=
  match value? with
  | none => .error (.misuse (.missingValue setting))
  | some value =>
    if given.has setting then .error (.misuse (.repeated setting)) else given.set setting value

/-- Gives an option the value of its variable, if it has none. -/
def takeVariable (environment : String → Option String) (given : Given) (setting : Setting) :
    Except Stop Given :=
  if given.has setting then .ok given
  else
    match setting.environmentName?.bind environment with
    | some value => given.set setting value
    | none => .ok given

end Given

/-! ## Arguments -/

/-- An option whose value is still looked for or has not been looked at. -/
abbrev Pending := Option (Setting × Option String)

/-- Takes what is pending. -/
def Given.settle (given : Given) : Pending → Except Stop Given
  | none => .ok given
  | some (setting, value?) => given.take setting value?

inductive Argument
  /-- Two dashes alone: no option follows. -/
  | separator
  /-- Two dashes and a name, and perhaps a value behind an equals sign. -/
  | long (name : String) (value? : Option String)
  /-- One dash and a letter, and perhaps more. -/
  | short (letter : Char)
  | other (text : String)
  deriving DecidableEq, Repr

def Argument.ofText (text : String) : Argument :=
  match text.toList with
  | ['-', '-'] => separator
  | '-' :: '-' :: rest =>
    let name := String.ofList (rest.takeWhile (· != '='))
    match rest.dropWhile (· != '=') with
    | [] => long name none
    | _ :: value => long name (some (String.ofList value))
  | '-' :: letter :: _ => short letter
  | _ => other text

/-- Reads arguments behind others that gave some values and left something pending. -/
def readArguments (given : Given) (pending : Pending) : List String → Except Stop Given
  | [] => given.settle pending
  | text :: rest =>
    match Argument.ofText text with
    | .separator =>
      match rest with
      | [] => given.settle pending
      | argument :: _ => .error (.misuse (.unexpected argument))
    | .long name value? =>
      match Setting.ofName? name, value? with
      | some setting, none =>
        match given.settle pending with
        | .ok given => readArguments given (some (setting, none)) rest
        | .error stop => .error stop
      | some setting, some value =>
        match (given.settle pending).bind fun given => given.take setting (some value) with
        | .ok given => readArguments given none rest
        | .error stop => .error stop
      | none, _ =>
        match name, value? with
        | "help", none => (given.settle pending).bind fun _ => .error .help
        | "help", some value => .error (.misuse (.unexpectedValue value))
        | name, _ => .error (.misuse (.unexpected ("--" ++ name)))
    | .short 'h' => (given.settle pending).bind fun _ => .error .help
    | .short letter => .error (.misuse (.unexpected (String.ofList ['-', letter])))
    | .other text =>
      match pending with
      | some (setting, none) => readArguments given (some (setting, some text)) rest
      | _ => .error (.misuse (.unexpected text))

/-! ## Settings -/

structure Settings where
  host : String
  port : Nat
  config : String
  logLevel : Level
  deriving DecidableEq, Repr

def Given.complete (given : Given) : Except Stop Settings :=
  match given.config? with
  | none => .error (.misuse .missingConfig)
  | some config =>
    .ok
      { host := given.host?.getD defaultHost
        port := given.port?.getD defaultPort
        config
        logLevel := given.logLevel?.getD defaultLevel }

def read (arguments : List String) (environment : String → Option String) :
    Except Stop Settings := do
  let given ← readArguments {} none arguments
  let given ← Setting.all.foldlM (Given.takeVariable environment) given
  given.complete

end Signet.CommandLine
