import TaskRuntime.Numeral

/-!
# Options of the demo program

The demo sends requests to the delay server from one or more executors. Its command line is a
sequence of options with one value each.

## Grammar

An argument in option position is `--config` or `--log-level` with any value, or `--executors`,
`--requests` or `--delay-ms` with a positive number; a later occurrence of an option replaces an
earlier one. `--help` and `-h` end the reading, and so does anything else. An option without a value
is unknown.
-/

namespace TaskRuntime

namespace Demo

/-- The largest number that an option takes. -/
def maxNumber : Int := 0x7FFFFFFF

/-- **Reads a positive number** that fills the text. -/
def readPositive (text : Bytes) : Option Int :=
  match Numeral.read? text with
  | some (n, []) => if 1 ≤ n ∧ n ≤ maxNumber then some n else none
  | _ => none

/-- What the command line sets. -/
structure Options where
  /-- The configuration file. -/
  configPath : Bytes := Bytes.utf8 "config.json"
  /-- The log level, if it is to override the configuration. -/
  logLevel : Option Bytes := none
  /-- How many executors run, the main thread's included. -/
  executors : Int := 1
  /-- How many requests each executor sends. -/
  requests : Int := 5
  /-- The unit of the delays in milliseconds. -/
  delay : Int := 1000
  deriving DecidableEq, Repr

/-- An option that takes a number. -/
inductive NumberOption
  /-- `--executors` -/
  | executors
  /-- `--requests` -/
  | requests
  /-- `--delay-ms` -/
  | delay
  deriving DecidableEq, Repr

/-- Sets a number. -/
def Options.setNumber (o : Options) (n : Int) : NumberOption → Options
  | .executors => { o with executors := n }
  | .requests => { o with requests := n }
  | .delay => { o with delay := n }

/-- An argument in option position. -/
inductive Flag
  /-- `--help` or `-h` -/
  | help
  /-- `--config` -/
  | config
  /-- `--log-level` -/
  | logLevel
  /-- An option that takes a number. -/
  | number (which : NumberOption)
  /-- Anything else. -/
  | unknown
  deriving DecidableEq, Repr

/-- The option that an argument spells. -/
def Flag.ofArgument (argument : Bytes) : Flag :=
  if argument = Bytes.utf8 "--help" ∨ argument = Bytes.utf8 "-h" then .help
  else if argument = Bytes.utf8 "--config" then .config
  else if argument = Bytes.utf8 "--log-level" then .logLevel
  else if argument = Bytes.utf8 "--executors" then .number .executors
  else if argument = Bytes.utf8 "--requests" then .number .requests
  else if argument = Bytes.utf8 "--delay-ms" then .number .delay
  else .unknown

/-- What a command line amounts to. -/
inductive CommandLine
  /-- Run with these options. -/
  | run (options : Options)
  /-- Show the usage. -/
  | help
  /-- An argument that is no option, or an option that lacks its value. -/
  | unknownOption (argument : Bytes)
  /-- A value that is no positive number. -/
  | invalidValue (option value : Bytes)
  deriving DecidableEq, Repr

/-- Reads arguments into options; the first one that offends decides. -/
def CommandLine.read (options : Options) : List Bytes → CommandLine
  | [] => .run options
  | argument :: rest =>
    match Flag.ofArgument argument, rest with
    | .help, _ => .help
    | .config, value :: rest => read { options with configPath := value } rest
    | .logLevel, value :: rest => read { options with logLevel := some value } rest
    | .number which, value :: rest =>
      match readPositive value with
      | some n => read (options.setNumber n which) rest
      | none => .invalidValue argument value
    | _, _ => .unknownOption argument

/-- Reads the arguments after the program name. -/
def CommandLine.ofArguments (arguments : List Bytes) : CommandLine := read {} arguments

/-- The usage text, with an empty line at its end. -/
def usage (program : Bytes) : Bytes :=
  Bytes.utf8 "Usage: " ++ program ++ Bytes.utf8
    (" [OPTIONS]\n\n" ++
    "Sends HTTP GET requests to the delay server and prints the responses.\n\n" ++
    "Options:\n" ++
    "  --config FILE     Path to configuration file (default: config.json)\n" ++
    "  --log-level LVL   debug|info|warning|error|none (overrides config)\n" ++
    "  --executors N     Executor threads, including the main thread (default: 1)\n" ++
    "  --requests K      Requests spawned per executor (default: 5)\n" ++
    "  --delay-ms MS     Delay unit; request i asks for (K - i) * MS (default: 1000)\n" ++
    "  --help            Show this help message\n\n")

end Demo

end TaskRuntime
