import TaskRuntime.Kernel.System

/-!
# The command line of the delay server

The server takes a port and a log level. Any request for help, and anything that is no option, shows
the usage and ends the program.

A port is whatever numeral its text begins with, and zero if there is none; it is cut to 32 bits,
and may be no port at all, which binding an address to it finds out.
-/

namespace TaskRuntime

namespace DelayServer

/-- What the command line sets. -/
structure Options where
  /-- The port to listen on. -/
  port : Int := 8080
  /-- The log level, if it is set. -/
  logLevel : Option Bytes := none
  deriving DecidableEq, Repr

/-- What a command line amounts to. -/
inductive CommandLine
  /-- Run with these options. -/
  | run (options : Options)
  /-- Show the usage because it was asked for. -/
  | help
  /-- Show the usage because there is something that is no option. -/
  | misuse
  deriving DecidableEq, Repr

/-- The number at the front of a text. -/
def leadingNumber (text : Bytes) : Int :=
  match Numeral.read? text with
  | some (n, _) => Numeral.wrap32 (Numeral.saturate64 n)
  | none => 0

/-- Reads arguments into options; the first one that offends decides. -/
def CommandLine.read (options : Options) : List Bytes → CommandLine
  | [] => .run options
  | argument :: rest =>
    if argument = Bytes.utf8 "--port" then
      match rest with
      | value :: rest => read { options with port := leadingNumber value } rest
      | [] => .misuse
    else if argument = Bytes.utf8 "--log-level" then
      match rest with
      | value :: rest => read { options with logLevel := some value } rest
      | [] => .misuse
    else if argument = Bytes.utf8 "-h" ∨ argument = Bytes.utf8 "--help" then .help
    else .misuse

/-- Reads the arguments after the program name. -/
def CommandLine.ofArguments (arguments : List Bytes) : CommandLine := read {} arguments

/-- The usage text. -/
def usage (program : Bytes) : Bytes :=
  Bytes.utf8 "Usage: " ++ program ++ Bytes.utf8 " [--port PORT] [--log-level LVL]\n"

/-- What is shown when the server cannot listen. -/
def listenFailure (port : Int) (e : Errno) : Bytes :=
  Bytes.utf8 "bind/listen on port " ++ Numeral.ofInt port ++ Bytes.utf8 ": " ++ e.text ++
    [Bytes.lineFeed]

/-- How a start of the server goes. -/
inductive Launch
  /-- The program ends with a status, having shown a text on the error stream. -/
  | ended (status : Nat) (shown : Bytes)
  /-- The server listens on a port. -/
  | listening (port : Int)
  deriving DecidableEq, Repr

/-- **Starts the server**; `listen` tells whether a port can be listened on. -/
def Launch.start (program : Bytes) (arguments : List Bytes) (listen : Int → Except Errno Unit) :
    Launch :=
  match CommandLine.ofArguments arguments with
  | .help => .ended 0 (usage program)
  | .misuse => .ended 2 (usage program)
  | .run options =>
    match listen options.port with
    | .ok () => .listening options.port
    | .error e => .ended 1 (listenFailure options.port e)

end DelayServer

end TaskRuntime
