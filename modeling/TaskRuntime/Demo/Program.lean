import TaskRuntime.Config.Loading
import TaskRuntime.Demo.Options
import TaskRuntime.Task.Serving
import TaskRuntime.Threads

/-!
# The demo program

The demo loads its configuration, initializes the runtime, and runs its main task on the executor of
the main thread and on those of further threads. A failure on the main thread ends the program with
a status of its own; a failure on another thread ends that thread.

The further threads run one after the other here. They share the reactor and the log and nothing
else, so that the order shows only in the order of their lines and in the numbers of their tokens.
-/

namespace TaskRuntime

namespace Demo

/-- How the program ends. -/
structure Outcome (K : Type) where
  /-- The exit status. -/
  status : Nat
  /-- What is on the output stream. -/
  output : Bytes := []
  /-- What is on the error stream, besides lines of the log. -/
  complaints : Bytes := []
  /-- The threads. -/
  threads : Threads K

/-- The text for an argument in option position that is no option. -/
def unknownOption (argument : Bytes) : Bytes :=
  Bytes.utf8 "Unknown option: " ++ argument ++ [Bytes.lineFeed]

/-- The text for a value that is no positive number. -/
def invalidValue (option value : Bytes) : Bytes :=
  Bytes.utf8 "Invalid value for " ++ option ++ Bytes.utf8 ": " ++ value ++ [Bytes.lineFeed]

/-- The text for a configuration that cannot be loaded. -/
def withDefaults : Bytes := Bytes.utf8 "Continuing with built-in defaults\n"

/-- The name of the executor object of the main thread. -/
def mainExecutor : Bytes := Bytes.utf8 "main"

/-- The tag of a further thread, which is also the name of its executor object. -/
def executorTag (i : Nat) : Bytes := Bytes.utf8 "executor-" ++ Numeral.ofNat i

/-- The main task, as the options have it. -/
def Options.mainTask (o : Options) : Task := .fanOut { requests := o.requests, delay := o.delay }

variable {K : Type} [Kernel K]

/-- Logs a message of the running thread. -/
def note (p : Threads K) (level : Log.Level) (message : Bytes) : Threads K :=
  { p with world := { p.world with toEnvironment := p.world.toEnvironment.note level message } }

/-- Loads the configuration, and sets up the log as it says. -/
def configure (o : Options) (file : Bytes → Option Bytes) (p : Threads K) : Bool × Threads K :=
  let loading := Config.Loading.ofFile (file o.configPath)
  let (level, message) := loading.message o.configPath
  let e := p.world.toEnvironment.note level message
  let e := { e with config := loading.configuration e.config }
  let (configured, e) := e.setting Config.logLevel
  let threshold := Log.Level.ofName (o.logLevel.getD configured)
  let e := { e with log := { e.log with threshold } }
  let (asynchronous, e) := e.setting Config.asyncLogging
  let e := if asynchronous then { e with log := e.log.startAsync } else e
  (loading.succeeded, { p with world := { p.world with toEnvironment := e } })

/-- Runs the main task on a further thread. -/
def runThread (o : Options) (p : Threads K) (i : Nat) : Threads K :=
  let (thread, tag) := (p.thread, p.world.tag)
  let name := executorTag i
  let p := p.enterThread name
  let (result, p) : Except Failure (Option Value) × Threads K :=
    match p.construct name with
    | (.error e, p) => (.error e, p)
    | (.ok (), p) => p.blockOnIn World.serving name o.mainTask
  let p := p.destroy name
  let p := match result with
    | .ok _ => p
    | .error e => note p .error (Bytes.utf8 "Executor thread failed: " ++ e.message)
  p.returnTo thread tag

/-- Runs the main task on all threads, and says how it went on the main thread. -/
def runAll (o : Options) (p : Threads K) : Except Failure Unit × Threads K :=
  match p.init mainExecutor with
  | (.error e, p) => (.error e, p)
  | (.ok (), p) =>
    let p := (List.range (o.executors.toNat - 1)).foldl (fun p i ↦ runThread o p (i + 1)) p
    match p.blockOnIn World.serving mainExecutor o.mainTask with
    | (.error e, p) => (.error e, p.destroy mainExecutor)
    | (.ok _, p) => (.ok (), (note p .info (Bytes.utf8 "FINISHED PROGRAM")).destroy mainExecutor)

/-- Runs the program with some options. -/
def runWith (o : Options) (file : Bytes → Option Bytes) (p : Threads K) : Outcome K :=
  let (succeeded, p) := configure o file p
  let (result, p) := runAll o p
  let p := match result with
    | .ok () => p
    | .error e => note p .error (Bytes.utf8 "Fatal: " ++ e.message)
  let log := p.world.log.stopAsync
  { status := match result with
      | .ok () => 0
      | .error _ => 1
    complaints := if succeeded then [] else withDefaults
    threads := { p with world := { p.world with log } } }

/-- **Runs the program**: its name, its arguments, and the files that it may read. -/
def run (program : Bytes) (arguments : List Bytes) (file : Bytes → Option Bytes) (p : Threads K) :
    Outcome K :=
  match CommandLine.ofArguments arguments with
  | .help => { status := 0, output := usage program, threads := p }
  | .unknownOption argument =>
    { status := 1, output := usage program, complaints := unknownOption argument, threads := p }
  | .invalidValue option value =>
    { status := 1, complaints := invalidValue option value, threads := p }
  | .run options => runWith options file p

end Demo

end TaskRuntime
