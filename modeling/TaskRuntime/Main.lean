import TaskRuntime.Demo.Program
import TaskRuntime.Kernel.Host

/-!
# The demo as a program

Reads the configuration file, runs the demo, and writes what it has to show.
-/

open TaskRuntime

namespace TaskRuntime

namespace Demo

/-- The bytes of a text as they are written to a stream. -/
def toByteArray (b : Bytes) : ByteArray := ⟨b.toArray⟩

/-- The file that the arguments name, if it can be read. -/
def configuration (arguments : List Bytes) : IO (Bytes → Option Bytes) := do
  match CommandLine.ofArguments arguments with
  | .run options =>
    match String.fromUTF8? (toByteArray options.configPath) with
    | none => return fun _ ↦ none
    | some path =>
      match ← (IO.FS.readBinFile path).toBaseIO with
      | .ok content => return fun _ ↦ some content.data.toList
      | .error _ => return fun _ ↦ none
  | _ => return fun _ ↦ none

end Demo

end TaskRuntime

/-- Runs the demo on a host. -/
def main (arguments : List String) : IO UInt32 := do
  let arguments := arguments.map Bytes.utf8
  let file ← Demo.configuration arguments
  let program := Bytes.utf8 (← IO.appPath).toString
  let threads : Threads Host := { world := { kernel := {} } }
  let outcome := Demo.run program arguments file threads
  (← IO.getStdout).write (Demo.toByteArray outcome.output)
  let shown := outcome.complaints ++ outcome.threads.world.log.stream
  (← IO.getStderr).write (Demo.toByteArray shown)
  return UInt32.ofNat outcome.status
