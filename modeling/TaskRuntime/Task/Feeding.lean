import TaskRuntime.Task.Behaviour

/-!
# Feeding tasks that read

Tasks on a host that read from pipes, with a running reactor: each time the thread is about to park,
the next thing happens to the pipes, and the reactor dispatches all that follows from it before the
thread really parks.
-/

namespace TaskRuntime

namespace World

/-- Something happens to the pipes: the wakers that the reactor then wakes. -/
def feed (w : World Host) : Feed → List Waker × World Host
  | .write pipe bytes =>
    let (pipes, kernel) := w.kernel.feed w.stage.pipes pipe bytes
    settle { w with kernel, stage := { w.stage with pipes } }
  | .close pipe =>
    let (pipes, kernel) := w.kernel.closeWriter w.stage.pipes pipe
    settle { w with kernel, stage := { w.stage with pipes } }
  | .unpark => ([], w)
  | .sabotage pipe =>
    let (ws, pipes, reactor, s) := w.reactor.sabotage w.toSystem w.stage.pipes pipe
    (ws, { w with toSystem := s, reactor, stage := { w.stage with pipes, sabotaged := true } })
where
  /-- The reactor dispatches all that is queued. -/
  settle (w : World Host) : List Waker × World Host :=
    let (ws, reactor, s) := w.reactor.settle w.toSystem
    (ws, { w with toSystem := s, reactor })

/-- A parking is logged, and the next thing happens to the pipes. Once the reactor is dead, nothing
more happens to them. -/
def announceFeed (pending : Nat) : TaskAct Host (Except Failure Unit) :=
  .look fun w ↦
    .put (w.noteDebug (parkMessage pending)) <|
      if w.stage.sabotaged then .done (.ok ())
      else
        .look fun w ↦
          match w.stage.feeds with
          | [] => .done (.error .stalled)
          | f :: rest =>
            let (ws, w) := { w with stage := { w.stage with feeds := rest } }.feed f
            .put w <|
              match f with
              | .unpark => .unpark (.done (.ok ()))
              | _ => (Act.wakeAll ws).bind fun () ↦ .done (.ok ())

/-- A future that reads a pipe to its end; the end to read from is taken out of the pipe. -/
def pipeReader (w : World Host) (pipe : Bytes) (chunk : Nat) : ReadToEnd × World Host :=
  let (ends, pipes, kernel) := w.kernel.pipe w.stage.pipes pipe
  let stage := { w.stage with pipes := pipes.insert pipe { ends with reader := .nothing } }
  let (f, e) := ReadToEnd.create ends.reader chunk { w.toEnvironment with kernel }
  (f, { w with toEnvironment := e, stage })

/-- What happens around a scheduling loop whose tasks are fed. -/
def feeding : Surroundings (World Host) Task Value where
  finished w := w.noteDebug finishedMessage
  announce := announceFeed
  asleep := .done ()

end World

end TaskRuntime
