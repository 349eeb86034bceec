import TaskRuntime.Net.Get

/-!
# Blocking exchanges

A client that connects, sends a text and reads the answer to its end, all without a reactor: each
call waits for as long as it takes.
-/

namespace TaskRuntime

namespace Exchange

variable {K : Type} [Kernel K]

/-- **The answer to a text** from a host and a port; nothing if no connection comes about. -/
def run (host : Bytes) (port : Int) (text : Bytes) (s : System K) : Bytes × System K :=
  match Get.openConnection host port s with
  | (.error _, s) => ([], s)
  | (.ok connection, s) =>
    let (_, s) := s.call (Kernel.sendAll connection.number text)
    let (_, pieces, kernel) :=
      ReadToEnd.drain connection.number Config.defaultReadBuffer [] s.kernel
    (pieces.reverse.flatten, { s with kernel }.release .file connection)

end Exchange

end TaskRuntime
