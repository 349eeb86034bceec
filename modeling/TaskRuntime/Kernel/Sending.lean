import TaskRuntime.Kernel

/-!
# Sending

A send may take only a part of what it is given. `Kernel.sendAll` goes on with the rest until there
is none, and repeats an interrupted call; any other failure ends the sending, and what was taken by
then is gone.
-/

namespace TaskRuntime

namespace Kernel

variable {K : Type} [Kernel K]

/-- **Sends all of a text**; an interrupted call is repeated. -/
def sendAll (d : Descriptor) (text : Bytes) (k : K) : Except Errno Unit × K :=
  if _rest : text = [] then (.ok (), k)
  else
    match _send : Kernel.send k d text with
    | (.ok n, k') => sendAll d (text.drop n) k'
    | (.error e, k') => if _again : e = .interrupted then sendAll d text k' else (.error e, k')
termination_by (text.length, Kernel.patience k)
decreasing_by
  · have sent := Kernel.send_pos _rest _send
    have some_left := List.length_pos_iff.2 _rest
    exact Prod.Lex.left _ _ (by simp only [List.length_drop]; omega)
  · exact Prod.Lex.right _ (Kernel.send_interrupted (_again ▸ _send))

end Kernel

end TaskRuntime
