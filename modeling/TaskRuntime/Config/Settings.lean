import TaskRuntime.Config
import TaskRuntime.Log

/-!
# Settings

The seven settings that the library reads from a configuration. Each has a default, which stands in
when the setting is missing or unusable; some unusable values are worth a warning.

## When a warning is due

* A text or truth-value setting warns whenever its key is present with a value of another kind.
* A size warns when its key is present with a value that is neither `null` nor a whole number in its
  range. A missing key, a section that is not an object, and `null` give the default without a word.

A setting is read without touching the configuration; `Reading` carries the value and the warning.
-/

namespace TaskRuntime

namespace Config

/-- Why a setting could not be used as it is. -/
inductive Warning
  /-- The value is of the wrong kind. -/
  | badValue (section_ key : String)
  /-- The value is no whole number in the range from 0 to `max`. -/
  | outOfRange (section_ key : String) (max : Nat) (got : Value) (fallback : Nat)
  deriving Inhabited

/-- The wording of a warning. What a value of the wrong kind was found to be is left open. -/
def Warning.message : Warning → Bytes
  | .badValue section_ key =>
    Bytes.utf8 ("Config: bad value for " ++ section_ ++ "." ++ key ++ ": ...")
  | .outOfRange section_ key max got fallback =>
    Bytes.utf8 ("Config: " ++ section_ ++ "." ++ key ++ " must be an integer in [0, ") ++
      Numeral.ofNat max ++ Bytes.utf8 "], got " ++ got.print ++ Bytes.utf8 "; using " ++
      Numeral.ofNat fallback

/-- A setting as read: what to use, and the warning that is due. -/
structure Reading (α : Type) where
  /-- The value to use. -/
  value : α
  /-- The warning, if one is due. -/
  warning : Option Warning := none

/-- A setting of a kind that `decode` recognises. -/
def readAs {α : Type} (c : Config) (section_ key : String) (fallback : α)
    (decode : Value → Option α) : Reading α :=
  match c.key? (Bytes.utf8 section_) (Bytes.utf8 key) with
  | none => ⟨fallback, none⟩
  | some v =>
    match decode v with
    | some a => ⟨a, none⟩
    | none => ⟨fallback, some (.badValue section_ key)⟩

/-- The text of a text value. -/
def Value.text? : Value → Option Bytes
  | .text s => some s
  | _ => none

/-- The truth of a truth value. -/
def Value.bool? : Value → Option Bool
  | .bool b => some b
  | _ => none

/-- The whole number that a value stands for, however it is held. -/
def Value.integer? : Value → Option Int
  | .unsigned n => some n.toNat
  | .signed i => some i.toInt
  | _ => none

/-- The whole number from 0 to `max` that a value stands for. -/
def Value.size? (v : Value) (max : Nat) : Option Nat :=
  match v with
  | .unsigned n => if n.toNat ≤ max then some n.toNat else none
  | .signed i => if 0 ≤ i.toInt ∧ i.toInt ≤ max then some i.toInt.toNat else none
  | _ => none

/-- A size setting, in the range from 0 to `max`. -/
def readSize (c : Config) (section_ key : String) (fallback max : Nat) : Reading Nat :=
  match c.key? (Bytes.utf8 section_) (Bytes.utf8 key) with
  | none => ⟨fallback, none⟩
  | some v =>
    if v.isNull then ⟨fallback, none⟩
    else
      match v.size? max with
      | some n => ⟨n, none⟩
      | none => ⟨fallback, some (.outOfRange section_ key max v fallback)⟩

/-! ### Defaults and limits -/

/-- How many events are fetched at once unless configured. -/
def defaultEventCapacity : Nat := 100

/-- The most events that can be fetched at once. -/
def maxEventCapacity : Nat := 65536

/-- Whether parking is logged unless configured. -/
def defaultLogParking : Bool := true

/-- The host that requests go to unless configured. -/
def defaultHost : Bytes := Bytes.utf8 "127.0.0.1"

/-- The port that requests go to unless configured. -/
def defaultPort : Nat := 8080

/-- How many bytes are read at once unless configured. -/
def defaultReadBuffer : Nat := 4096

/-- The most bytes that can be read at once. -/
def maxReadBuffer : Nat := 16 * 1024 * 1024

/-! ### The settings -/

/-- The name of the log level. -/
def logLevel (c : Config) : Reading Bytes :=
  c.readAs "logging" "level" (Bytes.utf8 "info") Value.text?

/-- Whether log lines go through the background writer. -/
def asyncLogging (c : Config) : Reading Bool := c.readAs "logging" "async" false Value.bool?

/-- How many events the reactor fetches at once. -/
def eventCapacity (c : Config) : Reading Nat :=
  c.readSize "reactor" "event_capacity" defaultEventCapacity maxEventCapacity

/-- Whether an executor logs that it is about to park. -/
def logParking (c : Config) : Reading Bool :=
  c.readAs "executor" "log_parking" defaultLogParking Value.bool?

/-- The host that requests go to. -/
def host (c : Config) : Reading Bytes := c.readAs "http" "host" defaultHost Value.text?

/-- The port that requests go to. -/
def port (c : Config) : Reading Nat := c.readSize "http" "port" defaultPort 65535

/-- How many bytes a reading future asks for at once. -/
def readBuffer (c : Config) : Reading Nat :=
  c.readSize "http" "read_buffer_size" defaultReadBuffer maxReadBuffer

/-! ### Values in use -/

/-- The number of events really fetched at once, for any requested number: at least one, and at most
the maximum. -/
def clampCapacity (requested : Nat) : Nat :=
  if requested = 0 then 1 else min requested maxEventCapacity

/-- The number of bytes really read at once, for any requested number and any setting: zero stands
for "as configured", and a configured zero for the default. -/
def chunkSize (requested configured : Nat) : Nat :=
  if 0 < requested then requested else if 0 < configured then configured else defaultReadBuffer

/-- Logs the warning of a reading. -/
def Reading.warn {α : Type} (r : Reading α) (tag : Bytes) (log : Log) : Log :=
  match r.warning with
  | none => log
  | some w => log.note tag .warning w.message

end Config

end TaskRuntime
