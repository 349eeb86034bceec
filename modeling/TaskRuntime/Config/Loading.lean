import TaskRuntime.Config.Reader
import TaskRuntime.Config.Settings

/-!
# Loading a configuration

A configuration is loaded from the content of a file, which has to be one object. A configuration
that cannot be loaded leaves the present one as it is.
-/

namespace TaskRuntime

namespace Config

/-- How loading went. -/
inductive Loading
  /-- There is a new configuration. -/
  | loaded (c : Config)
  /-- The file cannot be opened. -/
  | unopened
  /-- The file holds no value. -/
  | unreadable
  /-- The file holds a value that is no object. -/
  | notObject

/-- Loads from the content of a file, if there is one. -/
def Loading.ofFile : Option Bytes → Loading
  | none => unopened
  | some content =>
    match Value.ofText? content with
    | none => unreadable
    | some v => if v.isObject then loaded ⟨v⟩ else notObject

/-- What is logged about loading from a path. What makes a file unreadable is left open. -/
def Loading.message (path : Bytes) : Loading → Log.Level × Bytes
  | loaded _ => (.info, Bytes.utf8 "Config: loaded from " ++ path)
  | unopened => (.error, openFailure path)
  | unreadable => (.error, Bytes.utf8 "Config: loading failed: ...")
  | notObject =>
    (.error, Bytes.utf8 "Config: top level of " ++ path ++ Bytes.utf8 " is not an object")

/-- The configuration after loading. -/
def Loading.configuration (present : Config) : Loading → Config
  | loaded c => c
  | _ => present

/-- Whether there is a new configuration. -/
def Loading.succeeded : Loading → Bool
  | loaded _ => true
  | _ => false

end Config

end TaskRuntime
