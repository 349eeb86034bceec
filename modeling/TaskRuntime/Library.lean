/-!
# About the library
-/

namespace TaskRuntime

namespace Library

/-- The version of the library. -/
def version : String := "0.1.0"

end Library

end TaskRuntime
