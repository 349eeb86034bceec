import TaskRuntime.Bytes

/-!
# Request texts

The text of a GET request. The path is written as it is: whoever makes a path answers for its having
neither spaces nor line ends.
-/

namespace TaskRuntime

namespace Http

/-- The end of a line. -/
def lineEnd : Bytes := [13, 10]

/-- The empty line after a head, with the end of the line before it. -/
def blankLine : Bytes := lineEnd ++ lineEnd

/-- **The text of a GET request** for a path; the connection closes after the answer. -/
def getRequest (path : Bytes) : Bytes :=
  Bytes.utf8 "GET " ++ path ++ Bytes.utf8 " HTTP/1.1" ++ lineEnd ++
    Bytes.utf8 "Host: localhost" ++ lineEnd ++
    Bytes.utf8 "Connection: close" ++ blankLine

end Http

end TaskRuntime
