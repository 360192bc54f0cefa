/-!
# Reports

How a failure is told: a message, and the causes behind it from the nearest on.
-/

namespace SphereTracer

structure Report where
  message : String
  causes : List String
  deriving DecidableEq, Repr

namespace Report

/-- A cause in a numbered list. -/
def numbered (i : Nat) (cause : String) : String :=
  let number := toString i
  String.ofList (List.replicate (5 - number.length) ' ') ++ number ++ ": " ++ cause

/-- The causes as lines; one alone is not numbered. -/
def causeLines : List String → List String
  | [cause] => ["    " ++ cause]
  | causes => causes.mapIdx numbered

/-- The report for an error stream. -/
def text (r : Report) : String :=
  "Error: " ++ r.message ++ "\n" ++
    if r.causes.isEmpty then ""
    else "\nCaused by:\n" ++ String.join ((causeLines r.causes).map (· ++ "\n"))

/-- The report in one line. -/
def line (r : Report) : String := ": ".intercalate (r.message :: r.causes)

end Report

end SphereTracer
