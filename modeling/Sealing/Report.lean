/-!
# Reports

A report tells an operator what failed and why: a message, and the causes behind it, the nearest
first.
-/

namespace Sealing

/-- A failure and its causes. -/
structure Report where
  message : String
  causes : List String := []
deriving DecidableEq, Repr

namespace Report

/-- The report on one line. -/
def line (r : Report) : String := String.intercalate ": " (r.message :: r.causes)

/-- The causes as they stand under the message. Several causes are numbered. -/
def causeLines (r : Report) : List String :=
  match r.causes with
  | [] => []
  | [cause] => ["", "Caused by:", s!"    {cause}"]
  | causes => "" :: "Caused by:" :: causes.mapIdx fun i cause => s!"    {i}: {cause}"

/-- The report as a block of lines. -/
def block (r : Report) : String :=
  String.join ((s!"Error: {r.message}" :: r.causeLines).map (· ++ "\n"))

end Report

end Sealing
