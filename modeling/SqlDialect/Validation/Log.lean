import SqlDialect.Violation

/-!
# The log of a validation pass

A pass reports when it begins, when it meets the first query, each table function
that it stays out of, and at the end the violation if it found one. Constructs
that are merely supported leave no trace.
-/

namespace SqlDialect

/-- An event of a validation pass. -/
inductive LogEntry where
  /-- The pass over the statement at this position begins. -/
  | started (position : Position)
  /-- The first query was met. -/
  | queryRecorded (position : Position)
  /-- The operands of a table function over a file were passed over. -/
  | tableFunctionSkipped (position : Position) (function : String)
  /-- The statement was refused. -/
  | refused (violation : Violation)
deriving DecidableEq

namespace LogEntry

/-- How much detail is asked for when an event is shown. -/
inductive Level where
  | debug
  | trace
deriving DecidableEq

/-- The name of a level. -/
def Level.name : Level → String
  | .debug => "DEBUG"
  | .trace => "TRACE"

/-- The beginning and the refusal are shown sooner than what happens in between. -/
def level : LogEntry → Level
  | .started _ => .debug
  | .queryRecorded _ => .trace
  | .tableFunctionSkipped _ _ => .trace
  | .refused _ => .debug

/-- What happened. -/
def message : LogEntry → String
  | .started _ => "validating statement"
  | .queryRecorded _ => "recorded top-level SELECT"
  | .tableFunctionSkipped _ _ => "skipping dynamic table function"
  | .refused _ => "unsupported construct"

/-- The particulars of the event, by name. -/
def fields : LogEntry → List (String × String)
  | .started position => [("position", position.text)]
  | .queryRecorded position => [("position", position.text)]
  | .tableFunctionSkipped position function =>
    [("position", position.text), ("function", function)]
  | .refused violation =>
    [("position", violation.position.text), ("description", violation.description)]

end LogEntry

end SqlDialect
