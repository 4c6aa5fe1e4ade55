import SqlDialect.Position
import SqlDialect.Json

/-!
# Positions as JSON

A position is written as an object of four named numbers. It is read back from
such an object, whatever else the object holds and in whatever order, and also
from the bare array of the four numbers.

## Main results

* `Position.ofJson?_toJson`: what is written is read back.
-/

namespace SqlDialect

namespace Position

/-- The four numbers of a position, under their names. -/
def toJson (p : Position) : Json :=
  .object
    [("line", .ofWord p.start.line), ("column", .ofWord p.start.column),
     ("end_line", .ofWord p.stop.line), ("end_column", .ofWord p.stop.column)]

/--
Reads a position from an object with the four names, or from an array of exactly
the four numbers.
-/
def ofJson? : Json → Option Position
  | .object members => do
    let line ← Json.wordMember? members "line"
    let column ← Json.wordMember? members "column"
    let endLine ← Json.wordMember? members "end_line"
    let endColumn ← Json.wordMember? members "end_column"
    return ⟨⟨line, column⟩, ⟨endLine, endColumn⟩⟩
  | .array [line, column, endLine, endColumn] => do
    return ⟨⟨← line.word?, ← column.word?⟩, ⟨← endLine.word?, ← endColumn.word?⟩⟩
  | _ => none

@[simp] theorem ofJson?_toJson (p : Position) : ofJson? p.toJson = some p := by
  simp [ofJson?, toJson, Json.wordMember?]

end Position

end SqlDialect
