import SqlDialect.Dialect.Judgement
import SqlDialect.Validation.Log
import SqlDialect.Walk.Visitor

/-!
# Validation

A statement is validated in one walk that judges each call, each literal and each
declared type and ends at the first that the dialect does not contain. The walk
remembers the first query that it meets, which is the only one that may limit or
skip rows, and it stays out of table functions over files, whose options are
written with constructs that no other call may use.

A pass is also logged, for those who ask why a statement was refused. The pass
keeps its log in its state, which a violation does not discard, so the log of a
refused statement tells how far the pass came.

## Main declarations

* `Dialect.checker`: the visitor that judges each construct as it is met.
* `Dialect.examine`: a pass with its log.
* `validate`: whether the engine can execute a statement.
-/

namespace SqlDialect

/-! ## The pass -/

/-- What a pass has seen so far. -/
structure Progress where
  /-- The first query, once one was met. -/
  firstQuery : Option (Query Node)
  /-- The events so far, in order. -/
  log : List LogEntry

/-- A pass ends at the first violation and keeps what it has seen. -/
abbrev Pass := ExceptT Violation (StateM Progress)

namespace Pass

/-- Adds an event to the log. -/
def report (entry : LogEntry) : Pass Unit :=
  modify fun progress => { progress with log := progress.log ++ [entry] }

@[simp] theorem run_report (entry : LogEntry) (progress : Progress) :
    (report entry).run.run progress =
      (.ok (), { progress with log := progress.log ++ [entry] }) := rfl

/-- Ends the pass if there is a cause to. -/
def require (cause? : Option Cause) (position : Position) : Pass Unit :=
  match cause? with
  | none => pure ()
  | some cause => throw (cause.violation position)

/-- A pass that ends leaves its log and its first query as they were. -/
theorem run_require (cause? : Option Cause) (position : Position) (progress : Progress) :
    (require cause? position).run.run progress =
      (match cause? with
        | none => .ok ()
        | some cause => .error (cause.violation position), progress) := by
  cases cause? <;> rfl

/-- Remembers the first query, and only the first. -/
def meet (query : Query Node) : Pass Unit := do
  if (← get).firstQuery.isNone then
    report (.queryRecorded query.position)
    modify fun progress => { progress with firstQuery := some query }

theorem run_meet (query : Query Node) (progress : Progress) :
    (meet query).run.run progress =
      (.ok (),
        if progress.firstQuery.isNone then
          ⟨some query, progress.log ++ [.queryRecorded query.position]⟩
        else progress) := by
  obtain ⟨firstQuery, log⟩ := progress
  cases firstQuery <;> rfl

end Pass

namespace Dialect

/-- Judges a call, and says whether its operands are to be judged as well. -/
def checkCall (d : Dialect) (call : Call Node) : Pass Bool := do
  if call.operator.isDynamicTableFunction then
    Pass.report (.tableFunctionSkipped call.position call.operator.name)
    return false
  else
    Pass.require (d.callCause? (← get).firstQuery.isSome call) call.position
    if let .select query := call then
      Pass.meet query
    return true

/-- The visitor that judges calls, literals and declared types. -/
def checker (d : Dialect) : Visitor Pass :=
  { Visitor.idle with
    call := d.checkCall
    literal := fun literal => Pass.require (d.literalCause? literal) literal.position
    dataType := fun type => Pass.require (d.typeCause? type.spec) type.position }

/-- The outcome of a pass. -/
structure Outcome where
  /-- The first violation, if there is one. -/
  result : Except Violation Unit
  /-- The events of the pass, in order. -/
  log : List LogEntry

/-- Passes over a statement and keeps the log. -/
def examine (d : Dialect) (root : Node) : Outcome :=
  match (d.checker.visit root).run.run ⟨none, [.started root.position]⟩ with
  | (.ok (), progress) => ⟨.ok (), progress.log⟩
  | (.error violation, progress) => ⟨.error violation, progress.log ++ [.refused violation]⟩

/-- Whether the dialect contains a statement; otherwise, where it first does not. -/
def validate (d : Dialect) (root : Node) : Except Violation Unit := (d.examine root).result

end Dialect

/-- Whether the engine can execute a statement; otherwise, what it cannot, and where. -/
def validate (root : Node) : Except Violation Unit := Dialect.executable.validate root

end SqlDialect
