import SqlDialect.Operator.Standard
import SqlDialect.Operator.Engine

/-!
# Operators

An operator is an entry of one of the two tables, or one declared by the user
of the library under a tag of his own. Operators are the same only if they are
the same entry: `Operator.standard .power` and `Operator.engine .power` agree in
name, kind and family, and are different operators all the same. Making the table a
constructor keeps that distinction in the type, so equality of operators is
equality of values and needs no side condition.

## Main results

* `Operator.standard_ne_engine`: the tables share no operator.
-/

namespace SqlDialect

/-- A named function or operator. -/
inductive Operator where
  /-- An operator of the SQL parser. -/
  | standard (entry : StandardOperator)
  /-- An operator of the engine. -/
  | engine (entry : EngineOperator)
  /-- An operator outside both tables, told apart from others by its tag. -/
  | declared (tag : String) (signature : Signature)
deriving DecidableEq

namespace Operator

/-- What calls of the operator look like. -/
def signature : Operator → Signature
  | .standard entry => entry.signature
  | .engine entry => entry.signature
  | .declared _ signature => signature

/-- The name shown to users. -/
def name (operator : Operator) : String := operator.signature.name

/-- The kind of calls of the operator. -/
def kind (operator : Operator) : Kind := operator.signature.kind

/-- How calls of the operator take part in validation. -/
def family (operator : Operator) : Family := operator.signature.family

/-- Whether validation leaves calls of the operator alone. -/
def isDynamicTableFunction (operator : Operator) : Bool :=
  operator.family == .dynamicTableFunction

/--
A text that says which operator is meant: the table and the constant, or the
tag behind an `@`.
-/
def reference : Operator → String
  | .standard entry => "standard." ++ entry.constant
  | .engine entry => "engine." ++ entry.constant
  | .declared tag _ => "@" ++ tag

/-- The table entries, those of the parser first. -/
def tabled : List Operator :=
  StandardOperator.all.map .standard ++ EngineOperator.all.map .engine

/-- Finds a table entry by its reference. -/
def ofReference? (text : String) : Option Operator :=
  tabled.find? fun operator => operator.reference == text

/-- The tables share no operator, whatever names their entries share. -/
theorem standard_ne_engine (entry : StandardOperator) (other : EngineOperator) :
    Operator.standard entry ≠ Operator.engine other := nofun

end Operator

end SqlDialect
