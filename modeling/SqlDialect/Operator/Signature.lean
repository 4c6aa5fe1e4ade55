import SqlDialect.Kind

/-!
# Signatures of operators

What a call shows of its operator: a display name, a kind and a family. A
signature does not identify an operator. The parser and the engine both have a
function `POWER` with one and the same signature, and a statement may use only
the engine's.
-/

namespace SqlDialect

/-- How calls of an operator take part in validation. -/
inductive Family where
  /-- Calls are judged like any other call. -/
  | builtin
  /--
  A table function over a file. Its options are a `MAP` constructor, which is
  not supported anywhere else, so validation does not look below such a call.
  -/
  | dynamicTableFunction
deriving DecidableEq

/-- The name, kind and family of an operator. -/
structure Signature where
  /-- The name shown to users. -/
  name : String
  /-- The syntactic category of calls. -/
  kind : Kind
  /-- How calls take part in validation. -/
  family : Family
deriving DecidableEq

namespace Signature

/-- The signature of a regular operator. -/
def builtin (name : String) (kind : Kind) : Signature := ⟨name, kind, .builtin⟩

/-- The signature of a table function over a file, which is a named function. -/
def tableFunction (name : String) : Signature :=
  ⟨name, .otherFunction, .dynamicTableFunction⟩

end Signature

/-- A line of an operator table. -/
structure Declaration where
  /-- The constant by which the table names the entry. -/
  constant : String
  /-- What calls of the entry look like. -/
  signature : Signature
deriving DecidableEq

end SqlDialect
