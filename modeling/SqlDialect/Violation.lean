import SqlDialect.Position.Json
import SqlDialect.Kind
import SqlDialect.Symbol
import SqlDialect.TypeName

/-!
# Violations

A violation says where a statement leaves the dialect and what it uses there. The
reasons that validation can give are the constructors of `Cause`; their wording
is in `Cause.description` and nowhere else.

A violation is shown in two ways. The short text names the place where the
construct begins; the text with context gives its whole region first, in the way
in which the parser reports errors of its own.
-/

namespace SqlDialect

/-! ## Causes -/

/-- Why a construct is not part of the dialect. -/
inductive Cause where
  /-- No call of this kind is. -/
  | kind (kind : Kind)
  /-- The function or operator of this name is not. -/
  | operator (name : String)
  /-- Rows are limited or skipped in a query that is not the first of the statement. -/
  | nestedRowLimit
  /-- The variant of the join is not. -/
  | joinType (type : JoinType)
  /-- The join does not say of which variant it is. -/
  | unknownJoin
  /-- The statement of this name is not. -/
  | statement (name : String)
  /-- A type of this name cannot be declared. -/
  | typeName (name : String)
  /-- A type is declared that is neither a built-in scalar nor the object type. -/
  | complexType
  /-- Literals of this type are not. -/
  | literalType (type : TypeName)
  /-- The flag is not. -/
  | symbol (symbol : Symbol)
deriving DecidableEq

namespace Cause

/-- What is not supported, as told to the user. -/
def description : Cause → String
  | .kind k => k.displayName ++ " is not supported"
  | .operator name => name ++ " is not supported"
  | .nestedRowLimit => "FETCH/OFFSET is only supported for the top-level SELECT"
  | .joinType variant => variant.name ++ " join is not supported"
  | .unknownJoin => "Unknown join is not supported"
  | .statement name => "OTHER DDL class (" ++ name ++ ") is not supported"
  | .typeName name => name ++ " is not supported"
  | .complexType => "Complex type specifications are not supported"
  | .literalType type => type.name ++ " literals are not supported"
  | .symbol flag => flag.text ++ " literal is not supported"

end Cause

/-! ## Violations -/

/-- A construct outside the dialect. -/
structure Violation where
  /-- Where the construct stands. -/
  position : Position
  /-- What is not supported. -/
  description : String
deriving DecidableEq

/-- The violation by a construct that stands at the given position. -/
def Cause.violation (cause : Cause) (position : Position) : Violation := ⟨position, cause.description⟩

namespace Violation

/-- The violation of something that has a name. -/
def notSupported (position : Position) (name : String) : Violation :=
  ⟨position, name ++ " is not supported"⟩

/-- The violation of a call of a kind outside the dialect. -/
def unsupportedKind (position : Position) (kind : Kind) : Violation :=
  notSupported position kind.displayName

/-- The short text: what is not supported, and where it begins. -/
def text (v : Violation) : String := v.description ++ " at " ++ v.position.text

/-- The text with context: the whole region, then what is not supported there. -/
def context (v : Violation) : String :=
  "From line " ++ toString v.position.start.line ++
    ", column " ++ toString v.position.start.column ++
    " to line " ++ toString v.position.stop.line ++
    ", column " ++ toString v.position.stop.column ++
    ": " ++ v.description

/-- The violation as JSON, under the name of its sort. -/
def toJson (v : Violation) : Json :=
  .object
    [("UnsupportedConstruct",
      .object
        [("position", v.position.toJson), ("description", .string v.description)])]

end Violation

end SqlDialect
