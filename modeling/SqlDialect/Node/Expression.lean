import SqlDialect.Node

/-!
# Making expressions

Functions that put nodes together the way the parser does, for programs that
make statements instead of parsing them. What they make stands nowhere in the
text; `Node.movedTo` places it.
-/

namespace SqlDialect

namespace Node

/-! ## Leaves -/

/-- The name `name`. -/
def name (name : String) : Node := .identifier (.named name .zero)

/-- The name `table.name`. -/
def qualified (table name : String) : Node := .identifier ⟨[table, name], .zero⟩

/-- The name `*`. -/
def star : Node := .identifier (.star .zero)

/-- An integer. -/
def integer (value : Int) : Node := .literal (.integer value .zero)

/-- A decimal number, as written. -/
def decimal (written : String) : Node := .literal (.decimal written .zero)

/-- A character string. -/
def string (value : String) : Node := .literal (.string value .zero)

/-- A truth value. -/
def boolean (value : Bool) : Node := .literal (.boolean value .zero)

/-- `NULL`. -/
def null : Node := .literal (.null .zero)

/-- A value under a type of the caller's choice. -/
def typed (value : LiteralValue) (type : TypeName) : Node := .literal ⟨value, type, .zero⟩

/-- An interval such as `INTERVAL '1' DAY`. -/
def intervalOf (written : String) (type : TypeName) : Node := typed (.interval written) type

/-- A flag. -/
def symbol (value : Symbol) : Node := .literal (.symbol value .zero)

/-- The `?` with the given index. -/
def parameter (index : Nat) : Node := .placeholder ⟨index, .zero⟩

/-- A unit such as `YEAR`, or a range of units such as `DAY TO SECOND`. -/
def unit (leading : String) (trailing : Option String) : Node :=
  .interval ⟨leading, trailing, .zero⟩

/-! ## Lists and calls -/

/-- A list. -/
def sequence (items : List Node) : Node := .list ⟨items, .zero⟩

/-- A call of an operator, none of whose operands is absent. -/
def apply (operator : Operator) (operands : List Node) (position : Position) : Node :=
  .call (.basic operator (operands.map some) position)

/-- A call of an operator of the parser. -/
def standard (entry : StandardOperator) (operands : List Node) : Node :=
  apply (.standard entry) operands .zero

/-- A call of an operator of the engine. -/
def engine (entry : EngineOperator) (operands : List Node) : Node :=
  apply (.engine entry) operands .zero

/-- `expression AS alias`. -/
def aliased (expression : Node) (aliasName : String) : Node :=
  standard .aliased [expression, name aliasName]

/-- `expression DESC`, in a list of ordering items. -/
def descending (expression : Node) : Node := standard .desc [expression]

/-- `CAST(expression AS type)`. -/
def cast (expression type : Node) : Node := standard .cast [expression, type]

/-- `TRIM(side characters FROM expression)`. -/
def trim (side : TrimSide) (characters expression : Node) : Node :=
  standard .trim [symbol (.trim side), characters, expression]

/-- `TABLE(function(…))`, a table function in the place of a table. -/
def tableFunction (function : Node) : Node := standard .collectionTable [function]

/-- `name => value`. The value is the first operand. -/
def namedArgument (argument : String) (value : Node) : Node :=
  standard .argumentAssignment [value, name argument]

/-! ## Joins -/

/-- A join with a condition after `ON`. -/
def joinOn (left : Node) (type : JoinType) (right condition : Node) : Node :=
  .call (.join (.make left type right .on (some condition) .zero))

/-- A join with a list of columns after `USING`. -/
def joinUsing (left : Node) (type : JoinType) (right : Node) (columns : List Node) : Node :=
  .call (.join (.make left type right .using (some (sequence columns)) .zero))

/-- A join without a condition. -/
def joinPlain (left : Node) (type : JoinType) (right : Node) : Node :=
  .call (.join (.make left type right .none none .zero))

end Node

end SqlDialect
