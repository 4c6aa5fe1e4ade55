import SqlDialect.Operator
import SqlDialect.Literal
import SqlDialect.TypeSpec

/-!
# Nodes of a statement

A statement is a tree. Each construct is a leaf (a literal, an identifier, a
type, a placeholder, an interval qualifier), a list, or a call of an operator on
operands. Queries, joins and most statements are calls too, with operands that
have names instead of numbers.

## Implementation notes

The shapes of a call are polymorphic in the type of their operands. `Node` ties
the knot by using them at `Node` itself, which keeps the fields of a query in
one structure and still leaves every function on trees structurally recursive.

The operator of a query or of a join is not stored: only the operator `SELECT`
applied to a `Query` is a query block. A basic call of `SELECT` can be written
down all the same, and a `JOIN` operator may sit on a call without the parts of
a join, so nothing may infer the shape of a call from its kind.

## Main results

* `Node.position_movedTo`: a node is moved to the position that is asked for.
* `Join.joinType?_make`, `Join.conditionType?_make`: the flags of a join can be read back.
-/

namespace SqlDialect

/-! ## Leaves -/

/-- A `?` that is bound when the statement is executed. -/
structure Placeholder where
  /-- The index of the placeholder, from zero. -/
  index : Nat
  /-- Where the placeholder stands. -/
  position : Position
deriving DecidableEq, Inhabited

/-- The unit of an interval literal or of `EXTRACT`. -/
structure IntervalQualifier where
  /-- The unit, or the leading unit of a range. -/
  leading : String
  /-- The trailing unit of a range such as `YEAR TO MONTH`. -/
  trailing : Option String
  /-- Where the qualifier stands. -/
  position : Position
deriving DecidableEq, Inhabited

/-! ## Composite constructs -/

/-- A sequence of nodes with a region of its own. -/
structure Listing (α : Type) where
  /-- The items, in order. -/
  items : List α
  /-- Where the list stands. -/
  position : Position
deriving Inhabited

/-- A query block. -/
structure Query (α : Type) where
  /-- The keywords after `SELECT`, as symbol literals. -/
  keywords : Listing α
  /-- The projected expressions. -/
  selectList : Listing α
  /-- The `FROM` clause. -/
  fromClause : Option α
  /-- The `WHERE` clause. -/
  whereClause : Option α
  /-- The `GROUP BY` expressions. -/
  groupBy : Option (Listing α)
  /-- The `HAVING` clause. -/
  having : Option α
  /-- The `ORDER BY` items. -/
  orderBy : Option (Listing α)
  /-- The `OFFSET` clause. -/
  offset : Option α
  /-- The `FETCH` clause. -/
  fetch : Option α
  /-- Where the query stands. -/
  position : Position

/--
A join of two tables. Its variant, its `NATURAL` flag and the form of its
condition are operands like the tables, held in literals.
-/
structure Join (α : Type) where
  /-- The left table. -/
  left : α
  /-- Whether the join is `NATURAL`, as a truth value. -/
  natural : α
  /-- The variant, as a symbol. -/
  joinType : α
  /-- The right table. -/
  right : α
  /-- The form of the condition, as a symbol. -/
  conditionType : α
  /-- The expression after `ON`, or the columns after `USING`. -/
  condition : Option α
  /-- Where the join stands. -/
  position : Position

/-- A call of an operator. -/
inductive Call (α : Type) where
  /-- A call whose operands are told apart by their place; some may be absent. -/
  | basic (operator : Operator) (operands : List (Option α)) (position : Position)
  /-- A query block. -/
  | select (query : Query α)
  /-- A join. -/
  | join (join : Join α)
  /--
  A statement that manages objects of the engine. The name of the concrete
  statement is all that tells one statement of kind `OTHER_DDL` from another.
  -/
  | ddl (operator : Operator) (statement : String) (operands : List (Option α))
      (position : Position)

/-- A node of a statement. -/
inductive Node where
  | call (call : Call Node)
  | literal (literal : Literal)
  | identifier (identifier : Identifier)
  | dataType (type : DataType)
  | placeholder (placeholder : Placeholder)
  | interval (qualifier : IntervalQualifier)
  | list (list : Listing Node)
deriving Inhabited

/-! ## Lists -/

namespace Listing

variable {α : Type}

/-- The list without items that stands nowhere. -/
def empty : Listing α := ⟨[], .zero⟩

/-- The number of items. -/
def length (list : Listing α) : Nat := list.items.length

/-- Whether the list has no items. -/
def isEmpty (list : Listing α) : Bool := list.items.isEmpty

end Listing

/-! ## Queries -/

namespace Query

variable {α : Type}

/-- A query of a select list alone, with an empty list of keywords. -/
def ofSelectList (selectList : Listing α) (position : Position) : Query α where
  keywords := ⟨[], position⟩
  selectList
  fromClause := none
  whereClause := none
  groupBy := none
  having := none
  orderBy := none
  offset := none
  fetch := none
  position

/-- Whether the query limits or skips rows. -/
def limitsRows (query : Query α) : Bool := query.fetch.isSome || query.offset.isSome

end Query

/-! ## Calls -/

namespace Call

variable {α : Type}

/-- The operator that is called. -/
def operator : Call α → Operator
  | .basic op _ _ => op
  | .select _ => .standard .select
  | .join _ => .standard .join
  | .ddl op _ _ _ => op

/-- The kind of a call is the kind of its operator, whatever the shape of the call. -/
def kind (c : Call α) : Kind := c.operator.kind

/-- Where the call stands. -/
def position : Call α → Position
  | .basic _ _ position => position
  | .select q => q.position
  | .join j => j.position
  | .ddl _ _ _ position => position

/-- The call with its own position replaced. -/
def movedTo (c : Call α) (position : Position) : Call α :=
  match c with
  | .basic op operands _ => .basic op operands position
  | .select q => .select { q with position }
  | .join j => .join { j with position }
  | .ddl op statement operands _ => .ddl op statement operands position

@[simp] theorem position_movedTo (c : Call α) (position : Position) :
    (c.movedTo position).position = position := by
  cases c <;> rfl

@[simp] theorem operator_movedTo (c : Call α) (position : Position) :
    (c.movedTo position).operator = c.operator := by
  cases c <;> rfl

end Call

/-! ## Nodes -/

namespace Node

/-- Where the node stands. -/
def position : Node → Position
  | .call c => c.position
  | .literal l => l.position
  | .identifier i => i.position
  | .dataType t => t.position
  | .placeholder p => p.position
  | .interval q => q.position
  | .list l => l.position

/-- The node with its own position replaced; the nodes below it keep theirs. -/
def movedTo (node : Node) (position : Position) : Node :=
  match node with
  | .call c => .call (c.movedTo position)
  | .literal l => .literal { l with position }
  | .identifier i => .identifier { i with position }
  | .dataType t => .dataType { t with position }
  | .placeholder p => .placeholder { p with position }
  | .interval q => .interval { q with position }
  | .list l => .list { l with position }

@[simp] theorem position_movedTo (node : Node) (position : Position) :
    (node.movedTo position).position = position := by
  cases node <;> simp [movedTo, Node.position]

/-- The call, if the node is one. -/
def call? : Node → Option (Call Node)
  | .call c => some c
  | _ => none

/-- The literal, if the node is one. -/
def literal? : Node → Option Literal
  | .literal l => some l
  | _ => none

/-- The flag, if the node is a literal that holds one. -/
def symbol? (node : Node) : Option Symbol := node.literal? >>= Literal.symbol?

end Node

/-! ## Joins -/

namespace Join

/-- The variant, if the operand for it holds one. -/
def joinType? (join : Join Node) : Option JoinType :=
  match join.joinType.symbol? with
  | some (.join type) => some type
  | _ => none

/-- The form of the condition, if the operand for it holds one. -/
def conditionType? (join : Join Node) : Option JoinCondition :=
  match join.conditionType.symbol? with
  | some (.joinCondition condition) => some condition
  | _ => none

/-- A join that is not `NATURAL`, with its flags at the position of the join. -/
def make (left : Node) (type : JoinType) (right : Node) (conditionType : JoinCondition)
    (condition : Option Node) (position : Position) : Join Node where
  left
  natural := .literal (.boolean false position)
  joinType := .literal (.symbol (.join type) position)
  right
  conditionType := .literal (.symbol (.joinCondition conditionType) position)
  condition
  position

@[simp] theorem joinType?_make (left : Node) (type : JoinType) (right : Node)
    (conditionType : JoinCondition) (condition : Option Node) (position : Position) :
    (make left type right conditionType condition position).joinType? = some type := rfl

@[simp] theorem conditionType?_make (left : Node) (type : JoinType) (right : Node)
    (conditionType : JoinCondition) (condition : Option Node) (position : Position) :
    (make left type right conditionType condition position).conditionType? =
      some conditionType := rfl

end Join

end SqlDialect
