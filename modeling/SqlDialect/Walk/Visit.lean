import SqlDialect.Node

/-!
# Visits

A walk over a statement is a sequence of visits. A node is visited twice in a
row: once as a node, then once as the construct that it is. The clauses of a
query that are lists are no nodes; they are visited as lists alone.
-/

namespace SqlDialect

/-- One step of a walk: what is visited, and as what. -/
inductive Visit where
  /-- Any node, before it is visited as the construct that it is. -/
  | node (node : Node)
  | call (call : Call Node)
  | list (list : Listing Node)
  | literal (literal : Literal)
  | identifier (identifier : Identifier)
  | dataType (type : DataType)
  | placeholder (placeholder : Placeholder)
  | interval (qualifier : IntervalQualifier)

namespace Visit

/-- The roles in which something can be visited. -/
inductive Role where
  | node | call | list | literal | identifier | dataType | placeholder | interval
deriving DecidableEq, Inhabited

/-- The role in which something is visited. -/
def role : Visit → Role
  | .node _ => .node
  | .call _ => .call
  | .list _ => .list
  | .literal _ => .literal
  | .identifier _ => .identifier
  | .dataType _ => .dataType
  | .placeholder _ => .placeholder
  | .interval _ => .interval

end Visit

end SqlDialect
