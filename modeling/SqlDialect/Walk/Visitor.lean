import SqlDialect.Node

/-!
# Walks

A visitor says what is to be done at each construct of a statement, and for the
constructs with something below them (nodes, calls and lists) whether the walk
goes on into it. The walk itself is fixed: operands are visited in the order in
which they are written, each before anything to the right of it, and absent
operands are passed over.

The walk is written over an arbitrary monad, so a visitor may keep a state and
may give up. What a visitor that gives up leaves behind is for its monad to say.

## Implementation notes

The walk can be entered at four places, which differ in how much of the root is
visited before its operands: `visit`, `walkNode`, `walkCall` and `walkList`.

## Main results

* `Visitor.descend_pure_true`, `Visitor.descend_pure_false`: a visitor that does
  nothing at a construct lets the walk go on below it, or keeps it out.
-/

namespace SqlDialect

/--
What to do at each construct. The answer at a node, a call or a list says
whether the walk goes on below it.
-/
structure Visitor (m : Type → Type) where
  /-- What to do at any node, before it is visited as the construct that it is. -/
  node : Node → m Bool
  /-- What to do at a call. -/
  call : Call Node → m Bool
  /-- What to do at a list, be it a node or a clause of a query. -/
  list : Listing Node → m Bool
  /-- What to do at a literal. -/
  literal : Literal → m Unit
  /-- What to do at an identifier. -/
  identifier : Identifier → m Unit
  /-- What to do at a declared type. -/
  dataType : DataType → m Unit
  /-- What to do at a placeholder. -/
  placeholder : Placeholder → m Unit
  /-- What to do at an interval qualifier. -/
  interval : IntervalQualifier → m Unit

namespace Visitor

variable {m : Type → Type} [Monad m]

/-- Does nothing and goes everywhere. Visitors of few constructs start from it. -/
def idle : Visitor m where
  node _ := pure true
  call _ := pure true
  list _ := pure true
  literal _ := pure ()
  identifier _ := pure ()
  dataType _ := pure ()
  placeholder _ := pure ()
  interval _ := pure ()

variable (v : Visitor m)

/-- Goes below a construct if the visitor says so. -/
def descend (answer : m Bool) (below : m Unit) : m Unit := do
  if ← answer then below

@[simp] theorem descend_pure_true [LawfulMonad m] (below : m Unit) :
    descend (pure true) below = below := by
  simp [descend]

@[simp] theorem descend_pure_false [LawfulMonad m] (below : m Unit) :
    descend (pure false) below = pure () := by
  simp [descend]

mutual

/-- Visits a node as the construct that it is, and what is below it. -/
def walkNode : Node → m Unit
  | .call c => descend (v.call c) (walkCall c)
  | .literal l => v.literal l
  | .identifier i => v.identifier i
  | .dataType t => v.dataType t
  | .placeholder p => v.placeholder p
  | .interval q => v.interval q
  | .list l => descend (v.list l) (walkList l)

/-- Visits the operands of a call. -/
def walkCall : Call Node → m Unit
  | .basic _ operands _ => walkOperands operands
  | .select q => walkQuery q
  | .join j => walkJoin j
  | .ddl _ _ operands _ => walkOperands operands

/-- Visits the clauses of a query, in the order in which they are written. -/
def walkQuery : Query Node → m Unit
  | ⟨keywords, selectList, fromClause, whereClause, groupBy, having, orderBy, offset, fetch, _⟩ => do
    descend (v.list keywords) (walkList keywords)
    descend (v.list selectList) (walkList selectList)
    walkOption fromClause
    walkOption whereClause
    walkClause groupBy
    walkOption having
    walkClause orderBy
    walkOption offset
    walkOption fetch

/-- Visits the parts of a join; its flags stand where their keywords are written. -/
def walkJoin : Join Node → m Unit
  | ⟨left, natural, joinType, right, conditionType, condition, _⟩ => do
    descend (v.node left) (walkNode left)
    descend (v.node natural) (walkNode natural)
    descend (v.node joinType) (walkNode joinType)
    descend (v.node right) (walkNode right)
    descend (v.node conditionType) (walkNode conditionType)
    walkOption condition

/-- Visits the items of a list. -/
def walkList : Listing Node → m Unit
  | ⟨items, _⟩ => walkItems items

/-- Visits a clause that is a list, if it is there. -/
def walkClause : Option (Listing Node) → m Unit
  | none => pure ()
  | some l => descend (v.list l) (walkList l)

/-- Visits an operand, if it is there. -/
def walkOption : Option Node → m Unit
  | none => pure ()
  | some n => descend (v.node n) (walkNode n)

/-- Visits nodes one after the other. -/
def walkItems : List Node → m Unit
  | [] => pure ()
  | n :: ns => do
    descend (v.node n) (walkNode n)
    walkItems ns

/-- Visits operands one after the other, passing over those that are absent. -/
def walkOperands : List (Option Node) → m Unit
  | [] => pure ()
  | o :: os => do
    walkOption o
    walkOperands os

end

/-- Visits a node and everything below it. -/
def visit (n : Node) : m Unit := descend (v.node n) (v.walkNode n)

end Visitor

end SqlDialect
