import SqlDialect.Node

/-!
# Building queries step by step

A query block is built by steps that each set one part of it. The select list is
the one part that a query cannot do without: until it is set there is no query,
so `Builder.build?` answers `none`.

The steps may come in any order. In particular the position may be set last, and
it is then also the position of the keywords and of the lists that the builder
makes; the nodes handed to the steps keep their own.

## Main results

* `Builder.build?_isSome_iff`: a query can be built once the select list is set.
-/

namespace SqlDialect

namespace Query

/-- A step in the making of a query. -/
inductive Step where
  /-- Adds `DISTINCT`, `ALL` or `STREAM`. -/
  | keyword (keyword : SelectKeyword)
  /-- Sets the select list. -/
  | columns (columns : List Node)
  /-- Sets the `FROM` clause. -/
  | fromClause (table : Node)
  /-- Sets the `WHERE` clause. -/
  | whereClause (condition : Node)
  /-- Sets the `GROUP BY` expressions. -/
  | groupBy (expressions : List Node)
  /-- Sets the `HAVING` clause. -/
  | having (condition : Node)
  /-- Sets the `ORDER BY` items. -/
  | orderBy (items : List Node)
  /-- Sets the `OFFSET` clause. -/
  | offset (rows : Node)
  /-- Sets the `FETCH` clause. -/
  | fetch (rows : Node)
  /-- Sets the position of the query. -/
  | position (position : Position)
  /-- Forgets all steps so far. -/
  | restart

/-- A query in the making. -/
structure Builder where
  /-- The keywords so far, in order. -/
  keywords : List SelectKeyword := []
  /-- The select list, once set. -/
  columns : Option (List Node) := none
  /-- The `FROM` clause. -/
  fromClause : Option Node := none
  /-- The `WHERE` clause. -/
  whereClause : Option Node := none
  /-- The `GROUP BY` expressions. -/
  groupBy : Option (List Node) := none
  /-- The `HAVING` clause. -/
  having : Option Node := none
  /-- The `ORDER BY` items. -/
  orderBy : Option (List Node) := none
  /-- The `OFFSET` clause. -/
  offset : Option Node := none
  /-- The `FETCH` clause. -/
  fetch : Option Node := none
  /-- The position of the query. -/
  position : Position := .zero

namespace Builder

/-- A query of which nothing is known yet. -/
def empty : Builder := {}

/-- Takes one step. A part that is set twice has the later value. -/
def step (b : Builder) : Step → Builder
  | .keyword keyword => { b with keywords := b.keywords ++ [keyword] }
  | .columns columns => { b with columns := some columns }
  | .fromClause table => { b with fromClause := some table }
  | .whereClause condition => { b with whereClause := some condition }
  | .groupBy expressions => { b with groupBy := some expressions }
  | .having condition => { b with having := some condition }
  | .orderBy items => { b with orderBy := some items }
  | .offset rows => { b with offset := some rows }
  | .fetch rows => { b with fetch := some rows }
  | .position position => { b with position := position }
  | .restart => empty

/-- Takes steps in order, beginning with nothing. -/
def ofSteps (steps : List Step) : Builder := steps.foldl step empty

/-- The keyword as a node of the query. -/
def keywordNode (position : Position) (keyword : SelectKeyword) : Node :=
  .literal (.symbol (.select keyword) position)

/-- The query, once its select list is set. -/
def build? (b : Builder) : Option (Query Node) :=
  b.columns.map fun columns =>
    { keywords := ⟨b.keywords.map (keywordNode b.position), b.position⟩
      selectList := ⟨columns, b.position⟩
      fromClause := b.fromClause
      whereClause := b.whereClause
      groupBy := b.groupBy.map fun items => ⟨items, b.position⟩
      having := b.having
      orderBy := b.orderBy.map fun items => ⟨items, b.position⟩
      offset := b.offset
      fetch := b.fetch
      position := b.position }

/-- What can be built now, and after each further step. -/
def stages (b : Builder) : List Step → List (Option (Query Node))
  | [] => [b.build?]
  | next :: rest => b.build? :: (b.step next).stages rest

theorem build?_isSome_iff {b : Builder} : b.build?.isSome = true ↔ b.columns.isSome = true := by
  simp [build?]

end Builder

/-- The query that a sequence of steps makes, if they set the select list. -/
def ofSteps? (steps : List Step) : Option (Query Node) := (Builder.ofSteps steps).build?

end Query

end SqlDialect
