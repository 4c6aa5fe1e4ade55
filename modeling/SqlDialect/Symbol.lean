/-!
# Symbols

Flags of a statement that the parser stores as literals, so that a walk over the
tree comes past them like past any other operand: the side of a `TRIM`, the
keyword after `SELECT`, the variant of a join and the way it states its condition.
-/

namespace SqlDialect

/-- Variants of a join. -/
inductive JoinType where
  | inner
  | full
  | cross
  | left
  | right
  /-- The rows on the left with a partner on the right; it has no syntax of its own. -/
  | leftSemi
  /-- The rows on the left without a partner on the right; it has no syntax of its own. -/
  | leftAnti
  /-- The implicit join between the tables of a comma-separated list. -/
  | comma
deriving DecidableEq, Inhabited

namespace JoinType

/-- The constant name of the variant. -/
def name : JoinType → String
  | .inner => "INNER"
  | .full => "FULL"
  | .cross => "CROSS"
  | .left => "LEFT"
  | .right => "RIGHT"
  | .leftSemi => "LEFT_SEMI_JOIN"
  | .leftAnti => "LEFT_ANTI_JOIN"
  | .comma => "COMMA"

/-- Every variant. -/
def all : List JoinType :=
  [.inner, .full, .cross, .left, .right, .leftSemi, .leftAnti, .comma]

/-- Looks a variant up by its constant name. -/
def ofName? (text : String) : Option JoinType := all.find? fun type => type.name == text

end JoinType

/-- How a join states its condition. -/
inductive JoinCondition where
  /-- The join has no condition. -/
  | none
  /-- `ON` and an expression. -/
  | on
  /-- `USING` and a list of columns. -/
  | using
deriving DecidableEq, Inhabited

namespace JoinCondition

/-- The constant name of the form. -/
def name : JoinCondition → String
  | .none => "NONE"
  | .on => "ON"
  | .using => "USING"

/-- Every form. -/
def all : List JoinCondition := [.none, .on, .using]

/-- Looks a form up by its constant name. -/
def ofName? (text : String) : Option JoinCondition :=
  all.find? fun condition => condition.name == text

end JoinCondition

/-- The side from which `TRIM` removes characters. -/
inductive TrimSide where
  | both
  | leading
  | trailing
deriving DecidableEq, Inhabited

namespace TrimSide

/-- The constant name of the side. -/
def name : TrimSide → String
  | .both => "BOTH"
  | .leading => "LEADING"
  | .trailing => "TRAILING"

/-- Every side. -/
def all : List TrimSide := [.both, .leading, .trailing]

/-- Looks a side up by its constant name. -/
def ofName? (text : String) : Option TrimSide := all.find? fun side => side.name == text

end TrimSide

/-- Keywords that may follow `SELECT`. -/
inductive SelectKeyword where
  | distinct
  | all
  | stream
deriving DecidableEq, Inhabited

namespace SelectKeyword

/-- The constant name of the keyword. -/
def name : SelectKeyword → String
  | .distinct => "DISTINCT"
  | .all => "ALL"
  | .stream => "STREAM"

/-- Every keyword. -/
def every : List SelectKeyword := [.distinct, .all, .stream]

/-- Looks a keyword up by its constant name. -/
def ofName? (text : String) : Option SelectKeyword :=
  every.find? fun keyword => keyword.name == text

end SelectKeyword

/-- A flag that stands in a statement as a literal. -/
inductive Symbol where
  | trim (side : TrimSide)
  | select (keyword : SelectKeyword)
  | join (type : JoinType)
  | joinCondition (condition : JoinCondition)
  /-- A unit of time such as `YEAR`. -/
  | timeUnit (name : String)
  /-- Any other flag, by its constant name. -/
  | other (name : String)
deriving DecidableEq, Inhabited

/-- The text of a flag is its constant name, whichever sort of flag it is. -/
def Symbol.text : Symbol → String
  | .trim side => side.name
  | .select keyword => keyword.name
  | .join type => type.name
  | .joinCondition condition => condition.name
  | .timeUnit name => name
  | .other name => name

end SqlDialect
