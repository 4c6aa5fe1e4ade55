import SqlDialect.Dialect
import SqlDialect.Violation

/-!
# Judging a construct

Whether a dialect contains a single construct, without regard to what is below
it. A judgement is the cause for refusing the construct, or `none`. Of what has
come before, only one thing matters: whether a query has been met already.

## Main results

* `Dialect.typeCause?_collection`, `Dialect.typeCause?_row`: types that are made of
  other types cannot be declared, whatever they are made of.
* `Dialect.literalCause?_of_symbol`: a flag is judged as a flag, under whatever
  type it is written.
-/

namespace SqlDialect

namespace Dialect

/-! ## Literals and types -/

/--
Whether a flag may stand as a literal. Every trim side and every form of a join
condition may.
-/
def supportsSymbol (d : Dialect) : Symbol → Bool
  | .trim _ => true
  | .select keyword => keyword ∈ d.selectKeywords
  | .join type => type ∈ d.joinTypes
  | .joinCondition _ => true
  | .timeUnit _ => false
  | .other _ => false

/-- Why a literal is refused. A flag is judged by its value, any other literal by its type. -/
def literalCause? (d : Dialect) (literal : Literal) : Option Cause :=
  match literal.symbol? with
  | some symbol => if d.supportsSymbol symbol then none else some (.symbol symbol)
  | none =>
    if literal.type.isInterval || literal.type ∈ d.literalTypes then none
    else some (.literalType literal.type)

theorem literalCause?_of_symbol (d : Dialect) (symbol : Symbol) (type : TypeName)
    (position : Position) :
    d.literalCause? ⟨.symbol symbol, type, position⟩ =
      if d.supportsSymbol symbol then none else some (.symbol symbol) := rfl

/--
Why a declared type is refused. A type that is known but cannot be declared is
called by its own name, an unknown one by the text of the identifier.
-/
def typeCause? (d : Dialect) : TypeSpec → Option Cause
  | .basic name _ _ =>
    match name.simple? >>= TypeName.ofName? with
    | some type => if type ∈ d.declarableTypes then none else some (.typeName type.name)
    | none => some (.typeName name.text)
  | .userDefined name =>
    if name.simple?.any (sameIgnoringCase · d.objectTypeName) then none else some .complexType
  | .collection _ _ => some .complexType
  | .row _ _ => some .complexType

@[simp] theorem typeCause?_collection (d : Dialect) (element : TypeSpec)
    (container : Identifier) : d.typeCause? (.collection element container) = some .complexType :=
  rfl

@[simp] theorem typeCause?_row (d : Dialect) (name : Identifier)
    (fields : List (Identifier × TypeSpec)) :
    d.typeCause? (.row name fields) = some .complexType := rfl

/-! ## Calls -/

/-- Why a query is refused: only the first query of a statement may limit or skip rows. -/
def queryCause? (queryMet : Bool) (query : Query Node) : Option Cause :=
  if queryMet && query.limitsRows then some .nestedRowLimit else none

/-- Why a join is refused. -/
def joinCause? (d : Dialect) (join : Join Node) : Option Cause :=
  match join.joinType? with
  | some type => if type ∈ d.joinTypes then none else some (.joinType type)
  | none => some .unknownJoin

/-- Why the call of an operator is refused whose kind says nothing about it. -/
def operatorCause? (d : Dialect) (operator : Operator) : Option Cause :=
  if operator ∈ d.operators then none else some (.operator operator.name)

/--
Why a statement over objects of the engine is refused. A call of another shape
names no statement, and its operator is named instead.
-/
def statementCause? (d : Dialect) : Call Node → Option Cause
  | .ddl _ statement _ _ => if statement ∈ d.statements then none else some (.statement statement)
  | call => some (.statement call.operator.name)

/--
Why a call is refused. The kinds of the dialect need no closer look, and updates and
deletions are free of constraints at this stage. A call whose kind asks for the parts
of a query or of a join is refused if it has another shape.
-/
def callCause? (d : Dialect) (queryMet : Bool) (call : Call Node) : Option Cause :=
  if call.kind ∈ d.kinds then none
  else
    match call.kind with
    | .select =>
      match call with
      | .select query => queryCause? queryMet query
      | _ => some (.kind .select)
    | .update | .delete => none
    | .join =>
      match call with
      | .join join => d.joinCause? join
      | _ => some (.kind .join)
    | .other | .otherFunction | .extract | .position => d.operatorCause? call.operator
    | .otherDdl => d.statementCause? call
    | kind => some (.kind kind)

end Dialect

end SqlDialect
