import SqlDialect.Node

/-!
# Dialects

The parser accepts more syntax than the engine can execute. A dialect is the list
of what it can. Every supported construct is in the list itself and nothing is
derived from a grouping that the parser makes, so syntax that the parser learns
later stays outside until it is added here.

The kinds that say nothing about the operator (`other`, `otherFunction`, and
`extract` and `position`, of which the engine has its own) are not among the
supported kinds: calls of them are supported by operator. Queries, joins and
statements over objects of the engine need a closer look too.
-/

namespace SqlDialect

/-- What a dialect of SQL contains. -/
structure Dialect where
  /-- The kinds of calls that need no closer look. -/
  kinds : List Kind
  /-- The operators that may be called although their kind says nothing about them. -/
  operators : List Operator
  /-- The variants of a join. -/
  joinTypes : List JoinType
  /-- The statements over objects of the engine, by name. -/
  statements : List String
  /-- The types that a column or a `CAST` may declare. -/
  declarableTypes : List TypeName
  /-- The name, in any case of letters, under which the type of all objects is declared. -/
  objectTypeName : String
  /-- The types that literals may have besides intervals. -/
  literalTypes : List TypeName
  /-- The keywords that may follow `SELECT`. -/
  selectKeywords : List SelectKeyword

namespace Dialect

/-! ## The dialect of the engine -/

/--
The dialect that the engine executes.

`CHAR` and `ANY` are types of literals only: a string is typed `CHAR` before it
becomes a `VARCHAR`, and a user declares `OBJECT` where the engine has `ANY`.
`SELECT ALL` is the opposite of `SELECT DISTINCT` and means nothing on its own, so
both are there; `STREAM` is not.
-/
def executable : Dialect where
  kinds := [
    .and, .or, .not, .inList, .notInList, .between,
    .plus, .minus, .times, .divide, .mod, .minusPrefix, .plusPrefix,
    .isTrue, .isNotTrue, .isFalse, .isNotFalse, .isNull, .isNotNull,
    .equals, .notEquals, .lessThan, .greaterThan, .greaterThanOrEqual, .lessThanOrEqual,
    .aliased, .cast, .ceil, .floor, .like, .trim, .caseWhen, .nullif, .coalesce, .union,
    .count, .min, .max, .sum, .avg,
    .createTable, .dropTable, .columnDecl, .row, .values, .insert,
    .collectionTable, .argumentAssignment,
    .descending]
  operators := [
    .engine .power, .engine .square, .engine .sqrt, .engine .cbrt, .engine .cos,
    .engine .sin, .engine .tan, .engine .cot, .engine .acos, .engine .asin,
    .engine .atan, .engine .atan2, .engine .exp, .engine .ln, .engine .log10,
    .engine .rand, .engine .abs, .standard .pi, .engine .sign, .engine .degrees,
    .engine .radians, .engine .round, .engine .truncate,
    .engine .ascii, .engine .initcap, .engine .charLength, .engine .characterLength,
    .engine .length, .engine .lower, .engine .upper, .engine .concat, .engine .concatWs,
    .engine .substring, .engine .ltrim, .engine .rtrim, .engine .btrim,
    .engine .replace, .engine .position, .engine .notLike,
    .engine .extract, .engine .toTimestampTz, .engine .toEpochMillis,
    .engine .option, .engine .showMappings, .engine .showJobs, .engine .generateSeries,
    .engine .generateStream, .engine .csvFile, .engine .jsonFlatFile, .engine .avroFile,
    .engine .parquetFile]
  joinTypes := [.inner, .comma, .cross, .left, .right]
  statements := ["CreateJob", "DropJob", "AlterJob", "CreateSnapshot", "DropSnapshot"]
  declarableTypes := [
    .boolean, .tinyint, .smallint, .integer, .bigint, .decimal, .real, .double,
    .varchar, .date, .time, .timestamp, .timestampWithLocalTimeZone, .null]
  objectTypeName := "OBJECT"
  literalTypes := [
    .boolean, .tinyint, .smallint, .integer, .bigint, .decimal, .real, .double,
    .varchar, .char, .timestamp, .timestampWithLocalTimeZone, .date, .time, .any, .null]
  selectKeywords := [.distinct, .all]

/-! ## Listing a dialect -/

/-- The constant names of the supported kinds, in the order of their code points. -/
def kindNames (d : Dialect) : List String :=
  (d.kinds.map Kind.name).mergeSort fun a b => decide (a ≤ b)

/-- The references of the supported operators, in the order of their code points. -/
def operatorReferences (d : Dialect) : List String :=
  (d.operators.map Operator.reference).mergeSort fun a b => decide (a ≤ b)

end Dialect

end SqlDialect
