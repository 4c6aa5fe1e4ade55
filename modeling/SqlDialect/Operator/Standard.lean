import SqlDialect.Operator.Signature

/-!
# Operators of the SQL parser

The parser's own operators. Some of them share their name with an operator of
the engine (`POWER`, `UPPER`, …): the entries here are still other operators, and
a call of `POWER` may apply either of the two.
-/

namespace SqlDialect

/-- An operator of the SQL parser. -/
inductive StandardOperator where
  | and | or | not | inList | notInList | between | existsQuery | someOf
  | allOf | like | similarTo | overlaps
  | isTrue | isNotTrue | isFalse | isNotFalse | isNull | isNotNull
  | isDistinctFrom | isNotDistinctFrom
  | equals | notEquals | lessThan | greaterThan | lessThanOrEqual
  | greaterThanOrEqual
  | plus | minus | multiply | divide | mod | unaryMinus | unaryPlus
  | aliased | cast | caseWhen | nullif | coalesce | ceil | floor | trim
  | extract | position | dot | item
  | row | mapValueConstructor | arrayValueConstructor | multisetValueConstructor
  | count | min | max | sum | avg | stddevPop | listagg | over | filter
  | rowNumber | rank | tumble | hop
  | select | join | union | unionAll | except | intersect | orderBy | withClause
  | values | explicitTable | lateral | unnest | collectionTable
  | argumentAssignment | desc | nullsFirst | nullsLast
  | insert | update | delete | merge
  | createTable | dropTable | createView | columnDecl
  | explain | describeTable | setOption
  | pi | power | abs | sqrt | upper | lower | substring | charLength | concat
  | currentTimestamp | currentDate | jsonValue | regexpReplace
deriving DecidableEq

namespace StandardOperator

/-- The declaration of each entry: its constant and its signature. -/
def declaration : StandardOperator → Declaration
  | .and => ⟨"AND", .builtin "AND" .and⟩
  | .or => ⟨"OR", .builtin "OR" .or⟩
  | .not => ⟨"NOT", .builtin "NOT" .not⟩
  | .inList => ⟨"IN", .builtin "IN" .inList⟩
  | .notInList => ⟨"NOT_IN", .builtin "NOT IN" .notInList⟩
  | .between => ⟨"BETWEEN", .builtin "BETWEEN" .between⟩
  | .existsQuery => ⟨"EXISTS", .builtin "EXISTS" .existsQuery⟩
  | .someOf => ⟨"SOME", .builtin "SOME" .someQuantifier⟩
  | .allOf => ⟨"ALL", .builtin "ALL" .allQuantifier⟩
  | .like => ⟨"LIKE", .builtin "LIKE" .like⟩
  | .similarTo => ⟨"SIMILAR_TO", .builtin "SIMILAR TO" .similar⟩
  | .overlaps => ⟨"OVERLAPS", .builtin "OVERLAPS" .overlaps⟩
  | .isTrue => ⟨"IS_TRUE", .builtin "IS TRUE" .isTrue⟩
  | .isNotTrue => ⟨"IS_NOT_TRUE", .builtin "IS NOT TRUE" .isNotTrue⟩
  | .isFalse => ⟨"IS_FALSE", .builtin "IS FALSE" .isFalse⟩
  | .isNotFalse => ⟨"IS_NOT_FALSE", .builtin "IS NOT FALSE" .isNotFalse⟩
  | .isNull => ⟨"IS_NULL", .builtin "IS NULL" .isNull⟩
  | .isNotNull => ⟨"IS_NOT_NULL", .builtin "IS NOT NULL" .isNotNull⟩
  | .isDistinctFrom => ⟨"IS_DISTINCT_FROM", .builtin "IS DISTINCT FROM" .isDistinctFrom⟩
  | .isNotDistinctFrom =>
      ⟨"IS_NOT_DISTINCT_FROM", .builtin "IS NOT DISTINCT FROM" .isNotDistinctFrom⟩
  | .equals => ⟨"EQUALS", .builtin "=" .equals⟩
  | .notEquals => ⟨"NOT_EQUALS", .builtin "<>" .notEquals⟩
  | .lessThan => ⟨"LESS_THAN", .builtin "<" .lessThan⟩
  | .greaterThan => ⟨"GREATER_THAN", .builtin ">" .greaterThan⟩
  | .lessThanOrEqual => ⟨"LESS_THAN_OR_EQUAL", .builtin "<=" .lessThanOrEqual⟩
  | .greaterThanOrEqual => ⟨"GREATER_THAN_OR_EQUAL", .builtin ">=" .greaterThanOrEqual⟩
  | .plus => ⟨"PLUS", .builtin "+" .plus⟩
  | .minus => ⟨"MINUS", .builtin "-" .minus⟩
  | .multiply => ⟨"MULTIPLY", .builtin "*" .times⟩
  | .divide => ⟨"DIVIDE", .builtin "/" .divide⟩
  | .mod => ⟨"MOD", .builtin "MOD" .mod⟩
  | .unaryMinus => ⟨"UNARY_MINUS", .builtin "-" .minusPrefix⟩
  | .unaryPlus => ⟨"UNARY_PLUS", .builtin "+" .plusPrefix⟩
  | .aliased => ⟨"AS", .builtin "AS" .aliased⟩
  | .cast => ⟨"CAST", .builtin "CAST" .cast⟩
  | .caseWhen => ⟨"CASE", .builtin "CASE" .caseWhen⟩
  | .nullif => ⟨"NULLIF", .builtin "NULLIF" .nullif⟩
  | .coalesce => ⟨"COALESCE", .builtin "COALESCE" .coalesce⟩
  | .ceil => ⟨"CEIL", .builtin "CEIL" .ceil⟩
  | .floor => ⟨"FLOOR", .builtin "FLOOR" .floor⟩
  | .trim => ⟨"TRIM", .builtin "TRIM" .trim⟩
  | .extract => ⟨"EXTRACT", .builtin "EXTRACT" .extract⟩
  | .position => ⟨"POSITION", .builtin "POSITION" .position⟩
  | .dot => ⟨"DOT", .builtin "DOT" .dot⟩
  | .item => ⟨"ITEM", .builtin "ITEM" .item⟩
  | .row => ⟨"ROW", .builtin "ROW" .row⟩
  | .mapValueConstructor => ⟨"MAP_VALUE_CONSTRUCTOR", .builtin "MAP" .mapValueConstructor⟩
  | .arrayValueConstructor =>
      ⟨"ARRAY_VALUE_CONSTRUCTOR", .builtin "ARRAY" .arrayValueConstructor⟩
  | .multisetValueConstructor =>
      ⟨"MULTISET_VALUE_CONSTRUCTOR", .builtin "MULTISET" .multisetValueConstructor⟩
  | .count => ⟨"COUNT", .builtin "COUNT" .count⟩
  | .min => ⟨"MIN", .builtin "MIN" .min⟩
  | .max => ⟨"MAX", .builtin "MAX" .max⟩
  | .sum => ⟨"SUM", .builtin "SUM" .sum⟩
  | .avg => ⟨"AVG", .builtin "AVG" .avg⟩
  | .stddevPop => ⟨"STDDEV_POP", .builtin "STDDEV_POP" .stddevPop⟩
  | .listagg => ⟨"LISTAGG", .builtin "LISTAGG" .listAgg⟩
  | .over => ⟨"OVER", .builtin "OVER" .over⟩
  | .filter => ⟨"FILTER", .builtin "FILTER" .filter⟩
  | .rowNumber => ⟨"ROW_NUMBER", .builtin "ROW_NUMBER" .rowNumber⟩
  | .rank => ⟨"RANK", .builtin "RANK" .rank⟩
  | .tumble => ⟨"TUMBLE", .builtin "TUMBLE" .tumble⟩
  | .hop => ⟨"HOP", .builtin "HOP" .hop⟩
  | .select => ⟨"SELECT", .builtin "SELECT" .select⟩
  | .join => ⟨"JOIN", .builtin "JOIN" .join⟩
  | .union => ⟨"UNION", .builtin "UNION" .union⟩
  | .unionAll => ⟨"UNION_ALL", .builtin "UNION ALL" .union⟩
  | .except => ⟨"EXCEPT", .builtin "EXCEPT" .except⟩
  | .intersect => ⟨"INTERSECT", .builtin "INTERSECT" .intersect⟩
  | .orderBy => ⟨"ORDER_BY", .builtin "ORDER BY" .orderBy⟩
  | .withClause => ⟨"WITH", .builtin "WITH" .withClause⟩
  | .values => ⟨"VALUES", .builtin "VALUES" .values⟩
  | .explicitTable => ⟨"EXPLICIT_TABLE", .builtin "TABLE" .explicitTable⟩
  | .lateral => ⟨"LATERAL", .builtin "LATERAL" .lateral⟩
  | .unnest => ⟨"UNNEST", .builtin "UNNEST" .unnest⟩
  | .collectionTable => ⟨"COLLECTION_TABLE", .builtin "TABLE" .collectionTable⟩
  | .argumentAssignment => ⟨"ARGUMENT_ASSIGNMENT", .builtin "=>" .argumentAssignment⟩
  | .desc => ⟨"DESC", .builtin "DESC" .descending⟩
  | .nullsFirst => ⟨"NULLS_FIRST", .builtin "NULLS FIRST" .nullsFirst⟩
  | .nullsLast => ⟨"NULLS_LAST", .builtin "NULLS LAST" .nullsLast⟩
  | .insert => ⟨"INSERT", .builtin "INSERT" .insert⟩
  | .update => ⟨"UPDATE", .builtin "UPDATE" .update⟩
  | .delete => ⟨"DELETE", .builtin "DELETE" .delete⟩
  | .merge => ⟨"MERGE", .builtin "MERGE" .merge⟩
  | .createTable => ⟨"CREATE_TABLE", .builtin "CREATE TABLE" .createTable⟩
  | .dropTable => ⟨"DROP_TABLE", .builtin "DROP TABLE" .dropTable⟩
  | .createView => ⟨"CREATE_VIEW", .builtin "CREATE VIEW" .createView⟩
  | .columnDecl => ⟨"COLUMN_DECL", .builtin "COLUMN_DECL" .columnDecl⟩
  | .explain => ⟨"EXPLAIN", .builtin "EXPLAIN" .explain⟩
  | .describeTable => ⟨"DESCRIBE_TABLE", .builtin "DESCRIBE" .describe⟩
  | .setOption => ⟨"SET_OPTION", .builtin "SET_OPTION" .setOption⟩
  | .pi => ⟨"PI", .builtin "PI" .otherFunction⟩
  | .power => ⟨"POWER", .builtin "POWER" .otherFunction⟩
  | .abs => ⟨"ABS", .builtin "ABS" .otherFunction⟩
  | .sqrt => ⟨"SQRT", .builtin "SQRT" .otherFunction⟩
  | .upper => ⟨"UPPER", .builtin "UPPER" .otherFunction⟩
  | .lower => ⟨"LOWER", .builtin "LOWER" .otherFunction⟩
  | .substring => ⟨"SUBSTRING", .builtin "SUBSTRING" .otherFunction⟩
  | .charLength => ⟨"CHAR_LENGTH", .builtin "CHAR_LENGTH" .otherFunction⟩
  | .concat => ⟨"CONCAT", .builtin "||" .other⟩
  | .currentTimestamp =>
      ⟨"CURRENT_TIMESTAMP", .builtin "CURRENT_TIMESTAMP" .otherFunction⟩
  | .currentDate => ⟨"CURRENT_DATE", .builtin "CURRENT_DATE" .otherFunction⟩
  | .jsonValue => ⟨"JSON_VALUE", .builtin "JSON_VALUE" .otherFunction⟩
  | .regexpReplace => ⟨"REGEXP_REPLACE", .builtin "REGEXP_REPLACE" .otherFunction⟩

/-- The constant by which the table names the entry. -/
def constant (entry : StandardOperator) : String := entry.declaration.constant

/-- The name, kind and family of the entry. -/
def signature (entry : StandardOperator) : Signature := entry.declaration.signature

/-- The whole table, in order of declaration. -/
def all : List StandardOperator :=
  [.and, .or, .not, .inList, .notInList, .between, .existsQuery, .someOf, .allOf, .like,
   .similarTo, .overlaps, .isTrue, .isNotTrue, .isFalse, .isNotFalse, .isNull,
   .isNotNull, .isDistinctFrom, .isNotDistinctFrom, .equals, .notEquals, .lessThan,
   .greaterThan, .lessThanOrEqual, .greaterThanOrEqual, .plus, .minus, .multiply,
   .divide, .mod, .unaryMinus, .unaryPlus, .aliased, .cast, .caseWhen, .nullif,
   .coalesce, .ceil, .floor, .trim, .extract, .position, .dot, .item, .row,
   .mapValueConstructor, .arrayValueConstructor, .multisetValueConstructor, .count,
   .min, .max, .sum, .avg, .stddevPop, .listagg, .over, .filter, .rowNumber, .rank,
   .tumble, .hop, .select, .join, .union, .unionAll, .except, .intersect, .orderBy,
   .withClause, .values, .explicitTable, .lateral, .unnest, .collectionTable,
   .argumentAssignment, .desc, .nullsFirst, .nullsLast, .insert, .update, .delete,
   .merge, .createTable, .dropTable, .createView, .columnDecl, .explain, .describeTable,
   .setOption, .pi, .power, .abs, .sqrt, .upper, .lower, .substring, .charLength,
   .concat, .currentTimestamp, .currentDate, .jsonValue, .regexpReplace]

/-- The enumeration misses no entry. -/
theorem mem_all (entry : StandardOperator) : entry ∈ all := by
  cases entry <;> decide

end StandardOperator

end SqlDialect
