/-!
# Kinds of calls

A *kind* is the syntactic category of a call. Several operators share a kind:
`otherFunction` covers every named function without a category of its own, and
`other` and `otherDdl` are catch-alls in the same way, so a kind alone does not
say which operator a call applies.

Each kind has a constant name (`ORDER_BY`), by which tools refer to it, and a
display name (`ORDER BY`), by which messages to the user mention it.

## Main results

* `Kind.mem_all`: the list `Kind.all` misses no kind.
-/

namespace SqlDialect

/-- The syntactic category of a call. -/
inductive Kind where
  | select | join | union | except | intersect | orderBy | withClause | withItem
  | values | row | explicitTable | lateral | unnest | collectionTable
  | argumentAssignment | descending | nullsFirst | nullsLast | tableSample
  | snapshot | matchRecognize
  | insert | update | delete | merge | upsert
  | createTable | dropTable | alterTable | createView | dropView | createIndex
  | dropIndex | createType | columnDecl | otherDdl
  | and | or | not | inList | notInList | between | existsQuery | someQuantifier
  | allQuantifier | like | similar | overlaps | isTrue | isNotTrue | isFalse
  | isNotFalse | isNull | isNotNull | isDistinctFrom | isNotDistinctFrom
  | equals | notEquals | lessThan | greaterThan | lessThanOrEqual
  | greaterThanOrEqual
  | plus | minus | times | divide | mod | minusPrefix | plusPrefix
  | aliased | cast | caseWhen | nullif | coalesce | ceil | floor | trim
  | extract | position | dot | item
  | mapValueConstructor | arrayValueConstructor | multisetValueConstructor
  | arrayQueryConstructor | mapQueryConstructor | cursorConstructor
  | count | min | max | sum | avg | stddevPop | varPop | listAgg | over
  | window | filter | withinGroup | rowNumber | rank | tumble | hop | session
  | jsonValueExpression | jsonArray | jsonObject
  | explain | describe | setOption
  | otherFunction | other
deriving DecidableEq, Inhabited

namespace Kind

/-- The constant by which tools refer to the kind. -/
def name : Kind → String
  | .select => "SELECT"
  | .join => "JOIN"
  | .union => "UNION"
  | .except => "EXCEPT"
  | .intersect => "INTERSECT"
  | .orderBy => "ORDER_BY"
  | .withClause => "WITH"
  | .withItem => "WITH_ITEM"
  | .values => "VALUES"
  | .row => "ROW"
  | .explicitTable => "EXPLICIT_TABLE"
  | .lateral => "LATERAL"
  | .unnest => "UNNEST"
  | .collectionTable => "COLLECTION_TABLE"
  | .argumentAssignment => "ARGUMENT_ASSIGNMENT"
  | .descending => "DESCENDING"
  | .nullsFirst => "NULLS_FIRST"
  | .nullsLast => "NULLS_LAST"
  | .tableSample => "TABLESAMPLE"
  | .snapshot => "SNAPSHOT"
  | .matchRecognize => "MATCH_RECOGNIZE"
  | .insert => "INSERT"
  | .update => "UPDATE"
  | .delete => "DELETE"
  | .merge => "MERGE"
  | .upsert => "UPSERT"
  | .createTable => "CREATE_TABLE"
  | .dropTable => "DROP_TABLE"
  | .alterTable => "ALTER_TABLE"
  | .createView => "CREATE_VIEW"
  | .dropView => "DROP_VIEW"
  | .createIndex => "CREATE_INDEX"
  | .dropIndex => "DROP_INDEX"
  | .createType => "CREATE_TYPE"
  | .columnDecl => "COLUMN_DECL"
  | .otherDdl => "OTHER_DDL"
  | .and => "AND"
  | .or => "OR"
  | .not => "NOT"
  | .inList => "IN"
  | .notInList => "NOT_IN"
  | .between => "BETWEEN"
  | .existsQuery => "EXISTS"
  | .someQuantifier => "SOME"
  | .allQuantifier => "ALL"
  | .like => "LIKE"
  | .similar => "SIMILAR"
  | .overlaps => "OVERLAPS"
  | .isTrue => "IS_TRUE"
  | .isNotTrue => "IS_NOT_TRUE"
  | .isFalse => "IS_FALSE"
  | .isNotFalse => "IS_NOT_FALSE"
  | .isNull => "IS_NULL"
  | .isNotNull => "IS_NOT_NULL"
  | .isDistinctFrom => "IS_DISTINCT_FROM"
  | .isNotDistinctFrom => "IS_NOT_DISTINCT_FROM"
  | .equals => "EQUALS"
  | .notEquals => "NOT_EQUALS"
  | .lessThan => "LESS_THAN"
  | .greaterThan => "GREATER_THAN"
  | .lessThanOrEqual => "LESS_THAN_OR_EQUAL"
  | .greaterThanOrEqual => "GREATER_THAN_OR_EQUAL"
  | .plus => "PLUS"
  | .minus => "MINUS"
  | .times => "TIMES"
  | .divide => "DIVIDE"
  | .mod => "MOD"
  | .minusPrefix => "MINUS_PREFIX"
  | .plusPrefix => "PLUS_PREFIX"
  | .aliased => "AS"
  | .cast => "CAST"
  | .caseWhen => "CASE"
  | .nullif => "NULLIF"
  | .coalesce => "COALESCE"
  | .ceil => "CEIL"
  | .floor => "FLOOR"
  | .trim => "TRIM"
  | .extract => "EXTRACT"
  | .position => "POSITION"
  | .dot => "DOT"
  | .item => "ITEM"
  | .mapValueConstructor => "MAP_VALUE_CONSTRUCTOR"
  | .arrayValueConstructor => "ARRAY_VALUE_CONSTRUCTOR"
  | .multisetValueConstructor => "MULTISET_VALUE_CONSTRUCTOR"
  | .arrayQueryConstructor => "ARRAY_QUERY_CONSTRUCTOR"
  | .mapQueryConstructor => "MAP_QUERY_CONSTRUCTOR"
  | .cursorConstructor => "CURSOR"
  | .count => "COUNT"
  | .min => "MIN"
  | .max => "MAX"
  | .sum => "SUM"
  | .avg => "AVG"
  | .stddevPop => "STDDEV_POP"
  | .varPop => "VAR_POP"
  | .listAgg => "LISTAGG"
  | .over => "OVER"
  | .window => "WINDOW"
  | .filter => "FILTER"
  | .withinGroup => "WITHIN_GROUP"
  | .rowNumber => "ROW_NUMBER"
  | .rank => "RANK"
  | .tumble => "TUMBLE"
  | .hop => "HOP"
  | .session => "SESSION"
  | .jsonValueExpression => "JSON_VALUE_EXPRESSION"
  | .jsonArray => "JSON_ARRAY"
  | .jsonObject => "JSON_OBJECT"
  | .explain => "EXPLAIN"
  | .describe => "DESCRIBE_TABLE"
  | .setOption => "SET_OPTION"
  | .otherFunction => "OTHER_FUNCTION"
  | .other => "OTHER"

/-- Every kind, in order of declaration. -/
def all : List Kind :=
  [.select, .join, .union, .except, .intersect, .orderBy, .withClause, .withItem,
   .values, .row, .explicitTable, .lateral, .unnest, .collectionTable,
   .argumentAssignment, .descending, .nullsFirst, .nullsLast, .tableSample, .snapshot,
   .matchRecognize, .insert, .update, .delete, .merge, .upsert, .createTable,
   .dropTable, .alterTable, .createView, .dropView, .createIndex, .dropIndex,
   .createType, .columnDecl, .otherDdl, .and, .or, .not, .inList, .notInList, .between,
   .existsQuery, .someQuantifier, .allQuantifier, .like, .similar, .overlaps, .isTrue,
   .isNotTrue, .isFalse, .isNotFalse, .isNull, .isNotNull, .isDistinctFrom,
   .isNotDistinctFrom, .equals, .notEquals, .lessThan, .greaterThan, .lessThanOrEqual,
   .greaterThanOrEqual, .plus, .minus, .times, .divide, .mod, .minusPrefix, .plusPrefix,
   .aliased, .cast, .caseWhen, .nullif, .coalesce, .ceil, .floor, .trim, .extract,
   .position, .dot, .item, .mapValueConstructor, .arrayValueConstructor,
   .multisetValueConstructor, .arrayQueryConstructor, .mapQueryConstructor,
   .cursorConstructor, .count, .min, .max, .sum, .avg, .stddevPop, .varPop, .listAgg,
   .over, .window, .filter, .withinGroup, .rowNumber, .rank, .tumble, .hop, .session,
   .jsonValueExpression, .jsonArray, .jsonObject, .explain, .describe, .setOption,
   .otherFunction, .other]

/-- The enumeration misses no kind. -/
theorem mem_all (kind : Kind) : kind ∈ all := by
  cases kind <;> decide

/-- Looks a kind up by its constant name, which is matched exactly. -/
def ofName? (text : String) : Option Kind :=
  all.find? fun kind => kind.name == text

/--
The name used in messages: the constant name with a space for each underscore.
-/
def displayName (kind : Kind) : String :=
  String.ofList (kind.name.toList.map fun c => if c = '_' then ' ' else c)

end Kind

end SqlDialect
