import SqlDialect.CaseFold

/-!
# Type names

The scalar and structured types that the parser knows by name. A literal
carries one of them directly; a declaration carries an identifier, which
`TypeName.ofName?` resolves. Type names are matched without regard to ASCII
case, so `varchar` and `VARCHAR` declare the same type.

## Main results

* `TypeName.mem_all`: the list `TypeName.all` misses no type.
-/

namespace SqlDialect

/-- A type known to the parser. -/
inductive TypeName where
  | boolean
  | tinyint | smallint | integer | bigint | decimal
  | float | real | double
  | date | time | timeWithLocalTimeZone | timestamp | timestampWithLocalTimeZone
  | intervalYear | intervalYearMonth | intervalMonth
  | intervalDay | intervalDayHour | intervalDayMinute | intervalDaySecond
  | intervalHour | intervalHourMinute | intervalHourSecond | intervalMinute
  | intervalMinuteSecond | intervalSecond
  | char | varchar | binary | varbinary
  | null | any | symbol
  | multiset | array | map | distinct | structured | row | other | cursor
  | columnList | dynamicStar | geometry | sarg
deriving DecidableEq, Inhabited

namespace TypeName

/-- The constant name of the type. -/
def name : TypeName → String
  | .boolean => "BOOLEAN"
  | .tinyint => "TINYINT"
  | .smallint => "SMALLINT"
  | .integer => "INTEGER"
  | .bigint => "BIGINT"
  | .decimal => "DECIMAL"
  | .float => "FLOAT"
  | .real => "REAL"
  | .double => "DOUBLE"
  | .date => "DATE"
  | .time => "TIME"
  | .timeWithLocalTimeZone => "TIME_WITH_LOCAL_TIME_ZONE"
  | .timestamp => "TIMESTAMP"
  | .timestampWithLocalTimeZone => "TIMESTAMP_WITH_LOCAL_TIME_ZONE"
  | .intervalYear => "INTERVAL_YEAR"
  | .intervalYearMonth => "INTERVAL_YEAR_MONTH"
  | .intervalMonth => "INTERVAL_MONTH"
  | .intervalDay => "INTERVAL_DAY"
  | .intervalDayHour => "INTERVAL_DAY_HOUR"
  | .intervalDayMinute => "INTERVAL_DAY_MINUTE"
  | .intervalDaySecond => "INTERVAL_DAY_SECOND"
  | .intervalHour => "INTERVAL_HOUR"
  | .intervalHourMinute => "INTERVAL_HOUR_MINUTE"
  | .intervalHourSecond => "INTERVAL_HOUR_SECOND"
  | .intervalMinute => "INTERVAL_MINUTE"
  | .intervalMinuteSecond => "INTERVAL_MINUTE_SECOND"
  | .intervalSecond => "INTERVAL_SECOND"
  | .char => "CHAR"
  | .varchar => "VARCHAR"
  | .binary => "BINARY"
  | .varbinary => "VARBINARY"
  | .null => "NULL"
  | .any => "ANY"
  | .symbol => "SYMBOL"
  | .multiset => "MULTISET"
  | .array => "ARRAY"
  | .map => "MAP"
  | .distinct => "DISTINCT"
  | .structured => "STRUCTURED"
  | .row => "ROW"
  | .other => "OTHER"
  | .cursor => "CURSOR"
  | .columnList => "COLUMN_LIST"
  | .dynamicStar => "DYNAMIC_STAR"
  | .geometry => "GEOMETRY"
  | .sarg => "SARG"

/-- Every type, in order of declaration. -/
def all : List TypeName :=
  [.boolean, .tinyint, .smallint, .integer, .bigint, .decimal, .float, .real, .double,
   .date, .time, .timeWithLocalTimeZone, .timestamp, .timestampWithLocalTimeZone,
   .intervalYear, .intervalYearMonth, .intervalMonth, .intervalDay, .intervalDayHour,
   .intervalDayMinute, .intervalDaySecond, .intervalHour, .intervalHourMinute,
   .intervalHourSecond, .intervalMinute, .intervalMinuteSecond, .intervalSecond, .char,
   .varchar, .binary, .varbinary, .null, .any, .symbol, .multiset, .array, .map,
   .distinct, .structured, .row, .other, .cursor, .columnList, .dynamicStar, .geometry,
   .sarg]

/-- The enumeration misses no type. -/
theorem mem_all (type : TypeName) : type ∈ all := by
  cases type <;> decide

/-- Looks a type up by its name, ignoring ASCII case. -/
def ofName? (text : String) : Option TypeName :=
  all.find? fun type => sameIgnoringCase type.name text

/-- Year-month and day-time intervals, whatever their leading and trailing units. -/
def isInterval : TypeName → Bool
  | .intervalYear | .intervalYearMonth | .intervalMonth | .intervalDay
  | .intervalDayHour | .intervalDayMinute | .intervalDaySecond | .intervalHour
  | .intervalHourMinute | .intervalHourSecond | .intervalMinute
  | .intervalMinuteSecond | .intervalSecond => true
  | _ => false

end TypeName

end SqlDialect
