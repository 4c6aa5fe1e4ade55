import SqlDialect.Operator.Signature

/-!
# Operators of the engine

Operators that the engine contributes: its own scalar functions, the extension
statements, the table functions over files and generators, and the statements
that manage mappings, jobs and snapshots.

A table function over a file takes its options as a `MAP` constructor, which is
not supported anywhere else; its family says so.
-/

namespace SqlDialect

/-- An operator contributed by the engine. -/
inductive EngineOperator where
  | power | square | sqrt | cbrt | cos | sin | tan | cot | acos | asin | atan
  | atan2 | exp | ln | log10 | rand | abs | sign | degrees | radians | round
  | truncate
  | ascii | initcap | charLength | characterLength | length | lower | upper
  | concat | concatWs | substring | ltrim | rtrim | btrim | replace | position
  | notLike
  | extract | toTimestampTz | toEpochMillis
  | option | showMappings | showJobs
  | generateSeries | generateStream | csvFile | jsonFlatFile | avroFile
  | parquetFile
  | createMapping | dropMapping | createJob | alterJob | dropJob | createSnapshot
  | dropSnapshot | createView | createIndex | sinkInto
deriving DecidableEq

namespace EngineOperator

/-- The declaration of each entry: its constant and its signature. -/
def declaration : EngineOperator → Declaration
  | .power => ⟨"POWER", .builtin "POWER" .otherFunction⟩
  | .square => ⟨"SQUARE", .builtin "SQUARE" .otherFunction⟩
  | .sqrt => ⟨"SQRT", .builtin "SQRT" .otherFunction⟩
  | .cbrt => ⟨"CBRT", .builtin "CBRT" .otherFunction⟩
  | .cos => ⟨"COS", .builtin "COS" .otherFunction⟩
  | .sin => ⟨"SIN", .builtin "SIN" .otherFunction⟩
  | .tan => ⟨"TAN", .builtin "TAN" .otherFunction⟩
  | .cot => ⟨"COT", .builtin "COT" .otherFunction⟩
  | .acos => ⟨"ACOS", .builtin "ACOS" .otherFunction⟩
  | .asin => ⟨"ASIN", .builtin "ASIN" .otherFunction⟩
  | .atan => ⟨"ATAN", .builtin "ATAN" .otherFunction⟩
  | .atan2 => ⟨"ATAN2", .builtin "ATAN2" .otherFunction⟩
  | .exp => ⟨"EXP", .builtin "EXP" .otherFunction⟩
  | .ln => ⟨"LN", .builtin "LN" .otherFunction⟩
  | .log10 => ⟨"LOG10", .builtin "LOG10" .otherFunction⟩
  | .rand => ⟨"RAND", .builtin "RAND" .otherFunction⟩
  | .abs => ⟨"ABS", .builtin "ABS" .otherFunction⟩
  | .sign => ⟨"SIGN", .builtin "SIGN" .otherFunction⟩
  | .degrees => ⟨"DEGREES", .builtin "DEGREES" .otherFunction⟩
  | .radians => ⟨"RADIANS", .builtin "RADIANS" .otherFunction⟩
  | .round => ⟨"ROUND", .builtin "ROUND" .otherFunction⟩
  | .truncate => ⟨"TRUNCATE", .builtin "TRUNCATE" .otherFunction⟩
  | .ascii => ⟨"ASCII", .builtin "ASCII" .otherFunction⟩
  | .initcap => ⟨"INITCAP", .builtin "INITCAP" .otherFunction⟩
  | .charLength => ⟨"CHAR_LENGTH", .builtin "CHAR_LENGTH" .otherFunction⟩
  | .characterLength => ⟨"CHARACTER_LENGTH", .builtin "CHARACTER_LENGTH" .otherFunction⟩
  | .length => ⟨"LENGTH", .builtin "LENGTH" .otherFunction⟩
  | .lower => ⟨"LOWER", .builtin "LOWER" .otherFunction⟩
  | .upper => ⟨"UPPER", .builtin "UPPER" .otherFunction⟩
  | .concat => ⟨"CONCAT", .builtin "||" .other⟩
  | .concatWs => ⟨"CONCAT_WS", .builtin "CONCAT_WS" .otherFunction⟩
  | .substring => ⟨"SUBSTRING", .builtin "SUBSTRING" .otherFunction⟩
  | .ltrim => ⟨"LTRIM", .builtin "LTRIM" .otherFunction⟩
  | .rtrim => ⟨"RTRIM", .builtin "RTRIM" .otherFunction⟩
  | .btrim => ⟨"BTRIM", .builtin "BTRIM" .otherFunction⟩
  | .replace => ⟨"REPLACE", .builtin "REPLACE" .otherFunction⟩
  | .position => ⟨"POSITION", .builtin "POSITION" .position⟩
  | .notLike => ⟨"NOT_LIKE", .builtin "NOT LIKE" .other⟩
  | .extract => ⟨"EXTRACT", .builtin "EXTRACT" .extract⟩
  | .toTimestampTz => ⟨"TO_TIMESTAMP_TZ", .builtin "TO_TIMESTAMP_TZ" .otherFunction⟩
  | .toEpochMillis => ⟨"TO_EPOCH_MILLIS", .builtin "TO_EPOCH_MILLIS" .otherFunction⟩
  | .option => ⟨"OPTION", .builtin "OPTION" .other⟩
  | .showMappings => ⟨"SHOW_MAPPINGS", .builtin "SHOW MAPPINGS" .other⟩
  | .showJobs => ⟨"SHOW_JOBS", .builtin "SHOW JOBS" .other⟩
  | .generateSeries => ⟨"GENERATE_SERIES", .builtin "GENERATE_SERIES" .otherFunction⟩
  | .generateStream => ⟨"GENERATE_STREAM", .builtin "GENERATE_STREAM" .otherFunction⟩
  | .csvFile => ⟨"CSV_FILE", .tableFunction "CSV_FILE"⟩
  | .jsonFlatFile => ⟨"JSON_FLAT_FILE", .tableFunction "JSON_FLAT_FILE"⟩
  | .avroFile => ⟨"AVRO_FILE", .tableFunction "AVRO_FILE"⟩
  | .parquetFile => ⟨"PARQUET_FILE", .tableFunction "PARQUET_FILE"⟩
  | .createMapping => ⟨"CREATE_MAPPING", .builtin "CREATE MAPPING" .createTable⟩
  | .dropMapping => ⟨"DROP_MAPPING", .builtin "DROP MAPPING" .dropTable⟩
  | .createJob => ⟨"CREATE_JOB", .builtin "CREATE JOB" .otherDdl⟩
  | .alterJob => ⟨"ALTER_JOB", .builtin "ALTER JOB" .otherDdl⟩
  | .dropJob => ⟨"DROP_JOB", .builtin "DROP JOB" .otherDdl⟩
  | .createSnapshot => ⟨"CREATE_SNAPSHOT", .builtin "CREATE SNAPSHOT" .otherDdl⟩
  | .dropSnapshot => ⟨"DROP_SNAPSHOT", .builtin "DROP SNAPSHOT" .otherDdl⟩
  | .createView => ⟨"CREATE_VIEW", .builtin "CREATE VIEW" .otherDdl⟩
  | .createIndex => ⟨"CREATE_INDEX", .builtin "CREATE INDEX" .otherDdl⟩
  | .sinkInto => ⟨"SINK_INTO", .builtin "SINK INTO" .insert⟩

/-- The constant by which the table names the entry. -/
def constant (entry : EngineOperator) : String := entry.declaration.constant

/-- The name, kind and family of the entry. -/
def signature (entry : EngineOperator) : Signature := entry.declaration.signature

/-- The whole table, in order of declaration. -/
def all : List EngineOperator :=
  [.power, .square, .sqrt, .cbrt, .cos, .sin, .tan, .cot, .acos, .asin, .atan, .atan2,
   .exp, .ln, .log10, .rand, .abs, .sign, .degrees, .radians, .round, .truncate, .ascii,
   .initcap, .charLength, .characterLength, .length, .lower, .upper, .concat, .concatWs,
   .substring, .ltrim, .rtrim, .btrim, .replace, .position, .notLike, .extract,
   .toTimestampTz, .toEpochMillis, .option, .showMappings, .showJobs, .generateSeries,
   .generateStream, .csvFile, .jsonFlatFile, .avroFile, .parquetFile, .createMapping,
   .dropMapping, .createJob, .alterJob, .dropJob, .createSnapshot, .dropSnapshot,
   .createView, .createIndex, .sinkInto]

/-- The enumeration misses no entry. -/
theorem mem_all (entry : EngineOperator) : entry ∈ all := by
  cases entry <;> decide

end EngineOperator

end SqlDialect
