import SqlDialect.Node.Expression

/-!
# Making types and statements

The counterparts of the functions for expressions: declared types, rows of
values, and the statements that insert rows or manage the objects of the engine.
-/

namespace SqlDialect

namespace Node

/-! ## Types -/

/-- A type that stands nowhere in the text. -/
def declared (spec : TypeSpec) : Node := .dataType (.plain spec .zero)

/-- A built-in type by name, without precision and scale. -/
def plainSpec (typeName : String) : TypeSpec := .basic (.named typeName .zero) none none

/-- A built-in type such as `DECIMAL(10, 2)`. -/
def basicType (typeName : String) (precision scale : Option UInt32) : Node :=
  declared (.basic (.named typeName .zero) precision scale)

/-- A type that the user refers to by name. -/
def userType (typeName : String) : Node := declared (.userDefined (.named typeName .zero))

/-- A collection of a built-in type, such as `INTEGER ARRAY`. -/
def collectionType (element container : String) : Node :=
  declared (.collection (plainSpec element) (.named container .zero))

/-- A row of fields of built-in types, each given as its name and its type. -/
def rowType (fields : List (String × String)) : Node :=
  declared (.row (.named "ROW" .zero)
    (fields.map fun field => (.named field.1 .zero, plainSpec field.2)))

/-! ## Statements -/

/-- A column and its type, in the definition of a table. -/
def column (columnName : String) (type : Node) : Node :=
  standard .columnDecl [name columnName, type]

/-- An entry of an `OPTIONS` list. -/
def option (key value : String) : Node := engine .option [string key, string value]

/-- `CREATE MAPPING mapping (columns) OPTIONS (options)`. -/
def createMapping (mapping : String) (columns options : List Node) : Node :=
  engine .createMapping [name mapping, sequence columns, sequence options]

/-- A statement that manages objects of the engine, identified by its name. -/
def ddl (operator : Operator) (statement : String) (operands : List Node) : Node :=
  .call (.ddl operator statement (operands.map some) .zero)

/-- `CREATE JOB job AS statement`. -/
def createJob (job : String) (statement : Node) : Node :=
  ddl (.engine .createJob) "CreateJob" [name job, statement]

/-- A row of values. -/
def row (items : List Node) : Node := standard .row items

/-- `VALUES` and rows. -/
def values (rows : List Node) : Node := standard .values rows

/--
`INSERT INTO target (columns) source`. The first operand is the empty list of
keywords, and the source comes before the columns.
-/
def insert (target : String) (columns : List Node) (source : Node) : Node :=
  standard .insert [sequence [], name target, source, sequence columns]

end Node

end SqlDialect
