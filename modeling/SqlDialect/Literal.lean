import SqlDialect.Position
import SqlDialect.Symbol
import SqlDialect.TypeName

/-!
# Literals

A literal is a value together with the type that the parser gave it. The two are
independent: nothing keeps a literal from holding text under the type `INTEGER`,
and a flag is recognised by its value, not by the type `SYMBOL`.
-/

namespace SqlDialect

/-- The value of a literal. Numbers, times and intervals are kept as written. -/
inductive LiteralValue where
  | null
  | boolean (value : Bool)
  | numeric (digits : String)
  | text (value : String)
  | binary (bytes : List UInt8)
  | temporal (written : String)
  | interval (written : String)
  | symbol (value : Symbol)
deriving DecidableEq, Inhabited

/-- A literal of a statement. -/
structure Literal where
  /-- The value. -/
  value : LiteralValue
  /-- The type that the parser gave it. -/
  type : TypeName
  /-- Where the literal stands. -/
  position : Position
deriving DecidableEq, Inhabited

namespace Literal

/-- `NULL`. -/
def null (position : Position) : Literal := ⟨.null, .null, position⟩

/-- A truth value. -/
def boolean (value : Bool) (position : Position) : Literal :=
  ⟨.boolean value, .boolean, position⟩

/-- An integer, in decimal. -/
def integer (value : Int) (position : Position) : Literal :=
  ⟨.numeric (toString value), .integer, position⟩

/-- A decimal number, as written. -/
def decimal (written : String) (position : Position) : Literal :=
  ⟨.numeric written, .decimal, position⟩

/--
A character string. The parser types it `CHAR`; that strings are `VARCHAR` is
settled only after validation.
-/
def string (value : String) (position : Position) : Literal :=
  ⟨.text value, .char, position⟩

/-- A flag. -/
def symbol (value : Symbol) (position : Position) : Literal :=
  ⟨.symbol value, .symbol, position⟩

/-- The flag, if the literal holds one. -/
def symbol? (literal : Literal) : Option Symbol :=
  match literal.value with
  | .symbol value => some value
  | _ => none

@[simp] theorem symbol?_symbol (value : Symbol) (position : Position) :
    (symbol value position).symbol? = some value := rfl

end Literal

end SqlDialect
