import SqlDialect.Identifier

/-!
# Declared types

The shape of a type as written in a declaration or a `CAST`: a built-in scalar,
a type of the user's, a collection, or a row of named fields. Only the scalar
types take a precision and a scale.

## Main results

* `TypeSpec.same_iff`: `TypeSpec.same` decides equality, although the type is
  nested inside the lists of its own fields.
-/

namespace SqlDialect

/-- The shape of a declared type. -/
inductive TypeSpec where
  /-- A built-in scalar type such as `DECIMAL(10, 2)`. -/
  | basic (name : Identifier) (precision scale : Option UInt32)
  /-- A type that the user refers to by name. -/
  | userDefined (name : Identifier)
  /-- A collection such as `INTEGER ARRAY`. -/
  | collection (element : TypeSpec) (container : Identifier)
  /-- A row such as `ROW(a INTEGER, b VARCHAR)`. -/
  | row (name : Identifier) (fields : List (Identifier × TypeSpec))
deriving Inhabited

namespace TypeSpec

/-- The identifier that names the type. -/
def typeName : TypeSpec → Identifier
  | .basic name _ _ => name
  | .userDefined name => name
  | .collection _ container => container
  | .row name _ => name

/-- Whether the type is a built-in scalar. -/
def isBasic : TypeSpec → Bool
  | .basic .. => true
  | _ => false

/-! ## Equality -/

mutual

/-- Whether two types are written alike, positions included. -/
def same : TypeSpec → TypeSpec → Bool
  | .basic name precision scale, .basic name' precision' scale' =>
    name == name' && precision == precision' && scale == scale'
  | .userDefined name, .userDefined name' => name == name'
  | .collection element container, .collection element' container' =>
    same element element' && container == container'
  | .row name fields, .row name' fields' => name == name' && sameFields fields fields'
  | _, _ => false

/-- Whether two lists of fields are written alike. -/
def sameFields : List (Identifier × TypeSpec) → List (Identifier × TypeSpec) → Bool
  | [], [] => true
  | field :: fields, field' :: fields' => sameField field field' && sameFields fields fields'
  | _, _ => false

/-- Whether two fields are written alike. -/
def sameField : Identifier × TypeSpec → Identifier × TypeSpec → Bool
  | (name, type), (name', type') => name == name' && same type type'

end

mutual

theorem same_iff : ∀ (spec other : TypeSpec), same spec other = true ↔ spec = other
  | .basic .., other => by cases other <;> simp [same, and_assoc]
  | .userDefined _, other => by cases other <;> simp [same]
  | .collection element _, other => by cases other <;> simp [same, same_iff element]
  | .row _ fields, other => by cases other <;> simp [same, sameFields_iff fields]

theorem sameFields_iff : ∀ (fields others : List (Identifier × TypeSpec)),
    sameFields fields others = true ↔ fields = others
  | [], others => by cases others <;> simp [sameFields]
  | field :: fields, others => by
    cases others <;> simp [sameFields, sameField_iff field,
      sameFields_iff fields]

theorem sameField_iff : ∀ (field other : Identifier × TypeSpec),
    sameField field other = true ↔ field = other
  | (_, type), (_, _) => by simp [sameField, same_iff type]

end

instance : DecidableEq TypeSpec := fun n m => decidable_of_iff _ (same_iff n m)

end TypeSpec

/-- A type as written in a declaration or a `CAST`. -/
structure DataType where
  /-- The declared type. -/
  spec : TypeSpec
  /-- Whether the type accepts `NULL`, if the declaration says so. -/
  nullable : Option Bool
  /-- Where the type stands. -/
  position : Position
deriving DecidableEq, Inhabited

namespace DataType

/-- A type that says nothing about `NULL`. -/
def plain (spec : TypeSpec) (position : Position) : DataType := ⟨spec, none, position⟩

/-- The identifier that names the type. -/
def typeName (type : DataType) : Identifier := type.spec.typeName

end DataType

end SqlDialect
