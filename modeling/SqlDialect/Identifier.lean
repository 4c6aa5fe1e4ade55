import SqlDialect.Position

/-!
# Identifiers

A possibly qualified name, outermost part first. The star of `t.*` is a last
part without characters, which is why the text of an empty part is `*`.
-/

namespace SqlDialect

/-- A possibly qualified name. -/
structure Identifier where
  /-- The parts of the name, outermost first. -/
  parts : List String
  /-- Where the name stands. -/
  position : Position
deriving DecidableEq, Inhabited

namespace Identifier

/-- A name of one part. -/
def named (name : String) (position : Position) : Identifier := ⟨[name], position⟩

/-- The name `*`. -/
def star (position : Position) : Identifier := named "" position

/-- The only part of an unqualified name. -/
def simple? : Identifier → Option String
  | ⟨[name], _⟩ => some name
  | _ => none

/-- Whether the name ends in a star. -/
def isStar (identifier : Identifier) : Bool := identifier.parts.getLast? == some ""

/-- A part as it is written: the star in place of nothing. -/
def partText (part : String) : String := if part = "" then "*" else part

/-- The name as it is written: its parts with dots between them. -/
def text (identifier : Identifier) : String :=
  ".".intercalate (identifier.parts.map partText)

end Identifier

end SqlDialect
