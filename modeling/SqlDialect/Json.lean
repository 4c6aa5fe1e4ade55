/-!
# JSON values

The values of the interchange format in which positions and violations are
handed to other programs. Numbers are kept as written: a number with a fraction
is a `decimal`, and `1.0` is a decimal whose value happens to be whole, so a
reader that wants an integer can refuse it.

An object is the list of its members. Its names ought to be distinct, and a reader
refuses an object that has a name twice where it looks for one value.
-/

namespace SqlDialect

/-- A JSON value. -/
inductive Json where
  | null
  | boolean (value : Bool)
  | integer (value : Int)
  /-- The number `mantissa / 10 ^ scale`, written with a fraction. -/
  | decimal (mantissa : Int) (scale : Nat)
  | string (value : String)
  | array (items : List Json)
  | object (members : List (String × Json))
deriving Inhabited

namespace Json

/-- The number as a 32-bit word, unless it is no integer or does not fit. -/
def word? : Json → Option UInt32
  | .integer (.ofNat value) =>
    if fits : value < UInt32.size then some (UInt32.ofNatLT value fits) else none
  | _ => none

/-- The 32-bit word under a name of an object that has the name once. -/
def wordMember? (members : List (String × Json)) (name : String) : Option UInt32 :=
  match members.filter (·.1 == name) with
  | [(_, value)] => value.word?
  | _ => none

/-- A 32-bit word as a number. -/
def ofWord (word : UInt32) : Json := .integer (.ofNat word.toNat)

@[simp] theorem word?_ofWord (word : UInt32) : (ofWord word).word? = some word := by
  simp [ofWord, word?, word.toNat_lt_size]

end Json

end SqlDialect
