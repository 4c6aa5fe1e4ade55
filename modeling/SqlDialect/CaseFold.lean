/-!
# Comparison without regard to ASCII case

Type names are keywords, and keywords are compared without regard to case. Only
the letters `A` to `Z` have a lower case here: `É` and `é` are different, and so
are the Kelvin sign and `k`.

## Main results

* `sameIgnoringCase_iff`: the comparison is equality of the folded texts.
-/

namespace SqlDialect

/-- The characters of a text, with the letters `A` to `Z` in lower case. -/
def caseFold (text : String) : List Char := text.toList.map Char.toLower

/-- Whether two texts differ at most in the case of ASCII letters. -/
def sameIgnoringCase (text other : String) : Bool := caseFold text == caseFold other

theorem sameIgnoringCase_iff {text other : String} :
    sameIgnoringCase text other = true ↔ caseFold text = caseFold other := by
  simp [sameIgnoringCase]

@[simp] theorem sameIgnoringCase_self (text : String) : sameIgnoringCase text text = true :=
  sameIgnoringCase_iff.2 rfl

end SqlDialect
