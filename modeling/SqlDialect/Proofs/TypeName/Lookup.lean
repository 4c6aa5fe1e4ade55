import SqlDialect.TypeName
import Mathlib.Data.List.Forall2
import Mathlib.Data.List.Nodup

/-!
# Looking up a type name

Type names are found by the first match in a list, with the case of letters put aside. The order
of the list plays no part in what is found, because the names of no two types differ in case
alone, and no type is missing from the list.

Putting case aside is done by folding, which says little about which texts come out equal. They
are those that agree letter by letter, where a letter from `A` to `Z` agrees with its own other
case and every other character with itself alone.

## Main definition

* `EqualUpToCase`: texts that agree letter by letter.

## Main results

* `caseFold_eq_iff`: folding tells apart what does not agree letter by letter.
* `TypeName.ofName?_eq_some_iff`: a type is found under its own name, in any case, and under no
  other.
-/

namespace SqlDialect

/-! ## Agreement up to case -/

/-- The first character is a letter from `A` to `Z`, and the second is its lower case. -/
def IsUpperOf (upper lower : Char) : Prop :=
  'A' ≤ upper ∧ upper ≤ 'Z' ∧ lower.toNat = upper.toNat + 32

/-- The same character, or one letter from `A` to `Z` in its two cases. -/
def SameLetter (c d : Char) : Prop := c = d ∨ IsUpperOf c d ∨ IsUpperOf d c

/-- Texts that agree letter by letter. -/
def EqualUpToCase (text other : String) : Prop :=
  List.Forall₂ SameLetter text.toList other.toList

variable {c d : Char} {text other : String}

private theorem isUpperOf_iff :
    IsUpperOf c d ↔ 65 ≤ c.toNat ∧ c.toNat ≤ 90 ∧ d.toNat = c.toNat + 32 := Iff.rfl

private theorem toNat_toLower (c : Char) :
    c.toLower.toNat = if 65 ≤ c.toNat ∧ c.toNat ≤ 90 then c.toNat + 32 else c.toNat := by
  have hupper : (c.val ≥ 'A'.val ∧ c.val ≤ 'Z'.val) ↔ 65 ≤ c.toNat ∧ c.toNat ≤ 90 := Iff.rfl
  unfold Char.toLower
  split
  · next h =>
      have hadd : (c.val + ('a'.val - 'A'.val)).toNat = (c.toNat + 32) % 2 ^ 32 :=
        UInt32.toNat_add _ _
      have hlast : c.toNat ≤ 90 := (hupper.mp h).2
      rw [if_pos (hupper.mp h)]
      show (c.val + ('a'.val - 'A'.val)).toNat = c.toNat + 32
      omega
  · next h => rw [if_neg (hupper.not.mp h)]

theorem toLower_eq_iff : c.toLower = d.toLower ↔ SameLetter c d := by
  rw [SameLetter, isUpperOf_iff, isUpperOf_iff, ← Char.toNat_inj, ← Char.toNat_inj,
    toNat_toLower, toNat_toLower]
  split <;> split <;> omega

theorem caseFold_eq_iff : caseFold text = caseFold other ↔ EqualUpToCase text other := by
  rw [caseFold, caseFold, ← List.forall₂_eq_eq_eq, List.forall₂_map_left_iff,
    List.forall₂_map_right_iff]
  simp only [toLower_eq_iff]
  rfl

theorem sameIgnoringCase_iff_equalUpToCase :
    sameIgnoringCase text other = true ↔ EqualUpToCase text other :=
  sameIgnoringCase_iff.trans caseFold_eq_iff

instance : DecidableRel EqualUpToCase := fun _ _ =>
  decidable_of_iff _ sameIgnoringCase_iff_equalUpToCase

namespace TypeName

/-! ## The types and their names -/

variable {type : TypeName}

/-- The names of no two types differ in case alone. -/
theorem nodup_caseFold_names : (all.map fun type => caseFold type.name).Nodup := by
  decide +kernel

theorem eq_of_caseFold_name_eq {found : TypeName} (h : caseFold found.name = caseFold type.name) :
    found = type :=
  List.inj_on_of_nodup_map nodup_caseFold_names found.mem_all type.mem_all h

private theorem caseFold_name_of_ofName?_eq (h : ofName? text = some type) :
    caseFold text = caseFold type.name := by
  rw [ofName?] at h
  have hsame := List.find?_some h
  exact (sameIgnoringCase_iff.mp hsame).symm

/-- A type is found under its own name, in any case, and under no other. -/
theorem ofName?_eq_some_iff : ofName? text = some type ↔ EqualUpToCase text type.name := by
  rw [← caseFold_eq_iff]
  constructor
  · exact caseFold_name_of_ofName?_eq
  · intro h
    cases hfound : ofName? text with
    | none =>
        have hnone := List.find?_eq_none.mp hfound type type.mem_all
        exact absurd (sameIgnoringCase_iff.mpr h.symm) hnone
    | some found =>
        rw [eq_of_caseFold_name_eq ((caseFold_name_of_ofName?_eq hfound).symm.trans h)]

end TypeName

end SqlDialect
