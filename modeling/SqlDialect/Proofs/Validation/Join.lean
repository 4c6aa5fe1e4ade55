import SqlDialect.Proofs.Validation.FirstRefusal
import SqlDialect.Proofs.Validation.Transparent

/-!
# What decides over a join

The variant of a join is judged twice. The judgement on the join reads it from the operand
that holds it, and when the pass comes to that operand, the flag is judged once more as a
literal. Both look it up in one list of the dialect, and of the other flags that a join is
made with none is ever refused. What is left is the variant, and after it the two tables and
the condition.

What users are told about a variant that is refused is written out here once more, apart from
the list and from the names of the variants, so that a change to either of them shows.

## Main definition

* `joinVerdict`: the verdict on a join by its variant.

## Main results

* `Dialect.transparent_join`: a join that is not refused is seen through.
* `join_decided_by_variant_and_inputs`: the verdict on every join that can be made.
-/

namespace SqlDialect

namespace Dialect

variable {d : Dialect} {j : Join Node} {type : JoinType}

theorem transparent_join (h : d.joinCause? j = none) : d.Transparent (.call (.join j)) := by
  refine transparent_call rfl rfl ?_
  show (if Kind.join ∈ d.kinds then none else d.joinCause? j) = none
  rw [h, ite_self]

/-- A join of a variant that is not listed is refused, whatever its operands are. -/
theorem validate_join_of_unlisted (hkind : Kind.join ∉ d.kinds) (hflag : j.joinType? = some type)
    (htype : type ∉ d.joinTypes) :
    d.validate (.call (.join j)) = .error ⟨j.position, type.name ++ " join is not supported"⟩ :=
  validate_self_of_refuses
    (.joinType j type ⟨rfl, hkind⟩ (Join.joinType?_eq_some_iff.mp hflag) htype)

/-- The variant is judged alike as part of the join and as the flag that it is. -/
theorem joinCause?_eq_none_iff (hflag : j.joinType? = some type) (position : Position) :
    d.joinCause? j = none ↔ d.literalCause? (.symbol (.join type) position) = none := by
  have hliteral : d.literalCause? (.symbol (.join type) position) =
      if d.supportsSymbol (.join type) then none else some (.symbol (.join type)) := rfl
  rw [joinCause?, hflag, hliteral, supportsSymbol]
  by_cases htype : type ∈ d.joinTypes
  · simp [htype]
  · simp [htype]

end Dialect

open Dialect

/-! ## Joins that are made -/

/--
The verdict on a join that stands at the place, from its operands other than its flags. Three
variants are refused by name, and of the others the operands decide.
-/
def joinVerdict (type : JoinType) (place : Position) (operands : List Node) :
    Except Violation Unit :=
  match type with
  | .full => .error ⟨place, "FULL join is not supported"⟩
  | .leftSemi => .error ⟨place, "LEFT_SEMI_JOIN join is not supported"⟩
  | .leftAnti => .error ⟨place, "LEFT_ANTI_JOIN join is not supported"⟩
  | .inner | .comma | .cross | .left | .right => validate (.sequence operands)

private theorem joinVerdict_of_listed {type : JoinType} (h : type ∈ executable.joinTypes)
    (place : Position) (operands : List Node) :
    joinVerdict type place operands = validate (.sequence operands) := by
  cases type with
  | full | leftSemi | leftAnti => exact absurd h (by decide)
  | inner | comma | cross | left | right => rfl

private theorem joinVerdict_of_unlisted {type : JoinType} (h : type ∉ executable.joinTypes)
    (place : Position) (operands : List Node) :
    joinVerdict type place operands = .error ⟨place, type.name ++ " join is not supported"⟩ := by
  cases type with
  | full | leftSemi | leftAnti => rfl
  | inner | comma | cross | left | right => exact absurd (by decide) h

/-- The flags of a join have no operands, so with the flags opened the others are left. -/
private theorem opens_make (left : Node) {type : JoinType} (htype : type ∈ executable.joinTypes)
    (right : Node) (form : JoinCondition) (condition : Option Node) (made place : Position) :
    executable.Opens
      ((Node.call (.join (.make left type right form condition made))).movedTo place).operands
      ([left, right] ++ condition.toList) := by
  have hvariant : executable.literalCause? (.symbol (.join type) made) = none :=
    (joinCause?_eq_none_iff (Join.joinType?_make left type right form condition made) made).mp
      (if_pos htype)
  have hcondition : executable.Opens condition.toList condition.toList := .refl _
  rw [Node.movedTo, Call.movedTo, Node.operands_join]
  exact .keep left (.literal rfl (.literal hvariant (.keep right (.literal rfl hcondition))))

private theorem validate_make (left : Node) (type : JoinType) (right : Node)
    (form : JoinCondition) (condition : Option Node) (made place : Position) :
    validate ((Node.call (.join (.make left type right form condition made))).movedTo place) =
      joinVerdict type place ([left, right] ++ condition.toList) := by
  by_cases htype : type ∈ executable.joinTypes
  · have hcause : executable.joinCause?
        { Join.make left type right form condition made with position := place } = none :=
      if_pos htype
    rw [joinVerdict_of_listed htype]
    exact (transparent_join hcause).validate_eq_sequence
      (opens_make left htype right form condition made place)
  · rw [joinVerdict_of_unlisted htype]
    exact validate_join_of_unlisted (by decide) rfl htype

/--
A full, left semi or left anti join is refused where it stands, whatever its operands are.
Any other join has the verdict of a list of its two tables and its condition, if it has one.
So it is whether the condition comes after `ON` or after `USING` or not at all, and whether
the join stands where it was made or was moved there.

Of the three flags that a join is made with, two are never refused, and the one for the
variant is not refused unless the join is.
-/
theorem join_decided_by_variant_and_inputs (left right : Node) (type : JoinType) :
    (∀ form condition made place,
      validate ((Node.call (.join (.make left type right form condition made))).movedTo place) =
        joinVerdict type place ([left, right] ++ condition.toList)) ∧
    (∀ condition place, validate ((Node.joinOn left type right condition).movedTo place) =
      joinVerdict type place [left, right, condition]) ∧
    (∀ columns place, validate ((Node.joinUsing left type right columns).movedTo place) =
      joinVerdict type place [left, right, .sequence columns]) ∧
    (∀ place, validate ((Node.joinPlain left type right).movedTo place) =
      joinVerdict type place [left, right]) ∧
    ∀ form condition position,
      executable.literalCause? (.boolean false position) = none ∧
      executable.literalCause? (.symbol (.joinCondition form) position) = none ∧
      (executable.joinCause? (.make left type right form condition position) = none ↔
        executable.literalCause? (.symbol (.join type) position) = none) := by
  refine ⟨?_, ?_, ?_, ?_, ?_⟩
  · intro form condition made place
    exact validate_make left type right form condition made place
  · intro condition place
    exact validate_make left type right .on (some condition) .zero place
  · intro columns place
    exact validate_make left type right .using (some (.sequence columns)) .zero place
  · intro place
    exact validate_make left type right .none none .zero place
  · intro form condition position
    exact ⟨rfl, rfl, joinCause?_eq_none_iff (Join.joinType?_make ..) position⟩

end SqlDialect
