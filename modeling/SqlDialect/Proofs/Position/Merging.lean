import SqlDialect.Position
import Mathlib.Data.Finset.Lattice.Fold
import Mathlib.Data.List.Fold
import Mathlib.Order.Bounds.Basic

/-!
# Merging many positions

Merging is the join of a semilattice: it does not matter in which order and grouping positions
are merged, nor whether some of them come up more than once. The zero region is at the bottom
of it and may be merged in anywhere.

That the zero region is neutral would be of little use if it could come out of real regions.
It cannot, although the start and the end of a merged region are chosen independently and may
both be zero in some region: the zero point is the least of all, so an end is zero only if both
ends were, and then neither start is.

## Main definition

* `Position.Merging`: positions put together by merging two at a time.

## Main results

* `Position.merge_eq_zero_iff`: nothing but zero regions merges to the zero region.
* `Position.merge_comm`, `Position.merge_assoc`, `Position.merge_self`: the laws of a join.
* `Position.Merging.result_eq_sup`: what is merged is the join of all positions.
* `Position.merge_is_join_over_zero`: all of this, and where a merged region begins and ends.
-/

namespace SqlDialect

/-! ## Points in reading order -/

instance : LinearOrder Point where
  le_refl := Point.le_refl
  le_trans _ _ _ := Point.le_trans
  le_antisymm _ _ := Point.le_antisymm
  le_total := Point.le_total
  toDecidableLE := inferInstance

namespace Point

theorem zero_le (p : Point) : zero ≤ p := by
  simp only [le_iff, zero, UInt32.lt_iff_toNat_lt, UInt32.le_iff_toNat_le, ← UInt32.toNat_inj]
  simp only [UInt32.toNat_zero]
  omega

/-- Points are ordered from zero on, so of two points both are zero if the later one is. -/
theorem max_eq_zero_iff {p q : Point} : max p q = zero ↔ p = zero ∧ q = zero := by
  constructor
  · intro h
    have hp : p ≤ zero := h ▸ le_max_left p q
    have hq : q ≤ zero := h ▸ le_max_right p q
    exact ⟨Point.le_antisymm hp p.zero_le, Point.le_antisymm hq q.zero_le⟩
  · rintro ⟨rfl, rfl⟩
    exact max_self zero

/-- Of two points one is zero if the earlier one is. -/
theorem eq_zero_of_min_eq_zero {p q : Point} (h : min p q = zero) : p = zero ∨ q = zero := by
  rcases min_choice p q with hp | hq
  · exact .inl (hp.symm.trans h)
  · exact .inr (hq.symm.trans h)

end Point

namespace Position

variable {p q : Position}

/-! ## The laws of merging -/

theorem merge_of_ne_zero (hp : p ≠ zero) (hq : q ≠ zero) :
    p.merge q = ⟨min p.start q.start, max p.stop q.stop⟩ := by
  rw [merge, if_neg (isZero_iff.not.mpr hp), if_neg (isZero_iff.not.mpr hq)]

/-- Nothing but zero regions merges to the zero region. -/
theorem merge_eq_zero_iff : p.merge q = zero ↔ p = zero ∧ q = zero := by
  constructor
  · intro h
    by_cases hp : p = zero
    · rw [hp, zero_merge] at h
      exact ⟨hp, h⟩
    by_cases hq : q = zero
    · rw [hq, merge_zero] at h
      exact ⟨h, hq⟩
    -- Both ends are zero, and one of the starts: that region was zero all along.
    rw [merge_of_ne_zero hp hq] at h
    obtain ⟨hstart, hstop⟩ := Position.mk.inj h
    obtain ⟨hpstop, hqstop⟩ := Point.max_eq_zero_iff.mp hstop
    rcases Point.eq_zero_of_min_eq_zero hstart with hpstart | hqstart
    · exact absurd (congrArg₂ Position.mk hpstart hpstop) hp
    · exact absurd (congrArg₂ Position.mk hqstart hqstop) hq
  · rintro ⟨rfl, rfl⟩
    exact zero_merge zero

theorem merge_ne_zero (hp : p ≠ zero) : p.merge q ≠ zero := fun h =>
  hp (merge_eq_zero_iff.mp h).1

theorem merge_comm (p q : Position) : p.merge q = q.merge p := by
  by_cases hp : p = zero
  · rw [hp, zero_merge, merge_zero]
  by_cases hq : q = zero
  · rw [hq, zero_merge, merge_zero]
  rw [merge_of_ne_zero hp hq, merge_of_ne_zero hq hp, min_comm, max_comm]

theorem merge_assoc (p q r : Position) : (p.merge q).merge r = p.merge (q.merge r) := by
  by_cases hp : p = zero
  · rw [hp, zero_merge, zero_merge]
  by_cases hq : q = zero
  · rw [hq, zero_merge, merge_zero]
  by_cases hr : r = zero
  · rw [hr, merge_zero, merge_zero]
  have hpq : p.merge q ≠ zero := merge_ne_zero hp
  have hqr : q.merge r ≠ zero := merge_ne_zero hq
  rw [merge_of_ne_zero hpq hr, merge_of_ne_zero hp hqr, merge_of_ne_zero hp hq,
    merge_of_ne_zero hq hr, min_assoc, max_assoc]

@[simp] theorem merge_self (p : Position) : p.merge p = p := by
  by_cases hp : p = zero
  · rw [hp, zero_merge]
  · rw [merge_of_ne_zero hp hp, min_self, max_self]

/-- The join of two positions is what they merge to. -/
instance : Max Position := ⟨merge⟩

/-- A position is below another if merging it into the other changes nothing. -/
instance : SemilatticeSup Position := .mk' merge_comm merge_assoc merge_self

instance : OrderBot Position where
  bot := zero
  bot_le := zero_merge

/-! ## Any order and any grouping -/

/-- Positions that are put together by merging two at a time. -/
inductive Merging where
  /-- A position to be merged. -/
  | position (p : Position)
  /-- The merge of two such positions, each of which may itself be a merge. -/
  | merge (left right : Merging)

namespace Merging

/-- The position that comes out. -/
def result : Merging → Position
  | .position p => p
  | .merge left right => left.result.merge right.result

/-- The positions that go in, from left to right. -/
def positions : Merging → List Position
  | .position p => [p]
  | .merge left right => left.positions ++ right.positions

/-- What comes out is the join of the positions that go in. -/
theorem result_eq_sup (m : Merging) : m.result = m.positions.toFinset.sup id := by
  induction m with
  | position p => simp [result, positions]
  | merge left right hleft hright =>
      rw [result, positions, List.toFinset_append, Finset.sup_union, ← hleft, ← hright]
      rfl

end Merging

/-- Merging one position after the other, beginning with zero, gives their join as well. -/
theorem foldl_merge_eq_sup (ps : List Position) : ps.foldl merge zero = ps.toFinset.sup id := by
  show ps.foldl (· ⊔ ·) ⊥ = ps.toFinset.sup id
  rw [List.foldl_eq_foldr, List.foldr_sup_eq_sup_toFinset]

/-- Zero regions go for nothing: all that counts is which real regions there are. -/
theorem sup_toFinset_congr {ps qs : List Position} (h : ∀ p, p ≠ zero → (p ∈ ps ↔ p ∈ qs)) :
    ps.toFinset.sup id = qs.toFinset.sup id := by
  have hreal : ps.toFinset.erase ⊥ = qs.toFinset.erase ⊥ := by
    ext p
    simp only [Finset.mem_erase, List.mem_toFinset]
    exact and_congr_right (h p)
  rw [← Finset.sup_erase_bot, hreal, Finset.sup_erase_bot]

theorem foldl_merge_eq_zero_iff {ps : List Position} :
    ps.foldl merge zero = zero ↔ ∀ p ∈ ps, p = zero := by
  rw [foldl_merge_eq_sup]
  show ps.toFinset.sup id = ⊥ ↔ _
  simp only [Finset.sup_eq_bot_iff, List.mem_toFinset, id]
  rfl

/-! ## Where a merged region begins and ends -/

/-- The points on one side of the real regions among the positions. -/
def sides (side : Position → Point) (ps : List Position) : Set Point :=
  {x | ∃ p ∈ ps, p ≠ zero ∧ side p = x}

variable {side : Position → Point} {ps : List Position}

theorem sides_cons_zero : sides side (zero :: ps) = sides side ps := by
  ext x
  simp [sides]

theorem sides_cons (hp : p ≠ zero) : sides side (p :: ps) = insert (side p) (sides side ps) := by
  ext x
  simp [sides, hp, eq_comm]

theorem sides_eq_empty (h : ∀ p ∈ ps, p = zero) : sides side ps = ∅ := by
  refine Set.eq_empty_of_forall_notMem ?_
  rintro x ⟨p, hmem, hp, -⟩
  exact hp (h p hmem)

/--
The merge of positions begins where the first of the real regions among them begins and ends
where the last of them ends, and these may be different regions.
-/
theorem isLeast_start_and_isGreatest_stop (h : ∃ p ∈ ps, p ≠ zero) :
    IsLeast (sides start ps) (ps.foldl merge zero).start ∧
      IsGreatest (sides stop ps) (ps.foldl merge zero).stop := by
  induction ps with
  | nil => simp at h
  | cons p ps ih =>
      have hfold : (p :: ps).foldl merge zero = p.merge (ps.foldl merge zero) := by
        rw [foldl_merge_eq_sup, foldl_merge_eq_sup, List.toFinset_cons, Finset.sup_insert]
        rfl
      rw [hfold]
      by_cases hp : p = zero
      · have hps : ∃ q ∈ ps, q ≠ zero := by simpa [hp] using h
        rw [hp, zero_merge, sides_cons_zero, sides_cons_zero]
        exact ih hps
      rw [sides_cons hp, sides_cons hp]
      by_cases hrest : ps.foldl merge zero = zero
      · have hempty := foldl_merge_eq_zero_iff.mp hrest
        rw [hrest, merge_zero, sides_eq_empty hempty, sides_eq_empty hempty]
        simp
      · have hps : ∃ q ∈ ps, q ≠ zero := by
          by_contra hall
          exact hrest (foldl_merge_eq_zero_iff.mpr (by simpa using hall))
        obtain ⟨hstart, hstop⟩ := ih hps
        rw [merge_of_ne_zero hp hrest]
        exact ⟨hstart.insert p.start, hstop.insert p.stop⟩

/--
Merging is the join of a semilattice whose bottom is the zero region. Two real regions merge to
a real one, which has the earlier start and the later end. Hence, whenever the same real regions
are merged, the outcome is the same, whatever their order and grouping and however often each
of them and the zero region come up: it is zero if there is no real region, and otherwise it
begins with the first of them and ends with the last.
-/
theorem merge_is_join_over_zero :
    (∀ p q r : Position, (p.merge q).merge r = p.merge (q.merge r)) ∧
    (∀ p q : Position, p.merge q = q.merge p) ∧
    (∀ p : Position, p.merge p = p) ∧
    (∀ p : Position, zero.merge p = p ∧ p.merge zero = p) ∧
    (∀ p q : Position, p ≠ zero → q ≠ zero →
      p.merge q ≠ zero ∧ (p.merge q).start = min p.start q.start ∧
        (p.merge q).stop = max p.stop q.stop) ∧
    (∀ (ps : List Position) (m : Merging), (∀ p, p ≠ zero → (p ∈ m.positions ↔ p ∈ ps)) →
      m.result = ps.foldl merge zero) ∧
    (∀ ps : List Position, (∀ p ∈ ps, p = zero) → ps.foldl merge zero = zero) ∧
    ∀ ps : List Position, (∃ p ∈ ps, p ≠ zero) →
      ps.foldl merge zero ≠ zero ∧
        IsLeast {x | ∃ p ∈ ps, p ≠ zero ∧ p.start = x} (ps.foldl merge zero).start ∧
        IsGreatest {x | ∃ p ∈ ps, p ≠ zero ∧ p.stop = x} (ps.foldl merge zero).stop := by
  refine ⟨merge_assoc, merge_comm, merge_self, ?_, ?_, ?_, ?_, ?_⟩
  · intro p
    exact ⟨zero_merge p, merge_zero p⟩
  · intro p q hp hq
    rw [merge_of_ne_zero hp hq]
    exact ⟨merge_of_ne_zero hp hq ▸ merge_ne_zero hp, rfl, rfl⟩
  · intro ps m hreal
    rw [m.result_eq_sup, foldl_merge_eq_sup]
    exact sup_toFinset_congr hreal
  · intro ps hzero
    exact foldl_merge_eq_zero_iff.mpr hzero
  · rintro ps ⟨p, hmem, hp⟩
    refine ⟨fun h => hp (foldl_merge_eq_zero_iff.mp h p hmem), ?_⟩
    exact isLeast_start_and_isGreatest_stop ⟨p, hmem, hp⟩

/-- A region of one line, and one that begins before it in the line and ends in the next. -/
theorem merge_is_join_over_zero_of_two_lines :
    let inner : Position := ⟨⟨1, 8⟩, ⟨1, 12⟩⟩
    let outer : Position := ⟨⟨1, 3⟩, ⟨2, 4⟩⟩
    inner.merge outer ≠ zero ∧ (inner.merge outer).start = ⟨1, 3⟩ ∧
      (inner.merge outer).stop = ⟨2, 4⟩ ∧
      (Merging.merge (.merge (.position outer) (.position zero))
        (.merge (.position inner) (.position outer))).result = [inner, outer].foldl merge zero ∧
      [zero, zero].foldl merge zero = zero ∧
      IsLeast {x | ∃ p ∈ [inner, zero], p ≠ zero ∧ p.start = x} ⟨1, 8⟩ := by
  intro inner outer
  obtain ⟨-, -, -, -, hpair, hmerging, hzero, hregion⟩ := merge_is_join_over_zero
  obtain ⟨hne, hstart, hstop⟩ := hpair inner outer (by decide) (by decide)
  refine ⟨hne, hstart, hstop, ?_, hzero _ (by simp), ?_⟩
  · refine hmerging [inner, outer] _ fun p hp => ?_
    simp only [Merging.positions, List.mem_append, List.mem_cons, List.not_mem_nil, or_false]
    tauto
  · exact (hregion [inner, zero] ⟨inner, by simp, by decide⟩).2.1

end Position

end SqlDialect
