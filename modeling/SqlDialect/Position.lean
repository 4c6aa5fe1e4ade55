/-!
# Positions in the statement text

A node of a statement remembers the region of text it was parsed from: a start
and an end, both inclusive and both counted from one. A region of four zeroes
marks a node that was made by a program and stands nowhere in the text.

Regions are merged to find the one that covers several nodes. The zero region is
neutral there, because a node without a place does not extend the region of its
neighbours. Between two real regions the earlier start and the later end win,
each chosen on its own: the result covers both also where one of them ends
before it begins.

## Main results

* `Point.le_antisymm`, `Point.le_trans`, `Point.le_total`: points are linearly
  ordered by line, then column.
* `Position.merge_zero`, `Position.zero_merge`: the zero region is neutral.
-/

namespace SqlDialect

/-! ## Points -/

/-- A line and a column. -/
structure Point where
  /-- The line, from one. -/
  line : UInt32
  /-- The column, from one. -/
  column : UInt32
deriving DecidableEq, Inhabited

namespace Point

/-- The place of nodes that stand nowhere in the text. -/
def zero : Point := ⟨0, 0⟩

/-- Reading order: by line, then by column. -/
instance : LE Point where
  le p q := p.line < q.line ∨ (p.line = q.line ∧ p.column ≤ q.column)

theorem le_iff {p q : Point} :
    p ≤ q ↔ p.line < q.line ∨ (p.line = q.line ∧ p.column ≤ q.column) := Iff.rfl

instance (p q : Point) : Decidable (p ≤ q) := decidable_of_iff _ le_iff.symm

/-- The point that is read first. -/
instance : Min Point := minOfLe

/-- The point that is read last. -/
instance : Max Point := maxOfLe

theorem le_refl (p : Point) : p ≤ p := .inr ⟨rfl, UInt32.le_refl _⟩

theorem le_total (p q : Point) : p ≤ q ∨ q ≤ p := by
  simp only [le_iff, UInt32.lt_iff_toNat_lt, UInt32.le_iff_toNat_le, ← UInt32.toNat_inj]
  omega

theorem le_trans {p q r : Point} (hpq : p ≤ q) (hqr : q ≤ r) : p ≤ r := by
  simp only [le_iff, UInt32.lt_iff_toNat_lt, UInt32.le_iff_toNat_le, ← UInt32.toNat_inj] at *
  omega

theorem le_antisymm {p q : Point} (hpq : p ≤ q) (hqp : q ≤ p) : p = q := by
  cases p; cases q
  simp only [le_iff, UInt32.lt_iff_toNat_lt, UInt32.le_iff_toNat_le, ← UInt32.toNat_inj,
    mk.injEq] at *
  omega

end Point

/-! ## Regions -/

/-- The region of text that a node was parsed from, both ends inclusive. -/
structure Position where
  /-- Where the region begins. -/
  start : Point
  /-- Where the region ends. -/
  stop : Point
deriving DecidableEq, Inhabited

namespace Position

/-- The region of nodes that stand nowhere in the text. -/
def zero : Position := ⟨.zero, .zero⟩

/-- The region of a single character. -/
def point (line column : UInt32) : Position := ⟨⟨line, column⟩, ⟨line, column⟩⟩

/-- Whether the node stands nowhere in the text. -/
def isZero (p : Position) : Bool := p == zero

/-- The region that covers both regions. The zero region covers nothing. -/
def merge (p q : Position) : Position :=
  if p.isZero then q
  else if q.isZero then p
  else ⟨min p.start q.start, max p.stop q.stop⟩

@[simp] theorem isZero_iff {p : Position} : p.isZero = true ↔ p = zero := by
  simp [isZero]

@[simp] theorem zero_merge (p : Position) : zero.merge p = p := by
  simp [merge]

@[simp] theorem merge_zero (p : Position) : p.merge zero = p := by
  by_cases h : p = zero <;> simp [merge, h]

/-- The text of a position says where the region begins, and not where it ends. -/
def text (p : Position) : String :=
  "line " ++ toString p.start.line ++ ", column " ++ toString p.start.column

end Position

end SqlDialect
