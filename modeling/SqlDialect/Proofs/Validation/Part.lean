import SqlDialect.Proofs.Validation.Replacement

/-!
# Parts of supported statements

A query that comes after another one may not limit rows, and that is all that the nodes
before a node can do to it. So nodes that are supported after some others are supported
without them. It follows that every part of a supported statement is supported on its
own, where it may be the first to hold a query, and that a part may be taken out with a
name left in its place, although a query further on may become the first by that.

The operand that holds the variant of a join is the one part that cannot be taken out.

## Main results

* `Dialect.judgeAll_mono`: fewer queries before do no harm.
* `Dialect.judgeAll_exchange`: nor does an exchange that brings no query.
* `Dialect.supported_parts`: what is left of a supported statement is supported.
-/

namespace SqlDialect

namespace Dialect

variable {d : Dialect} {before part new after : List Node} {met queryMet : Bool}

/-! ## Judging after fewer queries -/

theorem nodeCause?_mono {n : Node} (hle : met = true → queryMet = true)
    (h : d.nodeCause? queryMet n = none) : d.nodeCause? met n = none := by
  cases hquery : n.isQuery with
  | false =>
      rw [nodeCause?_of_not_isQuery hquery]
      exact h
  | true =>
      cases hmet : met with
      | false => exact nodeCause?_false_of_isQuery hquery
      | true =>
          rw [hle hmet] at h
          exact h

/-- Nodes that are supported after some others are supported after fewer queries, too. -/
theorem judgeAll_mono {ns : List Node} (hle : met = true → queryMet = true)
    (h : d.judgeAll queryMet ns = .ok ()) : d.judgeAll met ns = .ok () := by
  induction ns generalizing met queryMet with
  | nil => rfl
  | cons n ns ih =>
      rw [judgeAll] at h ⊢
      cases hcause : d.nodeCause? queryMet n with
      | some cause =>
          rw [hcause] at h
          cases h
      | none =>
          rw [hcause] at h
          rw [nodeCause?_mono hle hcause]
          refine ih (fun hmet => ?_) h
          rw [Bool.or_eq_true] at hmet ⊢
          exact hmet.imp_left hle

/-- A stretch of supported nodes is supported on its own. -/
theorem judgeAll_stretch (h : d.judgeAll queryMet (before ++ part ++ after) = .ok ()) :
    d.judgeAll false part = .ok () := by
  have hleft := (judgeAll_append_eq_ok_iff.mp h).1
  have hpart := (judgeAll_append_eq_ok_iff.mp hleft).2
  exact judgeAll_mono nofun hpart

/-- A stretch of supported nodes may be exchanged for one that brings no query of its own. -/
theorem judgeAll_exchange (h : d.judgeAll queryMet (before ++ part ++ after) = .ok ())
    (hnew : d.judgeAll (queryMet || before.any Node.isQuery) new = .ok ())
    (hquery : new.any Node.isQuery = false) :
    d.judgeAll queryMet (before ++ new ++ after) = .ok () := by
  obtain ⟨hleft, hafter⟩ := judgeAll_append_eq_ok_iff.mp h
  have hbefore := (judgeAll_append_eq_ok_iff.mp hleft).1
  refine judgeAll_append_eq_ok_iff.mpr ⟨judgeAll_append_eq_ok_iff.mpr ⟨hbefore, hnew⟩, ?_⟩
  refine judgeAll_mono (fun hmet => ?_) hafter
  rw [List.any_append, hquery, Bool.or_false] at hmet
  rw [List.any_append, ← Bool.or_assoc, hmet, Bool.true_or]

/-! ## Taking parts and taking them out -/

/--
Every part of a supported statement is supported as a statement. So is the statement
with a name in the place of the part, unless the part held the variant of a join.
-/
theorem supported_parts {root n : Node} {a : Address} (haccept : d.validate root = .ok ())
    (hmem : (a, n) ∈ root.reachedAt) :
    d.validate n = .ok () ∧
      (a.getLast? ≠ some .joinType →
        ∀ i, d.validate (root.replaceAt a (.identifier i)) = .ok ()) := by
  obtain ⟨before, after, hsplit, hreplace⟩ := Node.reachedAt_replaceAt hmem
  have hroot : d.judgeAll false (before.nodes ++ n.reached ++ after.nodes) = .ok () := by
    rw [validate_eq_judgeAll, Node.reached, hsplit] at haccept
    simpa [Node.reached] using haccept
  constructor
  · rw [validate_eq_judgeAll]
    exact judgeAll_stretch hroot
  · intro hslot i
    obtain ⟨before', hedited, hpruned⟩ :=
      hreplace (.identifier i) fun hlast => absurd hlast hslot
    have hname : (Node.identifier i).reachedAt = [([], .identifier i)] :=
      Node.reachedAt_of_slots_eq_nil rfl
    -- The nodes that the part was below are not the same, but they are judged alike.
    have hedited' : d.judgeAll false (before'.nodes ++ [.identifier i] ++ after.nodes) =
        d.judgeAll false (before.nodes ++ [.identifier i] ++ after.nodes) := by
      have halong : Node.EditedAlong (before ++ [([], .identifier i)] ++ after)
          (before' ++ [([], .identifier i)] ++ after) :=
        (hedited.append (.refl _)).append (.refl after)
      simpa [Located.nodes] using judgeAll_of_editedAlong halong false
    rw [validate_eq_judgeAll, Node.reached, hpruned, hname]
    simp only [Located.nodes_append, Located.nodes_under]
    exact hedited'.trans (judgeAll_exchange hroot rfl rfl)

/-- `SELECT * FETCH 1`. -/
private def firstRowOfAll : Node :=
  .call (.select { Query.ofSelectList ⟨[.star], .zero⟩ .zero with fetch := some (.integer 1) })

/-- The union of `SELECT * FETCH 1` and `SELECT *`. -/
private def limitedUnion : Node :=
  .call (.basic (.standard .union)
    [some firstRowOfAll, some (.call (.select (.ofSelectList ⟨[.star], .zero⟩ .zero)))] .zero)

/-- The query on the left can stand alone, and without it the one on the right is the first. -/
theorem supported_parts_union :
    executable.validate firstRowOfAll = .ok () ∧
      ∀ i, executable.validate (limitedUnion.replaceAt [.operand 0] (.identifier i)) = .ok () := by
  have haccept : executable.validate limitedUnion = .ok () := rfl
  have hmem : ([.operand 0], firstRowOfAll) ∈ limitedUnion.reachedAt :=
    Node.cons_mem_reachedAt_iff.mpr
      ⟨rfl, _, by simp [limitedUnion, Call.slots, Slotted.present], Node.self_mem_reachedAt _⟩
  have hparts := supported_parts haccept hmem
  exact ⟨hparts.1, hparts.2 (by decide)⟩

end Dialect

end SqlDialect
