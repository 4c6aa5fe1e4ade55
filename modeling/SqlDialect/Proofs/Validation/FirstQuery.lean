import SqlDialect.Proofs.Validation.RowLimit
import SqlDialect.Proofs.Validation.Trace

/-!
# The first query wins

A pass remembers one query, the first that it visits. One node can only fill the place
while it is empty, so the pass holds the first query of all nodes that it has visited so
far, at whatever point it is looked at: between two nodes, after the node that it
refuses, or at its end.

What follows for supported statements is about nesting. No query below another one comes
first, so a query that limits rows is below no other.

## Main results

* `Dialect.holdsFirst_progressAfter`: the query that a pass holds on its way.
* `first_query_wins`: this, for every point of a pass, and what it means for statements
  that are supported.
-/

namespace SqlDialect

/-- The query held is the first among the nodes, and there is none if no node is a query. -/
structure Progress.HoldsFirst (progress : Progress) (ns : List Node) : Prop where
  none_iff : progress.firstQuery = none ↔ ∀ q, .call (.select q) ∉ ns
  some_iff : ∀ q, progress.firstQuery = some q ↔
    ∃ before after, ns = before ++ .call (.select q) :: after ∧
      ∀ p, .call (.select p) ∉ before

namespace Dialect

variable {d : Dialect} {root : Node}

theorem firstQuery_progressAfter (d : Dialect) (root : Node) (steps : Nat) :
    (d.progressAfter root steps).firstQuery =
      ((d.visitedIn root).take steps).findSome? Node.query? := by
  rw [progressAfter_eq, Progress.firstQuery_foldl_after]
  rfl

/-- On its way a pass holds the first query of the nodes that it has visited so far. -/
theorem holdsFirst_progressAfter (d : Dialect) (root : Node) (steps : Nat) :
    (d.progressAfter root steps).HoldsFirst ((d.visitedIn root).take steps) := by
  constructor
  case none_iff =>
    rw [firstQuery_progressAfter]
    exact Node.findSome?_query?_eq_none_iff
  case some_iff =>
    intro q
    rw [firstQuery_progressAfter]
    exact Node.findSome?_query?_eq_some_iff

/-- The query that is held once is held from then on. -/
theorem firstQuery_progressAfter_mono {steps later : Nat} (hle : steps ≤ later) {q : Query Node}
    (h : (d.progressAfter root steps).firstQuery = some q) :
    (d.progressAfter root later).firstQuery = some q := by
  have hprefix : (d.visitedIn root).take steps <+: (d.visitedIn root).take later :=
    List.take_prefix_take_left hle
  obtain ⟨rest, hrest⟩ := hprefix
  rw [firstQuery_progressAfter] at h ⊢
  rw [← hrest, List.findSome?_append, h]
  rfl

/-- Of two queries that are reached, the one that limits rows comes first and is not below. -/
theorem Allows.limited_before (hselect : Kind.select ∉ d.kinds) (h : d.Allows root.reached)
    {a b : Address} {q p : Query Node} (hq : (a, .call (.select q)) ∈ root.reachedAt)
    (hlimit : q.limitsRows = true) (hp : (b, .call (.select p)) ∈ root.reachedAt) (hne : b ≠ a) :
    p.limitsRows = false ∧ ¬ b <+: a := by
  obtain ⟨before, after, hsplit⟩ := List.append_of_mem hq
  rw [Node.reached, hsplit, Located.nodes_append] at h
  have hafter : (b, .call (.select p)) ∈ after := by
    rw [hsplit, List.mem_append, List.mem_cons] at hp
    rcases hp with hp | hp | hp
    · exact absurd (List.mem_map_of_mem (f := Prod.snd) hp) (h.no_query_before hselect hlimit p)
    · exact absurd (Prod.mk.inj hp).1 hne
    · exact hp
  constructor
  · exact h.unlimited_after hselect (List.mem_map_of_mem (f := Prod.snd) hafter)
  · have hpairwise := root.pairwise_reachedAt
    rw [hsplit, List.pairwise_append, List.pairwise_cons] at hpairwise
    exact hpairwise.2.1.1 (b, _) hafter

/-- Before a query that limits rows there is no other. -/
theorem Allows.limited_first (hselect : Kind.select ∉ d.kinds) (h : d.Allows root.reached)
    {a : Address} {q : Query Node} (hq : (a, .call (.select q)) ∈ root.reachedAt)
    (hlimit : q.limitsRows = true) :
    ∃ before after, root.reachedAt = before ++ (a, .call (.select q)) :: after ∧
      ∀ b p, (b, .call (.select p)) ∉ before := by
  obtain ⟨before, after, hsplit⟩ := List.append_of_mem hq
  refine ⟨before, after, hsplit, fun b p hp => ?_⟩
  rw [Node.reached, hsplit, Located.nodes_append] at h
  exact h.no_query_before hselect hlimit p (List.mem_map_of_mem (f := Prod.snd) hp)

end Dialect

open Dialect

/--
A pass is a loop over the nodes that it can come to, and at every point of it the query
that it holds is the first of the nodes visited so far; once there is one, it stays.

In a supported statement the query that limits rows is therefore the first of all that
are reached, no other one limits rows, and it is not below any other.
-/
theorem first_query_wins :
    (∀ root steps,
      executable.checker.visit root = (do
        forM (root.reached.take steps) executable.checker.atConstruct
        forM (root.reached.drop steps) executable.checker.atConstruct) ∧
      (executable.progressAfter root steps).HoldsFirst ((executable.visitedIn root).take steps) ∧
      ∀ later, steps ≤ later → ∀ q, (executable.progressAfter root steps).firstQuery = some q →
        (executable.progressAfter root later).firstQuery = some q) ∧
    ∀ root, validate root = .ok () → ∀ a q, (a, .call (.select q)) ∈ root.reachedAt →
      q.limitsRows = true →
        (∃ before after, root.reachedAt = before ++ (a, .call (.select q)) :: after ∧
          ∀ b p, (b, .call (.select p)) ∉ before) ∧
        ∀ b p, (b, .call (.select p)) ∈ root.reachedAt → b ≠ a →
          p.limitsRows = false ∧ ¬ b <+: a := by
  have hselect : Kind.select ∉ executable.kinds := by decide
  constructor
  · intro root steps
    refine ⟨visit_eq_steps _ root steps, holdsFirst_progressAfter _ root steps, ?_⟩
    intro later hle q hq
    exact firstQuery_progressAfter_mono hle hq
  · intro root haccept a q hq hlimit
    have hallows : executable.Allows root.reached := by
      rw [← judgeAll_eq_ok_iff, ← validate_eq_judgeAll]
      exact haccept
    refine ⟨hallows.limited_first hselect hq hlimit, ?_⟩
    intro b p hp hne
    exact hallows.limited_before hselect hq hlimit hp hne

/-- `SELECT * FROM (SELECT *) FETCH 1`. -/
private def limitedOutside : Query Node :=
  let everything : Query Node := .ofSelectList ⟨[.star], .zero⟩ .zero
  { everything with
    fromClause := some (.call (.select everything))
    fetch := some (.integer 1) }

/-- The query outside is met first and held; the one inside may not limit rows. -/
theorem first_query_wins_outside :
    (executable.progressAfter (.call (.select limitedOutside)) 3).firstQuery =
        some limitedOutside ∧
      ∀ b p, (b, .call (.select p)) ∈ (Node.call (.select limitedOutside)).reachedAt → b ≠ [] →
        p.limitsRows = false ∧ ¬ b <+: [] := by
  have hstart : (executable.progressAfter (.call (.select limitedOutside)) 1).firstQuery =
      some limitedOutside := by
    rw [firstQuery_progressAfter, visitedIn, Node.reached_eq, visited]
    rfl
  exact ⟨(first_query_wins.1 (.call (.select limitedOutside)) 1).2.2 3 (by decide) _ hstart,
    (first_query_wins.2 _ rfl [] limitedOutside (Node.self_mem_reachedAt _) rfl).2⟩

end SqlDialect
