import SqlDialect.Proofs.Validation.FirstRefusal
import SqlDialect.Node.Expression
import SqlDialect.Query.Builder

/-!
# Where rows may be limited

Only one query of a statement may limit or skip rows. A pass takes it to be the
first query that it meets. In a statement that is itself a query, this is the query
around all others; in a set operation it is the query on the left, though neither
branch is around the other.

The two readings are told apart by running a pass twice over the same nodes, once
before it has met a query and once after: the verdicts differ only if the first
query among the nodes limits rows, and then only by the refusal of that query.

## Main results

* `Dialect.judgeAll_true_of_first`, `Dialect.judgeAll_true_of_unlimited`: how the two
  runs differ, and when they do not.
* `row_limit_only_on_first_query`: which query of a supported statement limits rows.
* `validate_subquery`: what becomes of a statement that is read as a table.
-/

namespace SqlDialect

namespace Dialect

variable {d : Dialect} {before after ns : List Node} {q : Query Node}

/-! ## Two runs over the same nodes -/

/-- Without a query among the nodes, it does not matter whether one was met before. -/
theorem judgeAll_of_no_query (h : ns.any Node.isQuery = false) :
    d.judgeAll true ns = d.judgeAll false ns := by
  induction ns with
  | nil => rfl
  | cons n ns ih =>
      rw [List.any_cons, Bool.or_eq_false_iff] at h
      rw [judgeAll, judgeAll, nodeCause?_of_not_isQuery h.1, h.1, Bool.or_false, Bool.or_false,
        ih h.2]

theorem judgeAll_false_query (q : Query Node) (after : List Node) :
    d.judgeAll false (.call (.select q) :: after) = d.judgeAll true after := by
  rw [judgeAll, nodeCause?_false_of_isQuery rfl]
  rfl

theorem judgeAll_true_query (hselect : Kind.select ∉ d.kinds) (q : Query Node)
    (after : List Node) :
    d.judgeAll true (.call (.select q) :: after) =
      if q.limitsRows then .error (Cause.nestedRowLimit.violation q.position)
      else d.judgeAll true after := by
  rw [judgeAll, nodeCause?_query, if_neg hselect, queryCause?, Bool.true_and, Bool.true_or]
  cases q.limitsRows <;> rfl

/-- The two runs come to the first query alike, and differ if that query limits rows. -/
theorem judgeAll_true_of_first (hselect : Kind.select ∉ d.kinds)
    (hnone : before.any Node.isQuery = false) (hbefore : d.judgeAll false before = .ok ()) :
    d.judgeAll true (before ++ .call (.select q) :: after) =
      if q.limitsRows then .error (Cause.nestedRowLimit.violation q.position)
      else d.judgeAll false (before ++ .call (.select q) :: after) := by
  rw [judgeAll_append, judgeAll_append, judgeAll_of_no_query hnone, hbefore, hnone,
    Bool.or_false, Bool.or_false]
  show d.judgeAll true (.call (.select q) :: after) =
    if q.limitsRows then _ else d.judgeAll false (.call (.select q) :: after)
  rw [judgeAll_true_query hselect, judgeAll_false_query]

/-- The two runs agree if the first query, provided they come to it, does not limit rows. -/
theorem judgeAll_true_of_unlimited (hselect : Kind.select ∉ d.kinds)
    (h : ∀ before q after, ns = before ++ .call (.select q) :: after →
      before.any Node.isQuery = false → d.judgeAll false before = .ok () →
        q.limitsRows = false) :
    d.judgeAll true ns = d.judgeAll false ns := by
  cases hfirst : ns.find? Node.isQuery with
  | none =>
      refine judgeAll_of_no_query ?_
      rw [List.any_eq_false]
      exact List.find?_eq_none.mp hfirst
  | some n =>
      obtain ⟨hn, before, after, rfl, hnot⟩ := List.find?_eq_some_iff_append.mp hfirst
      obtain ⟨q, rfl⟩ := Node.exists_query_of_isQuery hn
      have hnone : before.any Node.isQuery = false := by
        rw [List.any_eq_false]
        exact fun m hm => by simpa using hnot m hm
      cases hbefore : d.judgeAll false before with
      | error v =>
          rw [judgeAll_append, judgeAll_append, judgeAll_of_no_query hnone, hbefore]
          rfl
      | ok u =>
          rw [judgeAll_true_of_first hselect hnone hbefore, h before q after rfl hnone hbefore]
          rfl

/-- After a query was met, nodes are supported if they were before and no query limits rows. -/
theorem judgeAll_true_eq_ok_iff (hselect : Kind.select ∉ d.kinds) :
    d.judgeAll true ns = .ok () ↔
      d.judgeAll false ns = .ok () ∧ ∀ q, .call (.select q) ∈ ns → q.limitsRows = false := by
  constructor
  · intro h
    have hunlimited : ∀ q, .call (.select q) ∈ ns → q.limitsRows = false := by
      intro q hq
      obtain ⟨before, after, rfl⟩ := List.append_of_mem hq
      have hquery := (judgeAll_append_eq_ok_iff.mp h).2
      rw [Bool.true_or, judgeAll_true_query hselect] at hquery
      cases hlimit : q.limitsRows with
      | true =>
          rw [hlimit] at hquery
          cases hquery
      | false => rfl
    rw [← judgeAll_true_of_unlimited hselect fun before q after hsplit _ _ =>
      hunlimited q (by simp [hsplit])]
    exact ⟨h, hunlimited⟩
  · rintro ⟨h, hunlimited⟩
    rw [judgeAll_true_of_unlimited hselect fun before q after hsplit _ _ =>
      hunlimited q (by simp [hsplit]), h]

/-- No query comes before one that limits rows. -/
theorem Allows.no_query_before (hselect : Kind.select ∉ d.kinds)
    (h : d.Allows (before ++ .call (.select q) :: after)) (hlimit : q.limitsRows = true)
    (p : Query Node) : .call (.select p) ∉ before := by
  intro hp
  rw [Query.limitsRows, Bool.or_eq_true] at hlimit
  exact h before _ after _ rfl (.rowLimit q p ⟨rfl, hselect⟩ hp hlimit)

/-- After a query that limits rows there is no other. -/
theorem Allows.unlimited_after (hselect : Kind.select ∉ d.kinds)
    (h : d.Allows (before ++ .call (.select q) :: after)) {p : Query Node}
    (hp : .call (.select p) ∈ after) : p.limitsRows = false := by
  obtain ⟨between, rest, rfl⟩ := List.append_of_mem hp
  rw [← List.cons_append, ← List.append_assoc] at h
  cases hlimit : p.limitsRows with
  | false => rfl
  | true => exact absurd (by simp) (h.no_query_before hselect hlimit q)

/-- The pass over a statement comes to a query, and to no query before it. -/
def MeetsFirst (d : Dialect) (root : Node) (q : Query Node) : Prop :=
  ∃ before after, root.reached = before ++ .call (.select q) :: after ∧
    (∀ p, .call (.select p) ∉ before) ∧ d.Allows before

end Dialect

open Dialect

private theorem select_notMem_kinds : Kind.select ∉ executable.kinds := by decide

/-! ## Statements read as tables -/

private theorem validate_select_star_from (t : Node) :
    ∃ s, Query.ofSteps? [.columns [.star], .fromClause t] = some s ∧
      validate (.call (.select s)) = executable.judgeAll true t.reached := by
  obtain ⟨s, hs, hoperands⟩ : ∃ s, Query.ofSteps? [.columns [.star], .fromClause t] = some s ∧
      (Node.call (.select s)).operands = [.star, t] := ⟨_, rfl, rfl⟩
  have hskip : (Node.call (.select s)).isSkipped = false := rfl
  have hstar : Node.star.reached = [.star] := Node.reached_eq .star
  refine ⟨s, hs, ?_⟩
  rw [validate, validate_eq_judgeAll, Node.reached_eq, judgeAll_false_query, hskip, hoperands,
    if_neg Bool.false_ne_true, List.flatMap_cons, List.flatMap_singleton, hstar]
  rfl

/--
`SELECT * FROM` a statement. If the pass over the statement alone comes to a query
and the first one limits rows, the whole is refused for that query; otherwise the
verdict is that on the statement. So it is supported if the statement is and no query
that is reached in it limits rows.
-/
theorem validate_subquery (t : Node) :
    ∃ s, Query.ofSteps? [.columns [.star], .fromClause t] = some s ∧
      (∀ q, executable.MeetsFirst t q → q.limitsRows = true →
        validate (.call (.select s)) =
          .error ⟨q.position, "FETCH/OFFSET is only supported for the top-level SELECT"⟩) ∧
      ((∀ q, executable.MeetsFirst t q → q.limitsRows = false) →
        validate (.call (.select s)) = validate t) ∧
      (validate (.call (.select s)) = .ok () ↔
        validate t = .ok () ∧ ∀ q, .call (.select q) ∈ t.reached → q.limitsRows = false) := by
  obtain ⟨s, hs, hverdict⟩ := validate_select_star_from t
  have halone : validate t = executable.judgeAll false t.reached :=
    executable.validate_eq_judgeAll t
  refine ⟨s, hs, ?_, ?_, ?_⟩
  · rintro q ⟨before, after, hsplit, hnone, hallows⟩ hlimit
    rw [hverdict, hsplit, judgeAll_true_of_first select_notMem_kinds
      (Node.any_isQuery_eq_false_iff.mpr hnone) (judgeAll_eq_ok_iff.mpr hallows), if_pos hlimit]
    rfl
  · intro hfirst
    rw [hverdict, halone]
    refine judgeAll_true_of_unlimited select_notMem_kinds ?_
    intro before q after hsplit hnone hok
    exact hfirst q ⟨before, after, hsplit, Node.any_isQuery_eq_false_iff.mp hnone,
      judgeAll_eq_ok_iff.mp hok⟩
  · rw [hverdict, halone]
    exact judgeAll_true_eq_ok_iff select_notMem_kinds

/-! ## Several queries in one statement -/

/-- A call of two operands is supported if both are, the one on the right after the other. -/
private theorem validate_pair_eq_ok_iff {op : Operator} (hop : op.isDynamicTableFunction = false)
    (hkind : op.kind ∈ executable.kinds) (l r : Node) (p : Position) :
    validate (.call (.basic op [some l, some r] p)) = .ok () ↔
      validate l = .ok () ∧
        executable.judgeAll (l.reached.any Node.isQuery) r.reached = .ok () := by
  have hskip : (Node.call (.basic op [some l, some r] p)).isSkipped = false := hop
  have hoperands : (Node.call (.basic op [some l, some r] p)).operands = [l, r] := rfl
  rw [validate, validate, validate_eq_judgeAll, validate_eq_judgeAll, Node.reached_eq, hskip,
    hoperands, if_neg Bool.false_ne_true, judgeAll, nodeCause?_of_listed hkind,
    List.flatMap_cons, List.flatMap_singleton]
  exact judgeAll_append_eq_ok_iff

/-- What stands on the right matters only if there is a query on the left. -/
private theorem judgeAll_after_eq_ok_iff (l r : Node) :
    executable.judgeAll (l.reached.any Node.isQuery) r.reached = .ok () ↔
      validate r = .ok () ∧ ((∃ q, .call (.select q) ∈ l.reached) →
        ∀ q, .call (.select q) ∈ r.reached → q.limitsRows = false) := by
  rw [validate, validate_eq_judgeAll]
  cases hany : l.reached.any Node.isQuery with
  | true =>
      have hleft := Node.any_isQuery_iff.mp hany
      rw [judgeAll_true_eq_ok_iff select_notMem_kinds, forall_prop_of_true hleft]
  | false =>
      have hleft : ¬ ∃ q, .call (.select q) ∈ l.reached := by
        rw [← Node.any_isQuery_iff, hany]
        exact Bool.false_ne_true
      exact (and_iff_left fun h => absurd h hleft).symm

/--
The query of a supported statement that limits rows is the first of all queries that
are reached: none of the others is around it, and none of them limits rows. A call
of two operands, such as a union, may therefore have such a query in the operand on
the right only if there is no query in the one on the left.
-/
theorem row_limit_only_on_first_query :
    (∀ root, validate root = .ok () → ∀ a q, (a, .call (.select q)) ∈ root.reachedAt →
      q.limitsRows = true →
        ∃ before after, root.reachedAt = before ++ (a, .call (.select q)) :: after ∧
          (∀ b p, (b, .call (.select p)) ∉ before) ∧
          ∀ b p, (b, .call (.select p)) ∈ after → ¬ b <+: a ∧ p.limitsRows = false) ∧
    ∀ op : Operator, op.isDynamicTableFunction = false → op.kind ∈ executable.kinds →
      ∀ l r p, validate (.call (.basic op [some l, some r] p)) = .ok () ↔
        validate l = .ok () ∧ validate r = .ok () ∧
          ((∃ q, .call (.select q) ∈ l.reached) →
            ∀ q, .call (.select q) ∈ r.reached → q.limitsRows = false) := by
  constructor
  · intro root haccept a q hq hlimit
    have hallows : executable.Allows root.reached := by
      rw [← judgeAll_eq_ok_iff, ← validate_eq_judgeAll]
      exact haccept
    obtain ⟨before, after, hsplit⟩ := List.append_of_mem hq
    rw [Node.reached, hsplit, Located.nodes_append] at hallows
    refine ⟨before, after, hsplit, fun b p hp => ?_, fun b p hp => ⟨?_, ?_⟩⟩
    · exact hallows.no_query_before select_notMem_kinds hlimit p
        (List.mem_map_of_mem (f := Prod.snd) hp)
    · have hpairwise := root.pairwise_reachedAt
      rw [hsplit, List.pairwise_append, List.pairwise_cons] at hpairwise
      exact hpairwise.2.1.1 (b, _) hp
    · exact hallows.unlimited_after select_notMem_kinds (List.mem_map_of_mem (f := Prod.snd) hp)
  · intro op hop hkind l r p
    rw [validate_pair_eq_ok_iff hop hkind, judgeAll_after_eq_ok_iff]

/-- `SELECT *`. -/
private def allRows : Query Node := .ofSelectList ⟨[.star], .zero⟩ .zero

/-- `SELECT * FETCH 1`. -/
private def oneRow : Query Node := { allRows with fetch := some (.integer 1) }

/-- The union of two queries. -/
private def union (q p : Query Node) : Node :=
  .call (.basic (.standard .union) [some (.call (.select q)), some (.call (.select p))] .zero)

private theorem left_mem_reachedAt_union (q p : Query Node) :
    ([.operand 0], .call (.select q)) ∈ (union q p).reachedAt :=
  Node.cons_mem_reachedAt_iff.mpr
    ⟨rfl, _, by simp [union, Call.slots, Slotted.present], Node.self_mem_reachedAt _⟩

private theorem right_mem_reachedAt_union (q p : Query Node) :
    ([.operand 1], .call (.select p)) ∈ (union q p).reachedAt :=
  Node.cons_mem_reachedAt_iff.mpr
    ⟨rfl, _, by simp [union, Call.slots, Slotted.present], Node.self_mem_reachedAt _⟩

/-- A supported union in which the query on the left limits rows. -/
theorem row_limit_on_left_of_union :
    ∃ before after, (union oneRow allRows).reachedAt =
        before ++ ([.operand 0], .call (.select oneRow)) :: after ∧
      (∀ b p, (b, .call (.select p)) ∉ before) ∧
      ∀ b p, (b, .call (.select p)) ∈ after → ¬ b <+: [.operand 0] ∧ p.limitsRows = false :=
  row_limit_only_on_first_query.1 (union oneRow allRows) rfl [.operand 0] oneRow
    (left_mem_reachedAt_union oneRow allRows) rfl

/--
A query that limits rows need not be around all others, and whether a union is
supported may depend on the order of its branches.
-/
theorem row_limit_beside_another_query :
    (¬ ∀ root, validate root = .ok () → ∀ a q, (a, .call (.select q)) ∈ root.reachedAt →
      q.limitsRows = true → ∀ b p, (b, .call (.select p)) ∈ root.reachedAt → a <+: b) ∧
    ¬ ∀ q p, validate (union q p) = .ok () ↔ validate (union p q) = .ok () := by
  have hsupported : validate (union oneRow allRows) = .ok () := rfl
  have hrefused : validate (union allRows oneRow) =
      .error ⟨.zero, Cause.nestedRowLimit.description⟩ := rfl
  constructor
  · intro h
    have hprefix : [Slot.operand 0] <+: [.operand 1] :=
      h _ hsupported _ _ (left_mem_reachedAt_union oneRow allRows) rfl _ _
        (right_mem_reachedAt_union oneRow allRows)
    exact absurd hprefix (by decide)
  · intro h
    have hswapped : validate (union allRows oneRow) = .ok () := (h oneRow allRows).mp hsupported
    rw [hrefused] at hswapped
    cases hswapped

end SqlDialect
