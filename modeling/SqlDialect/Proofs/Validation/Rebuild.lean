import SqlDialect.Proofs.Validation.Trace
import SqlDialect.Proofs.Node.Rebuild

/-!
# A pass over a rebuilt statement

Two statements of one shape are passed over in step: the pass comes to the same
addresses in the same order. If a change of single nodes alters nothing that a pass asks
of the node, then making it everywhere in a statement alters nothing that happens in the
pass either. The pass refuses at the same address and for the same cause, so that the
two verdicts can differ only in a position, where the change is one of positions.

## Main results

* `Dialect.Unnoticed`: what a change of nodes has to leave alone.
* `Dialect.Unnoticed.firstRefused?_rebuild`: the pass refuses the same node, rebuilt.
* `Dialect.Unnoticed.firstRefused?_congr`: statements that the change makes equal are
  refused at one address.
* `Dialect.Unnoticed.visitedIn_rebuild`: the pass visits the same nodes, rebuilt.
-/

namespace SqlDialect

/-! ## Operands that a judgement does not look at -/

@[simp] theorem Query.limitsRows_mapOperands (q : Query Node) (f : Node → Node) :
    (q.mapOperands f).limitsRows = q.limitsRows := by
  simp [Query.mapOperands, Query.limitsRows]

/-- A join is of the variant that it was if the flag that its operand holds is kept. -/
theorem Join.joinType?_mapOperands {j : Join Node} {f : Node → Node}
    (hflag : (f j.joinType).symbol? = j.joinType.symbol?) :
    (j.mapOperands f).joinType? = j.joinType? := by
  have hsymbol : (j.mapOperands f).joinType.symbol? = j.joinType.symbol? := hflag
  rw [joinType?, joinType?, hsymbol]

@[simp] theorem Node.isQuery_mapOperands (n : Node) (f : Node → Node) :
    (n.mapOperands f).isQuery = n.isQuery := by
  cases n with
  | call c => cases c <;> rfl
  | _ => rfl

namespace Dialect

variable {d : Dialect}

/-- The judgement on a node does not look at its operands, but for the flag of a join. -/
theorem nodeCause?_mapOperands {f : Node → Node} (hflag : ∀ m, (f m).symbol? = m.symbol?)
    (queryMet : Bool) (n : Node) :
    d.nodeCause? queryMet (n.mapOperands f) = d.nodeCause? queryMet n := by
  cases n with
  | call c =>
      cases c with
      | select q =>
          show d.nodeCause? queryMet (.call (.select (q.mapOperands f))) = _
          rw [nodeCause?_query, nodeCause?_query, queryCause?, queryCause?,
            q.limitsRows_mapOperands]
      | join j =>
          have htype : (j.mapOperands f).joinType? = j.joinType? :=
            Join.joinType?_mapOperands (hflag j.joinType)
          show (if Kind.join ∈ d.kinds then none else d.joinCause? (j.mapOperands f)) = _
          rw [joinCause?, htype]
          rfl
      | _ => rfl
  | _ => rfl

/-! ## The node that is refused -/

/-- The first node that is refused, with its address, and the cause. -/
def firstRefused? (d : Dialect) (queryMet : Bool) : Located → Option ((Address × Node) × Cause)
  | [] => none
  | x :: xs =>
    match d.nodeCause? queryMet x.2 with
    | some cause => some (x, cause)
    | none => d.firstRefused? (queryMet || x.2.isQuery) xs

/-- The verdict if this is the first node that is refused. -/
def verdictOn : Option ((Address × Node) × Cause) → Except Violation Unit
  | none => .ok ()
  | some (x, cause) => .error (cause.violation x.2.position)

theorem judgeAll_nodes (d : Dialect) (queryMet : Bool) (xs : Located) :
    d.judgeAll queryMet xs.nodes = verdictOn (d.firstRefused? queryMet xs) := by
  induction xs generalizing queryMet with
  | nil => rfl
  | cons x xs ih =>
      show d.judgeAll queryMet (x.2 :: Located.nodes xs) = _
      rw [judgeAll, firstRefused?]
      cases d.nodeCause? queryMet x.2 with
      | some cause => rfl
      | none => exact ih _

/-- The verdict on a statement is that on the first of its nodes that is refused. -/
theorem validate_eq_verdictOn (d : Dialect) (root : Node) :
    d.validate root = verdictOn (d.firstRefused? false root.reachedAt) := by
  rw [validate_eq_judgeAll, Node.reached, judgeAll_nodes]

theorem mem_of_firstRefused? {queryMet : Bool} {xs : Located} {x : Address × Node} {cause : Cause}
    (h : d.firstRefused? queryMet xs = some (x, cause)) : x ∈ xs := by
  induction xs generalizing queryMet with
  | nil => cases h
  | cons y xs ih =>
      rw [firstRefused?] at h
      cases hcause : d.nodeCause? queryMet y.2 with
      | some _ =>
          rw [hcause] at h
          obtain ⟨rfl, -⟩ := Prod.mk.inj (Option.some.inj h)
          exact List.mem_cons_self
      | none =>
          rw [hcause] at h
          exact List.mem_cons_of_mem y (ih h)

/-! ## Changes that a pass does not notice -/

/-- The change leaves alone what a pass asks of a node, its position aside. -/
structure Unnoticed (d : Dialect) (f : Node → Node) : Prop where
  openSlots : ∀ n, (f n).openSlots = n.openSlots
  symbol? : ∀ n, (f n).symbol? = n.symbol?
  isQuery : ∀ n, (f n).isQuery = n.isQuery
  nodeCause? : ∀ queryMet n, d.nodeCause? queryMet (f n) = d.nodeCause? queryMet n

namespace Unnoticed

variable {f : Node → Node}

theorem symbol?_rebuild (h : d.Unnoticed f) (n : Node) : (n.rebuild f).symbol? = n.symbol? := by
  rw [Node.rebuild_eq, h.symbol?, Node.symbol?_mapOperands]

theorem isQuery_rebuild (h : d.Unnoticed f) (n : Node) : (n.rebuild f).isQuery = n.isQuery := by
  rw [Node.rebuild_eq, h.isQuery, Node.isQuery_mapOperands]

theorem nodeCause?_rebuild (h : d.Unnoticed f) (queryMet : Bool) (n : Node) :
    d.nodeCause? queryMet (n.rebuild f) = d.nodeCause? queryMet n := by
  rw [Node.rebuild_eq, h.nodeCause?, nodeCause?_mapOperands h.symbol?_rebuild]

/-- Among rebuilt nodes the same one is refused first, and for the same cause. -/
theorem firstRefused?_map (h : d.Unnoticed f) (queryMet : Bool) (xs : Located) :
    d.firstRefused? queryMet (xs.map (Prod.map id (Node.rebuild f))) =
      (d.firstRefused? queryMet xs).map (Prod.map (Prod.map id (Node.rebuild f)) id) := by
  induction xs generalizing queryMet with
  | nil => rfl
  | cons x xs ih =>
      rw [List.map_cons, firstRefused?, firstRefused?, Prod.map_snd, h.nodeCause?_rebuild,
        h.isQuery_rebuild]
      cases d.nodeCause? queryMet x.2 with
      | some cause => rfl
      | none => exact ih _

/-- The pass over a rebuilt statement refuses the node that it refused before, rebuilt. -/
theorem firstRefused?_rebuild (h : d.Unnoticed f) (queryMet : Bool) (root : Node) :
    d.firstRefused? queryMet (root.rebuild f).reachedAt =
      (d.firstRefused? queryMet root.reachedAt).map
        (Prod.map (Prod.map id (Node.rebuild f)) id) := by
  rw [Node.reachedAt_rebuild h.openSlots, h.firstRefused?_map]

/--
If the change makes two statements equal, then the pass refuses nothing in either, or it
refuses the node at the same address in both, and for the same cause.
-/
theorem firstRefused?_congr (h : d.Unnoticed f) {n m : Node}
    (heq : n.rebuild f = m.rebuild f) :
    (d.firstRefused? false n.reachedAt = none ∧ d.firstRefused? false m.reachedAt = none) ∨
      ∃ a k l cause, d.firstRefused? false n.reachedAt = some ((a, k), cause) ∧
        d.firstRefused? false m.reachedAt = some ((a, l), cause) := by
  have hrefused := h.firstRefused?_rebuild false n
  rw [heq, h.firstRefused?_rebuild false m] at hrefused
  generalize d.firstRefused? false n.reachedAt = x at hrefused ⊢
  generalize d.firstRefused? false m.reachedAt = y at hrefused ⊢
  cases x with
  | none =>
      cases y with
      | none => exact .inl ⟨rfl, rfl⟩
      | some y => cases hrefused
  | some x =>
      cases y with
      | none => cases hrefused
      | some y =>
          obtain ⟨⟨a, k⟩, cause⟩ := x
          obtain ⟨⟨b, l⟩, cause'⟩ := y
          simp only [Option.map_some, Prod.map, id, Option.some.injEq, Prod.mk.injEq] at hrefused
          obtain ⟨⟨rfl, -⟩, rfl⟩ := hrefused
          exact .inr ⟨b, k, l, cause', rfl, rfl⟩

theorem visited_map (h : d.Unnoticed f) (queryMet : Bool) (ns : List Node) :
    d.visited queryMet (ns.map (Node.rebuild f)) =
      (d.visited queryMet ns).map (Node.rebuild f) := by
  induction ns generalizing queryMet with
  | nil => rfl
  | cons n ns ih =>
      rw [List.map_cons, visited, visited, h.nodeCause?_rebuild, h.isQuery_rebuild, List.map_cons]
      cases d.nodeCause? queryMet n with
      | some cause => rfl
      | none => exact congrArg (n.rebuild f :: ·) (ih _)

/-- The pass over a rebuilt statement visits the nodes that it visited before, rebuilt. -/
theorem visitedIn_rebuild (h : d.Unnoticed f) (root : Node) :
    d.visitedIn (root.rebuild f) = (d.visitedIn root).map (Node.rebuild f) := by
  rw [visitedIn, visitedIn, Node.reached_rebuild h.openSlots, h.visited_map]

end Unnoticed

end Dialect

end SqlDialect
