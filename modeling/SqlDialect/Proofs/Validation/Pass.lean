import SqlDialect.Validation
import SqlDialect.Proofs.Walk.Operands

/-!
# A pass as a recursion over nodes

The pass of validation keeps a state and gives up at the first violation. All that
it takes from its state is whether it has met a query. Here the pass is turned into
a recursion over the list of nodes that it can come to, in which that one bit is
handed on, so that its verdict can be computed piece by piece.

## Main results

* `Dialect.run_atConstruct`, `Dialect.run_forM_cons`: what the pass does at one node, and
  how it goes on from there.
* `Dialect.validate_eq_judgeAll`: the verdict on a statement is that of the recursion.
* `Dialect.judgeAll_append`: the verdict on a list from the verdicts on its parts.
-/

namespace SqlDialect

namespace Node

/-- Whether the node is a query block. -/
def isQuery : Node → Bool
  | .call (.select _) => true
  | _ => false

theorem exists_query_of_isQuery {n : Node} (h : n.isQuery = true) :
    ∃ q, n = .call (.select q) := by
  cases n with
  | call c =>
      cases c with
      | select q => exact ⟨q, rfl⟩
      | _ => cases h
  | _ => cases h

theorem any_isQuery_iff {ns : List Node} :
    ns.any isQuery = true ↔ ∃ q, .call (.select q) ∈ ns := by
  rw [List.any_eq_true]
  constructor
  · rintro ⟨n, hmem, hquery⟩
    obtain ⟨q, rfl⟩ := exists_query_of_isQuery hquery
    exact ⟨q, hmem⟩
  · rintro ⟨q, hmem⟩
    exact ⟨_, hmem, rfl⟩

theorem any_isQuery_eq_false_iff {ns : List Node} :
    ns.any isQuery = false ↔ ∀ q, .call (.select q) ∉ ns := by
  rw [← Bool.not_eq_true, any_isQuery_iff, not_exists]

@[simp] theorem isQuery_modify (n : Node) (s : Slot) (f : Node → Node) :
    (n.modify s f).isQuery = n.isQuery := by
  cases n with
  | call c => cases c <;> cases s <;> rfl
  | _ => cases s <;> rfl

end Node

/-! ## One node -/

namespace Pass

variable {α : Type}

private theorem run_get_bind (f : Progress → Pass α) (progress : Progress) :
    (get >>= f).run.run progress = (f progress).run.run progress := rfl

private theorem run_require_none_bind (position : Position) (f : Unit → Pass α)
    (progress : Progress) :
    (require none position >>= f).run.run progress = (f ()).run.run progress := rfl

end Pass

namespace Progress

/-- What a pass has seen after a node that it did not refuse. -/
def after (progress : Progress) : Node → Progress
  | .call (.select q) =>
    if progress.firstQuery.isNone then ⟨some q, progress.log ++ [.queryRecorded q.position]⟩
    else progress
  | .call c =>
    if c.operator.isDynamicTableFunction then
      { progress with
        log := progress.log ++ [.tableFunctionSkipped c.position c.operator.name] }
    else progress
  | _ => progress

/-- A query has been met after a node if it was met before or if the node is one. -/
theorem firstQuery_after (progress : Progress) (n : Node) :
    (progress.after n).firstQuery.isSome = (progress.firstQuery.isSome || n.isQuery) := by
  cases n with
  | call c =>
      cases c with
      | select q =>
          rw [after]
          cases h : progress.firstQuery <;> simp [Node.isQuery, h]
      | _ =>
          rw [after]
          · split <;> simp [Node.isQuery]
          · simp
  | _ => simp [after, Node.isQuery]

end Progress

namespace Dialect

/-- Why a node is refused, without regard to what is below it. -/
def nodeCause? (d : Dialect) (queryMet : Bool) (n : Node) : Option Cause :=
  if n.isSkipped then none
  else
    match n with
    | .call c => d.callCause? queryMet c
    | .literal l => d.literalCause? l
    | .dataType t => d.typeCause? t.spec
    | _ => none

/-- Only a query is judged by what comes before it. -/
theorem nodeCause?_of_not_isQuery {d : Dialect} {n : Node} (h : n.isQuery = false)
    {queryMet met : Bool} : d.nodeCause? queryMet n = d.nodeCause? met n := by
  cases n with
  | call c =>
      cases c with
      | select q => cases h
      | _ => rfl
  | _ => rfl

theorem nodeCause?_query (d : Dialect) (queryMet : Bool) (q : Query Node) :
    d.nodeCause? queryMet (.call (.select q)) =
      if Kind.select ∈ d.kinds then none else queryCause? queryMet q := rfl

/-- The first query of a statement is not refused. -/
theorem nodeCause?_false_of_isQuery {d : Dialect} {n : Node} (h : n.isQuery = true) :
    d.nodeCause? false n = none := by
  obtain ⟨q, rfl⟩ := Node.exists_query_of_isQuery h
  rw [nodeCause?_query]
  exact ite_self none

/-- Calls of the kinds of the dialect need no closer look. -/
theorem nodeCause?_of_listed {d : Dialect} {c : Call Node} (h : c.kind ∈ d.kinds)
    (queryMet : Bool) : d.nodeCause? queryMet (.call c) = none := by
  have hlisted : d.callCause? queryMet c = none := if_pos h
  show (if (Node.call c).isSkipped then none else d.callCause? queryMet c) = none
  rw [hlisted, ite_self]

/-- The answer at a call says whether the call is left alone, and nothing else. -/
theorem checker_staysOutOfSkipped (d : Dialect) : d.checker.StaysOutOfSkipped where
  node _ := rfl
  list _ := rfl
  call c := by
    show d.checkCall c = (fun _ => !(Node.call c).isSkipped) <$> d.checkCall c
    cases hskip : c.operator.isDynamicTableFunction with
    | true => simp [checkCall, Node.isSkipped, hskip]
    | false => cases c <;> simp [checkCall, Node.isSkipped, hskip]

/-- What the pass does at a call: it refuses the call and stops, or takes note of it. -/
theorem run_checkCall (d : Dialect) (c : Call Node) (progress : Progress) :
    (d.checkCall c).run.run progress =
      match d.nodeCause? progress.firstQuery.isSome (.call c) with
      | some cause => (.error (cause.violation c.position), progress)
      | none => (.ok !(Node.call c).isSkipped, progress.after (.call c)) := by
  rw [nodeCause?, Node.isSkipped, checkCall]
  cases hskip : c.operator.isDynamicTableFunction with
  | true =>
      cases c with
      | select q => cases hskip
      | _ =>
          simp only [if_true, Progress.after, hskip]
          rfl
  | false =>
      simp only [Bool.false_eq_true, if_false, Pass.run_get_bind]
      cases d.callCause? progress.firstQuery.isSome c with
      | some cause => rfl
      | none =>
          rw [Pass.run_require_none_bind]
          cases c with
          | select q =>
              show (Pass.meet q >>= fun _ => pure true).run.run progress =
                (.ok true, progress.after (.call (.select q)))
              rw [ExceptT.run_bind, StateT.run_bind, Pass.run_meet]
              rfl
          | _ =>
              simp only [Progress.after, hskip]
              rfl

/-- What the pass does at a node: it refuses the node and stops, or takes note of it. -/
theorem run_atConstruct (d : Dialect) (n : Node) (progress : Progress) :
    (d.checker.atConstruct n).run.run progress =
      match d.nodeCause? progress.firstQuery.isSome n with
      | some cause => (.error (cause.violation n.position), progress)
      | none => (.ok (), progress.after n) := by
  cases n with
  | call c =>
      show ((fun _ => ()) <$> d.checkCall c).run.run progress = _
      rw [ExceptT.run_map, StateT.run_map, d.run_checkCall c progress]
      cases d.nodeCause? progress.firstQuery.isSome (.call c) <;> rfl
  | literal l =>
      show (Pass.require (d.literalCause? l) l.position).run.run progress =
        match d.literalCause? l with
        | some cause => (.error (cause.violation l.position), progress)
        | none => (.ok (), progress)
      rw [Pass.run_require]
      cases d.literalCause? l <;> rfl
  | dataType t =>
      show (Pass.require (d.typeCause? t.spec) t.position).run.run progress =
        match d.typeCause? t.spec with
        | some cause => (.error (cause.violation t.position), progress)
        | none => (.ok (), progress)
      rw [Pass.run_require]
      cases d.typeCause? t.spec <;> rfl
  | _ => rfl

/-! ## Nodes one after the other -/

/-- The verdict on nodes that are met in this order. -/
def judgeAll (d : Dialect) (queryMet : Bool) : List Node → Except Violation Unit
  | [] => .ok ()
  | n :: ns =>
    match d.nodeCause? queryMet n with
    | some cause => .error (cause.violation n.position)
    | none => d.judgeAll (queryMet || n.isQuery) ns

/-- A loop over nodes ends at the first of them, or goes on from the state after it. -/
theorem run_forM_cons (d : Dialect) (n : Node) (ns : List Node) (progress : Progress) :
    (forM (n :: ns) d.checker.atConstruct).run.run progress =
      match d.nodeCause? progress.firstQuery.isSome n with
      | some cause => (.error (cause.violation n.position), progress)
      | none => (forM ns d.checker.atConstruct).run.run (progress.after n) := by
  have hstep := d.run_atConstruct n progress
  rw [List.forM_cons, ExceptT.run_bind, StateT.run_bind, hstep]
  cases d.nodeCause? progress.firstQuery.isSome n with
  | some cause => rfl
  | none => rfl

theorem run_forM_atConstruct (d : Dialect) (ns : List Node) (progress : Progress) :
    ((forM ns d.checker.atConstruct).run.run progress).1 =
      d.judgeAll progress.firstQuery.isSome ns := by
  induction ns generalizing progress with
  | nil => rfl
  | cons n ns ih =>
      rw [run_forM_cons, judgeAll]
      cases d.nodeCause? progress.firstQuery.isSome n with
      | some cause => rfl
      | none => rw [← Progress.firstQuery_after, ← ih (progress.after n)]

/-- The verdict on a statement is the verdict on the nodes that can be reached in it. -/
theorem validate_eq_judgeAll (d : Dialect) (root : Node) :
    d.validate root = d.judgeAll false root.reached := by
  have hrun := d.run_forM_atConstruct root.reached ⟨none, [.started root.position]⟩
  rw [validate, examine, Visitor.visit_eq_forM_reached d.checker_staysOutOfSkipped]
  rw [← show _ = d.judgeAll false root.reached from hrun]
  split
  · rename_i heq
    rw [heq]
  · rename_i heq
    rw [heq]

theorem judgeAll_append (d : Dialect) (queryMet : Bool) (ns ms : List Node) :
    d.judgeAll queryMet (ns ++ ms) =
      (d.judgeAll queryMet ns >>= fun _ => d.judgeAll (queryMet || ns.any Node.isQuery) ms) := by
  induction ns generalizing queryMet with
  | nil =>
      rw [List.nil_append, List.any_nil, Bool.or_false]
      rfl
  | cons n ns ih =>
      rw [List.cons_append, judgeAll, judgeAll]
      cases d.nodeCause? queryMet n with
      | some cause => rfl
      | none => rw [ih, List.any_cons, Bool.or_assoc]

/-- Nodes are supported if those on the left are and, after them, those on the right. -/
theorem judgeAll_append_eq_ok_iff {d : Dialect} {queryMet : Bool} {ns ms : List Node} :
    d.judgeAll queryMet (ns ++ ms) = .ok () ↔
      d.judgeAll queryMet ns = .ok () ∧
        d.judgeAll (queryMet || ns.any Node.isQuery) ms = .ok () := by
  rw [judgeAll_append]
  cases d.judgeAll queryMet ns with
  | error v =>
      constructor
      · intro h
        cases h
      · rintro ⟨h, -⟩
        cases h
  | ok u => exact (and_iff_right rfl).symm

end Dialect

end SqlDialect
