import SqlDialect.Proofs.Validation.Pass

/-!
# What a pass has seen

The verdict of a pass depends on a single bit of its state. Here the whole state is
followed, the log and the first query included. Nodes that are refused leave no trace
in it, so after any number of nodes the state is that of a fold over the nodes that the
pass has visited, the one at which it may have stopped among them.

## Main results

* `Dialect.run_forM`: what a loop over nodes answers, and the state that it leaves.
* `Dialect.finalProgress_eq`, `Dialect.progressAfter_eq`: the state at the end of a pass,
  and the state on the way.
* `Dialect.examine_log`: the log of a pass.
* `Progress.firstQuery_foldl_after`: the query that the state holds.
-/

namespace SqlDialect

namespace Node

/-- The query, if the node is one. -/
def query? : Node → Option (Query Node)
  | .call (.select q) => some q
  | _ => none

theorem query?_eq_some_iff {n : Node} {q : Query Node} :
    n.query? = some q ↔ n = .call (.select q) := by
  cases n with
  | call c => cases c <;> simp [query?]
  | _ => simp [query?]

theorem findSome?_query?_eq_none_iff {ns : List Node} :
    ns.findSome? query? = none ↔ ∀ q, .call (.select q) ∉ ns := by
  rw [List.findSome?_eq_none_iff]
  constructor
  · intro h q hq
    have hnone : query? (.call (.select q)) = none := h _ hq
    cases hnone
  · intro h n hn
    cases hquery : n.query? with
    | none => rfl
    | some q =>
        rw [query?_eq_some_iff.mp hquery] at hn
        exact absurd hn (h q)

/-- The first query of a list has no query before it. -/
theorem findSome?_query?_eq_some_iff {ns : List Node} {q : Query Node} :
    ns.findSome? query? = some q ↔
      ∃ before after, ns = before ++ .call (.select q) :: after ∧
        ∀ p, .call (.select p) ∉ before := by
  rw [List.findSome?_eq_some_iff]
  constructor
  · rintro ⟨before, n, after, hsplit, hn, hnone⟩
    rw [query?_eq_some_iff.mp hn] at hsplit
    exact ⟨before, after, hsplit,
      findSome?_query?_eq_none_iff.mp (List.findSome?_eq_none_iff.mpr hnone)⟩
  · rintro ⟨before, after, hsplit, hnone⟩
    exact ⟨before, _, after, hsplit, rfl,
      List.findSome?_eq_none_iff.mp (findSome?_query?_eq_none_iff.mpr hnone)⟩

end Node

/-! ## The state after a node -/

namespace Progress

/-- What a pass has seen when it begins. -/
def start (root : Node) : Progress := ⟨none, [.started root.position]⟩

/-- A table function over a file is reported, and that is all. -/
theorem after_call_of_skipped (progress : Progress) {c : Call Node}
    (h : (Node.call c).isSkipped = true) :
    progress.after (.call c) =
      { progress with
        log := progress.log ++ [.tableFunctionSkipped c.position c.operator.name] } := by
  cases c with
  | select q => cases h
  | _ => exact if_pos h

/-- Of nodes that are neither queries nor passed over, no note is taken. -/
theorem after_of_plain (progress : Progress) {n : Node} (hskip : n.isSkipped = false)
    (hquery : n.isQuery = false) : progress.after n = progress := by
  cases n with
  | call c =>
      have hop : c.operator.isDynamicTableFunction = false := hskip
      cases c with
      | select q => cases hquery
      | _ => simp [after, hop]
  | _ => rfl

/-- A query that was met stays; where there is none, the node may bring one. -/
theorem firstQuery_after_eq (progress : Progress) (n : Node) :
    (progress.after n).firstQuery = progress.firstQuery.or n.query? := by
  cases n with
  | call c =>
      cases c with
      | select q =>
          rw [after]
          cases h : progress.firstQuery with
          | none => rfl
          | some first => exact h
      | _ =>
          rw [after]
          · split <;> simp [Node.query?]
          · simp
  | _ => simp [after, Node.query?]

/-- The state holds the first query of all nodes so far. -/
theorem firstQuery_foldl_after (progress : Progress) (ns : List Node) :
    (ns.foldl after progress).firstQuery = progress.firstQuery.or (ns.findSome? Node.query?) := by
  induction ns generalizing progress with
  | nil => simp
  | cons n ns ih =>
      rw [List.foldl_cons, ih, firstQuery_after_eq, Option.or_assoc, List.findSome?_cons]
      cases n.query? <;> rfl

end Progress

namespace Dialect

variable {d : Dialect}

/-- A call that the pass stays out of is not refused. -/
theorem nodeCause?_of_skipped {n : Node} (h : n.isSkipped = true) {queryMet : Bool} :
    d.nodeCause? queryMet n = none := if_pos h

/-- A node that is refused leaves no trace in the state. -/
theorem after_of_refused {progress : Progress} {n : Node} {cause : Cause}
    (h : d.nodeCause? progress.firstQuery.isSome n = some cause) : progress.after n = progress := by
  have hskip : n.isSkipped = false := by
    cases hskip : n.isSkipped with
    | false => rfl
    | true =>
        rw [nodeCause?_of_skipped hskip] at h
        cases h
  cases hquery : n.isQuery with
  | false => exact progress.after_of_plain hskip hquery
  | true =>
      obtain ⟨q, rfl⟩ := Node.exists_query_of_isQuery hquery
      cases hfirst : progress.firstQuery with
      | none =>
          rw [hfirst, Option.isSome_none, nodeCause?_false_of_isQuery hquery] at h
          cases h
      | some first => simp [Progress.after, hfirst]

/-! ## The nodes that a pass visits -/

/-- The nodes that a pass visits: all up to the first that it refuses, and that one. -/
def visited (d : Dialect) (queryMet : Bool) : List Node → List Node
  | [] => []
  | n :: ns =>
    n :: match d.nodeCause? queryMet n with
      | some _ => []
      | none => d.visited (queryMet || n.isQuery) ns

/-- The nodes that the pass over a statement visits, in pre-order. -/
def visitedIn (d : Dialect) (root : Node) : List Node := d.visited false root.reached

theorem visited_prefix (d : Dialect) (queryMet : Bool) (ns : List Node) :
    d.visited queryMet ns <+: ns := by
  induction ns generalizing queryMet with
  | nil => exact List.prefix_rfl
  | cons n ns ih =>
      rw [visited, List.prefix_cons_inj]
      cases d.nodeCause? queryMet n with
      | some cause => exact List.nil_prefix
      | none => exact ih _

theorem visited_take (d : Dialect) (queryMet : Bool) (ns : List Node) (k : Nat) :
    d.visited queryMet (ns.take k) = (d.visited queryMet ns).take k := by
  induction ns generalizing queryMet k with
  | nil => simp [visited]
  | cons n ns ih =>
      cases k with
      | zero => rfl
      | succ k =>
          rw [List.take_succ_cons, visited, visited, List.take_succ_cons]
          cases d.nodeCause? queryMet n with
          | some cause => simp
          | none => simp [ih]

/-- What a loop over nodes answers, and the state that it leaves. -/
theorem run_forM (d : Dialect) (ns : List Node) (progress : Progress) :
    (forM ns d.checker.atConstruct).run.run progress =
      (d.judgeAll progress.firstQuery.isSome ns,
        (d.visited progress.firstQuery.isSome ns).foldl Progress.after progress) := by
  induction ns generalizing progress with
  | nil => rfl
  | cons n ns ih =>
      rw [run_forM_cons, judgeAll, visited]
      cases hcause : d.nodeCause? progress.firstQuery.isSome n with
      | some cause => rw [List.foldl_cons, after_of_refused hcause, List.foldl_nil]
      | none => rw [ih, List.foldl_cons, Progress.firstQuery_after]

/-! ## The state of a pass over a statement -/

/-- What a pass over a statement has seen when it ends. -/
def finalProgress (d : Dialect) (root : Node) : Progress :=
  ((d.checker.visit root).run.run (.start root)).2

/-- What a pass over a statement has seen after its first steps, or when it ended before. -/
def progressAfter (d : Dialect) (root : Node) (steps : Nat) : Progress :=
  ((forM (root.reached.take steps) d.checker.atConstruct).run.run (.start root)).2

/-- A pass over a statement is some first steps, and after them the others. -/
theorem visit_eq_steps (d : Dialect) (root : Node) (steps : Nat) :
    d.checker.visit root = (do
      forM (root.reached.take steps) d.checker.atConstruct
      forM (root.reached.drop steps) d.checker.atConstruct) := by
  rw [← List.forM_append, List.take_append_drop]
  exact Visitor.visit_eq_forM_reached d.checker_staysOutOfSkipped root

theorem run_visit (d : Dialect) (root : Node) :
    (d.checker.visit root).run.run (.start root) =
      (d.validate root, (d.visitedIn root).foldl Progress.after (.start root)) := by
  rw [Visitor.visit_eq_forM_reached d.checker_staysOutOfSkipped, run_forM, validate_eq_judgeAll]
  rfl

theorem finalProgress_eq (d : Dialect) (root : Node) :
    d.finalProgress root = (d.visitedIn root).foldl Progress.after (.start root) := by
  rw [finalProgress, run_visit]

theorem progressAfter_eq (d : Dialect) (root : Node) (steps : Nat) :
    d.progressAfter root steps =
      ((d.visitedIn root).take steps).foldl Progress.after (.start root) := by
  rw [progressAfter, run_forM, visitedIn, ← visited_take]
  rfl

/-- What a pass with this result reports at its end. -/
def closingEntries : Except Violation Unit → List LogEntry
  | .ok _ => []
  | .error v => [.refused v]

/-- The log of a pass is what the pass has seen, and at the end the violation if there is one. -/
theorem examine_log (d : Dialect) (root : Node) :
    (d.examine root).log = (d.finalProgress root).log ++ closingEntries (d.validate root) := by
  have hrun := d.run_visit root
  rw [← finalProgress_eq, Progress.start] at hrun
  rw [examine, hrun]
  cases d.validate root with
  | ok u => exact (List.append_nil _).symm
  | error v => rfl

end Dialect

end SqlDialect
