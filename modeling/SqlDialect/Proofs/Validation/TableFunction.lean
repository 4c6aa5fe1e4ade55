import SqlDialect.Proofs.Validation.Rebuild
import SqlDialect.Node.Expression

/-!
# Table functions over files are sealed

A pass does not look at the operands of a table function over a file. So it makes no
difference to put a plain name in the place of each such call: the verdict stays the
same, and from the log nothing is missing but the reports of the calls themselves. As
the names know nothing of the operands, no more does the verdict.

## Main results

* `Node.withStubs_eq`: what it means to put names in the place of calls.
* `Dialect.finalProgress_withStubs`: a pass over the names sees what a pass over the
  calls sees.
* `Dialect.table_functions_are_sealed`: verdict, log and first query of the two passes.
-/

namespace SqlDialect

namespace Node

variable {label : Operator → Position → String} {n : Node}

/-! ## Names in the place of calls -/

/--
A name in the place of a call that validation stays out of, at the position of the call.
Any other node is left as it is.
-/
def stub (label : Operator → Position → String) : Node → Node
  | .call c =>
    if c.operator.isDynamicTableFunction then
      .identifier (.named (label c.operator c.position) c.position)
    else .call c
  | n => n

/-- The statement with a name in the place of every call that validation stays out of. -/
def withStubs (label : Operator → Position → String) (n : Node) : Node := n.rebuild (stub label)

theorem stub_of_skipped {c : Call Node} (h : (Node.call c).isSkipped = true) :
    stub label (.call c) = .identifier (.named (label c.operator c.position) c.position) :=
  if_pos h

theorem stub_of_not_skipped (h : n.isSkipped = false) : stub label n = n := by
  cases n with
  | call c => exact if_neg (Bool.eq_false_iff.mp h)
  | _ => rfl

/-- A node is kept with its operands changed, unless it is itself a call to be replaced. -/
theorem withStubs_eq (label : Operator → Position → String) (n : Node) :
    n.withStubs label =
      if n.isSkipped then stub label n else n.mapOperands (withStubs label) := by
  rw [withStubs, rebuild_eq]
  cases hskip : n.isSkipped with
  | false => exact stub_of_not_skipped ((n.isSkipped_mapOperands _).trans hskip)
  | true =>
      cases n with
      | call c =>
          have hoperator : (c.mapOperands (rebuild (stub label))).operator = c.operator := by
            cases c <;> rfl
          have hposition : (c.mapOperands (rebuild (stub label))).position = c.position := by
            cases c <;> rfl
          have hskip' : (Node.call (c.mapOperands (rebuild (stub label)))).isSkipped = true := by
            rw [isSkipped, hoperator]
            exact hskip
          rw [mapOperands, stub_of_skipped hskip', hoperator, hposition, if_pos rfl,
            stub_of_skipped hskip]
      | _ => cases hskip

theorem isSkipped_stub (label : Operator → Position → String) (n : Node) :
    (stub label n).isSkipped = false := by
  cases hskip : n.isSkipped with
  | false => rw [stub_of_not_skipped hskip, hskip]
  | true =>
      cases n with
      | call c =>
          rw [stub_of_skipped hskip]
          rfl
      | _ => cases hskip

theorem position_stub (label : Operator → Position → String) (n : Node) :
    (stub label n).position = n.position := by
  cases hskip : n.isSkipped with
  | false => rw [stub_of_not_skipped hskip]
  | true =>
      cases n with
      | call c =>
          rw [stub_of_skipped hskip]
          rfl
      | _ => cases hskip

@[simp] theorem position_withStubs (label : Operator → Position → String) (n : Node) :
    (n.withStubs label).position = n.position := by
  rw [withStubs, rebuild_eq, position_stub, position_mapOperands]

end Node

/-! ## The pass does not notice -/

namespace Dialect

variable {d : Dialect} {label : Operator → Position → String}

/-- Whatever calls of table functions share with all names is not changed. -/
private theorem stub_congr {α : Type} (g : Node → α)
    (hskipped : ∀ c i, (Node.call c).isSkipped = true → g (.identifier i) = g (.call c))
    (n : Node) : g (n.stub label) = g n := by
  cases hskip : n.isSkipped with
  | false => rw [Node.stub_of_not_skipped hskip]
  | true =>
      cases n with
      | call c =>
          rw [Node.stub_of_skipped hskip]
          exact hskipped c _ hskip
      | _ => cases hskip

/-- A table function over a file is to a pass what a name is. -/
theorem unnoticed_stub (d : Dialect) (label : Operator → Position → String) :
    d.Unnoticed (Node.stub label) := by
  constructor
  case openSlots =>
    refine stub_congr _ fun c i hskip => ?_
    rw [Node.openSlots, Node.openSlots, if_pos hskip]
    rfl
  case symbol? =>
    refine stub_congr _ fun c i _ => ?_
    rfl
  case isQuery =>
    refine stub_congr _ fun c i hskip => ?_
    cases c with
    | select q => cases hskip
    | _ => rfl
  case nodeCause? =>
    intro queryMet
    refine stub_congr _ fun c i hskip => ?_
    rw [nodeCause?_of_skipped hskip]
    rfl

/-- The verdict on the names is the verdict on the calls. -/
theorem validate_withStubs (d : Dialect) (label : Operator → Position → String) (root : Node) :
    d.validate (root.withStubs label) = d.validate root := by
  rw [validate_eq_verdictOn, validate_eq_verdictOn, Node.withStubs,
    (d.unnoticed_stub label).firstRefused?_rebuild]
  cases d.firstRefused? false root.reachedAt with
  | none => rfl
  | some refused =>
      obtain ⟨⟨a, n⟩, cause⟩ := refused
      show Except.error (cause.violation (n.withStubs label).position) = _
      rw [Node.position_withStubs]
      rfl

end Dialect

/-! ## What is seen on the way -/

/-- Whether the event is that a table function over a file was passed over. -/
def LogEntry.isSkip : LogEntry → Bool
  | .tableFunctionSkipped _ _ => true
  | _ => false

namespace Progress

variable {label : Operator → Position → String}

/-- What is seen with names in the place of the calls: their reports are missing from the log. -/
def withStubs (label : Operator → Position → String) (progress : Progress) : Progress where
  firstQuery := progress.firstQuery.map (·.mapOperands (Node.withStubs label))
  log := progress.log.filter (fun entry => !entry.isSkip)

theorem start_withStubs (label : Operator → Position → String) (root : Node) :
    start (root.withStubs label) = (start root).withStubs label := by
  rw [start, Node.position_withStubs]
  rfl

/-- One node with the calls below it replaced is noted as the node itself is. -/
theorem after_withStubs (progress : Progress) (n : Node) :
    (progress.withStubs label).after (n.withStubs label) =
      (progress.after n).withStubs label := by
  rw [Node.withStubs_eq]
  cases hskip : n.isSkipped with
  | true =>
      cases n with
      | call c =>
          rw [if_pos rfl, Node.stub_of_skipped hskip, after_call_of_skipped progress hskip]
          simp [after, withStubs, LogEntry.isSkip]
      | _ => cases hskip
  | false =>
      rw [if_neg Bool.false_ne_true]
      cases hquery : n.isQuery with
      | false =>
          rw [after_of_plain progress hskip hquery, after_of_plain]
          · rw [Node.isSkipped_mapOperands, hskip]
          · rw [Node.isQuery_mapOperands, hquery]
      | true =>
          obtain ⟨q, rfl⟩ := Node.exists_query_of_isQuery hquery
          obtain ⟨firstQuery, log⟩ := progress
          cases firstQuery with
          | none =>
              simp only [Node.mapOperands, Call.mapOperands, after, withStubs, Option.map_none,
                Option.isNone_none, if_true, List.filter_append]
              rfl
          | some first => rfl

end Progress

namespace Dialect

variable {d : Dialect} {label : Operator → Position → String}

/-- A pass over the names sees what a pass over the calls sees, without the calls. -/
theorem finalProgress_withStubs (d : Dialect) (label : Operator → Position → String)
    (root : Node) :
    d.finalProgress (root.withStubs label) = (d.finalProgress root).withStubs label := by
  have hvisited : d.visitedIn (root.withStubs label) =
      (d.visitedIn root).map (Node.withStubs label) :=
    (d.unnoticed_stub label).visitedIn_rebuild root
  rw [finalProgress_eq, finalProgress_eq, hvisited, List.foldl_map, Progress.start_withStubs]
  exact List.foldl_hom _ fun progress n => progress.after_withStubs n

theorem isSkip_closingEntries {result : Except Violation Unit} {entry : LogEntry}
    (h : entry ∈ closingEntries result) : entry.isSkip = false := by
  cases result with
  | ok u => cases h
  | error v =>
      rw [List.mem_singleton.mp h]
      rfl

theorem log_withStubs (d : Dialect) (label : Operator → Position → String) (root : Node) :
    (d.examine (root.withStubs label)).log =
      (d.examine root).log.filter (fun entry => !entry.isSkip) := by
  have hclosing : (closingEntries (d.validate root)).filter (fun entry => !entry.isSkip) =
      closingEntries (d.validate root) := by
    refine List.filter_eq_self.mpr fun entry hentry => ?_
    rw [isSkip_closingEntries hentry]
    rfl
  rw [examine_log, examine_log, List.filter_append, hclosing, validate_withStubs,
    finalProgress_withStubs]
  rfl

/-- The first query of a pass is one that validation can come to. -/
theorem mem_reached_of_firstQuery {root : Node} {q : Query Node}
    (h : (d.finalProgress root).firstQuery = some q) : .call (.select q) ∈ root.reached := by
  rw [finalProgress_eq, Progress.firstQuery_foldl_after] at h
  obtain ⟨before, after, hsplit, -⟩ := Node.findSome?_query?_eq_some_iff.mp h
  have hmem : .call (.select q) ∈ d.visitedIn root := by simp [hsplit]
  exact (d.visited_prefix false root.reached).subset hmem

theorem isSkipped_of_mem_withStubs (d : Dialect) {root n : Node}
    (h : n ∈ (root.withStubs label).reached) : n.isSkipped = false := by
  rw [Node.withStubs, Node.reached_rebuild (d.unnoticed_stub label).openSlots] at h
  obtain ⟨m, -, rfl⟩ := List.mem_map.mp h
  rw [Node.rebuild_eq, Node.isSkipped_stub]

/--
With a name in the place of every table function over a file, none of these calls is
left, the verdict is the same to the position, and so is the log but for the reports of
the calls. Statements that differ only below such calls therefore have one verdict, and
the query that a pass takes to be the first of the statement is never below such a call.
-/
theorem table_functions_are_sealed (d : Dialect) (label : Operator → Position → String)
    (root : Node) :
    (∀ n ∈ (root.withStubs label).reached, n.isSkipped = false) ∧
      d.validate (root.withStubs label) = d.validate root ∧
      (d.examine (root.withStubs label)).log =
        (d.examine root).log.filter (fun entry => !entry.isSkip) ∧
      (∀ other, other.withStubs label = root.withStubs label →
        d.validate other = d.validate root) ∧
      (d.finalProgress (root.withStubs label)).firstQuery =
        (d.finalProgress root).firstQuery.map (·.mapOperands (Node.withStubs label)) ∧
      ∀ q, (d.finalProgress root).firstQuery = some q → .call (.select q) ∈ root.reached := by
  refine ⟨fun n hn => d.isSkipped_of_mem_withStubs hn, d.validate_withStubs label root,
    d.log_withStubs label root, ?_, ?_, fun q => mem_reached_of_firstQuery⟩
  · intro other hother
    rw [← d.validate_withStubs label other, hother, d.validate_withStubs label root]
  · rw [d.finalProgress_withStubs label root]
    rfl

/-- `SELECT * FROM` a table function. -/
private def selectFromTable (function : Node) : Node :=
  .call (.select { Query.ofSelectList ⟨[.star], .zero⟩ .zero with
    fromClause := some (.tableFunction function) })

/-- `SELECT * FETCH 1`. -/
private def firstRow : Node :=
  .call (.select { Query.ofSelectList ⟨[.star], .zero⟩ .zero with fetch := some (.integer 1) })

/-- A file may be read with or without `EXCEPT` and a query that limits rows among its options. -/
theorem table_function_options_do_not_matter :
    executable.validate
        (selectFromTable (.engine .csvFile [.standard .except [.star, .star], firstRow])) =
      executable.validate (selectFromTable (.engine .csvFile [])) :=
  (table_functions_are_sealed executable (fun operator _ => operator.name) _).2.2.2.1 _ rfl

end Dialect

end SqlDialect
