import SqlDialect.Proofs.Validation.FirstRefusal
import SqlDialect.Proofs.Validation.Trace
import SqlDialect.Node.Expression

/-!
# What the log tells

The log of a pass can be written down without making the pass. What is reported at a node
is told by the node and by those before it: that a table function over a file is passed
over, or that a query is the first. The nodes to be gone through are all that can be
reached, in pre-order, or those up to the first that is refused if there is one.

## Main definitions

* `LogEntry.report?`: what is reported at one node.
* `LogEntry.reports`: what is reported at nodes one after the other.

## Main results

* `Dialect.exists_visited`: which nodes a pass visits.
* `Dialect.log_tells_the_pass`: the log of a pass, from its beginning to its end.
-/

namespace SqlDialect

/-! ## Reports -/

namespace LogEntry

/--
What is reported at a node that comes after the given ones. Of the calls that are judged
only a query is reported, and that only if it is the first.
-/
def report? (before : List Node) : Node → Option LogEntry
  | .call (.select q) =>
    if before.any Node.isQuery then none else some (.queryRecorded q.position)
  | .call c =>
    if c.operator.isDynamicTableFunction then
      some (.tableFunctionSkipped c.position c.operator.name)
    else none
  | _ => none

/-- What is reported at nodes one after the other, all of which come after the given ones. -/
def reports (before : List Node) : List Node → List LogEntry
  | [] => []
  | n :: ns => (report? before n).toList ++ reports (before ++ [n]) ns

/-- A line of the log as it is shown. -/
structure Line where
  /-- The name of the level. -/
  level : String
  /-- What happened. -/
  message : String
  /-- The particulars, by name. -/
  fields : List (String × String)
deriving DecidableEq

/-- The line that shows the event. -/
def line (entry : LogEntry) : Line := ⟨entry.level.name, entry.message, entry.fields⟩

end LogEntry

namespace Progress

variable {progress : Progress} {before : List Node}

/-- The log grows by what is reported at the node. -/
theorem log_after (hmet : progress.firstQuery.isSome = before.any Node.isQuery) (n : Node) :
    (progress.after n).log = progress.log ++ (LogEntry.report? before n).toList := by
  cases n with
  | call c =>
      cases c with
      | select q =>
          rw [after, LogEntry.report?, ← hmet]
          cases progress.firstQuery with
          | none => rfl
          | some first => exact (List.append_nil _).symm
      | _ =>
          rw [after, LogEntry.report?]
          · split
            · rfl
            · exact (List.append_nil _).symm
          · simp
          · simp
  | _ => exact (List.append_nil _).symm

theorem log_foldl_after (hmet : progress.firstQuery.isSome = before.any Node.isQuery)
    (ns : List Node) :
    (ns.foldl after progress).log = progress.log ++ LogEntry.reports before ns := by
  induction ns generalizing progress before with
  | nil => exact (List.append_nil _).symm
  | cons n ns ih =>
      have hnext : (progress.after n).firstQuery.isSome = (before ++ [n]).any Node.isQuery := by
        rw [firstQuery_after, hmet, List.any_append, List.any_cons, List.any_nil, Bool.or_false]
      rw [List.foldl_cons, ih hnext, log_after hmet, LogEntry.reports, List.append_assoc]

end Progress

/-! ## The nodes that are visited -/

namespace Dialect

variable {d : Dialect} {queryMet : Bool} {ns before after : List Node} {n : Node} {cause : Cause}

/-- The pass goes through nodes that it does not refuse and on to those after them. -/
theorem visited_append (h : d.judgeAll queryMet ns = .ok ()) (ms : List Node) :
    d.visited queryMet (ns ++ ms) = ns ++ d.visited (queryMet || ns.any Node.isQuery) ms := by
  induction ns generalizing queryMet with
  | nil => rw [List.nil_append, List.nil_append, List.any_nil, Bool.or_false]
  | cons n ns ih =>
      rw [judgeAll] at h
      rw [List.cons_append, List.cons_append, visited]
      cases hcause : d.nodeCause? queryMet n with
      | some cause =>
          rw [hcause] at h
          cases h
      | none =>
          rw [hcause] at h
          show n :: d.visited (queryMet || n.isQuery) (ns ++ ms) = _
          rw [ih h, List.any_cons, Bool.or_assoc]

theorem visited_of_allows (h : d.Allows ns) : d.visited false ns = ns := by
  have hall := visited_append (judgeAll_eq_ok_iff.mpr h) []
  rwa [List.append_nil, visited, List.append_nil] at hall

/-- The pass ends with the first node that it refuses. -/
theorem visited_of_refuses (hbefore : d.Allows before) (hn : d.Refuses before n cause) :
    d.visited false (before ++ n :: after) = before ++ [n] := by
  rw [visited_append (judgeAll_eq_ok_iff.mpr hbefore), Bool.false_or, visited,
    refuses_iff.mp hn]

/--
The pass visits all nodes that it can come to if it refuses none of them, and otherwise
those up to the first that it refuses, that one included.
-/
theorem exists_visited (d : Dialect) (root : Node) :
    ∃ seen rest : Located, root.reachedAt = seen ++ rest ∧ seen.nodes = d.visitedIn root ∧
      (d.validate root = .ok () → rest = []) ∧
      ∀ v, d.validate root = .error v →
        ∃ (before : Located) (a : Address) (n : Node) (cause : Cause),
          seen = before ++ [(a, n)] ∧ d.Allows before.nodes ∧
            d.Refuses before.nodes n cause ∧ v = ⟨n.position, cause.description⟩ := by
  rw [validate_eq_judgeAll, visitedIn]
  cases hverdict : d.judgeAll false root.reached with
  | ok u =>
      refine ⟨root.reachedAt, [], (List.append_nil _).symm, ?_, fun _ => rfl, ?_⟩
      · exact (visited_of_allows (judgeAll_eq_ok_iff.mp hverdict)).symm
      · intro v hv
        cases hv
  | error v =>
      obtain ⟨before, n, after, cause, hsplit, hbefore, hn, rfl⟩ :=
        judgeAll_eq_error_iff.mp hverdict
      obtain ⟨seen, rest, hreached, rfl, hrest⟩ := List.map_eq_append_iff.mp hsplit
      obtain ⟨⟨a, m⟩, rest, rfl, rfl, rfl⟩ := List.map_eq_cons_iff.mp hrest
      refine ⟨seen ++ [(a, m)], rest, ?_, ?_, ?_, ?_⟩
      · rw [hreached, List.append_assoc, List.singleton_append]
      · rw [hsplit, visited_of_refuses hbefore hn, Located.nodes_append]
        rfl
      · intro hok
        cases hok
      · intro v hv
        obtain rfl := Except.error.inj hv
        exact ⟨seen, a, m, cause, rfl, hbefore, hn, rfl⟩

/-! ## The log -/

/-- Between its first and its last entry the log has what is reported at the nodes visited. -/
theorem examine_log_eq_reports (d : Dialect) (root : Node) :
    (d.examine root).log =
      .started root.position ::
        (LogEntry.reports [] (d.visitedIn root) ++ closingEntries (d.validate root)) := by
  have hmet : (Progress.start root).firstQuery.isSome = [].any Node.isQuery := rfl
  rw [examine_log, finalProgress_eq, Progress.log_foldl_after hmet, List.append_assoc]
  rfl

/--
The log of a pass. It begins with the statement; then comes what is reported at each node
that the pass visits, in pre-order; and at its end there is the violation if there is one.
The nodes that are visited are all that can be come to, or those up to the one that is
refused, and none of them is below a table function over a file.
-/
theorem log_tells_the_pass (d : Dialect) (root : Node) :
    ∃ seen rest : Located, root.reachedAt = seen ++ rest ∧
      (d.validate root = .ok () → rest = []) ∧
      (∀ v, d.validate root = .error v →
        ∃ (before : Located) (a : Address) (n : Node) (cause : Cause),
          seen = before ++ [(a, n)] ∧ d.Allows before.nodes ∧
            d.Refuses before.nodes n cause ∧ v = ⟨n.position, cause.description⟩) ∧
      (∀ x ∈ seen, ∀ y ∈ seen, x.1 <+: y.1 → x.1 ≠ y.1 → x.2.isSkipped = false) ∧
      (d.examine root).log =
        .started root.position :: (LogEntry.reports [] seen.nodes ++
          match d.validate root with
          | .ok _ => []
          | .error v => [.refused v]) ∧
      ∀ entry : LogEntry, entry.line =
        match entry with
        | .started position =>
          ⟨"DEBUG", "validating statement", [("position", position.text)]⟩
        | .queryRecorded position =>
          ⟨"TRACE", "recorded top-level SELECT", [("position", position.text)]⟩
        | .tableFunctionSkipped position function =>
          ⟨"TRACE", "skipping dynamic table function",
            [("position", position.text), ("function", function)]⟩
        | .refused v =>
          ⟨"DEBUG", "unsupported construct",
            [("position", v.position.text), ("description", v.description)]⟩ := by
  obtain ⟨seen, rest, hsplit, hseen, hall, hrefused⟩ := d.exists_visited root
  have hreached : ∀ x ∈ seen, x ∈ root.reachedAt := fun x hx =>
    hsplit ▸ List.mem_append_left rest hx
  refine ⟨seen, rest, hsplit, hall, hrefused, ?_, ?_, ?_⟩
  · intro x hx y hy habove hne
    exact Node.isSkipped_of_reached_below (hreached x hx) (hreached y hy) habove hne
  · rw [hseen]
    exact d.examine_log_eq_reports root
  · intro entry
    cases entry <;> rfl

/-- Only the outer one of two queries is reported, and then the file that the inner one reads. -/
example :
    (executable.examine (.call (.select { Query.ofSelectList ⟨[.star], .zero⟩ .zero with
      fromClause := some (.call (.select { Query.ofSelectList ⟨[.star], .zero⟩ .zero with
        fromClause := some (.tableFunction (.engine .csvFile [.star])) })) }))).log =
      [.started .zero, .queryRecorded .zero, .tableFunctionSkipped .zero "CSV_FILE"] := rfl

end Dialect

end SqlDialect
