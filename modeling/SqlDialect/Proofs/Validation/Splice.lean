import SqlDialect.Proofs.Validation.Log
import SqlDialect.Proofs.Validation.Transparent
import SqlDialect.Proofs.Validation.Replacement
import SqlDialect.Proofs.Node.Splice

/-!
# A pass over spliced lists

Of a list a pass takes no note, and an absent operand it does not even come to. So a
statement is judged as its flattened form is, and the pass over it reports the same.

The states of the two passes are not the same on the way, for a pass remembers the first
query as it stands in its statement, with the lists that it holds. But all that a pass
makes of that memory is whether there is one. The two passes are therefore run side by
side, and kept in states that no pass can tell apart.

## Main definitions

* `Progress.Agrees`: states that no pass can tell apart.
* `Dialect.InStep`: nodes over which passes begun in such states come to the same end.

## Main results

* `Dialect.InStep.append`: passes that are in step over two stretches are in step over both.
* `Dialect.inStep_of_splices`: a splice is not noticed, wherever it is made.
* `Dialect.splicing_goes_unnoticed`: statements that are the same but for splices are judged
  alike and logged alike, and so is the flattened statement.
-/

namespace SqlDialect

/-! ## What is reported -/

/-- What is reported at a node does not depend on its operands. -/
theorem LogEntry.report?_modify (before : List Node) (n : Node) (s : Slot) (f : Node → Node) :
    report? before (n.modify s f) = report? before n := by
  cases n with
  | call c =>
      cases c with
      | select q =>
          show (if before.any Node.isQuery then none
            else some (LogEntry.queryRecorded (q.modify s f).position)) = _
          rw [q.position_modify]
          rfl
      | join j => cases s <;> rfl
      | _ => cases s <;> rfl
  | _ => cases s <;> rfl

/-! ## States that cannot be told apart -/

namespace Progress

/-- The same has been reported, and in both states a query was met or in neither. -/
structure Agrees (p q : Progress) : Prop where
  met : q.firstQuery.isSome = p.firstQuery.isSome
  log : q.log = p.log

end Progress

/-- Two passes end alike: with one result, and in states that cannot be told apart. -/
structure Pass.EndAlike (x y : Except Violation Unit × Progress) : Prop where
  result : y.1 = x.1
  state : x.2.Agrees y.2

namespace Dialect

variable {d : Dialect}

/-- What a pass over nodes that is begun in the given state answers, and the state it leaves. -/
def passOver (d : Dialect) (ns : List Node) (p : Progress) : Except Violation Unit × Progress :=
  (forM ns d.checker.atConstruct).run.run p

theorem passOver_cons (d : Dialect) (n : Node) (ns : List Node) (p : Progress) :
    d.passOver (n :: ns) p =
      match d.nodeCause? p.firstQuery.isSome n with
      | some cause => (.error (cause.violation n.position), p)
      | none => d.passOver ns (p.after n) := d.run_forM_cons n ns p

theorem passOver_append (d : Dialect) (ns ms : List Node) (p : Progress) :
    d.passOver (ns ++ ms) p =
      match d.passOver ns p with
      | (.error v, p') => (.error v, p')
      | (.ok _, p') => d.passOver ms p' := by
  rw [passOver, List.forM_append, ExceptT.run_bind, StateT.run_bind, ← passOver]
  rcases d.passOver ns p with ⟨v | u, p'⟩
  · rfl
  · rfl

/-! ## Passes in step -/

/-- Passes over the two lists that begin in states that cannot be told apart end alike. -/
def InStep (d : Dialect) (ns ms : List Node) : Prop :=
  ∀ p q : Progress, p.Agrees q → Pass.EndAlike (d.passOver ns p) (d.passOver ms q)

/-- A pass refuses both nodes or neither, for one reason, and reports the same of them. -/
structure Matches (d : Dialect) (n m : Node) : Prop extends d.Alike n m where
  reported : ∀ before, LogEntry.report? before m = LogEntry.report? before n

theorem Matches.refl (d : Dialect) (n : Node) : d.Matches n n := ⟨.refl d n, fun _ => rfl⟩

/-- States that cannot be told apart cannot be told apart after nodes that match. -/
theorem Matches.agrees_after {n m : Node} (h : d.Matches n m) {p q : Progress}
    (hpq : p.Agrees q) : (p.after n).Agrees (q.after m) := by
  -- What is reported depends on the nodes before; the query that was met stands for them all.
  have hmet : p.firstQuery.isSome =
      (p.firstQuery.toList.map fun first => Node.call (.select first)).any Node.isQuery := by
    cases p.firstQuery <;> rfl
  constructor
  · rw [Progress.firstQuery_after, Progress.firstQuery_after, hpq.met, h.isQuery]
  · rw [Progress.log_after hmet, Progress.log_after (hpq.met.trans hmet), hpq.log, h.reported]

namespace InStep

variable {ns ns' ms ms' : List Node} {n m : Node}

theorem nil (d : Dialect) : d.InStep [] [] := fun _ _ hpq => ⟨rfl, hpq⟩

theorem cons (h : d.Matches n m) (hrest : d.InStep ns ms) : d.InStep (n :: ns) (m :: ms) := by
  intro p q hpq
  rw [passOver_cons, passOver_cons, hpq.met, h.nodeCause?, h.position]
  cases d.nodeCause? p.firstQuery.isSome n with
  | some cause => exact ⟨rfl, hpq⟩
  | none => exact hrest _ _ (h.agrees_after hpq)

theorem refl (d : Dialect) (ns : List Node) : d.InStep ns ns := by
  induction ns with
  | nil => exact .nil d
  | cons n ns ih => exact .cons (.refl d n) ih

/-- A violation ends both passes on the left; otherwise both go on to the right. -/
theorem append (hleft : d.InStep ns ms) (hright : d.InStep ns' ms') :
    d.InStep (ns ++ ns') (ms ++ ms') := by
  intro p q hpq
  obtain ⟨hresult, hstate⟩ := hleft p q hpq
  rw [passOver_append, passOver_append]
  rcases hp : d.passOver ns p with ⟨v | u, p'⟩
  · rcases hq : d.passOver ms q with ⟨v' | u', q'⟩
    · rw [hp, hq] at hresult hstate
      exact ⟨hresult, hstate⟩
    · rw [hp, hq] at hresult
      cases hresult
  · rcases hq : d.passOver ms q with ⟨v' | u', q'⟩
    · rw [hp, hq] at hresult
      cases hresult
    · rw [hp, hq] at hstate
      exact hright p' q' hstate

/-- A transparent node may be left out. -/
theorem transparent (h : d.Transparent n) : d.InStep [n] [] := by
  intro p q hpq
  have hcause : d.nodeCause? p.firstQuery.isSome n = none := by
    rw [nodeCause?_of_not_isQuery h.plain]
    exact h.allowed
  rw [passOver_cons, hcause, p.after_of_plain h.opened h.plain]
  exact ⟨rfl, hpq⟩

end InStep

/-- A pass over a statement is a pass over all that can be reached in it. -/
theorem passOver_reached (d : Dialect) (root : Node) :
    d.passOver root.reached (.start root) = (d.validate root, d.finalProgress root) := by
  rw [passOver, ← Visitor.visit_eq_forM_reached d.checker_staysOutOfSkipped, run_visit,
    finalProgress_eq]

/-- Passes in step over statements that stand at one place have one outcome. -/
theorem examine_of_inStep {n m : Node} (h : d.InStep n.reached m.reached)
    (hposition : m.position = n.position) : d.examine m = d.examine n := by
  have hstart : (Progress.start n).Agrees (.start m) :=
    ⟨rfl, congrArg (fun p => [LogEntry.started p]) hposition⟩
  have hend := h _ _ hstart
  rw [passOver_reached, passOver_reached] at hend
  have hvalidate : d.validate m = d.validate n := hend.result
  have hseen : (d.finalProgress m).log = (d.finalProgress n).log := hend.state.log
  have hlog : (d.examine m).log = (d.examine n).log := by
    rw [examine_log, examine_log, hvalidate, hseen]
  exact congrArg₂ Outcome.mk hvalidate hlog

/-! ## Splices -/

/-- Nodes that match are in step if what can be reached below them is. -/
theorem inStep_reached {n m : Node} (h : d.Matches n m) (hskip : m.isSkipped = n.isSkipped)
    (hoperands : d.InStep (n.operands.flatMap Node.reached) (m.operands.flatMap Node.reached)) :
    d.InStep n.reached m.reached := by
  rw [Node.reached_eq, Node.reached_eq m, hskip]
  cases n.isSkipped with
  | true => exact .cons h (.nil d)
  | false => exact .cons h hoperands

/-- A list is as good as its items. -/
theorem inStep_list (d : Dialect) (l : Listing Node) :
    d.InStep (Node.list l).reached (l.items.flatMap Node.reached) := by
  have hlist := InStep.transparent (d.transparent_list l)
  have hreached : (Node.list l).reached = [.list l] ++ l.items.flatMap Node.reached := by
    rw [Node.reached_eq, Node.operands_list]
    rfl
  rw [hreached]
  exact hlist.append (.refl d _)

/-- A list among the items, at the place of the splice, gives way to what is in it. -/
theorem inStep_splices_listing {l l' : Listing Node} (h : l.Splices l') :
    d.InStep (l.items.flatMap Node.reached) (l'.items.flatMap Node.reached) := by
  cases h with
  | item before l after p =>
      simp only [List.flatMap_append, List.flatMap_cons, List.append_assoc]
      exact (InStep.refl d _).append ((d.inStep_list l).append (.refl d _))

theorem inStep_splices_operands {os os' : List (Option Node)} (h : SplicesOperands os os') :
    d.InStep (os.reduceOption.flatMap Node.reached) (os'.reduceOption.flatMap Node.reached) := by
  cases h with
  | list before l after =>
      simp only [List.reduceOption_append, List.reduceOption_cons_of_some,
        reduceOption_map_some, List.flatMap_append, List.flatMap_cons, List.append_assoc]
      exact (InStep.refl d _).append ((d.inStep_list l).append (.refl d _))
  | absent before after =>
      rw [List.reduceOption_append, List.reduceOption_cons_of_none, ← List.reduceOption_append]
      exact .refl d _

theorem Matches.modify {n : Node} {s : Slot} {f : Node → Node}
    (hflag : ∀ k, (s, k) ∈ n.slots → (f k).symbol? = k.symbol?) :
    d.Matches n (n.modify s f) :=
  ⟨alike_of_edited (.slot n s f fun _ => hflag), fun before => LogEntry.report?_modify before n s f⟩

/-- A query with other lists matches, as long as it limits rows like before and stands there. -/
theorem Matches.query {q q' : Query Node} (hlimits : q'.limitsRows = q.limitsRows)
    (hposition : q'.position = q.position) :
    d.Matches (.call (.select q)) (.call (.select q')) where
  nodeCause? queryMet := by
    rw [nodeCause?_query, nodeCause?_query, queryCause?, queryCause?, hlimits]
  isQuery := rfl
  position := hposition
  reported before := by rw [LogEntry.report?, LogEntry.report?, hposition]

end Dialect

theorem Query.Splices.limitsRows_eq {q q' : Query Node} (h : q.Splices q') :
    q'.limitsRows = q.limitsRows := by
  cases h <;> rfl

theorem Query.Splices.position_eq {q q' : Query Node} (h : q.Splices q') :
    q'.position = q.position := by
  cases h <;> rfl

theorem Node.Splices.position_eq {n m : Node} (h : n.Splices m) : m.position = n.position := by
  cases h with
  | list h =>
      cases h
      rfl
  | select h => exact h.position_eq
  | inside hk h => exact n.position_modify _ _
  | _ => rfl

/-- Only literals hold flags, and no splice is made in a literal. -/
theorem Node.Splices.symbol?_eq {n m : Node} (h : n.Splices m) : m.symbol? = n.symbol? := by
  cases h with
  | inside hk h => exact n.symbol?_modify _ _
  | _ => rfl

namespace Dialect

variable {d : Dialect}

/-- A splice is not noticed, wherever it is made. -/
theorem inStep_of_splices {n m : Node} (h : n.Splices m) : d.InStep n.reached m.reached := by
  induction h with
  | basic op p h =>
      refine inStep_reached ⟨⟨fun _ => rfl, rfl, rfl⟩, fun _ => rfl⟩ rfl ?_
      rw [Node.operands_basic, Node.operands_basic]
      exact inStep_splices_operands h
  | ddl op statement p h =>
      refine inStep_reached ⟨⟨fun _ => rfl, rfl, rfl⟩, fun _ => rfl⟩ rfl ?_
      rw [Node.operands_ddl, Node.operands_ddl]
      exact inStep_splices_operands h
  | list h =>
      have hposition := (Node.Splices.list h).position_eq
      refine inStep_reached ⟨⟨fun _ => rfl, rfl, hposition⟩, fun _ => rfl⟩ rfl ?_
      rw [Node.operands_list, Node.operands_list]
      exact inStep_splices_listing h
  | select h =>
      obtain ⟨l, l', left, right, hsplice, hq, hq'⟩ := h.exists_operands
      refine inStep_reached (.query h.limitsRows_eq h.position_eq) rfl ?_
      rw [hq, hq', List.flatMap_append, List.flatMap_append, List.flatMap_append,
        List.flatMap_append]
      exact ((InStep.refl d _).append (inStep_splices_listing hsplice)).append (.refl d _)
  | @inside n k m s hk h ih =>
      -- The node above is told only by the flag in the slot, and a splice keeps every flag.
      have hmatches : d.Matches n (n.modify s fun _ => m) := by
        refine .modify fun k' hk' => ?_
        obtain rfl := Node.eq_of_mem_slots hk hk'
        exact h.symbol?_eq
      refine inStep_reached hmatches (n.isSkipped_modify s _) ?_
      obtain ⟨left, right, hoperands, hmodify⟩ := Node.exists_operands_modify hk
      rw [hoperands, hmodify]
      simp only [List.flatMap_append, List.flatMap_cons]
      exact (InStep.refl d _).append (ih.append (.refl d _))

theorem examine_of_splices {n m : Node} (h : n.Splices m) : d.examine m = d.examine n :=
  examine_of_inStep (inStep_of_splices h) h.position_eq

/-- The flattened statement is judged and logged like the statement. -/
theorem examine_flattened (d : Dialect) (n : Node) : d.examine n.flattened = d.examine n := by
  have hall : ∀ m, Relation.ReflTransGen Node.Splices n m → d.examine m = d.examine n := by
    intro m h
    induction h with
    | refl => rfl
    | tail _ hstep ih => rw [examine_of_splices hstep, ih]
  exact hall _ n.reflTransGen_flattened

/--
Lists and absent operands are not noticed. Let one statement be had from another by splicing
lists and taking out absent operands, or by the reverse, at any number of places and at any
depth. Then the two have one verdict and one log. In particular this goes for a statement
and its flattened form, with which splicing comes to its end in whatever order it is done.
-/
theorem splicing_goes_unnoticed (d : Dialect) :
    (∀ root root' : Node, Relation.EqvGen Node.Splices root root' →
      d.validate root' = d.validate root ∧ (d.examine root').log = (d.examine root).log) ∧
    ∀ root : Node,
      Relation.ReflTransGen Node.Splices root root.flattened ∧
      (∀ m, ¬ root.flattened.Splices m) ∧
      (∀ m, Relation.ReflTransGen Node.Splices root m → (∀ k, ¬ m.Splices k) →
        m = root.flattened) ∧
      d.validate root.flattened = d.validate root ∧
      (d.examine root.flattened).log = (d.examine root).log := by
  constructor
  · intro root root' h
    have hflat : root.flattened = root'.flattened := Node.eqvGen_splices_iff.mp h
    have hexamine : d.examine root' = d.examine root := by
      rw [← d.examine_flattened root', ← hflat, d.examine_flattened]
    exact ⟨congrArg Outcome.result hexamine, congrArg Outcome.log hexamine⟩
  · intro root
    have hexamine := d.examine_flattened root
    refine ⟨root.reflTransGen_flattened, root.not_splices_flattened, ?_, ?_, ?_⟩
    · intro m h hend
      exact Node.eq_flattened_of_reflTransGen h hend
    · exact congrArg Outcome.result hexamine
    · exact congrArg Outcome.log hexamine

/-- A difference of nothing, which is refused. -/
private def emptyDifference : Node :=
  .call (.basic (.standard .except) [none, none] ⟨⟨1, 8⟩, ⟨1, 20⟩⟩)

/-- A union with a place that is empty and a query of which the only item is a list. -/
private def listed : Node :=
  .call (.basic (.standard .union)
    [none, some (.call (.select
      (.ofSelectList ⟨[.sequence [.name "a", emptyDifference]], .zero⟩ .zero)))] .zero)

/-- The same union without that place and that list. -/
private def spread : Node :=
  .call (.basic (.standard .union)
    [some (.call (.select (.ofSelectList ⟨[.name "a", .call (.basic (.standard .except) []
      ⟨⟨1, 8⟩, ⟨1, 20⟩⟩)], .zero⟩ .zero)))] .zero)

/-- The difference is refused in both unions, and the one is the other when it is flattened. -/
theorem splicing_goes_unnoticed_in_union :
    Relation.EqvGen Node.Splices listed spread ∧ spread = listed.flattened ∧
      executable.validate spread =
        .error ⟨⟨⟨1, 8⟩, ⟨1, 20⟩⟩, "EXCEPT is not supported"⟩ ∧
      (executable.examine spread).log =
        [.started .zero, .queryRecorded .zero,
          .refused ⟨⟨⟨1, 8⟩, ⟨1, 20⟩⟩, "EXCEPT is not supported"⟩] := by
  obtain ⟨halike, hflattened⟩ := executable.splicing_goes_unnoticed
  have hspread : listed.flattened = spread := rfl
  have heqv : Relation.EqvGen Node.Splices listed spread := Node.eqvGen_splices_iff.mpr rfl
  obtain ⟨hreached, hend, hunique, -, -⟩ := hflattened listed
  rw [hspread] at hreached hend
  obtain ⟨hvalidate, hlog⟩ := halike listed spread heqv
  refine ⟨heqv, hunique spread hreached hend, ?_, ?_⟩
  · rw [hvalidate]
    rfl
  · rw [hlog]
    rfl

end Dialect

end SqlDialect
