import SqlDialect.Walk.Visit
import SqlDialect.Proofs.Walk.Operands

/-!
# Visits inside visits

A visit is over only when the visits inside it are. Inside the visit of a node the
construct that it is gets visited, inside that of a call its operands, inside that of a
list its items; a query has clauses that are lists, which are visited in between and hold
operands in turn. So the visits of a walk form a tree, in which the children of a visit
stand in the order in which they are made.

The walk has a function for every container of operands. Over the tree of visits it is a
single recursion: do what is to be done at a visit, and then, if the visitor says so, make
the visits inside it one after the other. This holds of every visitor in every monad.

## Main definitions

* `Visit.inside`: the visits that are made directly inside a visit, with their steps.
* `Entry`: the four places at which a walk can be entered.

## Main results

* `Visit.inductionOnInside`: induction over the tree of visits.
* `Visitor.enter_eq`, `Visitor.below_eq_forM`: the one recursion that every walk is.
* `Visitor.walk_eq_forM`: a walk is a loop over the outermost of its visits.
-/

namespace SqlDialect

/-! ## The tree of visits -/

/-- A clause of a query that is a list. -/
inductive Clause where
  | keywords
  | selectList
  | groupBy
  | orderBy
deriving DecidableEq, Inhabited

/-- The list that the clause holds, if the query has the clause. -/
def Query.clause? (q : Query Node) : Clause → Option (Listing Node)
  | .keywords => some q.keywords
  | .selectList => some q.selectList
  | .groupBy => q.groupBy
  | .orderBy => q.orderBy

/-- The visit of a node as the construct that it is. -/
def Node.construct : Node → Visit
  | .call c => .call c
  | .literal l => .literal l
  | .identifier i => .identifier i
  | .dataType t => .dataType t
  | .placeholder p => .placeholder p
  | .interval q => .interval q
  | .list l => .list l

/-- A step from a visit to one that is made directly inside it. -/
inductive Visit.Step where
  /-- From a node to the construct that it is. -/
  | construct
  /-- From a query to one of its clauses that are lists. -/
  | clause (clause : Clause)
  /-- From a call to an operand of its own, or from a list to an item. -/
  | slot (slot : Slot)
deriving DecidableEq, Inhabited

/-- The steps from a query, in the order in which its clauses are written. -/
def Query.steps : List Visit.Step :=
  [.clause .keywords, .clause .selectList, .slot .fromClause, .slot .whereClause,
    .clause .groupBy, .slot .having, .clause .orderBy, .slot .offset, .slot .fetch]

/-- What a step from a query leads to, if it is there. -/
def Query.visit? (q : Query Node) : Visit.Step → Option Visit
  | .clause c => (q.clause? c).map .list
  | .slot .fromClause => q.fromClause.map .node
  | .slot .whereClause => q.whereClause.map .node
  | .slot .having => q.having.map .node
  | .slot .offset => q.offset.map .node
  | .slot .fetch => q.fetch.map .node
  | _ => none

namespace Visit

/-- Visits of nodes, each by way of its slot. -/
def ofSlotted (xs : Slotted) : List (Step × Visit) := xs.map fun x => (.slot x.1, .node x.2)

/-- The visits that are made directly inside a visit, in order. -/
def inside : Visit → List (Step × Visit)
  | .node n => [(.construct, n.construct)]
  | .call (.select q) => Query.steps.filterMap fun s => (q.visit? s).map (s, ·)
  | .call c => ofSlotted c.slots
  | .list l => ofSlotted (.items .item l.items)
  | _ => []

@[simp] theorem inside_node (n : Node) : (node n).inside = [(.construct, n.construct)] := rfl

@[simp] theorem inside_list (l : Listing Node) :
    (list l).inside = ofSlotted (.items .item l.items) := rfl

/-- Calls other than queries visit their operands and nothing else. -/
theorem inside_call {c : Call Node} (h : ∀ q, c ≠ .select q) :
    (call c).inside = ofSlotted c.slots := by
  cases c with
  | select q => exact absurd rfl (h q)
  | _ => rfl

theorem mem_ofSlotted {xs : Slotted} {y : Step × Visit} :
    y ∈ ofSlotted xs ↔ ∃ s m, (s, m) ∈ xs ∧ y = (.slot s, .node m) := by
  simp [ofSlotted, eq_comm]

/-- Inside a query stands whatever a step from the query leads to. -/
theorem mem_inside_select {q : Query Node} {s : Step} {y : Visit} :
    (s, y) ∈ (call (.select q)).inside ↔ q.visit? s = some y := by
  simp only [inside, List.mem_filterMap, Option.map_eq_some_iff, Prod.mk.injEq]
  constructor
  · rintro ⟨t, -, z, hz, rfl, rfl⟩
    exact hz
  · intro h
    refine ⟨s, ?_, y, h, rfl, rfl⟩
    cases s with
    | construct => cases h
    | clause c => cases c <;> simp [Query.steps]
    | slot s => cases s <;> first | cases h | simp [Query.steps]

end Visit

/-! ## Steps and slots -/

/-- The clause that the slot is in, if it is in one that is a list. -/
def Slot.clause? : Slot → Option Clause
  | .keyword _ => some .keywords
  | .selectItem _ => some .selectList
  | .groupItem _ => some .groupBy
  | .orderItem _ => some .orderBy
  | _ => none

/-- The slots in the clause, by the place of an item in the list. -/
def Clause.row : Clause → Nat → Slot
  | .keywords => .keyword
  | .selectList => .selectItem
  | .groupBy => .groupItem
  | .orderBy => .orderItem

/-- The operands of a query that are in no list are those that a step leads to. -/
theorem Query.visit?_slot_eq_some_iff {q : Query Node} {s : Slot} {y : Visit} :
    q.visit? (.slot s) = some y ↔
      ∃ m, (s, m) ∈ (Call.select q).slots ∧ s.clause? = none ∧ y = .node m := by
  cases s <;>
    simp [visit?, Call.slots, Slotted.mem_items, Slotted.mem_option, Slotted.mem_clause,
      Slot.clause?, eq_comm]

/-- The operands of a query in a clause that is a list are the items of that list. -/
theorem Query.mem_slots_row_iff {q : Query Node} {c : Clause} {i : Nat} {m : Node} :
    (c.row i, m) ∈ (Call.select q).slots ↔
      ∃ l, q.clause? c = some l ∧ (.item i, m) ∈ Slotted.items .item l.items := by
  cases c <;>
    simp [clause?, Clause.row, Call.slots, Slotted.mem_items, Slotted.mem_option,
      Slotted.mem_clause]

namespace Node

/-- Only queries have clauses that are lists. -/
theorem clause?_of_mem_slots {n m : Node} {s : Slot} (hn : ∀ q, n ≠ .call (.select q))
    (h : (s, m) ∈ n.slots) : s.clause? = none := by
  have hlabel : s ∈ n.slots.labels := List.mem_map_of_mem (f := Prod.fst) h
  cases n with
  | call c =>
      cases c with
      | basic op os p | ddl op statement os p =>
          obtain ⟨i, rfl⟩ := Slotted.exists_row_of_mem_present hlabel
          rfl
      | select q => exact absurd rfl (hn q)
      | join j =>
          simp only [slots_call, Call.slots, List.mem_append, List.mem_cons, List.not_mem_nil,
            or_false, Prod.mk.injEq, Slotted.mem_option] at h
          rcases h with (⟨rfl, -⟩ | ⟨rfl, -⟩ | ⟨rfl, -⟩ | ⟨rfl, -⟩ | ⟨rfl, -⟩) | ⟨rfl, -⟩ <;> rfl
  | list l =>
      obtain ⟨i, rfl⟩ := Slotted.exists_row_of_mem_present hlabel
      rfl
  | _ => cases h

theorem inside_construct_of_ne_select {n : Node} (hn : ∀ q, n ≠ .call (.select q)) :
    n.construct.inside = Visit.ofSlotted n.slots := by
  cases n with
  | call c => exact Visit.inside_call fun q hq => hn q (congrArg Node.call hq)
  | _ => rfl

/--
Inside a construct are visited the operands that are in no list of a query, and the lists
of a query as such.
-/
theorem mem_inside_construct {n : Node} {s : Visit.Step} {y : Visit} :
    (s, y) ∈ n.construct.inside ↔
      (∃ t m, (t, m) ∈ n.slots ∧ t.clause? = none ∧ s = .slot t ∧ y = .node m) ∨
        ∃ q c l, n = .call (.select q) ∧ q.clause? c = some l ∧ s = .clause c ∧ y = .list l := by
  by_cases hn : ∃ q, n = .call (.select q)
  · obtain ⟨q, rfl⟩ := hn
    rw [construct, Visit.mem_inside_select]
    cases s with
    | construct => simp [Query.visit?]
    | clause c => simp [Query.visit?, Option.map_eq_some_iff, eq_comm (b := y)]
    | slot t => simp [Query.visit?_slot_eq_some_iff]
  · rw [not_exists] at hn
    rw [inside_construct_of_ne_select hn, Visit.mem_ofSlotted]
    constructor
    · rintro ⟨t, m, hm, heq⟩
      obtain ⟨rfl, rfl⟩ := Prod.mk.inj heq
      exact .inl ⟨t, m, hm, clause?_of_mem_slots hn hm, rfl, rfl⟩
    · rintro (⟨t, m, hm, -, rfl, rfl⟩ | ⟨q, c, l, rfl, -⟩)
      · exact ⟨t, m, hm, rfl⟩
      · exact absurd rfl (hn q)

end Node

/-! ## Induction over the tree of visits -/

namespace Visit

/-- A visit is of a node as such, or of a node as the construct that it is. -/
theorem eq_node_or_construct (x : Visit) : ∃ n, x = .node n ∨ x = n.construct := by
  cases x with
  | node n => exact ⟨n, .inl rfl⟩
  | call c => exact ⟨.call c, .inr rfl⟩
  | list l => exact ⟨.list l, .inr rfl⟩
  | literal l => exact ⟨.literal l, .inr rfl⟩
  | identifier i => exact ⟨.identifier i, .inr rfl⟩
  | dataType t => exact ⟨.dataType t, .inr rfl⟩
  | placeholder p => exact ⟨.placeholder p, .inr rfl⟩
  | interval q => exact ⟨.interval q, .inr rfl⟩

/-- A size of visits by which a node is larger than its construct. -/
noncomputable def weight : Visit → Nat
  | .node n => 2 * sizeOf n + 1
  | .call c => 2 * sizeOf (Node.call c)
  | .list l => 2 * sizeOf (Node.list l)
  | _ => 0

private theorem weight_construct_le (n : Node) : n.construct.weight ≤ 2 * sizeOf n := by
  cases n with
  | call c => exact Nat.le_refl _
  | list l => exact Nat.le_refl _
  | _ => exact Nat.zero_le _

private theorem weight_of_mem_slots {n m : Node} {s : Slot} (h : (s, m) ∈ n.slots) :
    (node m).weight < n.construct.weight := by
  have hlt := Node.sizeOf_lt_of_mem_operands (Node.mem_operands_of_mem_slots h)
  have hweight : n.construct.weight = 2 * sizeOf n := by
    cases n with
    | call c => rfl
    | list l => rfl
    | _ => cases h
  rw [hweight, weight]
  omega

private theorem sizeOf_clause_lt {q : Query Node} {c : Clause} {l : Listing Node}
    (h : q.clause? c = some l) : sizeOf l < sizeOf q := by
  cases q
  cases c
  all_goals
    simp only [Query.clause?, Option.some.injEq] at h
    subst h
    simp only [Query.mk.sizeOf_spec, Option.some.sizeOf_spec]
    omega

/-- What is inside a visit is smaller. -/
theorem weight_lt_of_mem_inside {x : Visit} {y : Step × Visit} (h : y ∈ x.inside) :
    y.2.weight < x.weight := by
  obtain ⟨n, rfl | rfl⟩ := x.eq_node_or_construct
  · rw [List.mem_singleton.mp h, weight]
    exact Nat.lt_succ_of_le (weight_construct_le n)
  · rcases Node.mem_inside_construct.mp h with
      ⟨t, m, hm, -, -, hy⟩ | ⟨q, c, l, rfl, hl, -, hy⟩
    · rw [hy]
      exact weight_of_mem_slots hm
    · have hlt := sizeOf_clause_lt hl
      rw [hy, weight, Node.construct, weight, Node.list.sizeOf_spec, Node.call.sizeOf_spec,
        Call.select.sizeOf_spec]
      omega

/-- What holds of a visit as soon as it holds of the visits inside it holds of every visit. -/
@[elab_as_elim]
theorem inductionOnInside {P : Visit → Prop} (x : Visit)
    (step : ∀ x, (∀ y ∈ x.inside, P y.2) → P x) : P x :=
  step x fun y _ => inductionOnInside y.2 step
termination_by x.weight
decreasing_by exact weight_lt_of_mem_inside ‹_›

end Visit

/-! ## Walks over the tree of visits -/

/-- A place at which a walk can be entered. -/
inductive Entry where
  /-- The visit of a node. -/
  | visit (node : Node)
  /-- What is inside the visit of a node. -/
  | node (node : Node)
  /-- What is inside the visit of a call. -/
  | call (call : Call Node)
  /-- What is inside the visit of a list. -/
  | list (list : Listing Node)

/-- The outermost visits of a walk that is entered there. -/
def Entry.visits : Entry → List Visit
  | .visit n => [.node n]
  | .node n => (Visit.node n).inside.map Prod.snd
  | .call c => (Visit.call c).inside.map Prod.snd
  | .list l => (Visit.list l).inside.map Prod.snd

namespace Visitor

variable {m : Type → Type} [Monad m] (v : Visitor m)

/-- The walk from an entry. -/
def walk : Entry → m Unit
  | .visit n => v.visit n
  | .node n => v.walkNode n
  | .call c => v.walkCall c
  | .list l => v.walkList l

/-- What the visitor does at a visit, and whether it lets the walk go on inside. -/
def answer : Visit → m Bool
  | .node n => v.node n
  | .call c => v.call c
  | .list l => v.list l
  | .literal l => (fun _ => true) <$> v.literal l
  | .identifier i => (fun _ => true) <$> v.identifier i
  | .dataType t => (fun _ => true) <$> v.dataType t
  | .placeholder p => (fun _ => true) <$> v.placeholder p
  | .interval q => (fun _ => true) <$> v.interval q

/-- A visit with all that is inside it. -/
def enter : Visit → m Unit
  | .node n => v.visit n
  | .call c => descend (v.call c) (v.walkCall c)
  | .list l => descend (v.list l) (v.walkList l)
  | .literal l => v.literal l
  | .identifier i => v.identifier i
  | .dataType t => v.dataType t
  | .placeholder p => v.placeholder p
  | .interval q => v.interval q

/-- What the visitor goes on with at a visit, if it goes on. -/
def below : Visit → m Unit
  | .node n => v.walkNode n
  | .call c => v.walkCall c
  | .list l => v.walkList l
  | _ => pure ()

theorem walkNode_eq_enter (n : Node) : v.walkNode n = v.enter n.construct := by
  cases n <;> rw [walkNode, Node.construct, enter]

variable [LawfulMonad m]

theorem forM_ofSlotted (xs : Slotted) :
    (forM (Visit.ofSlotted xs) fun y => v.enter y.2) = forM xs.nodes v.visit := by
  rw [Visit.ofSlotted, Slotted.nodes, List.forM_map, List.forM_map]
  rfl

theorem walkList_eq_forM (l : Listing Node) :
    v.walkList l = forM (Visit.list l).inside fun y => v.enter y.2 := by
  obtain ⟨items, p⟩ := l
  rw [walkList, v.walkItems_eq_forM, Visit.inside_list, forM_ofSlotted, Slotted.nodes_items]

private theorem walkOption_eq_forM_enter (o : Option Node) :
    v.walkOption o = forM (o.map Visit.node).toList v.enter := by
  cases o with
  | none => rfl
  | some n =>
      show v.visit n = (v.enter (.node n) >>= fun _ => pure ())
      simp [enter]

private theorem walkClause_eq_forM_enter (l : Option (Listing Node)) :
    v.walkClause l = forM (l.map Visit.list).toList v.enter := by
  cases l with
  | none => rfl
  | some l =>
      show descend (v.list l) (v.walkList l) = (v.enter (.list l) >>= fun _ => pure ())
      simp [enter]

/-- The clauses of a query are visited step by step. -/
theorem walkQuery_eq_forM (q : Query Node) :
    v.walkQuery q = forM (Visit.call (.select q)).inside fun y => v.enter y.2 := by
  have hsteps : (Visit.call (.select q)).inside =
      Query.steps.flatMap fun s => ((q.visit? s).map (s, ·)).toList :=
    List.filterMap_eq_flatMap_toList _ _
  have hstep : ∀ s, (forM ((q.visit? s).map (s, ·)).toList fun y => v.enter y.2) =
      forM (q.visit? s).toList v.enter := by
    intro s
    cases q.visit? s <;> rfl
  rw [walkQuery, hsteps, forM_flatMap]
  simp only [hstep, Query.steps, List.forM_cons, List.forM_nil, bind_pure_unit]
  simp only [Query.visit?, Query.clause?, ← walkOption_eq_forM_enter, ← walkClause_eq_forM_enter]
  rfl

theorem walkCall_eq_forM_inside (c : Call Node) :
    v.walkCall c = forM (Visit.call c).inside fun y => v.enter y.2 := by
  cases c with
  | select q => rw [walkCall, walkQuery_eq_forM]
  | basic op os p =>
      rw [walkCall, v.walkOperands_eq_forM, Visit.inside_call (by simp), forM_ofSlotted,
        Call.slots, Slotted.nodes_present]
  | ddl op statement os p =>
      rw [walkCall, v.walkOperands_eq_forM, Visit.inside_call (by simp), forM_ofSlotted,
        Call.slots, Slotted.nodes_present]
  | join j =>
      rw [walkCall, walkJoin, Visit.inside_call (by simp), forM_ofSlotted]
      simp [v.walkOption_eq_forM, Call.slots, visit]

/-- The visits inside a visit are made one after the other. -/
theorem below_eq_forM (x : Visit) : v.below x = forM x.inside fun y => v.enter y.2 := by
  cases x with
  | node n =>
      show v.walkNode n = (v.enter n.construct >>= fun _ => pure ())
      rw [walkNode_eq_enter, bind_pure_unit]
  | call c => exact v.walkCall_eq_forM_inside c
  | list l => exact v.walkList_eq_forM l
  | _ => rfl

/-- Whatever the visitor does at a visit comes before the visits inside it. -/
theorem enter_eq (x : Visit) : v.enter x = descend (v.answer x) (v.below x) := by
  cases x with
  | node n | call c | list l => rfl
  | _ => simp [enter, answer, below, descend]

/-- A walk is a loop over the outermost of its visits. -/
theorem walk_eq_forM (e : Entry) : v.walk e = forM e.visits v.enter := by
  cases e with
  | visit n =>
      show v.visit n = (v.enter (.node n) >>= fun _ => pure ())
      rw [bind_pure_unit, enter]
  | node n =>
      rw [Entry.visits, List.forM_map]
      exact v.below_eq_forM (.node n)
  | call c =>
      rw [Entry.visits, List.forM_map]
      exact v.below_eq_forM (.call c)
  | list l =>
      rw [Entry.visits, List.forM_map]
      exact v.below_eq_forM (.list l)

end Visitor

end SqlDialect
