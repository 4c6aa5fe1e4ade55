import SqlDialect.Node
import Mathlib.Data.List.Nodup
import Mathlib.Data.List.ReduceOption

/-!
# The places in a node

A query keeps its operands in fields, a join in others, a basic call in a
sequence with gaps, and a list in its items. Every statement about whole trees
would have to be proved once for each of them. Here the places that an operand
can take get a name of their own, and a node is turned into the list of its
operands with the places where they stand, in the order in which a walk comes
to them. What holds of all nodes is then proved by one induction over that list.

A `Slot` is a place, not an ordinal number: the condition of a join keeps its
slot whatever else the join holds, and an absent operand does not shift the
slots of its neighbours.

## Main results

* `Node.inductionOnOperands`: what holds of a node as soon as it holds of its
  operands holds of every node.
* `Node.nodup_slots`: no two operands of a node stand in the same slot.
-/

namespace SqlDialect

/-! ## Slots -/

/-- A place for an operand in a node. -/
inductive Slot where
  /-- An operand of a basic call or of a statement, by its place among all, absent ones included. -/
  | operand (index : Nat)
  /-- An item of a list. -/
  | item (index : Nat)
  | keyword (index : Nat)
  | selectItem (index : Nat)
  | fromClause
  | whereClause
  | groupItem (index : Nat)
  | having
  | orderItem (index : Nat)
  | offset
  | fetch
  | left
  | natural
  | joinType
  | right
  | conditionType
  | condition
deriving DecidableEq, Inhabited

/-- The field of the node that the slot belongs to, by its place among the fields. -/
def Slot.field : Slot → Nat
  | .operand _ | .item _ | .keyword _ | .left => 0
  | .selectItem _ | .natural => 1
  | .fromClause | .joinType => 2
  | .whereClause | .right => 3
  | .groupItem _ | .conditionType => 4
  | .having | .condition => 5
  | .orderItem _ => 6
  | .offset => 7
  | .fetch => 8

/-- Nodes with the slots in which they stand. -/
abbrev Slotted := List (Slot × Node)

/-- Of operands none of which is absent all are there. -/
theorem reduceOption_map_some (ns : List Node) : (ns.map some).reduceOption = ns := by
  rw [List.reduceOption, List.filterMap_map]
  exact List.filterMap_some

namespace Slotted

/-- The operands that are there, in the slots of a row in which absent ones count too. -/
def present (row : Nat → Slot) : List (Option Node) → Slotted
  | [] => []
  | none :: os => present (fun i => row (i + 1)) os
  | some n :: os => (row 0, n) :: present (fun i => row (i + 1)) os

/-- The items of a list, in the slots of a row. -/
def items (row : Nat → Slot) (ns : List Node) : Slotted := present row (ns.map some)

/-- An operand that may be absent, in its slot. -/
def option (slot : Slot) (o : Option Node) : Slotted := o.toList.map fun n => (slot, n)

/-- The items of a clause that may be absent, in the slots of a row. -/
def clause (row : Nat → Slot) (l : Option (Listing Node)) : Slotted :=
  l.toList.flatMap fun l => items row l.items

/-- The nodes without their slots. -/
def nodes (xs : Slotted) : List Node := xs.map Prod.snd

/-- The slots without the nodes in them. -/
def labels (xs : Slotted) : List Slot := xs.map Prod.fst

@[simp] theorem nodes_cons (x : Slot × Node) (xs : Slotted) : nodes (x :: xs) = x.2 :: nodes xs :=
  rfl

@[simp] theorem nodes_append (xs ys : Slotted) : nodes (xs ++ ys) = nodes xs ++ nodes ys :=
  List.map_append

@[simp] theorem labels_append (xs ys : Slotted) : labels (xs ++ ys) = labels xs ++ labels ys :=
  List.map_append

@[simp] theorem nodes_present (row : Nat → Slot) (os : List (Option Node)) :
    nodes (present row os) = os.reduceOption := by
  induction os generalizing row with
  | nil => rfl
  | cons o os ih =>
      cases o with
      | none => exact ih _
      | some n => exact congrArg (n :: ·) (ih _)

@[simp] theorem nodes_items (row : Nat → Slot) (ns : List Node) : nodes (items row ns) = ns := by
  rw [items, nodes_present, reduceOption_map_some]

@[simp] theorem nodes_option (slot : Slot) (o : Option Node) :
    nodes (option slot o) = o.toList := by
  cases o <;> rfl

@[simp] theorem nodes_clause (row : Nat → Slot) (l : Option (Listing Node)) :
    nodes (clause row l) = l.toList.flatMap Listing.items := by
  cases l with
  | none => rfl
  | some l => simp [clause]

/-- The labels of a row are slots of that row. -/
theorem exists_row_of_mem_present {row : Nat → Slot} {os : List (Option Node)} {s : Slot}
    (hs : s ∈ labels (present row os)) : ∃ i, s = row i := by
  induction os generalizing row with
  | nil => simp [present, labels] at hs
  | cons o os ih =>
      have later (h : s ∈ labels (present (fun i => row (i + 1)) os)) : ∃ i, s = row i := by
        obtain ⟨i, hi⟩ := ih h
        exact ⟨i + 1, hi⟩
      cases o with
      | none => exact later hs
      | some n =>
          rcases List.mem_cons.mp hs with rfl | hs
          · exact ⟨0, rfl⟩
          · exact later hs

/-- Labels are related from left to right if the slots of their row are. -/
theorem pairwise_present {R : Slot → Slot → Prop} {row : Nat → Slot}
    (hrow : ∀ i j, i < j → R (row i) (row j)) (os : List (Option Node)) :
    (labels (present row os)).Pairwise R := by
  induction os generalizing row with
  | nil => exact .nil
  | cons o os ih =>
      have hshift : ∀ i j, i < j → R (row (i + 1)) (row (j + 1)) := fun i j h =>
        hrow (i + 1) (j + 1) (Nat.succ_lt_succ h)
      cases o with
      | none => exact ih hshift
      | some n =>
          refine List.pairwise_cons.mpr ⟨fun s hs => ?_, ih hshift⟩
          obtain ⟨i, rfl⟩ := exists_row_of_mem_present hs
          exact hrow 0 (i + 1) (Nat.succ_pos i)

/-- A row without repetitions gives labels without repetitions. -/
theorem nodup_present {row : Nat → Slot} (hrow : Function.Injective row)
    (os : List (Option Node)) : (labels (present row os)).Nodup :=
  pairwise_present (fun _ _ hlt heq => Nat.ne_of_lt hlt (hrow heq)) os

/-! ### What stands in a slot -/

variable {row : Nat → Slot} {s : Slot} {m : Node}

theorem mem_present {os : List (Option Node)} :
    (s, m) ∈ present row os ↔ ∃ i, s = row i ∧ os[i]? = some (some m) := by
  induction os generalizing row with
  | nil => simp [present]
  | cons o os ih =>
      rw [← Nat.or_exists_add_one]
      cases o with
      | none => simp [present, ih]
      | some n => simp [present, ih, eq_comm]

theorem mem_items {ns : List Node} :
    (s, m) ∈ items row ns ↔ ∃ i, s = row i ∧ ns[i]? = some m := by
  simp [items, mem_present]

theorem mem_option {slot : Slot} {o : Option Node} :
    (s, m) ∈ option slot o ↔ s = slot ∧ o = some m := by
  cases o <;> simp [option, eq_comm]

theorem mem_clause {l : Option (Listing Node)} :
    (s, m) ∈ clause row l ↔ ∃ l', l = some l' ∧ (s, m) ∈ items row l'.items := by
  cases l <;> simp [clause]

/--
Slots without repetitions that belong to fields before the given one. A query is
taken field by field, so that each field is compared with the bound alone and not
with every field before it.
-/
structure NodupBefore (field : Nat) (xs : Slotted) : Prop where
  nodup : xs.labels.Nodup
  before : ∀ s ∈ xs.labels, s.field < field

namespace NodupBefore

variable {field : Nat} {xs : Slotted}

theorem append {ys : Slotted} (h : NodupBefore field xs) (hys : ys.labels.Nodup)
    (hfield : ∀ s ∈ ys.labels, s.field = field) : NodupBefore (field + 1) (xs ++ ys) := by
  refine ⟨?_, fun s hs => ?_⟩
  · rw [labels_append, List.nodup_append]
    refine ⟨h.nodup, hys, fun s hs t ht hst => ?_⟩
    have hlt := h.before s hs
    rw [hst, hfield t ht] at hlt
    exact Nat.lt_irrefl _ hlt
  · rw [labels_append, List.mem_append] at hs
    rcases hs with hs | hs
    · exact Nat.lt_succ_of_lt (h.before s hs)
    · rw [hfield s hs]
      exact Nat.lt_succ_self field

theorem items {row : Nat → Slot} (h : NodupBefore field xs) (hrow : Function.Injective row)
    (hfield : ∀ i, (row i).field = field) (ns : List Node) :
    NodupBefore (field + 1) (xs ++ Slotted.items row ns) := by
  refine h.append (nodup_present hrow _) fun s hs => ?_
  obtain ⟨i, rfl⟩ := exists_row_of_mem_present hs
  exact hfield i

theorem option (h : NodupBefore field xs) (slot : Slot) (hfield : slot.field = field)
    (o : Option Node) : NodupBefore (field + 1) (xs ++ Slotted.option slot o) := by
  cases o with
  | none => exact h.append List.nodup_nil nofun
  | some n =>
      refine h.append (List.pairwise_singleton _ slot) fun s hs => ?_
      rw [List.mem_singleton.mp hs]
      exact hfield

theorem clause {row : Nat → Slot} (h : NodupBefore field xs) (hrow : Function.Injective row)
    (hfield : ∀ i, (row i).field = field) (l : Option (Listing Node)) :
    NodupBefore (field + 1) (xs ++ Slotted.clause row l) := by
  cases l with
  | none => exact h.append List.nodup_nil nofun
  | some l => simpa [Slotted.clause] using h.items hrow hfield l.items

end NodupBefore

end Slotted

/-! ## The slots of a node -/

/--
The operands of a call with their slots, in the order in which they are visited.
The lists in a query are no operands of their own; their items are.
-/
def Call.slots : Call Node → Slotted
  | .basic _ operands _ => .present .operand operands
  | .select q =>
    .items .keyword q.keywords.items ++ .items .selectItem q.selectList.items ++
      .option .fromClause q.fromClause ++ .option .whereClause q.whereClause ++
      .clause .groupItem q.groupBy ++ .option .having q.having ++
      .clause .orderItem q.orderBy ++ .option .offset q.offset ++ .option .fetch q.fetch
  | .join j =>
    [(.left, j.left), (.natural, j.natural), (.joinType, j.joinType), (.right, j.right),
      (.conditionType, j.conditionType)] ++ Slotted.option .condition j.condition
  | .ddl _ _ operands _ => .present .operand operands

namespace Node

/-- The nodes directly below a node with their slots, in the order in which they are visited. -/
def slots : Node → Slotted
  | .call c => c.slots
  | .list l => .items .item l.items
  | _ => []

/-- The nodes directly below a node, in the order in which they are visited. -/
def operands (n : Node) : List Node := n.slots.nodes

@[simp] theorem slots_call (c : Call Node) : (Node.call c).slots = c.slots := rfl

@[simp] theorem slots_list (l : Listing Node) : (Node.list l).slots = .items .item l.items := rfl

theorem mem_operands_of_mem_slots {n m : Node} {s : Slot} (h : (s, m) ∈ n.slots) :
    m ∈ n.operands := List.mem_map_of_mem (f := Prod.snd) h

@[simp] theorem operands_basic (op : Operator) (os : List (Option Node)) (p : Position) :
    (Node.call (.basic op os p)).operands = os.reduceOption := Slotted.nodes_present _ os

@[simp] theorem operands_ddl (op : Operator) (statement : String) (os : List (Option Node))
    (p : Position) : (Node.call (.ddl op statement os p)).operands = os.reduceOption :=
  Slotted.nodes_present _ os

@[simp] theorem operands_list (l : Listing Node) : (Node.list l).operands = l.items :=
  Slotted.nodes_items _ l.items

theorem operands_select (q : Query Node) :
    (Node.call (.select q)).operands =
      q.keywords.items ++ q.selectList.items ++ q.fromClause.toList ++ q.whereClause.toList ++
        q.groupBy.toList.flatMap Listing.items ++ q.having.toList ++
        q.orderBy.toList.flatMap Listing.items ++ q.offset.toList ++ q.fetch.toList := by
  simp [operands, Call.slots]

theorem operands_join (j : Join Node) :
    (Node.call (.join j)).operands =
      [j.left, j.natural, j.joinType, j.right, j.conditionType] ++ j.condition.toList := by
  simp [operands, Call.slots]

/-! ## Induction on operands -/

private theorem sizeOf_lt_of_mem_toList {o : Option Node} {m : Node} (h : m ∈ o.toList) :
    sizeOf m < sizeOf o := by
  obtain rfl := Option.mem_toList.mp h
  simp

private theorem sizeOf_lt_of_mem_reduceOption {os : List (Option Node)} {m : Node}
    (h : m ∈ os.reduceOption) : sizeOf m < sizeOf os := by
  have hmem := List.sizeOf_lt_of_mem (List.reduceOption_mem_iff.mp h)
  have hsome : sizeOf m < sizeOf (some m) := by simp
  omega

private theorem sizeOf_lt_of_mem_items {l : Listing Node} {m : Node} (h : m ∈ l.items) :
    sizeOf m < sizeOf l := by
  obtain ⟨items, p⟩ := l
  have hmem : sizeOf m < sizeOf items := List.sizeOf_lt_of_mem h
  simp only [Listing.mk.sizeOf_spec]
  omega

private theorem sizeOf_lt_of_mem_clause {l : Option (Listing Node)} {m : Node}
    (h : m ∈ l.toList.flatMap Listing.items) : sizeOf m < sizeOf l := by
  cases l with
  | none => simp at h
  | some l =>
      have hmem := sizeOf_lt_of_mem_items (l := l) (by simpa using h)
      simp only [Option.some.sizeOf_spec]
      omega

private theorem sizeOf_lt_of_mem_query {q : Query Node} {m : Node}
    (h : m ∈ (Node.call (.select q)).operands) : sizeOf m < sizeOf q := by
  cases q
  simp only [operands_select, List.mem_append] at h
  simp only [Query.mk.sizeOf_spec]
  rcases h with (((((((h | h) | h) | h) | h) | h) | h) | h) | h
  · have := sizeOf_lt_of_mem_items h; omega
  · have := sizeOf_lt_of_mem_items h; omega
  · have := sizeOf_lt_of_mem_toList h; omega
  · have := sizeOf_lt_of_mem_toList h; omega
  · have := sizeOf_lt_of_mem_clause h; omega
  · have := sizeOf_lt_of_mem_toList h; omega
  · have := sizeOf_lt_of_mem_clause h; omega
  · have := sizeOf_lt_of_mem_toList h; omega
  · have := sizeOf_lt_of_mem_toList h; omega

private theorem sizeOf_lt_of_mem_join {j : Join Node} {m : Node}
    (h : m ∈ (Node.call (.join j)).operands) : sizeOf m < sizeOf j := by
  cases j
  simp only [operands_join, List.mem_append, List.mem_cons, List.not_mem_nil, or_false] at h
  simp only [Join.mk.sizeOf_spec]
  rcases h with (rfl | rfl | rfl | rfl | rfl) | h
  case mk.inr => have := sizeOf_lt_of_mem_toList h; omega
  all_goals omega

/-- Operands are smaller than the node that they belong to. -/
theorem sizeOf_lt_of_mem_operands {n m : Node} (h : m ∈ n.operands) : sizeOf m < sizeOf n := by
  cases n with
  | call c =>
      have hc : sizeOf m < sizeOf c := by
        cases c with
        | basic op os p =>
            have := sizeOf_lt_of_mem_reduceOption (operands_basic op os p ▸ h)
            simp only [Call.basic.sizeOf_spec]
            omega
        | ddl op statement os p =>
            have := sizeOf_lt_of_mem_reduceOption (operands_ddl op statement os p ▸ h)
            simp only [Call.ddl.sizeOf_spec]
            omega
        | select q =>
            have := sizeOf_lt_of_mem_query h
            simp only [Call.select.sizeOf_spec]
            omega
        | join j =>
            have := sizeOf_lt_of_mem_join h
            simp only [Call.join.sizeOf_spec]
            omega
      simp only [Node.call.sizeOf_spec]
      omega
  | list l =>
      have := sizeOf_lt_of_mem_items (operands_list l ▸ h)
      simp only [Node.list.sizeOf_spec]
      omega
  | _ => simp [operands, slots, Slotted.nodes] at h

/--
What holds of a node as soon as it holds of its operands holds of every node.
-/
@[elab_as_elim]
theorem inductionOnOperands {P : Node → Prop} (n : Node)
    (step : ∀ n, (∀ m ∈ n.operands, P m) → P n) : P n :=
  step n fun m _ => inductionOnOperands m step
termination_by sizeOf n
decreasing_by exact sizeOf_lt_of_mem_operands ‹_›

/-! ## Slots are told apart -/

private theorem nodup_slots_query (q : Query Node) : (Call.select q).slots.labels.Nodup := by
  have hnil : Slotted.NodupBefore 0 [] := ⟨List.nodup_nil, nofun⟩
  have hkeywords := hnil.items (fun _ _ => Slot.keyword.inj) (fun _ => rfl) q.keywords.items
  have hselect := hkeywords.items (fun _ _ => Slot.selectItem.inj) (fun _ => rfl)
    q.selectList.items
  have hwhere := (hselect.option .fromClause rfl q.fromClause).option .whereClause rfl
    q.whereClause
  have hgroup := hwhere.clause (fun _ _ => Slot.groupItem.inj) (fun _ => rfl) q.groupBy
  have horder := (hgroup.option .having rfl q.having).clause
    (fun _ _ => Slot.orderItem.inj) (fun _ => rfl) q.orderBy
  exact ((horder.option .offset rfl q.offset).option .fetch rfl q.fetch).nodup

/-- No two operands of a node stand in the same slot. -/
theorem nodup_slots (n : Node) : n.slots.labels.Nodup := by
  cases n with
  | call c =>
      cases c with
      | basic op os p => exact Slotted.nodup_present (fun _ _ => Slot.operand.inj) os
      | ddl op statement os p => exact Slotted.nodup_present (fun _ _ => Slot.operand.inj) os
      | select q => exact nodup_slots_query q
      | join j => cases h : j.condition <;> simp [Call.slots, Slotted.labels, Slotted.option, h]
  | list l => exact Slotted.nodup_present (fun _ _ => Slot.item.inj) _
  | _ => exact List.nodup_nil

/-- A slot holds one operand. -/
theorem eq_of_mem_slots {n m k : Node} {s : Slot} (hm : (s, m) ∈ n.slots) (hk : (s, k) ∈ n.slots) :
    m = k := (Prod.mk.inj (List.inj_on_of_nodup_map n.nodup_slots hm hk rfl)).2

end Node

end SqlDialect
