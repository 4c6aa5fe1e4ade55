import SqlDialect.Proofs.Node.Slot

/-!
# Changing what stands in a slot

The node in a slot can be put through a function while the rest of its parent
stays as it is, and so can the node at the end of a path of slots. An address is
such a path from the root of a statement; it names an occurrence of a node, where
the node itself may occur many times.

## Main results

* `Node.slots_modify`, `Node.exists_slots_modify`: changing what stands in a slot changes
  that entry of the list of slots and no other.
* `Node.operator_modify` and its neighbours: the rest of the node is what it was.
-/

namespace SqlDialect

namespace Slotted

/-- The nodes with the one in the given slot put through a function. -/
def update (s : Slot) (f : Node → Node) (xs : Slotted) : Slotted :=
  xs.map fun x => if x.1 = s then (x.1, f x.2) else x

variable {s : Slot} {f : Node → Node}

@[simp] theorem update_nil : update s f [] = [] := rfl

theorem update_cons (x : Slot × Node) (xs : Slotted) :
    update s f (x :: xs) = (if x.1 = s then (x.1, f x.2) else x) :: update s f xs := rfl

@[simp] theorem update_append (xs ys : Slotted) :
    update s f (xs ++ ys) = update s f xs ++ update s f ys := List.map_append

/-- What stands in other slots is left alone. -/
theorem update_of_notMem {xs : Slotted} (h : s ∉ xs.labels) : update s f xs = xs := by
  induction xs with
  | nil => rfl
  | cons x xs ih =>
      have hx : x.1 ≠ s := fun heq => h (heq ▸ List.mem_cons_self)
      have hxs : s ∉ labels xs := fun hmem => h (List.mem_cons_of_mem _ hmem)
      rw [update_cons, if_neg hx, ih hxs]

/-- In a list without repetitions one entry is changed, and those beside it are not. -/
theorem update_split {before after : Slotted} {m : Node}
    (h : (before ++ (s, m) :: after).labels.Nodup) :
    update s f (before ++ (s, m) :: after) = before ++ (s, f m) :: after := by
  rw [labels_append, List.nodup_append] at h
  obtain ⟨-, hafter, hdisjoint⟩ := h
  have hbefore : s ∉ before.labels := fun hmem => hdisjoint s hmem s List.mem_cons_self rfl
  rw [update_append, update_cons, if_pos rfl, update_of_notMem hbefore,
    update_of_notMem (List.nodup_cons.mp hafter).1]

@[simp] theorem present_update_of_ne {row : Nat → Slot} (h : ∀ i, row i ≠ s)
    (os : List (Option Node)) : update s f (present row os) = present row os := by
  refine update_of_notMem fun hmem => ?_
  obtain ⟨i, hi⟩ := exists_row_of_mem_present hmem
  exact h i hi.symm

@[simp] theorem items_update_of_ne {row : Nat → Slot} (h : ∀ i, row i ≠ s) (ns : List Node) :
    update s f (items row ns) = items row ns := present_update_of_ne h _

@[simp] theorem option_update_of_ne {slot : Slot} (h : slot ≠ s) (o : Option Node) :
    update s f (option slot o) = option slot o := by
  cases o with
  | none => rfl
  | some n => exact congrArg (· :: []) (if_neg h)

@[simp] theorem clause_update_of_ne {row : Nat → Slot} (h : ∀ i, row i ≠ s)
    (l : Option (Listing Node)) : update s f (clause row l) = clause row l := by
  cases l with
  | none => rfl
  | some l => simp [clause, h]

theorem present_modify {row : Nat → Slot} (hrow : Function.Injective row) (i : Nat)
    (f : Node → Node) (os : List (Option Node)) :
    present row (os.modify i (Option.map f)) = update (row i) f (present row os) := by
  induction os generalizing row i with
  | nil => cases i <;> rfl
  | cons o os ih =>
      have hshift : Function.Injective fun i => row (i + 1) := fun _ _ h => Nat.succ.inj (hrow h)
      cases i with
      | zero =>
          have hne : ∀ i, row (i + 1) ≠ row 0 := fun i h => Nat.succ_ne_zero i (hrow h)
          cases o with
          | none => simp [present, hne]
          | some n => simp [present, update_cons, hne]
      | succ i =>
          have hne : row 0 ≠ row (i + 1) := fun h => Nat.succ_ne_zero i (hrow h).symm
          cases o with
          | none => simp [present, ih hshift]
          | some n => simp [present, update_cons, ih hshift, hne]

theorem items_modify {row : Nat → Slot} (hrow : Function.Injective row) (i : Nat)
    (f : Node → Node) (ns : List Node) :
    items row (ns.modify i f) = update (row i) f (items row ns) := by
  rw [items, items, ← present_modify hrow]
  congr 1
  induction ns generalizing i with
  | nil => cases i <;> rfl
  | cons n ns ih => cases i <;> simp [ih]

theorem option_map (slot : Slot) (f : Node → Node) (o : Option Node) :
    option slot (o.map f) = update slot f (option slot o) := by
  cases o with
  | none => rfl
  | some n => simp [option, update_cons]

end Slotted

/-! ## Changing the node in one slot -/

/-- The list with one of its items put through a function. -/
def Listing.modify (l : Listing Node) (i : Nat) (f : Node → Node) : Listing Node :=
  { l with items := l.items.modify i f }

@[simp] theorem Listing.items_modify (l : Listing Node) (i : Nat) (f : Node → Node) :
    (l.modify i f).items = l.items.modify i f := rfl

theorem Slotted.clause_modify {row : Nat → Slot} (hrow : Function.Injective row) (i : Nat)
    (f : Node → Node) (l : Option (Listing Node)) :
    clause row (l.map (·.modify i f)) = update (row i) f (clause row l) := by
  cases l with
  | none => rfl
  | some l => simp [clause, items_modify hrow]

/-- The query with the node in one slot put through a function. -/
def Query.modify (q : Query Node) (s : Slot) (f : Node → Node) : Query Node :=
  match s with
  | .keyword i => { q with keywords := q.keywords.modify i f }
  | .selectItem i => { q with selectList := q.selectList.modify i f }
  | .fromClause => { q with fromClause := q.fromClause.map f }
  | .whereClause => { q with whereClause := q.whereClause.map f }
  | .groupItem i => { q with groupBy := q.groupBy.map (·.modify i f) }
  | .having => { q with having := q.having.map f }
  | .orderItem i => { q with orderBy := q.orderBy.map (·.modify i f) }
  | .offset => { q with offset := q.offset.map f }
  | .fetch => { q with fetch := q.fetch.map f }
  | _ => q

/-- The join with the node in one slot put through a function. -/
def Join.modify (j : Join Node) (s : Slot) (f : Node → Node) : Join Node :=
  match s with
  | .left => { j with left := f j.left }
  | .natural => { j with natural := f j.natural }
  | .joinType => { j with joinType := f j.joinType }
  | .right => { j with right := f j.right }
  | .conditionType => { j with conditionType := f j.conditionType }
  | .condition => { j with condition := j.condition.map f }
  | _ => j

/-- The call with the node in one slot put through a function. -/
def Call.modify (c : Call Node) (s : Slot) (f : Node → Node) : Call Node :=
  match c, s with
  | .basic op os p, .operand i => .basic op (os.modify i (Option.map f)) p
  | .ddl op statement os p, .operand i => .ddl op statement (os.modify i (Option.map f)) p
  | .select q, s => .select (q.modify s f)
  | .join j, s => .join (j.modify s f)
  | c, _ => c

namespace Node

/-- The node with the node in one slot put through a function; an empty slot stays empty. -/
def modify (n : Node) (s : Slot) (f : Node → Node) : Node :=
  match n, s with
  | .call c, s => .call (c.modify s f)
  | .list l, .item i => .list (l.modify i f)
  | n, _ => n

private theorem slots_modify_query (q : Query Node) (s : Slot) (f : Node → Node) :
    (Call.select (q.modify s f)).slots = (Call.select q).slots.update s f := by
  cases s
  case keyword i =>
    simp [Query.modify, Call.slots, Slotted.items_modify (fun _ _ => Slot.keyword.inj)]
  case selectItem i =>
    simp [Query.modify, Call.slots, Slotted.items_modify (fun _ _ => Slot.selectItem.inj)]
  case groupItem i =>
    simp [Query.modify, Call.slots, Slotted.clause_modify (fun _ _ => Slot.groupItem.inj)]
  case orderItem i =>
    simp [Query.modify, Call.slots, Slotted.clause_modify (fun _ _ => Slot.orderItem.inj)]
  all_goals simp [Query.modify, Call.slots, Slotted.option_map]

private theorem slots_modify_join (j : Join Node) (s : Slot) (f : Node → Node) :
    (Call.join (j.modify s f)).slots = (Call.join j).slots.update s f := by
  cases s <;> simp [Join.modify, Call.slots, Slotted.update_cons, Slotted.option_map]

/-- Changing what stands in a slot changes that entry and no other. -/
theorem slots_modify (n : Node) (s : Slot) (f : Node → Node) :
    (n.modify s f).slots = n.slots.update s f := by
  cases n with
  | call c =>
      cases c with
      | basic op os p =>
          cases s
          case operand i => exact Slotted.present_modify (fun _ _ => Slot.operand.inj) i f os
          all_goals simp [modify, Call.modify, Call.slots]
      | ddl op statement os p =>
          cases s
          case operand i => exact Slotted.present_modify (fun _ _ => Slot.operand.inj) i f os
          all_goals simp [modify, Call.modify, Call.slots]
      | select q => exact slots_modify_query q s f
      | join j => exact slots_modify_join j s f
  | list l =>
      cases s
      case item i => exact Slotted.items_modify (fun _ _ => Slot.item.inj) i f l.items
      all_goals simp [modify]
  | _ => cases s <;> rfl

/-- What stands on the left and on the right of a slot stays when what is in it is changed. -/
theorem exists_slots_modify {n m : Node} {s : Slot} (hm : (s, m) ∈ n.slots) :
    ∃ left right, n.slots = left ++ (s, m) :: right ∧
      ∀ f : Node → Node, (n.modify s f).slots = left ++ (s, f m) :: right := by
  obtain ⟨left, right, hsplit⟩ := List.append_of_mem hm
  refine ⟨left, right, hsplit, fun f => ?_⟩
  rw [slots_modify, hsplit]
  exact Slotted.update_split (hsplit ▸ n.nodup_slots)

end Node

/-! ## What stays as it was -/

@[simp] theorem Query.limitsRows_modify (q : Query Node) (s : Slot) (f : Node → Node) :
    (q.modify s f).limitsRows = q.limitsRows := by
  cases s <;> simp [Query.modify, Query.limitsRows]

@[simp] theorem Query.position_modify (q : Query Node) (s : Slot) (f : Node → Node) :
    (q.modify s f).position = q.position := by
  cases s <;> rfl

@[simp] theorem Join.position_modify (j : Join Node) (s : Slot) (f : Node → Node) :
    (j.modify s f).position = j.position := by
  cases s <;> rfl

/-- A join is of the variant that it was, unless its operand for the variant is changed. -/
theorem Join.joinType_modify {s : Slot} (h : s ≠ .joinType) (j : Join Node) (f : Node → Node) :
    (j.modify s f).joinType = j.joinType := by
  cases s <;> first | rfl | exact absurd rfl h

namespace Call

@[simp] theorem operator_modify (c : Call Node) (s : Slot) (f : Node → Node) :
    (c.modify s f).operator = c.operator := by
  cases c <;> cases s <;> rfl

@[simp] theorem position_modify (c : Call Node) (s : Slot) (f : Node → Node) :
    (c.modify s f).position = c.position := by
  cases c with
  | select q => exact q.position_modify s f
  | join j => exact j.position_modify s f
  | _ => cases s <;> rfl

end Call

namespace Node

@[simp] theorem position_modify (n : Node) (s : Slot) (f : Node → Node) :
    (n.modify s f).position = n.position := by
  cases n with
  | call c => exact c.position_modify s f
  | _ => cases s <;> rfl

/-- Only literals hold flags, and literals have no slots. -/
@[simp] theorem symbol?_modify (n : Node) (s : Slot) (f : Node → Node) :
    (n.modify s f).symbol? = n.symbol? := by
  cases n <;> cases s <;> rfl

end Node

/-! ## Replacing the node at an address -/

/-- The slots on the way from a node down to one below it. -/
abbrev Address := List Slot

/-- The node with the node at an address replaced; an address that leads nowhere changes nothing. -/
def Node.replaceAt : Node → Address → Node → Node
  | _, [], new => new
  | n, s :: a, new => n.modify s fun m => m.replaceAt a new

@[simp] theorem Node.replaceAt_nil (n new : Node) : n.replaceAt [] new = new := rfl

@[simp] theorem Node.replaceAt_cons (n : Node) (s : Slot) (a : Address) (new : Node) :
    n.replaceAt (s :: a) new = n.modify s fun m => m.replaceAt a new := rfl

end SqlDialect
