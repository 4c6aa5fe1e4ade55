import SqlDialect.Proofs.Node.Reach

/-!
# Rebuilding nodes from the bottom up

A change that is to be made at every node of a statement is given as a function on
single nodes. `Node.rebuild` makes it everywhere: first in the operands of a node,
each in its slot, then at the node itself.

What validation can come to in the outcome is known without another induction over
the tree, provided the function leaves alone what stands in the slots of a node, or
empties them only where validation stays out anyway.

## Main results

* `Node.mapOperands_modify`, `Node.mapOperands_eq_self`: changes of operands that a function
  does not tell, and functions that leave the operands alone.
* `Node.rebuild_eq`: the one equation of `Node.rebuild`.
* `Node.reachedAt_rebuild`: the nodes that validation can come to are rebuilt one by
  one, and each keeps its address.
-/

namespace SqlDialect

/-! ## All operands through a function -/

/-- The list with every item put through a function. -/
def Listing.mapItems (l : Listing Node) (f : Node → Node) : Listing Node :=
  { l with items := l.items.map f }

@[simp] theorem Listing.items_mapItems (l : Listing Node) (f : Node → Node) :
    (l.mapItems f).items = l.items.map f := rfl

/-- The query with every operand put through a function; its lists are not operands. -/
def Query.mapOperands (q : Query Node) (f : Node → Node) : Query Node where
  keywords := q.keywords.mapItems f
  selectList := q.selectList.mapItems f
  fromClause := q.fromClause.map f
  whereClause := q.whereClause.map f
  groupBy := q.groupBy.map (·.mapItems f)
  having := q.having.map f
  orderBy := q.orderBy.map (·.mapItems f)
  offset := q.offset.map f
  fetch := q.fetch.map f
  position := q.position

/-- The join with every operand put through a function. -/
def Join.mapOperands (j : Join Node) (f : Node → Node) : Join Node where
  left := f j.left
  natural := f j.natural
  joinType := f j.joinType
  right := f j.right
  conditionType := f j.conditionType
  condition := j.condition.map f
  position := j.position

/-- The call with every operand put through a function. -/
def Call.mapOperands (c : Call Node) (f : Node → Node) : Call Node :=
  match c with
  | .basic op os p => .basic op (os.map (Option.map f)) p
  | .select q => .select (q.mapOperands f)
  | .join j => .join (j.mapOperands f)
  | .ddl op statement os p => .ddl op statement (os.map (Option.map f)) p

/-- The node with every operand put through a function. -/
def Node.mapOperands (n : Node) (f : Node → Node) : Node :=
  match n with
  | .call c => .call (c.mapOperands f)
  | .list l => .list (l.mapItems f)
  | n => n

/-! ## Changes that the function does not tell -/

section Unseen

variable {f g : Node → Node}

private theorem map_modify_of_eq {α β : Type} {f : α → β} {g : α → α} {xs : List α} {i : Nat}
    (h : ∀ a, xs[i]? = some a → f (g a) = f a) : (xs.modify i g).map f = xs.map f := by
  induction xs generalizing i with
  | nil => cases i <;> rfl
  | cons x xs ih =>
      cases i with
      | zero => simp [h x rfl]
      | succ i => simp [ih h]

theorem Listing.mapItems_modify {l : Listing Node} {i : Nat}
    (h : ∀ m, l.items[i]? = some m → f (g m) = f m) :
    (l.modify i g).mapItems f = l.mapItems f := by
  simp [mapItems, modify, map_modify_of_eq h]

private theorem map_map_of_eq {o : Option Node} (h : ∀ m, o = some m → f (g m) = f m) :
    (o.map g).map f = o.map f := by
  cases o with
  | none => rfl
  | some m => exact congrArg some (h m rfl)

private theorem map_mapItems_modify {l : Option (Listing Node)} {i : Nat}
    (h : ∀ m l', l = some l' → l'.items[i]? = some m → f (g m) = f m) :
    (l.map (·.modify i g)).map (·.mapItems f) = l.map (·.mapItems f) := by
  cases l with
  | none => rfl
  | some l => exact congrArg some (Listing.mapItems_modify fun m => h m l rfl)

private theorem map_modify_operands {os : List (Option Node)} {i : Nat}
    (h : ∀ m, os[i]? = some (some m) → f (g m) = f m) :
    (os.modify i (Option.map g)).map (Option.map f) = os.map (Option.map f) :=
  map_modify_of_eq fun _ ho => map_map_of_eq fun m hm => h m (by rw [ho, hm])

private theorem Query.mapOperands_modify {q : Query Node} {s : Slot}
    (h : ∀ m, (s, m) ∈ (Call.select q).slots → f (g m) = f m) :
    (q.modify s g).mapOperands f = q.mapOperands f := by
  simp only [Call.slots, List.mem_append, Slotted.mem_items, Slotted.mem_option,
    Slotted.mem_clause] at h
  cases s
  case keyword i =>
    exact congrArg ({ q.mapOperands f with keywords := · })
      (Listing.mapItems_modify (by simpa using h))
  case selectItem i =>
    exact congrArg ({ q.mapOperands f with selectList := · })
      (Listing.mapItems_modify (by simpa using h))
  case groupItem i =>
    exact congrArg ({ q.mapOperands f with groupBy := · })
      (map_mapItems_modify (by simpa using h))
  case orderItem i =>
    exact congrArg ({ q.mapOperands f with orderBy := · })
      (map_mapItems_modify (by simpa using h))
  case fromClause =>
    exact congrArg ({ q.mapOperands f with fromClause := · }) (map_map_of_eq (by simpa using h))
  case whereClause =>
    exact congrArg ({ q.mapOperands f with whereClause := · }) (map_map_of_eq (by simpa using h))
  case having =>
    exact congrArg ({ q.mapOperands f with having := · }) (map_map_of_eq (by simpa using h))
  case offset =>
    exact congrArg ({ q.mapOperands f with offset := · }) (map_map_of_eq (by simpa using h))
  case fetch =>
    exact congrArg ({ q.mapOperands f with fetch := · }) (map_map_of_eq (by simpa using h))
  all_goals rfl

private theorem Join.mapOperands_modify {j : Join Node} {s : Slot}
    (h : ∀ m, (s, m) ∈ (Call.join j).slots → f (g m) = f m) :
    (j.modify s g).mapOperands f = j.mapOperands f := by
  simp only [Call.slots, List.mem_append, Slotted.mem_option] at h
  cases s
  case left => exact congrArg ({ j.mapOperands f with left := · }) (h j.left (by simp))
  case natural => exact congrArg ({ j.mapOperands f with natural := · }) (h j.natural (by simp))
  case joinType => exact congrArg ({ j.mapOperands f with joinType := · }) (h j.joinType (by simp))
  case right => exact congrArg ({ j.mapOperands f with right := · }) (h j.right (by simp))
  case conditionType =>
    exact congrArg ({ j.mapOperands f with conditionType := · }) (h j.conditionType (by simp))
  case condition =>
    exact congrArg ({ j.mapOperands f with condition := · }) (map_map_of_eq (by simpa using h))
  all_goals rfl

/-- An operand may be changed first if the function does not tell the change. -/
theorem Node.mapOperands_modify {n : Node} {s : Slot}
    (h : ∀ m, (s, m) ∈ n.slots → f (g m) = f m) :
    (n.modify s g).mapOperands f = n.mapOperands f := by
  cases n with
  | call c =>
      cases c with
      | basic op os p =>
          cases s
          case operand i =>
            exact congrArg (fun os => Node.call (.basic op os p))
              (map_modify_operands fun m hm => h m (Slotted.mem_present.mpr ⟨i, rfl, hm⟩))
          all_goals rfl
      | ddl op statement os p =>
          cases s
          case operand i =>
            exact congrArg (fun os => Node.call (.ddl op statement os p))
              (map_modify_operands fun m hm => h m (Slotted.mem_present.mpr ⟨i, rfl, hm⟩))
          all_goals rfl
      | select q => exact congrArg (fun q => Node.call (.select q)) (Query.mapOperands_modify h)
      | join j => exact congrArg (fun j => Node.call (.join j)) (Join.mapOperands_modify h)
  | list l =>
      cases s
      case item i =>
        exact congrArg Node.list
          (Listing.mapItems_modify fun m hm => h m (Slotted.mem_items.mpr ⟨i, rfl, hm⟩))
      all_goals rfl
  | _ => cases s <;> rfl

private theorem map_eq_self {o : Option Node} (h : ∀ m ∈ o.toList, f m = m) : o.map f = o := by
  cases o with
  | none => rfl
  | some m => exact congrArg some (h m (by simp))

private theorem Listing.mapItems_eq_self {l : Listing Node} (h : ∀ m ∈ l.items, f m = m) :
    l.mapItems f = l :=
  congrArg ({ l with items := · }) ((List.map_congr_left (g := id) h).trans (List.map_id _))

private theorem map_mapItems_eq_self {l : Option (Listing Node)}
    (h : ∀ m ∈ l.toList.flatMap Listing.items, f m = m) : l.map (·.mapItems f) = l := by
  cases l with
  | none => rfl
  | some l => exact congrArg some (Listing.mapItems_eq_self (by simpa using h))

private theorem map_operands_eq_self {os : List (Option Node)}
    (h : ∀ m ∈ os.reduceOption, f m = m) : os.map (Option.map f) = os := by
  have hall : ∀ o ∈ os, o.map f = id o := by
    intro o ho
    refine map_eq_self fun m hm => h m (List.reduceOption_mem_iff.mpr ?_)
    rwa [← Option.mem_toList.mp hm]
  rw [List.map_congr_left hall, List.map_id]

/-- Operands that are left alone leave the node alone. -/
theorem Node.mapOperands_eq_self {n : Node} (h : ∀ m ∈ n.operands, f m = m) :
    n.mapOperands f = n := by
  cases n with
  | call c =>
      cases c with
      | basic op os p =>
          exact congrArg (fun os => Node.call (.basic op os p))
            (map_operands_eq_self (operands_basic op os p ▸ h))
      | ddl op statement os p =>
          exact congrArg (fun os => Node.call (.ddl op statement os p))
            (map_operands_eq_self (operands_ddl op statement os p ▸ h))
      | select q =>
          simp only [operands_select, List.forall_mem_append] at h
          obtain ⟨⟨⟨⟨⟨⟨⟨⟨hk, hs⟩, hf⟩, hw⟩, hg⟩, hh⟩, ho⟩, hoff⟩, hfe⟩ := h
          simp only [mapOperands, Call.mapOperands, Query.mapOperands,
            Listing.mapItems_eq_self hk, Listing.mapItems_eq_self hs, map_eq_self hf,
            map_eq_self hw, map_mapItems_eq_self hg, map_eq_self hh, map_mapItems_eq_self ho,
            map_eq_self hoff, map_eq_self hfe]
      | join j =>
          simp only [operands_join, List.forall_mem_append, List.forall_mem_cons] at h
          obtain ⟨⟨hl, hn, ht, hr, hc, -⟩, hcond⟩ := h
          simp only [mapOperands, Call.mapOperands, Join.mapOperands, hl, hn, ht, hr, hc,
            map_eq_self hcond]
  | list l => exact congrArg Node.list (Listing.mapItems_eq_self (operands_list l ▸ h))
  | _ => rfl

end Unseen

namespace Slotted

/-- The nodes put through a function, each in its slot. -/
def mapNodes (f : Node → Node) (xs : Slotted) : Slotted := xs.map (Prod.map id f)

variable {f : Node → Node}

@[simp] theorem mapNodes_append (xs ys : Slotted) :
    mapNodes f (xs ++ ys) = mapNodes f xs ++ mapNodes f ys := List.map_append

theorem present_map (row : Nat → Slot) (os : List (Option Node)) :
    present row (os.map (Option.map f)) = mapNodes f (present row os) := by
  induction os generalizing row with
  | nil => rfl
  | cons o os ih =>
      cases o with
      | none => exact ih _
      | some n => exact congrArg ((row 0, f n) :: ·) (ih _)

theorem items_map (row : Nat → Slot) (ns : List Node) :
    items row (ns.map f) = mapNodes f (items row ns) := by
  rw [items, items, ← present_map, List.map_map, List.map_map]
  rfl

theorem option_mapNodes (slot : Slot) (o : Option Node) :
    option slot (o.map f) = mapNodes f (option slot o) := by
  cases o <;> rfl

theorem clause_map (row : Nat → Slot) (l : Option (Listing Node)) :
    clause row (l.map (·.mapItems f)) = mapNodes f (clause row l) := by
  cases l with
  | none => rfl
  | some l => simpa [clause] using items_map row l.items

end Slotted

namespace Node

variable {f : Node → Node}

/-- Every operand is put through the function and stays in its slot. -/
theorem slots_mapOperands (n : Node) (f : Node → Node) :
    (n.mapOperands f).slots = n.slots.mapNodes f := by
  cases n with
  | call c =>
      cases c with
      | basic op os p => exact Slotted.present_map _ os
      | ddl op statement os p => exact Slotted.present_map _ os
      | select q =>
          simp only [mapOperands, Call.mapOperands, Query.mapOperands, slots_call, Call.slots,
            Listing.items_mapItems, Slotted.items_map, Slotted.option_mapNodes,
            Slotted.clause_map, Slotted.mapNodes_append]
      | join j =>
          simp only [mapOperands, Call.mapOperands, Join.mapOperands, slots_call, Call.slots,
            Slotted.option_mapNodes, Slotted.mapNodes_append]
          rfl
  | list l => exact Slotted.items_map _ l.items
  | _ => rfl

@[simp] theorem isSkipped_mapOperands (n : Node) (f : Node → Node) :
    (n.mapOperands f).isSkipped = n.isSkipped := by
  cases n with
  | call c => cases c <;> rfl
  | _ => rfl

/-- Only literals hold flags, and literals have no operands. -/
@[simp] theorem symbol?_mapOperands (n : Node) (f : Node → Node) :
    (n.mapOperands f).symbol? = n.symbol? := by
  cases n <;> rfl

@[simp] theorem position_mapOperands (n : Node) (f : Node → Node) :
    (n.mapOperands f).position = n.position := by
  cases n with
  | call c => cases c <;> rfl
  | _ => rfl

/-! ## Rebuilding -/

mutual

/-- The node rebuilt from its rebuilt operands and then put through the function. -/
def rebuild (f : Node → Node) : Node → Node
  | .call c => f (.call (rebuildCall f c))
  | .list l => f (.list (rebuildListing f l))
  | .literal l => f (.literal l)
  | .identifier i => f (.identifier i)
  | .dataType t => f (.dataType t)
  | .placeholder p => f (.placeholder p)
  | .interval q => f (.interval q)

/-- The call with rebuilt operands. -/
def rebuildCall (f : Node → Node) : Call Node → Call Node
  | .basic op os p => .basic op (rebuildOperands f os) p
  | .select q => .select (rebuildQuery f q)
  | .join j => .join (rebuildJoin f j)
  | .ddl op statement os p => .ddl op statement (rebuildOperands f os) p

/-- The query with rebuilt operands. -/
def rebuildQuery (f : Node → Node) : Query Node → Query Node
  | ⟨keywords, selectList, fromClause, whereClause, groupBy, having, orderBy, offset, fetch,
      position⟩ =>
    ⟨rebuildListing f keywords, rebuildListing f selectList, rebuildOption f fromClause,
      rebuildOption f whereClause, rebuildClause f groupBy, rebuildOption f having,
      rebuildClause f orderBy, rebuildOption f offset, rebuildOption f fetch, position⟩

/-- The join with rebuilt operands. -/
def rebuildJoin (f : Node → Node) : Join Node → Join Node
  | ⟨left, natural, joinType, right, conditionType, condition, position⟩ =>
    ⟨rebuild f left, rebuild f natural, rebuild f joinType, rebuild f right,
      rebuild f conditionType, rebuildOption f condition, position⟩

/-- The list with rebuilt items. -/
def rebuildListing (f : Node → Node) : Listing Node → Listing Node
  | ⟨items, position⟩ => ⟨rebuildItems f items, position⟩

/-- The clause with rebuilt items, if it is there. -/
def rebuildClause (f : Node → Node) : Option (Listing Node) → Option (Listing Node)
  | none => none
  | some l => some (rebuildListing f l)

/-- The operand rebuilt, if it is there. -/
def rebuildOption (f : Node → Node) : Option Node → Option Node
  | none => none
  | some n => some (rebuild f n)

/-- All nodes rebuilt. -/
def rebuildItems (f : Node → Node) : List Node → List Node
  | [] => []
  | n :: ns => rebuild f n :: rebuildItems f ns

/-- All operands rebuilt; absent ones stay absent. -/
def rebuildOperands (f : Node → Node) : List (Option Node) → List (Option Node)
  | [] => []
  | o :: os => rebuildOption f o :: rebuildOperands f os

end

private theorem rebuildOption_eq (o : Option Node) : rebuildOption f o = o.map (rebuild f) := by
  cases o <;> rfl

private theorem rebuildItems_eq (ns : List Node) : rebuildItems f ns = ns.map (rebuild f) := by
  induction ns with
  | nil => rfl
  | cons n ns ih => rw [rebuildItems, ih, List.map_cons]

private theorem rebuildOperands_eq (os : List (Option Node)) :
    rebuildOperands f os = os.map (Option.map (rebuild f)) := by
  induction os with
  | nil => rfl
  | cons o os ih => rw [rebuildOperands, ih, rebuildOption_eq, List.map_cons]

private theorem rebuildListing_eq (l : Listing Node) :
    rebuildListing f l = l.mapItems (rebuild f) := by
  obtain ⟨items, position⟩ := l
  rw [rebuildListing, rebuildItems_eq]
  rfl

private theorem rebuildClause_eq (l : Option (Listing Node)) :
    rebuildClause f l = l.map (·.mapItems (rebuild f)) := by
  cases l with
  | none => rfl
  | some l => exact congrArg some (rebuildListing_eq l)

private theorem rebuildCall_eq (c : Call Node) : rebuildCall f c = c.mapOperands (rebuild f) := by
  cases c with
  | basic op os p => rw [rebuildCall, rebuildOperands_eq, Call.mapOperands]
  | ddl op statement os p => rw [rebuildCall, rebuildOperands_eq, Call.mapOperands]
  | select q =>
      obtain ⟨keywords, selectList, fromClause, whereClause, groupBy, having, orderBy, offset,
        fetch, position⟩ := q
      rw [rebuildCall, rebuildQuery]
      simp only [rebuildListing_eq, rebuildOption_eq, rebuildClause_eq]
      rfl
  | join j =>
      obtain ⟨left, natural, joinType, right, conditionType, condition, position⟩ := j
      rw [rebuildCall, rebuildJoin, rebuildOption_eq]
      rfl

/-- A node is rebuilt by rebuilding its operands and putting the outcome through the function. -/
theorem rebuild_eq (f : Node → Node) (n : Node) :
    n.rebuild f = f (n.mapOperands (rebuild f)) := by
  cases n with
  | call c => rw [rebuild, rebuildCall_eq, mapOperands]
  | list l => rw [rebuild, rebuildListing_eq, mapOperands]
  | _ => rw [rebuild, mapOperands] <;> simp

/-! ## What can be reached in the outcome -/

/-- The operands that validation goes on to after the node, with their slots. -/
def openSlots (n : Node) : Slotted := if n.isSkipped then [] else n.slots

theorem reachedAt_eq_openSlots (n : Node) :
    n.reachedAt = ([], n) :: n.openSlots.flatMap fun x => x.2.reachedAt.under [x.1] := by
  rw [reachedAt_eq, openSlots]
  cases n.isSkipped <;> rfl

theorem mem_operands_of_mem_openSlots {n m : Node} {s : Slot} (h : (s, m) ∈ n.openSlots) :
    m ∈ n.operands := by
  rw [openSlots] at h
  split at h
  · cases h
  · exact mem_operands_of_mem_slots h

theorem openSlots_mapOperands (n : Node) (f : Node → Node) :
    (n.mapOperands f).openSlots = n.openSlots.mapNodes f := by
  rw [openSlots, openSlots, isSkipped_mapOperands, slots_mapOperands]
  cases n.isSkipped <;> rfl

/--
Validation comes to the same addresses as before, and finds there what was there
before, rebuilt.
-/
theorem reachedAt_rebuild (hf : ∀ n, (f n).openSlots = n.openSlots) (n : Node) :
    (n.rebuild f).reachedAt = n.reachedAt.map (Prod.map id (rebuild f)) := by
  induction n using inductionOnOperands with
  | step n ih =>
      have hslots : (n.rebuild f).openSlots = n.openSlots.mapNodes (rebuild f) := by
        rw [rebuild_eq, hf, openSlots_mapOperands]
      have hbelow : ∀ x ∈ n.openSlots, ((x.2.rebuild f).reachedAt.under [x.1]) =
          (x.2.reachedAt.under [x.1]).map (Prod.map id (rebuild f)) := by
        intro x hx
        rw [ih x.2 (mem_operands_of_mem_openSlots hx)]
        simp [Located.under]
      rw [reachedAt_eq_openSlots, reachedAt_eq_openSlots n, hslots, Slotted.mapNodes,
        List.flatMap_map, List.map_cons, List.map_flatMap]
      exact congrArg (([], n.rebuild f) :: ·) (List.flatMap_congr hbelow)

theorem reached_rebuild (hf : ∀ n, (f n).openSlots = n.openSlots) (n : Node) :
    (n.rebuild f).reached = n.reached.map (rebuild f) := by
  rw [reached, reachedAt_rebuild hf, reached, Located.nodes, Located.nodes, List.map_map,
    List.map_map]
  rfl

end Node

end SqlDialect
