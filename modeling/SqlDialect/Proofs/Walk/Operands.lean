import SqlDialect.Walk.Visitor
import SqlDialect.Proofs.Node.Reach

/-!
# Walks as loops over operands

A walk has one function for each container of operands. A visitor that does nothing
at nodes and at lists cannot tell these containers apart: for it a walk below a call
is one loop over the operands of the call. If, besides, it goes below all calls
except those of table functions over files, its whole walk is one loop over the nodes
that can be reached, in pre-order.

## Main results

* `Visitor.walkCall_eq_forM`: below a call the walk is a loop over operands.
* `Visitor.visit_eq_forM_reached`: the whole walk is a loop over nodes.
-/

namespace SqlDialect

/-- Looping over lists one after the other is looping over what they hold. -/
theorem forM_flatMap {α β : Type} {m : Type → Type} [Monad m] [LawfulMonad m] (xs : List α)
    (g : α → List β) (f : β → m PUnit) :
    forM (xs.flatMap g) f = forM xs fun a => forM (g a) f := by
  induction xs with
  | nil => rfl
  | cons a xs ih => rw [List.flatMap_cons, List.forM_append, List.forM_cons, ih]

/-- Loops whose bodies do the same at every item do the same. -/
theorem forM_congr {α : Type} {m : Type → Type} [Monad m] {xs : List α} {f g : α → m PUnit}
    (h : ∀ a ∈ xs, f a = g a) : forM xs f = forM xs g := by
  induction xs with
  | nil => rfl
  | cons a xs ih =>
      rw [List.forM_cons, List.forM_cons, h a List.mem_cons_self,
        ih fun b hb => h b (List.mem_cons_of_mem a hb)]

namespace Visitor

variable {m : Type → Type} [Monad m] (v : Visitor m)

theorem walkItems_eq_forM (ns : List Node) : v.walkItems ns = forM ns v.visit := by
  induction ns with
  | nil => rfl
  | cons n ns ih => rw [walkItems, ih, List.forM_cons, visit]

variable [LawfulMonad m]

theorem walkOption_eq_forM (o : Option Node) : v.walkOption o = forM o.toList v.visit := by
  cases o with
  | none => rfl
  | some n => simp [walkOption, visit]

theorem walkOperands_eq_forM (os : List (Option Node)) :
    v.walkOperands os = forM os.reduceOption v.visit := by
  induction os with
  | nil => rfl
  | cons o os ih =>
      rw [walkOperands, ih, v.walkOption_eq_forM]
      cases o with
      | none => simp
      | some n => simp

variable {v}

/-- The visitor does nothing at nodes and at lists, and goes below all of them. -/
structure SeesThroughLists (v : Visitor m) : Prop where
  node : ∀ n, v.node n = pure true
  list : ∀ l, v.list l = pure true

theorem visit_eq_walkNode (h : v.SeesThroughLists) (n : Node) : v.visit n = v.walkNode n := by
  rw [visit, h.node, descend_pure_true]

theorem walkListing_eq_forM (h : v.SeesThroughLists) (l : Listing Node) :
    descend (v.list l) (v.walkList l) = forM l.items v.visit := by
  obtain ⟨items, position⟩ := l
  rw [h.list, descend_pure_true, walkList, v.walkItems_eq_forM]

theorem walkClause_eq_forM (h : v.SeesThroughLists) (l : Option (Listing Node)) :
    v.walkClause l = forM (l.toList.flatMap Listing.items) v.visit := by
  cases l with
  | none => rfl
  | some l => simpa [walkClause] using walkListing_eq_forM h l

/-- Below a call the walk is a loop over the operands of the call. -/
theorem walkCall_eq_forM (h : v.SeesThroughLists) (c : Call Node) :
    v.walkCall c = forM (Node.call c).operands v.visit := by
  cases c with
  | basic op os p => rw [walkCall, v.walkOperands_eq_forM, Node.operands_basic]
  | ddl op statement os p => rw [walkCall, v.walkOperands_eq_forM, Node.operands_ddl]
  | select q =>
      rw [walkCall, walkQuery, Node.operands_select]
      simp only [walkListing_eq_forM h, v.walkOption_eq_forM, walkClause_eq_forM h,
        List.forM_append, bind_assoc]
  | join j =>
      rw [walkCall, walkJoin, Node.operands_join]
      simp only [v.walkOption_eq_forM, List.forM_append, List.forM_cons, List.forM_nil,
        bind_assoc, pure_bind, visit]

/-! ## The whole walk -/

/-- What the visitor does at a node as the construct that it is, without what is below it. -/
def atConstruct (v : Visitor m) : Node → m Unit
  | .call c => (fun _ => ()) <$> v.call c
  | .literal l => v.literal l
  | .identifier i => v.identifier i
  | .dataType t => v.dataType t
  | .placeholder p => v.placeholder p
  | .interval q => v.interval q
  | .list l => (fun _ => ()) <$> v.list l

/-- The visitor goes below every construct but the calls of table functions over files. -/
structure StaysOutOfSkipped (v : Visitor m) : Prop extends v.SeesThroughLists where
  call : ∀ c, v.call c = (fun _ => !(Node.call c).isSkipped) <$> v.call c

/-- The walk does at each node that it can reach what is to be done there, and nothing else. -/
theorem visit_eq_forM_reached (h : v.StaysOutOfSkipped) (n : Node) :
    v.visit n = forM n.reached v.atConstruct := by
  induction n using Node.inductionOnOperands with
  | step n ih =>
      have hbelow : forM n.operands v.visit =
          forM (n.operands.flatMap Node.reached) v.atConstruct := by
        rw [forM_flatMap]
        exact forM_congr ih
      rw [visit_eq_walkNode h.toSeesThroughLists, Node.reached_eq, List.forM_cons]
      cases n with
      | call c =>
          rw [walkNode, walkCall_eq_forM h.toSeesThroughLists, hbelow, h.call c]
          cases hskip : (Node.call c).isSkipped with
          | true => simp [descend, atConstruct]
          | false => simp [descend, atConstruct]
      | list l =>
          rw [walkNode, walkListing_eq_forM h.toSeesThroughLists, ← Node.operands_list, hbelow,
            atConstruct, h.list, map_pure, pure_bind]
          rfl
      | _ => simp [walkNode, atConstruct, Node.isSkipped, Node.operands, Node.slots, Slotted.nodes]

end Visitor

end SqlDialect
