import SqlDialect.Node.Expression
import SqlDialect.Proofs.Node.Edit
import SqlDialect.Proofs.Walk.Recording

/-!
# Walks are complete and in order

What a walk has to visit can be said without walking: every node that stands somewhere in
the statement, as a node and as the construct that it is, and every clause of a query that
is a list. The address of a node gives the trail at which it has to be visited. A walk that
leaves nothing out makes these visits and no others, each of them once, and it makes them
in the order in which the statement is written.

## Main definitions

* `Node.Holds`: the nodes that stand in a node, by their addresses.
* `Node.Due`: what has to be visited.

## Main results

* `Visit.mem_trails_iff_due`: what there is to be visited has to be, and conversely.
* `Recorder.full_in_preorder`: the record of a walk that leaves nothing out.
-/

namespace SqlDialect

/-! ## Trails of addresses -/

/-- The steps that lead from a node to the operand in the slot. -/
def Slot.trail (s : Slot) : Trail :=
  match s.clause? with
  | none => [.construct, .slot s]
  | some c => [.construct, .clause c, .slot (.item s.index)]

theorem Slot.trail_of_clause?_eq_none {s : Slot} (h : s.clause? = none) :
    s.trail = [.construct, .slot s] := by
  rw [trail, h]

@[simp] theorem Clause.clause?_row (c : Clause) (i : Nat) : (c.row i).clause? = some c := by
  cases c <;> rfl

@[simp] theorem Clause.index_row (c : Clause) (i : Nat) : (c.row i).index = i := by
  cases c <;> rfl

theorem Slot.eq_row_of_clause? {s : Slot} {c : Clause} (h : s.clause? = some c) :
    s = c.row s.index := by
  cases s with
  | keyword i | selectItem i | groupItem i | orderItem i =>
      obtain rfl := Option.some.inj h
      rfl
  | _ => cases h

@[simp] theorem Slot.trail_row (c : Clause) (i : Nat) :
    (c.row i).trail = [.construct, .clause c, .slot (.item i)] := by
  rw [trail, Clause.clause?_row, Clause.index_row]

/-- The trail of a slot is no part of that of another. -/
theorem Slot.trail_append_inj {s s' : Slot} {t t' : Trail} (h : s.trail ++ t = s'.trail ++ t') :
    s = s' ∧ t = t' := by
  cases hs : s.clause? with
  | none =>
      cases hs' : s'.clause? with
      | none => simpa [trail, hs, hs'] using h
      | some c' => simp [trail, hs, hs'] at h
  | some c =>
      cases hs' : s'.clause? with
      | none => simp [trail, hs, hs'] at h
      | some c' =>
          obtain ⟨rfl, hindex, ht⟩ : c = c' ∧ s.index = s'.index ∧ t = t' := by
            simpa [trail, hs, hs'] using h
          exact ⟨by rw [eq_row_of_clause? hs, hindex, ← eq_row_of_clause? hs'], ht⟩

/-- The steps that lead from a node to the node at the address. -/
def Address.trail (a : Address) : Trail := a.flatMap Slot.trail

theorem Slot.trail_ne_nil (s : Slot) : s.trail ≠ [] := by
  unfold trail
  split <;> exact List.cons_ne_nil _ _

/-- Nodes at different addresses are visited at different trails. -/
theorem Address.trail_injective : Function.Injective Address.trail := by
  intro a b h
  induction a generalizing b with
  | nil =>
      cases b with
      | nil => rfl
      | cons s b => exact absurd (List.append_eq_nil_iff.mp h.symm).1 s.trail_ne_nil
  | cons s a ih =>
      cases b with
      | nil => exact absurd (List.append_eq_nil_iff.mp h).1 s.trail_ne_nil
      | cons s' b =>
          obtain ⟨rfl, hrest⟩ := Slot.trail_append_inj h
          rw [ih hrest]

namespace Node

/-! ## What has to be visited -/

/-- The nodes that stand in a node, itself included, by their addresses. -/
inductive Holds : Node → Address → Node → Prop
  | self (n : Node) : Holds n [] n
  | slot {n k m : Node} {s : Slot} {a : Address} (hk : (s, k) ∈ n.slots) (h : Holds k a m) :
      Holds n (s :: a) m

/-- The visits that a walk over the statement has to make, with their trails. -/
inductive Due (root : Node) : Trail → Visit → Prop
  /-- Each node has to be visited as a node. -/
  | node {a : Address} {n : Node} (h : root.Holds a n) : Due root a.trail (.node n)
  /-- Each node has to be visited as the construct that it is. -/
  | construct {a : Address} {n : Node} (h : root.Holds a n) :
      Due root (a.trail ++ [.construct]) n.construct
  /-- Each clause that is a list has to be visited as a list, but not as a node. -/
  | clause {a : Address} {q : Query Node} {c : Clause} {l : Listing Node}
      (h : root.Holds a (.call (.select q))) (hl : q.clause? c = some l) :
      Due root (a.trail ++ [.construct, .clause c]) (.list l)

/-- What has to be visited in an operand has to be visited in the node. -/
theorem Due.slot {n m : Node} {s : Slot} {t : Trail} {x : Visit} (hm : (s, m) ∈ n.slots)
    (h : m.Due t x) : n.Due (s.trail ++ t) x := by
  cases h with
  | node h => exact Due.node (h.slot hm)
  | construct h => exact List.append_assoc .. ▸ Due.construct (h.slot hm)
  | clause h hl => exact List.append_assoc .. ▸ Due.clause (h.slot hm) hl

end Node

namespace Visit

/-! ## What is visited -/

/-- What is visited in a node, up to what is visited in its operands. -/
theorem mem_trails_node_iff {n : Node} {t : Trail} {x : Visit} :
    (t, x) ∈ (node n).trails ↔
      (t = [] ∧ x = .node n) ∨ (t = [.construct] ∧ x = n.construct) ∨
        (∃ q c l, n = .call (.select q) ∧ q.clause? c = some l ∧
          t = [.construct, .clause c] ∧ x = .list l) ∨
        ∃ s m u, (s, m) ∈ n.slots ∧ t = s.trail ++ u ∧ (u, x) ∈ (node m).trails := by
  constructor
  · intro hx
    rcases mem_trails_iff.mp hx with ⟨rfl, rfl⟩ | ⟨s, y, t, hy, rfl, hx⟩
    · exact .inl ⟨rfl, rfl⟩
    obtain ⟨rfl, rfl⟩ := Prod.mk.inj (List.mem_singleton.mp hy)
    rcases mem_trails_iff.mp hx with ⟨rfl, rfl⟩ | ⟨s, z, t, hz, rfl, hx⟩
    · exact .inr (.inl ⟨rfl, rfl⟩)
    refine .inr (.inr ?_)
    rcases Node.mem_inside_construct.mp hz with
      ⟨s, m, hm, hclause, rfl, rfl⟩ | ⟨q, c, l, rfl, hl, rfl, rfl⟩
    · exact .inr ⟨s, m, t, hm, by rw [Slot.trail_of_clause?_eq_none hclause]; rfl, hx⟩
    rcases mem_trails_iff.mp hx with ⟨rfl, rfl⟩ | ⟨s, w, t, hw, rfl, hitem⟩
    · exact .inl ⟨q, c, l, rfl, hl, rfl, rfl⟩
    obtain ⟨s, m, hm, heq⟩ := mem_ofSlotted.mp hw
    obtain ⟨rfl, rfl⟩ := Prod.mk.inj heq
    obtain ⟨i, rfl, -⟩ := Slotted.mem_items.mp hm
    have hslot : (c.row i, m) ∈ (Node.call (.select q)).slots :=
      Query.mem_slots_row_iff.mpr ⟨l, hl, hm⟩
    exact .inr ⟨c.row i, m, t, hslot, by rw [Slot.trail_row]; rfl, hitem⟩
  · have hconstruct {u : Trail} (hx : (u, x) ∈ n.construct.trails) :
        (.construct :: u, x) ∈ (node n).trails :=
      cons_mem_trails_iff.mpr ⟨n.construct, List.mem_singleton_self _, hx⟩
    rintro (⟨rfl, rfl⟩ | ⟨rfl, rfl⟩ | ⟨q, c, l, rfl, hl, rfl, rfl⟩ | ⟨s, m, u, hm, rfl, hx⟩)
    · exact self_mem_trails _
    · exact hconstruct (self_mem_trails _)
    · have hlist := Node.mem_inside_construct.mpr (.inr ⟨q, c, l, rfl, hl, rfl, rfl⟩)
      exact hconstruct (cons_mem_trails_iff.mpr ⟨.list l, hlist, self_mem_trails _⟩)
    · cases hclause : s.clause? with
      | none =>
          have hnode := Node.mem_inside_construct.mpr (.inl ⟨s, m, hm, hclause, rfl, rfl⟩)
          rw [Slot.trail_of_clause?_eq_none hclause]
          exact hconstruct (cons_mem_trails_iff.mpr ⟨.node m, hnode, hx⟩)
      | some c =>
          obtain ⟨q, rfl⟩ : ∃ q, n = .call (.select q) := by
            by_contra hn
            have hnone := Node.clause?_of_mem_slots (not_exists.mp hn) hm
            exact Option.some_ne_none c (hclause.symm.trans hnone)
          rw [Slot.eq_row_of_clause? hclause] at hm ⊢
          obtain ⟨l, hl, hitem⟩ := Query.mem_slots_row_iff.mp hm
          have hlist := Node.mem_inside_construct.mpr (.inr ⟨q, c, l, rfl, hl, rfl, rfl⟩)
          have hnode := mem_ofSlotted.mpr ⟨_, m, hitem, rfl⟩
          rw [Slot.trail_row]
          exact hconstruct (cons_mem_trails_iff.mpr
            ⟨.list l, hlist, cons_mem_trails_iff.mpr ⟨.node m, hnode, hx⟩⟩)

theorem mem_trails_of_holds {root n : Node} {a : Address} (h : root.Holds a n) {t : Trail}
    {x : Visit} (hx : (t, x) ∈ (node n).trails) : (a.trail ++ t, x) ∈ (node root).trails := by
  induction h with
  | self n => exact hx
  | slot hk h ih =>
      refine mem_trails_node_iff.mpr (.inr (.inr (.inr ⟨_, _, _, hk, ?_, ih hx⟩)))
      exact List.append_assoc ..

/-- What there is to be visited is what has to be. -/
theorem mem_trails_iff_due {root : Node} {t : Trail} {x : Visit} :
    (t, x) ∈ (node root).trails ↔ root.Due t x := by
  constructor
  · intro hx
    induction root using Node.inductionOnOperands generalizing t with
    | step n ih =>
        rcases mem_trails_node_iff.mp hx with
          ⟨rfl, rfl⟩ | ⟨rfl, rfl⟩ | ⟨q, c, l, rfl, hl, rfl, rfl⟩ | ⟨s, m, u, hm, rfl, hbelow⟩
        · exact .node (.self n)
        · exact .construct (.self n)
        · exact .clause (.self _) hl
        · exact (ih m (Node.mem_operands_of_mem_slots hm) hbelow).slot hm
  · intro hdue
    cases hdue with
    | @node a n h =>
        exact List.append_nil a.trail ▸ mem_trails_of_holds h (self_mem_trails _)
    | construct h => exact mem_trails_of_holds h (mem_trails_node_iff.mpr (.inr (.inl ⟨rfl, rfl⟩)))
    | clause h hl =>
        exact mem_trails_of_holds h
          (mem_trails_node_iff.mpr (.inr (.inr (.inl ⟨_, _, _, rfl, hl, rfl, rfl⟩))))

theorem trails_node (n : Node) :
    (node n).trails = ([], node n) :: n.construct.trails.after [.construct] := by
  rw [trails_eq, inside_node, List.flatMap_singleton]

/-- The visit of a node is followed by that of the construct that the node is. -/
theorem node_then_construct {root n : Node} {a : Address} (h : root.Holds a n) :
    ∃ before after, (node root).trails =
      before ++ (a.trail, node n) :: (a.trail ++ [.construct], n.construct) :: after := by
  obtain ⟨before, after, hsplit, -⟩ := exists_stretch (mem_trails_iff_due.mpr (.node h))
  rw [trails_node n, trails_eq n.construct] at hsplit
  exact ⟨before, _, by simpa [Trails.after] using hsplit⟩

end Visit

namespace Recorder

/-- Going on at a visit records all that a walk from there records, apart from the visit. -/
theorem run_full_below (x : Visit) :
    full.run (·.below x) = ⟨(x.trails.map Prod.snd).drop 1, false⟩ := by
  rw [run_below_of_unlimited rfl, writesInside_full, x.trails_eq]
  rfl

/--
The record of a walk that leaves nothing out. It has the visits that have to be made and no
others, each of them once, as it goes by the order in which the statement is written; a node
is visited as the construct that it is right after it is visited as a node. A walk that is
entered further in makes the same visits, apart from those that it begins too late for.
-/
theorem full_in_preorder (root : Node) :
    let made := (Visit.node root).trails
    full.run (·.visit root) = ⟨made.map Prod.snd, false⟩ ∧
      (∀ t x, (t, x) ∈ made ↔ root.Due t x) ∧ (made.map Prod.fst).Nodup ∧
      Function.Injective Address.trail ∧
      (∀ i j : Fin made.length, made[i].1.Before made[j].1 ↔ i < j) ∧
      (∀ a n, root.Holds a n → ∃ before after,
        made = before ++ (a.trail, .node n) :: (a.trail ++ [.construct], n.construct) :: after) ∧
      full.run (·.walkNode root) = ⟨(made.map Prod.snd).drop 1, false⟩ ∧
      (∀ c, root = .call c → full.run (·.walkCall c) = ⟨(made.map Prod.snd).drop 2, false⟩) ∧
      ∀ l, root = .list l → full.run (·.walkList l) = ⟨(made.map Prod.snd).drop 2, false⟩ := by
  refine ⟨?_, fun t x => Visit.mem_trails_iff_due, Visit.nodup_trails _, Address.trail_injective,
    Visit.before_iff_lt _, fun a n h => Visit.node_then_construct h, ?_, ?_, ?_⟩
  · rw [run_visit_of_unlimited rfl, writes_full]
  · exact run_full_below (.node root)
  · rintro c rfl
    rw [Visit.trails_node, List.map_cons, Trails.map_snd_after]
    exact run_full_below (.call c)
  · rintro l rfl
    rw [Visit.trails_node, List.map_cons, Trails.map_snd_after]
    exact run_full_below (.list l)

/-- `SELECT a ORDER BY b`. -/
private def orderedColumn : Query Node :=
  { Query.ofSelectList ⟨[.name "a"], .zero⟩ .zero with orderBy := some ⟨[.name "b"], .zero⟩ }

/-- The name `b` is visited within the list of the clause, and as an identifier at once. -/
theorem full_in_preorder_ordered :
    (∃ before after, (Visit.node (.call (.select orderedColumn))).trails =
      before ++ ([.construct, .clause .orderBy, .slot (.item 0)], .node (.name "b")) ::
        ([.construct, .clause .orderBy, .slot (.item 0), .construct],
          .identifier (.named "b" .zero)) :: after) ∧
      full.run (·.walkCall (.select orderedColumn)) =
        ⟨((Visit.node (.call (.select orderedColumn))).trails.map Prod.snd).drop 2, false⟩ := by
  obtain ⟨-, -, -, -, -, hnode, -, hcall, -⟩ := full_in_preorder (.call (.select orderedColumn))
  have hslot : (.orderItem 0, .name "b") ∈ (Node.call (.select orderedColumn)).slots := by
    simp [Call.slots, orderedColumn, Query.ofSelectList, Slotted.mem_items, Slotted.mem_option,
      Slotted.mem_clause]
  exact ⟨hnode [.orderItem 0] (.name "b") (.slot hslot (.self _)), hcall _ rfl⟩

end Recorder

end SqlDialect
