import SqlDialect.Proofs.Node.Edit
import Mathlib.Data.List.Forall2

/-!
# The nodes that validation can come to

Validation goes through a statement in pre-order and stays out of the table
functions over files. `Node.reachedAt` lists the nodes that it can come to, each
with the address at which it stands; whether it does come to them depends on
what it finds on the way and is no concern of this module.

The list is the statement laid out flat. Nodes below one another are told by
their addresses, of which one then begins with the other, and the nodes at and
below an address stand next to each other in the list.

## Main results

* `Node.reached_eq`: the order of the list.
* `Node.pairwise_reachedAt`: nodes stand after all nodes that they are below, and
  no address occurs twice.
* `Node.reachedAt_replaceAt`: replacing a node exchanges its stretch of the list for
  that of the new node. Before that stretch only the nodes change that the replaced
  one was below, and they only in a slot; after it nothing does.
-/

namespace SqlDialect

/-- Nodes with the addresses at which they stand. -/
abbrev Located := List (Address × Node)

namespace Located

/-- The same nodes, seen from further up. -/
def under (a : Address) (xs : Located) : Located := xs.map fun x => (a ++ x.1, x.2)

/-- The nodes without their addresses. -/
def nodes (xs : Located) : List Node := xs.map Prod.snd

@[simp] theorem under_nil (xs : Located) : under [] xs = xs := by
  simp [under]

@[simp] theorem under_append (a : Address) (xs ys : Located) :
    under a (xs ++ ys) = under a xs ++ under a ys := List.map_append

theorem under_under (a b : Address) (xs : Located) : under a (under b xs) = under (a ++ b) xs := by
  simp [under]

@[simp] theorem nodes_under (a : Address) (xs : Located) : nodes (under a xs) = nodes xs := by
  simp [under, nodes]

@[simp] theorem nodes_append (xs ys : Located) : nodes (xs ++ ys) = nodes xs ++ nodes ys :=
  List.map_append

theorem mem_under {a b : Address} {m : Node} {xs : Located} :
    (b, m) ∈ under a xs ↔ ∃ c, b = a ++ c ∧ (c, m) ∈ xs := by
  simp only [under, List.mem_map, Prod.mk.injEq, Prod.exists]
  constructor
  · rintro ⟨c, k, hmem, rfl, rfl⟩
    exact ⟨c, rfl, hmem⟩
  · rintro ⟨c, rfl, hmem⟩
    exact ⟨c, m, hmem, rfl, rfl⟩

end Located

namespace Node

/-- Whether validation stays out of the node: it is a call of a table function over a file. -/
def isSkipped : Node → Bool
  | .call c => c.operator.isDynamicTableFunction
  | _ => false

@[simp] theorem isSkipped_modify (n : Node) (s : Slot) (f : Node → Node) :
    (n.modify s f).isSkipped = n.isSkipped := by
  cases n with
  | call c => exact congrArg Operator.isDynamicTableFunction (c.operator_modify s f)
  | _ => cases s <;> rfl

/-- The nodes that validation can come to, in pre-order, with their addresses. -/
def reachedAt (n : Node) : Located :=
  ([], n) ::
    if n.isSkipped then []
    else n.slots.attach.flatMap fun x => x.1.2.reachedAt.under [x.1.1]
termination_by sizeOf n
decreasing_by exact sizeOf_lt_of_mem_operands (mem_operands_of_mem_slots x.2)

/-- The nodes that validation can come to, in pre-order. -/
def reached (n : Node) : List Node := n.reachedAt.nodes

theorem reachedAt_eq (n : Node) :
    n.reachedAt = ([], n) ::
      if n.isSkipped then [] else n.slots.flatMap fun x => x.2.reachedAt.under [x.1] := by
  rw [reachedAt, List.flatMap_subtype (g := fun x => x.2.reachedAt.under [x.1]) (fun _ _ => rfl),
    List.unattach_attach]

theorem reachedAt_of_slots_eq_nil {n : Node} (h : n.slots = []) : n.reachedAt = [([], n)] := by
  rw [reachedAt_eq, h, List.flatMap_nil, ite_self]

/-- Seen from further up, a node still comes before all that is below it. -/
theorem exists_under_reachedAt (n : Node) (a : Address) :
    ∃ below, n.reachedAt.under a = (a, n) :: below := by
  rw [reachedAt_eq]
  exact ⟨_, by rw [Located.under, List.map_cons, List.append_nil]⟩

/-- A node is followed by what can be reached in its operands, in their order. -/
theorem reached_eq (n : Node) :
    n.reached = n :: if n.isSkipped then [] else n.operands.flatMap reached := by
  rw [reached, reachedAt_eq]
  split
  · rfl
  · simp [Located.nodes, operands, Slotted.nodes, List.flatMap_map, List.map_flatMap, reached,
      Located.under, Function.comp_def]

theorem self_mem_reachedAt (n : Node) : ([], n) ∈ n.reachedAt := by
  rw [reachedAt_eq]
  exact List.mem_cons_self

theorem self_mem_reached (n : Node) : n ∈ n.reached := by
  rw [reached_eq]
  exact List.mem_cons_self

theorem eq_of_nil_mem_reachedAt {n m : Node} (h : ([], m) ∈ n.reachedAt) : m = n := by
  rw [reachedAt_eq, List.mem_cons] at h
  rcases h with h | h
  · exact (Prod.mk.inj h).2
  · split at h
    · cases h
    · obtain ⟨x, -, hx⟩ := List.mem_flatMap.mp h
      obtain ⟨c, hc, -⟩ := Located.mem_under.mp hx
      cases hc

/-- What is reached below a slot is reached in the operand that stands there. -/
theorem cons_mem_reachedAt_iff {n m : Node} {s : Slot} {a : Address} :
    (s :: a, m) ∈ n.reachedAt ↔
      n.isSkipped = false ∧ ∃ k, (s, k) ∈ n.slots ∧ (a, m) ∈ k.reachedAt := by
  rw [reachedAt_eq, List.mem_cons]
  cases hskip : n.isSkipped with
  | true => simp
  | false =>
      simp only [Bool.false_eq_true, if_false, List.mem_flatMap, Prod.mk.injEq, reduceCtorEq,
        false_and, false_or, true_and]
      constructor
      · rintro ⟨⟨t, k⟩, hk, hm⟩
        obtain ⟨c, hc, hm⟩ := Located.mem_under.mp hm
        obtain ⟨rfl, rfl⟩ := List.cons.inj hc
        exact ⟨k, hk, hm⟩
      · rintro ⟨k, hk, hm⟩
        exact ⟨(s, k), hk, Located.mem_under.mpr ⟨a, rfl, hm⟩⟩

/-- Validation does not stay out of a node if it can come to one below it. -/
theorem isSkipped_of_reached_below {n m k : Node} {a b : Address} (hm : (a, m) ∈ n.reachedAt)
    (hk : (b, k) ∈ n.reachedAt) (habove : a <+: b) (hne : a ≠ b) : m.isSkipped = false := by
  induction a generalizing n b with
  | nil =>
      obtain rfl := eq_of_nil_mem_reachedAt hm
      cases b with
      | nil => exact absurd rfl hne
      | cons s b => exact (cons_mem_reachedAt_iff.mp hk).1
  | cons s a ih =>
      cases b with
      | nil => exact absurd (List.prefix_nil.mp habove) hne
      | cons t b =>
          obtain ⟨rfl, hrest⟩ := List.cons_prefix_cons.mp habove
          obtain ⟨-, l, hl, hm⟩ := cons_mem_reachedAt_iff.mp hm
          obtain ⟨-, l', hl', hk⟩ := cons_mem_reachedAt_iff.mp hk
          obtain rfl := eq_of_mem_slots hl hl'
          exact ih hm hk hrest fun heq => hne (congrArg (s :: ·) heq)

/-! ## The order of addresses -/

/-- No node stands before another that it is at or below. -/
theorem pairwise_reachedAt (n : Node) : n.reachedAt.Pairwise fun x y => ¬ y.1 <+: x.1 := by
  induction n using inductionOnOperands with
  | step n ih =>
      rw [reachedAt_eq]
      split
      · exact List.pairwise_singleton _ _
      · refine List.pairwise_cons.mpr ⟨fun y hy => ?_, List.pairwise_flatMap.mpr ⟨?_, ?_⟩⟩
        · obtain ⟨x, -, hx⟩ := List.mem_flatMap.mp hy
          obtain ⟨c, hc, -⟩ := Located.mem_under.mp hx
          rw [hc]
          exact fun hprefix => List.cons_ne_nil _ _ (List.prefix_nil.mp hprefix)
        · intro x hx
          refine List.pairwise_map.mpr ((ih x.2 (mem_operands_of_mem_slots hx)).imp ?_)
          intro y z hyz hprefix
          exact hyz ((List.prefix_append_right_inj [x.1]).mp hprefix)
        · refine (List.pairwise_map.mp n.nodup_slots).imp fun {x y} hxy => ?_
          intro u hu v hv hprefix
          obtain ⟨a, ha, -⟩ := Located.mem_under.mp hu
          obtain ⟨b, hb, -⟩ := Located.mem_under.mp hv
          rw [ha, hb] at hprefix
          exact hxy (List.cons_prefix_cons.mp hprefix).1.symm

/-- No address occurs twice. -/
theorem nodup_reachedAt (n : Node) : (n.reachedAt.map Prod.fst).Nodup :=
  List.pairwise_map.mpr (n.pairwise_reachedAt.imp fun {x y} h (heq : x.1 = y.1) =>
    h (heq ▸ List.prefix_rfl))

/-! ## Replacing a node -/

/--
The nodes are the same but for what stands in one slot. Where that slot holds the
variant of a join, the variant is still the same.
-/
inductive Edited : Node → Node → Prop
  | same (n : Node) : Edited n n
  | slot (n : Node) (s : Slot) (f : Node → Node)
      (hflag : s = .joinType → ∀ m, (s, m) ∈ n.slots → (f m).symbol? = m.symbol?) :
      Edited n (n.modify s f)

/-- The same stretch of a statement, with nodes edited. -/
abbrev EditedAlong : Located → Located → Prop :=
  List.Forall₂ fun x y => x.1 = y.1 ∧ Edited x.2 y.2

theorem EditedAlong.refl (xs : Located) : EditedAlong xs xs :=
  List.forall₂_same.mpr fun x _ => ⟨rfl, .same x.2⟩

theorem EditedAlong.under {xs ys : Located} (h : EditedAlong xs ys) (a : Address) :
    EditedAlong (xs.under a) (ys.under a) := by
  induction h with
  | nil => exact .nil
  | cons hxy _ ih => exact .cons ⟨congrArg (a ++ ·) hxy.1, hxy.2⟩ ih

theorem EditedAlong.append {xs ys xs' ys' : Located} (h : EditedAlong xs ys)
    (h' : EditedAlong xs' ys') : EditedAlong (xs ++ xs') (ys ++ ys') :=
  List.rel_append h h'

private theorem reachedAt_of_slots_split {n m : Node} {s : Slot} {before after : Slotted}
    (hskip : n.isSkipped = false) (hsplit : n.slots = before ++ (s, m) :: after) :
    n.reachedAt = ([], n) :: (before.flatMap fun x => x.2.reachedAt.under [x.1]) ++
      m.reachedAt.under [s] ++ after.flatMap fun x => x.2.reachedAt.under [x.1] := by
  rw [reachedAt_eq, hskip, hsplit]
  simp

/--
Replacing a node exchanges its stretch of the list. The nodes after the stretch
stay as they are, and so do those before it, apart from the ones that the replaced
node was below.
-/
theorem reachedAt_replaceAt {n m : Node} {a : Address} (h : (a, m) ∈ n.reachedAt) :
    ∃ before after, n.reachedAt = before ++ m.reachedAt.under a ++ after ∧
      ∀ new : Node, (a.getLast? = some .joinType → new.symbol? = m.symbol?) →
        ∃ before', EditedAlong before before' ∧
          (n.replaceAt a new).reachedAt = before' ++ new.reachedAt.under a ++ after := by
  induction a generalizing n with
  | nil =>
      obtain rfl := eq_of_nil_mem_reachedAt h
      exact ⟨[], [], by simp, fun new _ => ⟨[], .nil, by simp⟩⟩
  | cons s a ih =>
      obtain ⟨hskip, k, hk, hm⟩ := cons_mem_reachedAt_iff.mp h
      obtain ⟨before, after, hsplit, hreplace⟩ := ih hm
      obtain ⟨left, right, hslots, hmodify⟩ := exists_slots_modify hk
      let flat (xs : Slotted) : Located := xs.flatMap fun x => x.2.reachedAt.under [x.1]
      refine ⟨([], n) :: flat left ++ before.under [s], after.under [s] ++ flat right, ?_, ?_⟩
      · rw [reachedAt_of_slots_split hskip hslots, hsplit]
        simp [flat, Located.under_under]
      intro new hnew
      obtain ⟨before', hbefore, hafter⟩ := hreplace new fun hlast =>
        hnew (by rw [List.getLast?_cons, hlast]; rfl)
      have hslots' : (n.modify s fun m => m.replaceAt a new).slots =
          left ++ (s, k.replaceAt a new) :: right := hmodify _
      refine ⟨([], n.replaceAt (s :: a) new) :: flat left ++ before'.under [s], ?_, ?_⟩
      · refine .cons ⟨rfl, .slot n s _ fun hs k' hk' => ?_⟩
          ((EditedAlong.refl (flat left)).append (hbefore.under [s]))
        obtain rfl := eq_of_mem_slots hk hk'
        cases a with
        | nil =>
            obtain rfl := eq_of_nil_mem_reachedAt hm
            exact hnew (by rw [hs]; rfl)
        | cons t a => exact k.symbol?_modify t _
      · rw [replaceAt_cons, reachedAt_of_slots_split (by simpa using hskip) hslots', hafter]
        simp [flat, Located.under_under]

end Node

end SqlDialect
