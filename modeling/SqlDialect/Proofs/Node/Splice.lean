import SqlDialect.Proofs.Node.Rebuild
import Mathlib.Algebra.GroupWithZero.Nat
import Mathlib.Logic.Relation

/-!
# Splicing lists

A list may stand as one operand of a call, as one item of another list, or as one item of
a clause, and then its items could stand there themselves. To *splice* a list is to put
them there. Absent operands are of the same sort: they take a place and hold nothing, and
they are taken out.

A splice is made at one place at a time, at any depth. However the places are chosen, the
splices come to an end, and always with the same statement, which is the statement
*flattened*. It can also be written down at once, from the bottom up.

Lists elsewhere stay: a join without one of its tables would be another join, and the
clauses of a query are lists by themselves.

## Main definitions

* `Node.Splices`: one statement is another with one list spliced or one absent operand
  taken out.
* `Node.flattened`: the statement with all of them spliced.

## Main results

* `Node.Splices.bulk_lt`: splicing comes to an end.
* `Node.Splices.flattened_eq`: a splice does not change the flattened statement.
* `Node.reflTransGen_flattened`, `Node.not_splices_flattened`: a statement can be flattened
  by splices, and then nothing is left to be spliced.
* `Node.eqvGen_splices_iff`: which statements can be had from one another.
-/

namespace SqlDialect

/-! ## One splice -/

/-- One list is an item of the other, and its items are put in its place. -/
inductive Listing.Splices : Listing Node → Listing Node → Prop
  | item (before : List Node) (l : Listing Node) (after : List Node) (position : Position) :
      Splices ⟨before ++ .list l :: after, position⟩ ⟨before ++ l.items ++ after, position⟩

/-- In one clause of the query a list among the items is spliced. -/
inductive Query.Splices : Query Node → Query Node → Prop
  | keywords (q : Query Node) {l : Listing Node} (h : q.keywords.Splices l) :
      Splices q { q with keywords := l }
  | selectList (q : Query Node) {l : Listing Node} (h : q.selectList.Splices l) :
      Splices q { q with selectList := l }
  | groupBy (q : Query Node) {l l' : Listing Node} (hl : q.groupBy = some l)
      (h : l.Splices l') : Splices q { q with groupBy := some l' }
  | orderBy (q : Query Node) {l l' : Listing Node} (hl : q.orderBy = some l)
      (h : l.Splices l') : Splices q { q with orderBy := some l' }

/-- In a row of operands a list gives its place to its items, or a place without operand goes. -/
inductive SplicesOperands : List (Option Node) → List (Option Node) → Prop
  | list (before : List (Option Node)) (l : Listing Node) (after : List (Option Node)) :
      SplicesOperands (before ++ some (.list l) :: after)
        (before ++ l.items.map some ++ after)
  | absent (before after : List (Option Node)) :
      SplicesOperands (before ++ none :: after) (before ++ after)

namespace Node

/-- Somewhere in the first statement one splice is made, and the outcome is the second. -/
inductive Splices : Node → Node → Prop
  | basic (op : Operator) {os os' : List (Option Node)} (p : Position)
      (h : SplicesOperands os os') : Splices (.call (.basic op os p)) (.call (.basic op os' p))
  | ddl (op : Operator) (statement : String) {os os' : List (Option Node)} (p : Position)
      (h : SplicesOperands os os') :
      Splices (.call (.ddl op statement os p)) (.call (.ddl op statement os' p))
  | list {l l' : Listing Node} (h : l.Splices l') : Splices (.list l) (.list l')
  | select {q q' : Query Node} (h : q.Splices q') :
      Splices (.call (.select q)) (.call (.select q'))
  /-- The splice is made in the node in a slot, or below that node. -/
  | inside {n k m : Node} {s : Slot} (hk : (s, k) ∈ n.slots) (h : Splices k m) :
      Splices n (n.modify s fun _ => m)

/-! ## All splices -/

/-- What stands in the place of the node once it is spliced. -/
def members : Node → List Node
  | .list l => l.items
  | n => [n]

end Node

/-- The list with its items spliced. -/
def Listing.opened (l : Listing Node) : Listing Node :=
  { l with items := l.items.flatMap Node.members }

/-- The operands with lists spliced and absent ones taken out. -/
def openedOperands (os : List (Option Node)) : List (Option Node) :=
  (os.reduceOption.flatMap Node.members).map some

/-- The call with its operands spliced, or the items of its clauses if it is a query. -/
def Call.opened : Call Node → Call Node
  | .basic op os p => .basic op (openedOperands os) p
  | .select q =>
    .select { q with
      keywords := q.keywords.opened
      selectList := q.selectList.opened
      groupBy := q.groupBy.map Listing.opened
      orderBy := q.orderBy.map Listing.opened }
  | .join j => .join j
  | .ddl op statement os p => .ddl op statement (openedOperands os) p

namespace Node

/-- The node with what is directly in it spliced. -/
def opened : Node → Node
  | .call c => .call c.opened
  | .list l => .list l.opened
  | n => n

/-- The statement with all that can be spliced in it spliced, from the bottom up. -/
def flattened (n : Node) : Node := n.rebuild opened

theorem flattened_eq (n : Node) : n.flattened = (n.mapOperands flattened).opened :=
  rebuild_eq opened n

/-! ## Splicing comes to an end -/

/-- The number of places of the call at which an operand is absent that could be taken out. -/
def absent : Node → Nat
  | .call (.basic _ os _) => os.countP Option.isNone
  | .call (.ddl _ _ os _) => os.countP Option.isNone
  | _ => 0

/-- The number of nodes in the statement and of places at which an operand is absent. -/
def bulk (n : Node) : Nat :=
  1 + n.absent + (n.operands.attach.map fun m => m.1.bulk).sum
termination_by sizeOf n
decreasing_by exact sizeOf_lt_of_mem_operands m.2

theorem bulk_eq (n : Node) : n.bulk = 1 + n.absent + (n.operands.map bulk).sum := by
  rw [bulk, List.map_subtype (g := bulk) (fun _ _ => rfl), List.unattach_attach]

theorem bulk_list (l : Listing Node) : (Node.list l).bulk = 1 + (l.items.map bulk).sum := by
  rw [bulk_eq, operands_list]
  rfl

/-- An operand is replaced, and those on the left and on the right of it stay. -/
theorem exists_operands_modify {n k : Node} {s : Slot} (hk : (s, k) ∈ n.slots) :
    ∃ left right, n.operands = left ++ k :: right ∧
      ∀ f : Node → Node, (n.modify s f).operands = left ++ f k :: right := by
  obtain ⟨left, right, hslots, hmodify⟩ := exists_slots_modify hk
  refine ⟨Slotted.nodes left, Slotted.nodes right, ?_, fun f => ?_⟩
  · rw [operands, hslots, Slotted.nodes_append, Slotted.nodes_cons]
  · rw [operands, hmodify, Slotted.nodes_append, Slotted.nodes_cons]

private theorem countP_isNone_modify (f : Node → Node) (i : Nat) (os : List (Option Node)) :
    (os.modify i (Option.map f)).countP Option.isNone = os.countP Option.isNone := by
  induction os generalizing i with
  | nil => cases i <;> rfl
  | cons o os ih =>
      cases i with
      | zero => simp [List.countP_cons]
      | succ i => simp [List.countP_cons, ih]

@[simp] theorem absent_modify (n : Node) (s : Slot) (f : Node → Node) :
    (n.modify s f).absent = n.absent := by
  cases n with
  | call c =>
      cases c with
      | basic op os p => cases s <;> first | rfl | exact countP_isNone_modify f _ os
      | ddl op statement os p => cases s <;> first | rfl | exact countP_isNone_modify f _ os
      | _ => rfl
  | _ => cases s <;> rfl

end Node

/-- A spliced list is lighter by the node that it was. -/
theorem Listing.Splices.sum_lt {l l' : Listing Node} (h : l.Splices l') :
    (l'.items.map Node.bulk).sum < (l.items.map Node.bulk).sum := by
  cases h with
  | item before l after p =>
      have hlist := Node.bulk_list l
      simp only [List.map_append, List.map_cons, List.sum_append, List.sum_cons]
      omega

/-- Operands are lighter by the list that is spliced, or by the place that is taken out. -/
theorem SplicesOperands.sum_lt {os os' : List (Option Node)} (h : SplicesOperands os os') :
    os'.countP Option.isNone + (os'.reduceOption.map Node.bulk).sum <
      os.countP Option.isNone + (os.reduceOption.map Node.bulk).sum := by
  cases h with
  | list before l after =>
      have hlist := Node.bulk_list l
      have hitems := reduceOption_map_some l.items
      have hnone : (l.items.map some).countP Option.isNone = 0 := by
        rw [List.countP_eq_zero]
        simp
      simp only [List.countP_append, List.countP_cons, List.reduceOption_append,
        List.reduceOption_cons_of_some, List.map_append, List.map_cons, List.sum_append,
        List.sum_cons, hitems, hnone, Option.isNone_some]
      omega
  | absent before after =>
      simp only [List.countP_append, List.countP_cons, List.reduceOption_append,
        List.reduceOption_cons_of_none, List.map_append, List.sum_append, Option.isNone_none,
        if_true]
      omega

/-- One stretch of the operands changes, and it is that of the list that is spliced. -/
theorem Query.Splices.exists_operands {q q' : Query Node} (h : q.Splices q') :
    ∃ (l l' : Listing Node) (left right : List Node), l.Splices l' ∧
      (Node.call (.select q)).operands = left ++ l.items ++ right ∧
        (Node.call (.select q')).operands = left ++ l'.items ++ right := by
  cases h with
  | @keywords l h =>
      refine ⟨q.keywords, l, [],
        (Node.call (.select { q with keywords := .empty })).operands, h, ?_, ?_⟩
      · simp [Node.operands_select, Listing.empty]
      · simp [Node.operands_select, Listing.empty]
  | @selectList l h =>
      refine ⟨q.selectList, l, q.keywords.items,
        (Node.call (.select { q with keywords := .empty, selectList := .empty })).operands,
        h, ?_, ?_⟩
      · simp [Node.operands_select, Listing.empty]
      · simp [Node.operands_select, Listing.empty]
  | @groupBy l l' hl h =>
      refine ⟨l, l',
        q.keywords.items ++ q.selectList.items ++ q.fromClause.toList ++ q.whereClause.toList,
        q.having.toList ++ q.orderBy.toList.flatMap Listing.items ++ q.offset.toList ++
          q.fetch.toList, h, ?_, ?_⟩
      · simp [Node.operands_select, hl]
      · simp [Node.operands_select]
  | @orderBy l l' hl h =>
      refine ⟨l, l',
        (Node.call (.select { q with orderBy := none, offset := none, fetch := none })).operands,
        q.offset.toList ++ q.fetch.toList, h, ?_, ?_⟩
      · simp [Node.operands_select, hl]
      · simp [Node.operands_select]

namespace Node

/-- A splice makes a statement lighter, so splicing comes to an end. -/
theorem Splices.bulk_lt {n m : Node} (h : n.Splices m) : m.bulk < n.bulk := by
  induction h with
  | basic op p h =>
      have hsum := h.sum_lt
      rw [bulk_eq, bulk_eq, operands_basic, operands_basic, absent, absent]
      omega
  | ddl op statement p h =>
      have hsum := h.sum_lt
      rw [bulk_eq, bulk_eq, operands_ddl, operands_ddl, absent, absent]
      omega
  | list h =>
      have hsum := h.sum_lt
      rw [bulk_list, bulk_list]
      omega
  | select h =>
      obtain ⟨l, l', left, right, hsplice, hq, hq'⟩ := h.exists_operands
      have hsum := hsplice.sum_lt
      simp only [bulk_eq, hq, hq', absent, List.map_append, List.sum_append]
      omega
  | @inside n k m s hk h ih =>
      obtain ⟨left, right, hoperands, hmodify⟩ := exists_operands_modify hk
      rw [bulk_eq, bulk_eq n, absent_modify, hmodify, hoperands]
      simp only [List.map_append, List.map_cons, List.sum_append, List.sum_cons]
      omega

/-! ## The flattened statement -/

/-- What the node leaves in its place once the whole statement is flattened. -/
def flatMembers (n : Node) : List Node := n.flattened.members

theorem flattened_list (l : Listing Node) :
    (Node.list l).flattened = .list { l with items := l.items.flatMap flatMembers } := by
  rw [flattened_eq]
  show Node.list { l with items := (l.items.map flattened).flatMap members } = _
  rw [List.flatMap_map]
  rfl

theorem flatMembers_list (l : Listing Node) :
    (Node.list l).flatMembers = l.items.flatMap flatMembers := by
  rw [flatMembers, flattened_list, members]

end Node

theorem Listing.opened_mapItems_flattened (l : Listing Node) :
    (l.mapItems Node.flattened).opened = { l with items := l.items.flatMap Node.flatMembers } := by
  rw [opened, items_mapItems, List.flatMap_map]
  rfl

theorem openedOperands_map_flattened (os : List (Option Node)) :
    openedOperands (os.map (Option.map Node.flattened)) =
      (os.reduceOption.flatMap Node.flatMembers).map some := by
  rw [openedOperands, List.reduceOption_map, List.flatMap_map]
  rfl

/-- The items of a spliced list stand in its place in the flattened list in any case. -/
theorem Listing.Splices.opened_eq {l l' : Listing Node} (h : l.Splices l') :
    (l'.mapItems Node.flattened).opened = (l.mapItems Node.flattened).opened := by
  cases h with
  | item before l after p =>
      simp only [Listing.opened_mapItems_flattened, List.flatMap_append, List.flatMap_cons,
        Node.flatMembers_list, List.append_assoc]

theorem SplicesOperands.opened_eq {os os' : List (Option Node)} (h : SplicesOperands os os') :
    openedOperands (os'.map (Option.map Node.flattened)) =
      openedOperands (os.map (Option.map Node.flattened)) := by
  rw [openedOperands_map_flattened, openedOperands_map_flattened]
  cases h with
  | list before l after =>
      have hitems := reduceOption_map_some l.items
      simp only [List.reduceOption_append, List.reduceOption_cons_of_some, List.flatMap_append,
        List.flatMap_cons, Node.flatMembers_list, List.append_assoc, hitems]
  | absent before after =>
      simp only [List.reduceOption_append, List.reduceOption_cons_of_none]

theorem Query.Splices.opened_eq {q q' : Query Node} (h : q.Splices q') :
    (Call.select (q'.mapOperands Node.flattened)).opened =
      (Call.select (q.mapOperands Node.flattened)).opened := by
  cases h with
  | keywords h => simp only [mapOperands, Call.opened, h.opened_eq]
  | selectList h => simp only [mapOperands, Call.opened, h.opened_eq]
  | groupBy hl h => simp only [mapOperands, Call.opened, hl, Option.map_some, h.opened_eq]
  | orderBy hl h => simp only [mapOperands, Call.opened, hl, Option.map_some, h.opened_eq]

namespace Node

/-- A splice does not change the flattened statement. -/
theorem Splices.flattened_eq {n m : Node} (h : n.Splices m) : m.flattened = n.flattened := by
  rw [Node.flattened_eq, Node.flattened_eq n]
  induction h with
  | basic op p h => exact congrArg (fun os => Node.call (.basic op os p)) h.opened_eq
  | ddl op statement p h =>
      exact congrArg (fun os => Node.call (.ddl op statement os p)) h.opened_eq
  | list h => exact congrArg Node.list h.opened_eq
  | select h => exact congrArg Node.call h.opened_eq
  | @inside n k m s hk h ih =>
      -- Before the operands are put together again the spliced one is flattened like the old.
      have hsame : ∀ k', (s, k') ∈ n.slots → m.flattened = k'.flattened := by
        intro k' hk'
        obtain rfl := eq_of_mem_slots hk hk'
        rw [Node.flattened_eq, Node.flattened_eq k, ih]
      rw [mapOperands_modify hsame]

end Node

/-! ## When nothing is left to be spliced -/

/-- Nodes that are no lists are left as they are. -/
private theorem Node.members_eq_singleton {n : Node} (h : ∀ l, n ≠ .list l) :
    n.members = [n] := by
  cases n with
  | list l => exact absurd rfl (h l)
  | _ => rfl

/-- A list of which no item is a list is left as it is. -/
theorem Listing.opened_eq_self {l : Listing Node} (h : ∀ l', ¬ l.Splices l') : l.opened = l := by
  obtain ⟨items, position⟩ := l
  have hmembers : ∀ n ∈ items, n.members = [n] := by
    intro n hn
    obtain ⟨before, after, rfl⟩ := List.append_of_mem hn
    refine Node.members_eq_singleton fun inner hinner => ?_
    subst hinner
    exact h _ (.item before inner after position)
  show (⟨items.flatMap Node.members, position⟩ : Listing Node) = _
  rw [List.flatMap_congr hmembers, List.flatMap_singleton']

private theorem map_some_reduceOption {os : List (Option Node)} (h : none ∉ os) :
    os.reduceOption.map some = os := by
  induction os with
  | nil => rfl
  | cons o os ih =>
      cases o with
      | none => exact absurd List.mem_cons_self h
      | some n =>
          have hos : none ∉ os := fun hnone => h (List.mem_cons_of_mem _ hnone)
          rw [List.reduceOption_cons_of_some, List.map_cons, ih hos]

theorem openedOperands_eq_self {os : List (Option Node)} (h : ∀ os', ¬ SplicesOperands os os') :
    openedOperands os = os := by
  have hpresent : none ∉ os := by
    intro hnone
    obtain ⟨before, after, rfl⟩ := List.append_of_mem hnone
    exact h _ (.absent before after)
  have hmembers : ∀ n ∈ os.reduceOption, n.members = [n] := by
    intro n hn
    obtain ⟨before, after, rfl⟩ := List.append_of_mem (List.reduceOption_mem_iff.mp hn)
    refine Node.members_eq_singleton fun inner hinner => ?_
    subst hinner
    exact h _ (.list before inner after)
  rw [openedOperands, List.flatMap_congr hmembers, List.flatMap_singleton',
    map_some_reduceOption hpresent]

private theorem map_opened_eq_self {l : Option (Listing Node)}
    (h : ∀ l₁, l = some l₁ → ∀ l₂, ¬ l₁.Splices l₂) : l.map Listing.opened = l := by
  cases l with
  | none => rfl
  | some l => exact congrArg some (Listing.opened_eq_self (h l rfl))

namespace Node

/-- A node in which there is nothing to be spliced directly is left as it is. -/
theorem opened_eq_self {n : Node} (h : ∀ m, ¬ n.Splices m) : n.opened = n := by
  cases n with
  | call c =>
      cases c with
      | basic op os p =>
          have hos := openedOperands_eq_self fun os' hos => h _ (.basic op p hos)
          exact congrArg (fun os => Node.call (.basic op os p)) hos
      | ddl op statement os p =>
          have hos := openedOperands_eq_self fun os' hos => h _ (.ddl op statement p hos)
          exact congrArg (fun os => Node.call (.ddl op statement os p)) hos
      | select q =>
          have hkeywords := Listing.opened_eq_self fun l hl => h _ (.select (.keywords q hl))
          have hselect := Listing.opened_eq_self fun l hl => h _ (.select (.selectList q hl))
          have hgroup := map_opened_eq_self fun l hl l' hl' =>
            h _ (.select (.groupBy q hl hl'))
          have horder := map_opened_eq_self fun l hl l' hl' =>
            h _ (.select (.orderBy q hl hl'))
          rw [opened, Call.opened, hkeywords, hselect, hgroup, horder]
      | join j => rfl
  | list l =>
      have hl := Listing.opened_eq_self fun l' hl => h _ (.list hl)
      exact congrArg Node.list hl
  | _ => rfl

/-- A statement in which there is nothing to be spliced is flattened already. -/
theorem flattened_of_not_splices {n : Node} (h : ∀ m, ¬ n.Splices m) : n.flattened = n := by
  induction n using inductionOnOperands with
  | step n ih =>
      have hoperands : ∀ k ∈ n.operands, k.flattened = k := by
        intro k hk
        obtain ⟨⟨s, k⟩, hslot, rfl⟩ := List.mem_map.mp hk
        exact ih k hk fun m hm => h _ (.inside hslot hm)
      rw [flattened_eq, mapOperands_eq_self hoperands, opened_eq_self h]

/-! ## Flattening by splices -/

/-- Splices can be made until nothing is left to be spliced. -/
theorem exists_not_splices (n : Node) :
    ∃ m, Relation.ReflTransGen Splices n m ∧ ∀ k, ¬ m.Splices k := by
  by_cases hn : ∀ k, ¬ n.Splices k
  · exact ⟨n, .refl, hn⟩
  · obtain ⟨k, hk⟩ := not_forall_not.mp hn
    obtain ⟨m, hm, hend⟩ := exists_not_splices k
    exact ⟨m, .head hk hm, hend⟩
termination_by n.bulk
decreasing_by exact hk.bulk_lt

theorem flattened_of_reflTransGen {n m : Node} (h : Relation.ReflTransGen Splices n m) :
    m.flattened = n.flattened := by
  induction h with
  | refl => rfl
  | tail _ hstep ih => rw [hstep.flattened_eq, ih]

/-- However the places are chosen, the splices end with the flattened statement. -/
theorem eq_flattened_of_reflTransGen {n m : Node} (h : Relation.ReflTransGen Splices n m)
    (hend : ∀ k, ¬ m.Splices k) : m = n.flattened := by
  rw [← flattened_of_reflTransGen h, flattened_of_not_splices hend]

/-- A statement can be flattened by splices. -/
theorem reflTransGen_flattened (n : Node) : Relation.ReflTransGen Splices n n.flattened := by
  obtain ⟨m, hm, hend⟩ := n.exists_not_splices
  rw [← eq_flattened_of_reflTransGen hm hend]
  exact hm

/-- In the flattened statement nothing is left to be spliced. -/
theorem not_splices_flattened (n m : Node) : ¬ n.flattened.Splices m := by
  obtain ⟨k, hk, hend⟩ := n.exists_not_splices
  rw [← eq_flattened_of_reflTransGen hk hend]
  exact hend m

/-- Splicing and its reverse lead from one statement to another if they are flattened alike. -/
theorem eqvGen_splices_iff {n m : Node} :
    Relation.EqvGen Splices n m ↔ n.flattened = m.flattened := by
  constructor
  · intro h
    induction h with
    | rel n m h => exact h.flattened_eq.symm
    | refl n => rfl
    | symm n m _ ih => exact ih.symm
    | trans n m k _ _ ih ih' => exact ih.trans ih'
  · intro h
    have hn := Relation.EqvGen.reflTransGen_le_eqvGen Splices _ _ n.reflTransGen_flattened
    have hm := Relation.EqvGen.reflTransGen_le_eqvGen Splices _ _ m.reflTransGen_flattened
    rw [← h] at hm
    exact hn.trans _ _ _ (hm.symm _ _)

end Node

end SqlDialect
