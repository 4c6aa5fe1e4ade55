import SqlDialect.Proofs.Validation.Pass
import SqlDialect.Node.Expression

/-!
# Nodes that a pass sees through

Of most nodes that it allows a pass takes no note. It goes on to what is below them, and
its verdict is the one that it would reach if the operands stood there instead. So a
statement of which the outermost node is of this sort has the verdict of its operands in a
list, and in a list each such node may be opened: its operands are put in its place. A
node without operands is left out by that.

## Main definitions

* `Dialect.Transparent`: the nodes in question.
* `Dialect.Opens`: a list in which some of these nodes are opened.

## Main results

* `Dialect.judgeAll_of_opens`: opening nodes does not change the verdict.
* `Dialect.Transparent.validate_eq_sequence`: a transparent statement has the verdict of
  its operands, in which further nodes may be opened.
-/

namespace SqlDialect

/-- The operands of a call none of which is absent. -/
@[simp] theorem Node.operands_apply (op : Operator) (ns : List Node) (p : Position) :
    (Node.apply op ns p).operands = ns := by
  rw [Node.apply, Node.operands_basic, reduceOption_map_some]

namespace Dialect

variable {d : Dialect} {n : Node} {ns ms : List Node}

/-- The pass goes on below the node, does not refuse it, and does not remember it. -/
structure Transparent (d : Dialect) (n : Node) : Prop where
  opened : n.isSkipped = false
  plain : n.isQuery = false
  allowed : d.nodeCause? false n = none

/-! ## Which nodes are transparent -/

theorem transparent_list (d : Dialect) (l : Listing Node) : d.Transparent (.list l) where
  opened := rfl
  plain := rfl
  allowed := rfl

theorem transparent_identifier (d : Dialect) (i : Identifier) : d.Transparent (.identifier i) where
  opened := rfl
  plain := rfl
  allowed := rfl

theorem transparent_literal {l : Literal} (h : d.literalCause? l = none) :
    d.Transparent (.literal l) where
  opened := rfl
  plain := rfl
  allowed := h

/-- A call that is looked into and not refused, unless it is a query. -/
theorem transparent_call {c : Call Node} (hop : c.operator.isDynamicTableFunction = false)
    (hquery : (Node.call c).isQuery = false) (hcause : d.callCause? false c = none) :
    d.Transparent (.call c) where
  opened := hop
  plain := hquery
  allowed := by
    show (if (Node.call c).isSkipped then none else d.callCause? false c) = none
    rw [hcause, ite_self]

/-! ## Opening nodes -/

/--
The list with some of its transparent nodes opened. It is up to the reader of the list which
nodes these are, so every list opens to itself.
-/
inductive Opens (d : Dialect) : List Node → List Node → Prop
  | nil : Opens d [] []
  /-- A node is left as it is. -/
  | keep (n : Node) {ns ms : List Node} (h : Opens d ns ms) : Opens d (n :: ns) (n :: ms)
  /-- The operands of a node are put in its place. -/
  | opened {n : Node} {ns ms : List Node} (hn : d.Transparent n) (h : Opens d ns ms) :
      Opens d (n :: ns) (n.operands ++ ms)

namespace Opens

theorem refl (ns : List Node) : d.Opens ns ns := by
  induction ns with
  | nil => exact .nil
  | cons n ns ih => exact .keep n ih

/-- A name is left out. -/
theorem identifier (i : Identifier) (h : d.Opens ns ms) : d.Opens (.identifier i :: ns) ms :=
  .opened (d.transparent_identifier i) h

/-- A literal is left out if it is not refused. -/
theorem literal {l : Literal} (hl : d.literalCause? l = none) (h : d.Opens ns ms) :
    d.Opens (.literal l :: ns) ms := .opened (transparent_literal hl) h

/-- The items of a list take its place. -/
theorem sequence (items : List Node) (h : d.Opens ns ms) :
    d.Opens (.sequence items :: ns) (items ++ ms) := by
  have hopened := Opens.opened (d.transparent_list ⟨items, .zero⟩) h
  rwa [Node.operands_list] at hopened

theorem sequence_singleton (items : List Node) : d.Opens [.sequence items] items := by
  have hitems := Opens.sequence items (.nil (d := d))
  rwa [List.append_nil] at hitems

end Opens

/-- A transparent node at the head of a list is as good as its operands. -/
theorem Transparent.judgeAll_reached (h : d.Transparent n) (queryMet : Bool) :
    d.judgeAll queryMet n.reached = d.judgeAll queryMet (n.operands.flatMap Node.reached) := by
  have hcause : d.nodeCause? queryMet n = none := by
    rw [nodeCause?_of_not_isQuery h.plain]
    exact h.allowed
  rw [Node.reached_eq, h.opened, if_neg Bool.false_ne_true, judgeAll, hcause, h.plain,
    Bool.or_false]

/-- What is remembered of a transparent node is what is remembered of its operands. -/
theorem Transparent.any_reached (h : d.Transparent n) :
    n.reached.any Node.isQuery = (n.operands.flatMap Node.reached).any Node.isQuery := by
  rw [Node.reached_eq, h.opened, if_neg Bool.false_ne_true, List.any_cons, h.plain, Bool.false_or]

/-- Opening nodes does not change the verdict on a list, wherever the list stands. -/
theorem judgeAll_of_opens (h : d.Opens ns ms) (queryMet : Bool) :
    d.judgeAll queryMet (ns.flatMap Node.reached) =
      d.judgeAll queryMet (ms.flatMap Node.reached) := by
  induction h generalizing queryMet with
  | nil => rfl
  | keep n h ih =>
      rw [List.flatMap_cons, List.flatMap_cons, judgeAll_append, judgeAll_append, ih]
  | opened hn h ih =>
      rw [List.flatMap_cons, List.flatMap_append, judgeAll_append, judgeAll_append,
        hn.judgeAll_reached, hn.any_reached, ih]

/-! ## The verdict on a statement -/

theorem validate_sequence (d : Dialect) (ns : List Node) :
    d.validate (.sequence ns) = d.judgeAll false (ns.flatMap Node.reached) := by
  have hlist : d.Transparent (.sequence ns) := d.transparent_list _
  rw [validate_eq_judgeAll, hlist.judgeAll_reached, Node.sequence, Node.operands_list]

/-- A list of one node has the verdict of the node. -/
theorem validate_sequence_singleton (d : Dialect) (n : Node) :
    d.validate (.sequence [n]) = d.validate n := by
  rw [validate_sequence, List.flatMap_singleton, validate_eq_judgeAll]

/-- A transparent statement has the verdict of its operands, further nodes among them opened. -/
theorem Transparent.validate_eq_sequence (h : d.Transparent n) (hopens : d.Opens n.operands ns) :
    d.validate n = d.validate (.sequence ns) := by
  rw [validate_eq_judgeAll, h.judgeAll_reached, judgeAll_of_opens hopens, validate_sequence]

end Dialect

end SqlDialect
