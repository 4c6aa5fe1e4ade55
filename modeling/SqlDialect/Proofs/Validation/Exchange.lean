import SqlDialect.Proofs.Validation.Replacement
import SqlDialect.Proofs.Walk.Preorder

/-!
# Exchanging the operator of a call

A call may be given another operator of its kind. Where the kind decides on the call, that
is not noticed: neither the name nor the identity of the operator is looked at. Where the
kind says nothing about the operator, it is the operator that has to be listed, and one
that agrees with a listed operator in name, kind and family is still another operator.

For a call that the pass comes to, this is a matter of one judgement. The call may also
stand where the pass stays out, or after the construct that is refused. Hence the two
statements are compared node by node: what a pass comes to in the one is judged like what
it comes to in the other.

## Main definition

* `Call.withOperator`: the call with another operator.

## Main results

* `Dialect.reached_replaceAt_alike`: what is reached in a statement of which one node is
  replaced by one that is judged alike.
* `Dialect.validate_replaceAt_of_supported`: a refused node in a supported statement.
* `operator_matters_for_generic_kinds`: when the operator of a call matters.
-/

namespace SqlDialect

/-! ## One node in the place of another -/

/-- A flag that a node holds is kept if that of the replaced node is. -/
theorem Node.symbol?_replaceAt {root n new : Node} {a : Address} (hn : root.Holds a n)
    (hsymbol : new.symbol? = n.symbol?) : (root.replaceAt a new).symbol? = root.symbol? := by
  cases hn with
  | self => exact hsymbol
  | slot => exact root.symbol?_modify _ _

/-- A node is followed by what is reached on the left of a slot, in it, and on the right. -/
private theorem Node.reached_of_slots_split {n m : Node} {s : Slot} {left right : Slotted}
    (hskip : n.isSkipped = false) (hslots : n.slots = left ++ (s, m) :: right) :
    n.reached =
      n :: (left.nodes.flatMap reached ++ (m.reached ++ right.nodes.flatMap reached)) := by
  rw [reached_eq, hskip, operands, hslots]
  simp

namespace Dialect

variable {d : Dialect} {root n new : Node} {a : Address}

theorem forall₂_alike_refl (d : Dialect) (ns : List Node) : List.Forall₂ d.Alike ns ns :=
  List.forall₂_same.mpr fun n _ => .refl d n

/--
If one node is replaced by a node that is judged alike and has the same operands, then all
that is reached is judged as before. The node need not be reached itself.
-/
theorem reached_replaceAt_alike (hn : root.Holds a n) (halike : d.Alike n new)
    (hskip : new.isSkipped = n.isSkipped) (hslots : new.slots = n.slots)
    (hsymbol : new.symbol? = n.symbol?) :
    List.Forall₂ d.Alike root.reached (root.replaceAt a new).reached := by
  induction hn with
  | self n =>
      have hoperands : new.operands = n.operands := congrArg Slotted.nodes hslots
      rw [Node.replaceAt_nil, Node.reached_eq, Node.reached_eq new, hskip, hoperands]
      exact .cons halike (d.forall₂_alike_refl _)
  | @slot parent k n s a hk hn ih =>
      have hparent : d.Alike parent (parent.replaceAt (s :: a) new) := by
        refine alike_of_edited (.slot parent s _ fun _ k' hk' => ?_)
        obtain rfl := Node.eq_of_mem_slots hk hk'
        exact Node.symbol?_replaceAt hn hsymbol
      have hskip' : (parent.replaceAt (s :: a) new).isSkipped = parent.isSkipped :=
        parent.isSkipped_modify s _
      cases hopen : parent.isSkipped with
      | true =>
          -- Nothing below the parent is reached, so neither is the change.
          rw [Node.reached_eq, Node.reached_eq (parent.replaceAt _ _), hskip', hopen]
          exact .cons hparent .nil
      | false =>
          obtain ⟨left, right, hsplit, hmodify⟩ := Node.exists_slots_modify hk
          have hsplit' : (parent.replaceAt (s :: a) new).slots =
              left ++ (s, k.replaceAt a new) :: right := hmodify _
          rw [Node.reached_of_slots_split hopen hsplit,
            Node.reached_of_slots_split (hskip'.trans hopen) hsplit']
          have hslot := ih halike hskip hslots hsymbol
          exact .cons hparent (List.rel_append (d.forall₂_alike_refl _)
            (List.rel_append hslot (d.forall₂_alike_refl _)))

/-- In a supported statement, what is refused on its own is refused in the place of any node. -/
theorem validate_replaceAt_of_supported {cause : Cause} (hsupported : d.validate root = .ok ())
    (hn : (a, n) ∈ root.reachedAt) (hsymbol : new.symbol? = n.symbol?)
    (hnew : d.Refuses [] new cause) :
    d.validate (root.replaceAt a new) = .error ⟨new.position, cause.description⟩ := by
  obtain ⟨before, after, hsplit, hreplace⟩ := Node.reachedAt_replaceAt hn
  obtain ⟨before', hedited, hsplit'⟩ := hreplace new fun _ => hsymbol
  obtain ⟨below, hbelow⟩ := new.exists_under_reachedAt a
  have hbefore : d.Allows before.nodes := by
    rw [validate_eq_judgeAll, judgeAll_eq_ok_iff, Node.reached, hsplit, List.append_assoc,
      Located.nodes_append] at hsupported
    exact hsupported.left
  have hbefore' : d.Allows before'.nodes := by
    rw [← judgeAll_eq_ok_iff, judgeAll_of_editedAlong hedited]
    exact judgeAll_eq_ok_iff.mpr hbefore
  have hreached : (root.replaceAt a new).reached =
      Located.nodes before' ++ new :: (Located.nodes below ++ Located.nodes after) := by
    rw [Node.reached, hsplit', hbelow]
    simp [Located.nodes]
  exact validate_of_refuses hreached hbefore' (hnew.context_free _)

end Dialect

/-! ## Another operator -/

namespace Call

variable {c : Call Node} {op : Operator}

/-- The call with another operator. That of a query or of a join is fixed. -/
def withOperator (c : Call Node) (op : Operator) : Call Node :=
  match c with
  | .basic _ os p => .basic op os p
  | .ddl _ statement os p => .ddl op statement os p
  | c => c

@[simp] theorem position_withOperator (c : Call Node) (op : Operator) :
    (c.withOperator op).position = c.position := by
  cases c <;> rfl

@[simp] theorem slots_withOperator (c : Call Node) (op : Operator) :
    (c.withOperator op).slots = c.slots := by
  cases c <;> rfl

@[simp] theorem isQuery_withOperator (c : Call Node) (op : Operator) :
    (Node.call (c.withOperator op)).isQuery = (Node.call c).isQuery := by
  cases c <;> rfl

/-- A query and a join are of kinds that say what they are. -/
theorem operator_withOperator (h : c.kind.IsGeneric) (op : Operator) :
    (c.withOperator op).operator = op := by
  cases c with
  | select q => exact absurd h (show ¬ Kind.select.IsGeneric by decide)
  | join j => exact absurd h (show ¬ Kind.join.IsGeneric by decide)
  | _ => rfl

/-- The operator is of the kind of the call, and a pass stays out of calls of neither. -/
structure Exchangeable (c : Call Node) (op : Operator) : Prop where
  kind : op.kind = c.kind
  opened : c.operator.isDynamicTableFunction = false
  opened_new : op.isDynamicTableFunction = false

namespace Exchangeable

theorem kind_withOperator (h : c.Exchangeable op) : (c.withOperator op).kind = c.kind := by
  cases c with
  | basic _ os p => exact h.kind
  | ddl _ statement os p => exact h.kind
  | _ => rfl

theorem opened_withOperator (h : c.Exchangeable op) :
    (c.withOperator op).operator.isDynamicTableFunction = false := by
  cases c with
  | basic _ os p => exact h.opened_new
  | ddl _ statement os p => exact h.opened_new
  | _ => exact h.opened

end Exchangeable

end Call

/-- The kinds that say nothing about the operator are not listed. -/
theorem Kind.IsGeneric.notMem_kinds {kind : Kind} (h : kind.IsGeneric) :
    kind ∉ Dialect.executable.kinds := by
  have hall : ∀ k ∈ [Kind.other, .otherFunction, .extract, .position],
      k ∉ Dialect.executable.kinds := by decide
  exact hall kind h

/-- Only operators of the two tables are listed. -/
theorem Operator.declared_notMem_operators (tag : String) (signature : Signature) :
    .declared tag signature ∉ Dialect.executable.operators := by
  simp [Dialect.executable]

namespace Dialect

variable {d : Dialect} {root : Node} {a : Address} {c : Call Node} {op : Operator}

/-- Of calls that are judged by their kind, the kind is all that is looked at. -/
private theorem nodeCause?_of_kind (hopened : c.operator.isDynamicTableFunction = false)
    (hselect : ∀ q, c ≠ .select q) (hjoin : ∀ j, c ≠ .join j) (hgeneric : ¬ c.kind.IsGeneric)
    (hddl : c.kind ≠ .otherDdl) (queryMet : Bool) :
    d.nodeCause? queryMet (.call c) =
      if c.kind ∈ d.kinds ∨ c.kind.IsExempt then none else some (.kind c.kind) := by
  by_cases hlisted : c.kind ∈ d.kinds
  · rw [nodeCause?_of_listed hlisted, if_pos (.inl hlisted)]
  · have hjudged : d.nodeCause? queryMet (.call c) = d.callCause? queryMet c :=
      if_neg (Bool.eq_false_iff.mp hopened)
    rw [hjudged, callCause?_of_plain ⟨hopened, hlisted⟩ hselect hjoin, if_neg hgeneric,
      if_neg hddl]
    simp only [hlisted, false_or]

/-- Where the kind decides on a call, another operator of the kind is judged alike. -/
theorem alike_withOperator (hop : c.Exchangeable op) (hgeneric : ¬ c.kind.IsGeneric)
    (hddl : c.kind ≠ .otherDdl) : d.Alike (.call c) (.call (c.withOperator op)) where
  nodeCause? queryMet := by
    have hkind := hop.kind_withOperator
    have hopened := hop.opened_withOperator
    cases c with
    | select q => rfl
    | join j => rfl
    | _ =>
        rw [nodeCause?_of_kind hop.opened (by simp) (by simp) hgeneric hddl]
        rw [← hkind] at hgeneric hddl ⊢
        exact nodeCause?_of_kind hopened (by simp [Call.withOperator])
          (by simp [Call.withOperator]) hgeneric hddl queryMet
  isQuery := c.isQuery_withOperator op
  position := c.position_withOperator op

/-- Where the kind decides on a call, another operator of the kind is not noticed. -/
theorem validate_withOperator (hc : root.Holds a (.call c)) (hop : c.Exchangeable op)
    (hgeneric : ¬ c.kind.IsGeneric) (hddl : c.kind ≠ .otherDdl) :
    d.validate (root.replaceAt a (.call (c.withOperator op))) = d.validate root := by
  have hskip : (Node.call (c.withOperator op)).isSkipped = (Node.call c).isSkipped :=
    hop.opened_withOperator.trans hop.opened.symm
  have hreached := reached_replaceAt_alike (d := d) hc (alike_withOperator hop hgeneric hddl)
    hskip (c.slots_withOperator op) rfl
  rw [validate_eq_judgeAll, validate_eq_judgeAll, judgeAll_of_alike hreached]

end Dialect

open Dialect

/-- Where the kind says nothing about the operator, an operator that is not listed is refused. -/
theorem validate_withOperator_of_unlisted {root : Node} {a : Address} {c : Call Node}
    {op : Operator} (hsupported : validate root = .ok ()) (hc : (a, .call c) ∈ root.reachedAt)
    (hop : c.Exchangeable op) (hgeneric : c.kind.IsGeneric)
    (hunlisted : op ∉ executable.operators) :
    validate (root.replaceAt a (.call (c.withOperator op))) =
      .error ⟨c.position, op.name ++ " is not supported"⟩ := by
  have hoperator := Call.operator_withOperator hgeneric op
  have hgeneric' : (c.withOperator op).kind.IsGeneric := hop.kind_withOperator ▸ hgeneric
  have hrefuses : executable.Refuses [] (.call (c.withOperator op))
      (.operator (c.withOperator op).operator.name) :=
    .operator _ ⟨hop.opened_withOperator, hgeneric'.notMem_kinds⟩ hgeneric'
      (hoperator.symm ▸ hunlisted)
  have hsymbol : (Node.call (c.withOperator op)).symbol? = (Node.call c).symbol? := rfl
  have hvalidate := validate_replaceAt_of_supported hsupported hc hsymbol hrefuses
  rw [hoperator, Node.position, c.position_withOperator] at hvalidate
  exact hvalidate

/--
Let a call somewhere in a statement be given another operator of its kind, where neither
operator is a table function over a file. If the kind decides on the call, the verdict is
what it was. If the kind says nothing about the operator, the statement was supported and
the call is reached, then an operator that is not listed is refused by its name at the call.
That goes for every operator that a user declares with the name, the kind and the family of
the old one.
-/
theorem operator_matters_for_generic_kinds :
    (∀ root a c op, root.Holds a (.call c) → c.Exchangeable op → ¬ c.kind.IsGeneric →
      c.kind ≠ .otherDdl →
      validate (root.replaceAt a (.call (c.withOperator op))) = validate root) ∧
    (∀ root a c op, validate root = .ok () → (a, .call c) ∈ root.reachedAt → c.Exchangeable op →
      c.kind.IsGeneric → op ∉ executable.operators →
      validate (root.replaceAt a (.call (c.withOperator op))) =
        .error ⟨c.position, op.name ++ " is not supported"⟩) ∧
    ∀ root a c tag, validate root = .ok () → (a, .call c) ∈ root.reachedAt →
      c.operator.isDynamicTableFunction = false → c.kind.IsGeneric →
      validate (root.replaceAt a
          (.call (c.withOperator (.declared tag c.operator.signature)))) =
        .error ⟨c.position, c.operator.name ++ " is not supported"⟩ := by
  refine ⟨?_, ?_, ?_⟩
  · intro root a c op hc hop hgeneric hddl
    exact validate_withOperator hc hop hgeneric hddl
  · intro root a c op hsupported hc hop hgeneric hunlisted
    exact validate_withOperator_of_unlisted hsupported hc hop hgeneric hunlisted
  · intro root a c tag hsupported hc hopened hgeneric
    have hop : c.Exchangeable (.declared tag c.operator.signature) := ⟨rfl, hopened, hopened⟩
    exact validate_withOperator_of_unlisted hsupported hc hop hgeneric
      (Operator.declared_notMem_operators tag _)

/-- `a + b`. -/
private def sumOfColumns : Call Node :=
  .basic (.standard .plus) [some (.name "a"), some (.name "b")] .zero

/-- `POWER(a + b)`, with the function of the engine. -/
private def powerOfSum : Call Node :=
  .basic (.engine .power) [some (.call sumOfColumns)] ⟨⟨1, 8⟩, ⟨1, 19⟩⟩

/-- `SELECT POWER(a + b)`. -/
private def selectPower : Node :=
  .call (.select (.ofSelectList ⟨[.call powerOfSum], .zero⟩ .zero))

/-- The sum may be of any operator of the kind, but the function has to be the engine's. -/
theorem operator_matters_for_power :
    validate (selectPower.replaceAt [.selectItem 0, .operand 0]
        (.call (sumOfColumns.withOperator (.declared "sum" (.builtin "ADD" .plus))))) =
      validate selectPower ∧
    validate (selectPower.replaceAt [.selectItem 0]
        (.call (powerOfSum.withOperator (.standard .power)))) =
      .error ⟨⟨⟨1, 8⟩, ⟨1, 19⟩⟩, "POWER is not supported"⟩ ∧
    validate (selectPower.replaceAt [.selectItem 0]
        (.call (powerOfSum.withOperator (.declared "power" (.builtin "POWER" .otherFunction))))) =
      .error ⟨⟨⟨1, 8⟩, ⟨1, 19⟩⟩, "POWER is not supported"⟩ := by
  have hsupported : validate selectPower = .ok () := rfl
  have hitem : (.selectItem 0, .call powerOfSum) ∈ selectPower.slots := List.mem_singleton_self _
  have hpower : ([.selectItem 0], .call powerOfSum) ∈ selectPower.reachedAt :=
    Node.cons_mem_reachedAt_iff.mpr ⟨rfl, _, hitem, Node.self_mem_reachedAt _⟩
  have hsum : selectPower.Holds [.selectItem 0, .operand 0] (.call sumOfColumns) :=
    .slot hitem (.slot (List.mem_singleton_self _) (.self _))
  obtain ⟨hkind, hunlisted, hdeclared⟩ := operator_matters_for_generic_kinds
  refine ⟨?_, ?_, ?_⟩
  · exact hkind selectPower _ sumOfColumns _ hsum ⟨rfl, rfl, rfl⟩ (by decide) (by decide)
  · exact hunlisted selectPower _ powerOfSum _ hsupported hpower ⟨rfl, rfl, rfl⟩ (by decide)
      (by decide)
  · exact hdeclared selectPower _ powerOfSum "power" hsupported hpower rfl (by decide)

end SqlDialect
