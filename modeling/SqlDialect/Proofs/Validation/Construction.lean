import SqlDialect.Node.Statement
import SqlDialect.Proofs.Validation.Transparent

/-!
# Statements that are put together

Nodes can be put together without a parser. What is made of parts has the verdict of these
parts in a list: no cause for a refusal comes in by putting them together, and none is lost.
The names that are given along with the parts are not refused, so they do not count.

The order of the parts is the one in which they are judged. That is not always the order of
the written statement: the source of an `INSERT` comes before the columns.

## Main results

* `Dialect.validate_apply`: a call of a listed kind has the verdict of its operands.
* `made_nodes_have_verdict_of_parts`: this, for everything that can be made of parts.
-/

namespace SqlDialect

namespace Dialect

variable {d : Dialect} {op : Operator} {operands ns : List Node}

/-- A call of a kind that needs no closer look has the verdict of its operands. -/
theorem validate_apply (hkind : op.kind ∈ d.kinds) (hop : op.isDynamicTableFunction = false)
    (hopens : d.Opens operands ns) (p : Position) :
    d.validate (.apply op operands p) = d.validate (.sequence ns) := by
  have hquery : (Node.apply op operands p).isQuery = false := rfl
  have hcall : d.Transparent (.apply op operands p) :=
    transparent_call hop hquery (if_pos hkind)
  refine hcall.validate_eq_sequence ?_
  rwa [Node.operands_apply]

/-- A call of such a kind that holds one node and otherwise nothing has its verdict. -/
theorem validate_apply_one (hkind : op.kind ∈ d.kinds) (hop : op.isDynamicTableFunction = false)
    {e : Node} (hopens : d.Opens operands [e]) (p : Position) :
    d.validate (.apply op operands p) = d.validate e := by
  rw [validate_apply hkind hop hopens, validate_sequence_singleton]

end Dialect

open Dialect

/-! ## Parts besides names -/

private theorem validate_createJob (job : String) (statement : Node) :
    validate (.createJob job statement) = validate statement := by
  have hcall : executable.Transparent (.createJob job statement) := transparent_call rfl rfl rfl
  have hopens : executable.Opens (Node.createJob job statement).operands [statement] :=
    .identifier _ (.keep statement .nil)
  exact (hcall.validate_eq_sequence hopens).trans (validate_sequence_singleton _ statement)

private theorem validate_createMapping (mapping : String) (columns options : List Node) :
    validate (.createMapping mapping columns options) =
      validate (.sequence (columns ++ options)) := by
  have hopens : executable.Opens [.name mapping, .sequence columns, .sequence options]
      (columns ++ options) := .identifier _ (.sequence columns (.sequence_singleton options))
  have hkind : (Operator.engine .createMapping).kind ∈ executable.kinds := by decide
  exact validate_apply hkind rfl hopens .zero

private theorem validate_insert (target : String) (columns : List Node) (source : Node) :
    validate (.insert target columns source) = validate (.sequence ([source] ++ columns)) := by
  have hopens : executable.Opens
      [.sequence [], .name target, source, .sequence columns] ([source] ++ columns) :=
    .sequence [] (.identifier _ (.keep source (.sequence_singleton columns)))
  have hkind : (Operator.standard .insert).kind ∈ executable.kinds := by decide
  exact validate_apply hkind rfl hopens .zero

/-- Both operands are strings, which are not refused, and the operator is listed. -/
private theorem validate_option (key value : String) : validate (.option key value) = .ok () := by
  have hcall : executable.Transparent (.option key value) := transparent_call rfl rfl rfl
  have hopens : executable.Opens (Node.option key value).operands [] :=
    .literal rfl (.literal rfl .nil)
  exact hcall.validate_eq_sequence hopens

/--
What is made of parts has the verdict of the parts. A node that is wrapped or given a name
has the verdict that it had, and what is made of several nodes has that of a list of them.
The list has the nodes in the order in which they are judged: a mapping has its columns
before its options, but an `INSERT` has its source before its columns. An option is always
supported.
-/
theorem made_nodes_have_verdict_of_parts :
    (∀ e label, validate (.aliased e label) = validate e) ∧
    (∀ e, validate (.descending e) = validate e) ∧
    (∀ e, validate (.tableFunction e) = validate e) ∧
    (∀ name e, validate (.namedArgument name e) = validate e) ∧
    (∀ name e, validate (.createJob name e) = validate e) ∧
    (∀ name e, validate (.column name e) = validate e) ∧
    (∀ e type, validate (.cast e type) = validate (.sequence [e, type])) ∧
    (∀ side characters e,
      validate (.trim side characters e) = validate (.sequence [characters, e])) ∧
    (∀ items, validate (.row items) = validate (.sequence items)) ∧
    (∀ rows, validate (.values rows) = validate (.sequence rows)) ∧
    (∀ name columns options,
      validate (.createMapping name columns options) = validate (.sequence (columns ++ options))) ∧
    (∀ target columns source,
      validate (.insert target columns source) = validate (.sequence ([source] ++ columns))) ∧
    ∀ key value, validate (.option key value) = .ok () := by
  refine ⟨?_, ?_, ?_, ?_, ?_, ?_, ?_, ?_, ?_, ?_, ?_, ?_, ?_⟩
  · intro e label
    exact validate_apply_one (by decide) rfl (.keep e (.identifier _ .nil)) .zero
  · intro e
    exact validate_apply_one (by decide) rfl (.keep e .nil) .zero
  · intro e
    exact validate_apply_one (by decide) rfl (.keep e .nil) .zero
  · intro name e
    exact validate_apply_one (by decide) rfl (.keep e (.identifier _ .nil)) .zero
  · intro name e
    exact validate_createJob name e
  · intro name e
    exact validate_apply_one (by decide) rfl (.identifier _ (.keep e .nil)) .zero
  · intro e type
    exact validate_apply (by decide) rfl (.refl _) .zero
  · intro side characters e
    exact validate_apply (by decide) rfl (.literal rfl (.refl _)) .zero
  · intro items
    exact validate_apply (by decide) rfl (.refl items) .zero
  · intro rows
    exact validate_apply (by decide) rfl (.refl rows) .zero
  · intro name columns options
    exact validate_createMapping name columns options
  · intro target columns source
    exact validate_insert target columns source
  · intro key value
    exact validate_option key value

end SqlDialect
