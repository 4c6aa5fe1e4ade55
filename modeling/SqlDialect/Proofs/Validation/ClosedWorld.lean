import SqlDialect.Proofs.Validation.FirstRefusal

/-!
# A closed world

A parser may hand over operators of any name and kind, so a dialect cannot say what it
leaves out. It says what it contains, and a call is supported only if an entry of the
dialect stands for it: its kind, its operator, the variant of a join or the name of a
statement. Queries, updates and deletions need no entry.

Table functions over files are outside this rule. A pass stays out of a call of that
family before it looks anything up, so the call is supported whether or not its operator
is listed.

## Main results

* `Dialect.supported_calls_are_justified`: in a supported statement there is an entry for
  every call that is reached and not of that family, and a call without one is refused.
* `unlisted_table_function_is_supported`: the family is exempt even if it is not listed.
-/

namespace SqlDialect

/-- The kinds whose calls are judged by more than the kind, in a way of their own. -/
def Kind.HasOwnRule (kind : Kind) : Prop := kind ∈ [.update, .delete, .select, .join, .otherDdl]

instance : DecidablePred Kind.HasOwnRule := fun _ => inferInstanceAs (Decidable (_ ∈ _))

theorem Kind.IsGeneric.not_hasOwnRule {kind : Kind} (h : kind.IsGeneric) : ¬ kind.HasOwnRule := by
  simp only [Kind.IsGeneric, List.mem_cons, List.not_mem_nil, or_false] at h
  rcases h with rfl | rfl | rfl | rfl <;> decide

namespace Dialect

variable {d : Dialect} {before : List Node} {c : Call Node} {root : Node}

/-- What a dialect has to contain for a call, one rule for each kind of entry. -/
inductive Justifies (d : Dialect) : Call Node → Prop
  /-- The kind of the call is listed. -/
  | kind (c : Call Node) (hkind : c.kind ∈ d.kinds) : Justifies d c
  /-- The call is an update or a deletion. -/
  | change (c : Call Node) (hkind : c.kind = .update ∨ c.kind = .delete) : Justifies d c
  /-- The call is a query block. -/
  | query (q : Query Node) : Justifies d (.select q)
  /-- The call is a join of a listed variant. -/
  | join (j : Join Node) (type : JoinType) (hflag : j.joinType.symbol? = some (.join type))
      (htype : type ∈ d.joinTypes) : Justifies d (.join j)
  /-- The call is a statement over objects of the engine, and its name is listed. -/
  | statement (op : Operator) (statement : String) (os : List (Option Node)) (p : Position)
      (hkind : op.kind = .otherDdl) (hstatement : statement ∈ d.statements) :
      Justifies d (.ddl op statement os p)
  /-- The operator of the call is listed. -/
  | operator (c : Call Node) (hop : c.operator ∈ d.operators) : Justifies d c

/-! ## Calls without an entry are refused -/

/-- A join that is not refused is of a listed variant. -/
private theorem justifies_join {j : Join Node} (hlook : d.LooksAt (.join j))
    (h : ∀ cause, ¬ d.Refuses [] (.call (.join j)) cause) : d.Justifies (.join j) := by
  by_cases hknown : ∃ type, j.joinType.symbol? = some (.join type)
  · obtain ⟨type, hflag⟩ := hknown
    by_cases htype : type ∈ d.joinTypes
    · exact .join j type hflag htype
    · exact absurd (.joinType j type hlook hflag htype) (h _)
  · rw [not_exists] at hknown
    exact absurd (.unknownJoin j hlook hknown) (h _)

/-- Apart from queries and joins, only changes and statements do without an entry for the kind. -/
private theorem exempt_of_not_refuses (hlook : d.LooksAt c) (hselect : ∀ q, c ≠ .select q)
    (hjoin : ∀ j, c ≠ .join j) (hop : c.operator ∉ d.operators)
    (h : ∀ cause, ¬ d.Refuses [] (.call c) cause) :
    (c.kind = .update ∨ c.kind = .delete) ∨ c.kind = .otherDdl := by
  have hexempt : c.kind.IsExempt := by
    by_contra hkind
    exact h _ (.kind c hlook hkind hselect hjoin)
  rcases hexempt with hgeneric | hmem
  · exact absurd (.operator c hlook hgeneric hop) (h _)
  · simpa [or_assoc] using hmem

/-- A call that is looked at and not refused has an entry. -/
theorem justifies_of_not_refuses (hreached : c.operator.isDynamicTableFunction = false)
    (h : ∀ cause, ¬ d.Refuses [] (.call c) cause) : d.Justifies c := by
  by_cases hkind : c.kind ∈ d.kinds
  · exact .kind c hkind
  by_cases hop : c.operator ∈ d.operators
  · exact .operator c hop
  have hlook : d.LooksAt c := ⟨hreached, hkind⟩
  cases c with
  | select q => exact .query q
  | join j => exact justifies_join hlook h
  | basic op os p =>
      rcases exempt_of_not_refuses hlook (by simp) (by simp) hop h with hchange | hddl
      · exact .change _ hchange
      · -- a call of this shape has no name that could be listed
        exact absurd (.unnamedStatement op os p hlook hddl) (h _)
  | ddl op statement os p =>
      rcases exempt_of_not_refuses hlook (by simp) (by simp) hop h with hchange | hddl
      · exact .change _ hchange
      · by_cases hstatement : statement ∈ d.statements
        · exact .statement op statement os p hddl hstatement
        · exact absurd (.statement op statement os p hlook hddl hstatement) (h _)

theorem exists_refuses_of_not_justifies (hreached : c.operator.isDynamicTableFunction = false)
    (h : ¬ d.Justifies c) : ∃ cause, d.Refuses [] (.call c) cause := by
  by_contra hnone
  rw [not_exists] at hnone
  exact h (justifies_of_not_refuses hreached hnone)

/-- What is refused on its own is refused as part of a statement. -/
theorem validate_ne_ok_of_refuses {n : Node} {cause : Cause} (hn : d.Refuses [] n cause)
    (hmem : n ∈ root.reached) : d.validate root ≠ .ok () := by
  rw [validate_eq_judgeAll, Ne, judgeAll_eq_ok_iff]
  intro hallows
  obtain ⟨before, after, hsplit⟩ := List.append_of_mem hmem
  exact hallows before n after cause hsplit (hn.context_free before)

/-! ## Calls of kinds that the dialect does not know -/

/-- Without a rule of its own a kind is supported by being listed, or through the operator. -/
theorem not_justifies (hrule : ¬ c.kind.HasOwnRule) (hunlisted : c.kind ∉ d.kinds)
    (hop : c.operator ∉ d.operators) : ¬ d.Justifies c := by
  intro h
  cases h with
  | kind _ hlisted => exact hunlisted hlisted
  | change _ hchange =>
      apply hrule
      rcases hchange with hkind | hkind
      · rw [hkind]
        decide
      · rw [hkind]
        decide
  | query q => exact hrule (show Kind.select.HasOwnRule by decide)
  | join j => exact hrule (show Kind.join.HasOwnRule by decide)
  | statement op statement os p hddl =>
      have hkind : (Call.ddl op statement os p).kind = .otherDdl := hddl
      rw [hkind] at hrule
      exact hrule (by decide)
  | operator _ hlisted => exact hop hlisted

/-- Of the calls of a generic kind, those of a listed operator are not refused. -/
theorem not_refuses_of_listed {cause : Cause} (hkind : c.kind.IsGeneric)
    (hop : c.operator ∈ d.operators) : ¬ d.Refuses before (.call c) cause := by
  intro h
  cases h with
  | kind _ _ hexempt => exact hexempt (.inl hkind)
  | operator _ _ _ hunlisted => exact hunlisted hop
  | rowLimit q => exact absurd hkind (show ¬ Kind.select.IsGeneric by decide)
  | joinType j => exact absurd hkind (show ¬ Kind.join.IsGeneric by decide)
  | unknownJoin j => exact absurd hkind (show ¬ Kind.join.IsGeneric by decide)
  | statement op statement os p _ hddl =>
      rw [Call.kind, Call.operator, hddl] at hkind
      exact absurd hkind (by decide)
  | unnamedStatement op os p _ hddl =>
      rw [Call.kind, Call.operator, hddl] at hkind
      exact absurd hkind (by decide)

/--
In a supported statement the dialect has an entry for every call that is reached, unless
the call is of a table function over a file. Such a call apart, a call without an entry
is refused where it stands. That goes for every operator that is not listed and whose
kind is foreign to the dialect or says nothing about it, until it is listed.
-/
theorem supported_calls_are_justified (d : Dialect) :
    (∀ root, d.validate root = .ok () → ∀ c, .call c ∈ root.reached →
      c.operator.isDynamicTableFunction = false → d.Justifies c) ∧
    (∀ c, c.operator.isDynamicTableFunction = false → ¬ d.Justifies c →
      ∃ cause, d.Refuses [] (.call c) cause ∧
        d.validate (.call c) = .error ⟨c.position, cause.description⟩) ∧
    (∀ c, c.operator.isDynamicTableFunction = false →
      c.kind.IsGeneric ∨ ¬ c.kind.HasOwnRule → c.kind ∉ d.kinds →
      c.operator ∉ d.operators → ∀ root, .call c ∈ root.reached → d.validate root ≠ .ok ()) ∧
    ∀ c, c.kind.IsGeneric → c.operator ∈ d.operators →
      ∀ before cause, ¬ d.Refuses before (.call c) cause := by
  refine ⟨?_, ?_, ?_, ?_⟩
  · intro root haccept c hmem hreached
    by_contra hnot
    obtain ⟨cause, hrefuses⟩ := exists_refuses_of_not_justifies hreached hnot
    exact validate_ne_ok_of_refuses hrefuses hmem haccept
  · intro c hreached hnot
    obtain ⟨cause, hrefuses⟩ := exists_refuses_of_not_justifies hreached hnot
    exact ⟨cause, hrefuses, validate_self_of_refuses hrefuses⟩
  · intro c hreached hkind hunlisted hop root hmem
    have hrule : ¬ c.kind.HasOwnRule := by
      rcases hkind with hgeneric | hforeign
      · exact hgeneric.not_hasOwnRule
      · exact hforeign
    obtain ⟨cause, hrefuses⟩ :=
      exists_refuses_of_not_justifies hreached (not_justifies hrule hunlisted hop)
    exact validate_ne_ok_of_refuses hrefuses hmem
  · intro c hkind hop before cause
    exact not_refuses_of_listed hkind hop

end Dialect

open Dialect

/-- A call of a function `POWER`, which the parser and the engine both have. -/
private def power (op : Operator) : Call Node := .basic op [] .zero

/-- The engine's function is in the dialect; the parser's of the same signature is not. -/
theorem only_power_of_engine_is_justified :
    executable.Justifies (power (.engine .power)) ∧
      ∀ root, .call (power (.standard .power)) ∈ root.reached →
        executable.validate root ≠ .ok () :=
  ⟨(supported_calls_are_justified executable).1 (.call (power (.engine .power))) rfl _
      (Node.self_mem_reached _) rfl,
    (supported_calls_are_justified executable).2.2.1 (power (.standard .power)) rfl
      (.inl (by decide)) (by decide) (by decide)⟩

/-- A call of a table function over a file that is in neither table of operators. -/
private def reader : Call Node :=
  .basic (.declared "reader" (.tableFunction "READER")) [] ⟨⟨1, 1⟩, ⟨1, 8⟩⟩

/-- A table function over a file is supported although no entry stands for it. -/
theorem unlisted_table_function_is_supported :
    (validate (.call reader) = .ok () ∧ ¬ executable.Justifies reader) ∧
      ¬ ∀ root, validate root = .ok () → ∀ c, .call c ∈ root.reached → executable.Justifies c := by
  have hsupported : validate (.call reader) = .ok () := rfl
  have hreader : ¬ executable.Justifies reader :=
    not_justifies (by decide) (by decide) (by decide)
  refine ⟨⟨hsupported, hreader⟩, fun h => ?_⟩
  exact hreader (h _ hsupported reader (Node.self_mem_reached _))

end SqlDialect
