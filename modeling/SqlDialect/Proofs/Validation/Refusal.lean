import SqlDialect.Proofs.Validation.Pass

/-!
# The rules of refusal

What a dialect refuses, one rule for each reason, without a state and without an
order of tests. A node is judged by itself and by the nodes that come before it in
the statement, of which a rule asks only whether a query is among them.

## Main results

* `Dialect.refuses_iff`: the judgement that the pass makes at a node is the one that
  the rules make.
* `Dialect.Refuses.context_free`: what is refused with nothing before it is refused
  wherever it stands.
-/

namespace SqlDialect

/-- The kinds of calls that are judged by their operator, as the kind says nothing about it. -/
def Kind.IsGeneric (kind : Kind) : Prop := kind ∈ [.other, .otherFunction, .extract, .position]

instance : DecidablePred Kind.IsGeneric := fun _ => inferInstanceAs (Decidable (_ ∈ _))

/-- The kinds of calls that are never refused for their kind. -/
def Kind.IsExempt (kind : Kind) : Prop :=
  kind.IsGeneric ∨ kind ∈ [.update, .delete, .otherDdl]

instance : DecidablePred Kind.IsExempt := fun _ => inferInstanceAs (Decidable (_ ∨ _))

/-- The variant of a join is the one that its operand for it holds. -/
theorem Join.joinType?_eq_some_iff {j : Join Node} {type : JoinType} :
    j.joinType? = some type ↔ j.joinType.symbol? = some (.join type) := by
  rw [joinType?]
  split
  · rename_i other hflag
    rw [hflag, Option.some.injEq, Option.some.injEq, Symbol.join.injEq]
  · rename_i hflag
    constructor
    · intro h
      cases h
    · exact fun h => absurd h (hflag type)

namespace Dialect

variable {d : Dialect} {before : List Node} {n : Node} {cause : Cause}

/-- A call that needs a closer look: it is not skipped, and its kind is not listed. -/
structure LooksAt (d : Dialect) (c : Call Node) : Prop where
  reached : c.operator.isDynamicTableFunction = false
  unlisted : c.kind ∉ d.kinds

/-- What the dialect refuses after the given nodes, and why. -/
inductive Refuses (d : Dialect) (before : List Node) : Node → Cause → Prop
  /-- A call of a kind that is neither listed nor exempt. -/
  | kind (c : Call Node) (hlook : d.LooksAt c) (hkind : ¬ c.kind.IsExempt)
      (hselect : ∀ q, c ≠ .select q) (hjoin : ∀ j, c ≠ .join j) :
      Refuses d before (.call c) (.kind c.kind)
  /-- A call of a generic kind whose operator is not listed. -/
  | operator (c : Call Node) (hlook : d.LooksAt c) (hkind : c.kind.IsGeneric)
      (hop : c.operator ∉ d.operators) :
      Refuses d before (.call c) (.operator c.operator.name)
  /-- A query that limits or skips rows and is not the first one. -/
  | rowLimit (q first : Query Node) (hlook : d.LooksAt (.select q))
      (hfirst : .call (.select first) ∈ before) (hlimit : q.fetch.isSome ∨ q.offset.isSome) :
      Refuses d before (.call (.select q)) .nestedRowLimit
  /-- A join of a variant that is not listed. -/
  | joinType (j : Join Node) (type : JoinType) (hlook : d.LooksAt (.join j))
      (hflag : j.joinType.symbol? = some (.join type)) (htype : type ∉ d.joinTypes) :
      Refuses d before (.call (.join j)) (.joinType type)
  /-- A join whose operand for the variant does not hold one. -/
  | unknownJoin (j : Join Node) (hlook : d.LooksAt (.join j))
      (hflag : ∀ type, j.joinType.symbol? ≠ some (.join type)) :
      Refuses d before (.call (.join j)) .unknownJoin
  /-- A statement over objects of the engine that is not listed. -/
  | statement (op : Operator) (statement : String) (os : List (Option Node)) (p : Position)
      (hlook : d.LooksAt (.ddl op statement os p)) (hkind : op.kind = .otherDdl)
      (hstatement : statement ∉ d.statements) :
      Refuses d before (.call (.ddl op statement os p)) (.statement statement)
  /-- A call that has the kind of such a statement and names none. -/
  | unnamedStatement (op : Operator) (os : List (Option Node)) (p : Position)
      (hlook : d.LooksAt (.basic op os p)) (hkind : op.kind = .otherDdl) :
      Refuses d before (.call (.basic op os p)) (.statement op.name)
  /-- A flag that may not stand as a literal. -/
  | symbol (l : Literal) (symbol : Symbol) (hvalue : l.symbol? = some symbol)
      (hsymbol : d.supportsSymbol symbol = false) :
      Refuses d before (.literal l) (.symbol symbol)
  /-- A literal that is no flag, of a type that is not listed. -/
  | literalType (l : Literal) (hvalue : l.symbol? = none) (hinterval : l.type.isInterval = false)
      (htype : l.type ∉ d.literalTypes) :
      Refuses d before (.literal l) (.literalType l.type)
  /-- A type that is known and cannot be declared. -/
  | typeName (t : DataType) (name : Identifier) (precision scale : Option UInt32) (type : TypeName)
      (hspec : t.spec = .basic name precision scale)
      (hname : name.simple? >>= TypeName.ofName? = some type) (htype : type ∉ d.declarableTypes) :
      Refuses d before (.dataType t) (.typeName type.name)
  /-- A type that is not known. -/
  | unknownType (t : DataType) (name : Identifier) (precision scale : Option UInt32)
      (hspec : t.spec = .basic name precision scale)
      (hname : name.simple? >>= TypeName.ofName? = none) :
      Refuses d before (.dataType t) (.typeName name.text)
  /-- A type of the user's own that is not the type of all objects. -/
  | userType (t : DataType) (name : Identifier) (hspec : t.spec = .userDefined name)
      (hname : ∀ part, name.simple? = some part → ¬ sameIgnoringCase part d.objectTypeName) :
      Refuses d before (.dataType t) .complexType
  /-- A type that is made of other types. -/
  | collection (t : DataType) (element : TypeSpec) (container : Identifier)
      (hspec : t.spec = .collection element container) :
      Refuses d before (.dataType t) .complexType
  | row (t : DataType) (name : Identifier) (fields : List (Identifier × TypeSpec))
      (hspec : t.spec = .row name fields) :
      Refuses d before (.dataType t) .complexType

/-! ## The rules and the judgement -/

private theorem literalCause?_eq_some_iff {l : Literal} :
    d.literalCause? l = some cause ↔ d.Refuses before (.literal l) cause := by
  constructor
  · intro h
    rw [literalCause?] at h
    split at h
    · rename_i symbol hvalue
      split at h
      · cases h
      · rename_i hsymbol
        obtain rfl := Option.some.inj h
        exact .symbol l symbol hvalue (by simpa using hsymbol)
    · rename_i hvalue
      split at h
      · cases h
      · rename_i htype
        rw [Bool.or_eq_true, decide_eq_true_eq, not_or] at htype
        obtain rfl := Option.some.inj h
        exact .literalType l hvalue (by simpa using htype.1) htype.2
  · intro h
    cases h with
    | symbol _ symbol hvalue hsymbol => simp [literalCause?, hvalue, hsymbol]
    | literalType _ hvalue hinterval htype => simp [literalCause?, hvalue, hinterval, htype]

private theorem typeCause?_eq_some_iff {t : DataType} :
    d.typeCause? t.spec = some cause ↔ d.Refuses before (.dataType t) cause := by
  constructor
  · intro h
    cases hspec : t.spec with
    | basic name precision scale =>
        rw [hspec, typeCause?] at h
        split at h
        · rename_i type hname
          split at h
          · cases h
          · rename_i htype
            obtain rfl := Option.some.inj h
            exact .typeName t name precision scale type hspec hname htype
        · rename_i hname
          obtain rfl := Option.some.inj h
          exact .unknownType t name precision scale hspec hname
    | userDefined name =>
        rw [hspec, typeCause?] at h
        split at h
        · cases h
        · rename_i hname
          obtain rfl := Option.some.inj h
          refine .userType t name hspec fun part hpart hsame => hname ?_
          rw [hpart]
          exact hsame
    | collection element container =>
        rw [hspec, typeCause?_collection] at h
        obtain rfl := Option.some.inj h
        exact .collection t element container hspec
    | row name fields =>
        rw [hspec, typeCause?_row] at h
        obtain rfl := Option.some.inj h
        exact .row t name fields hspec
  · intro h
    cases h with
    | typeName _ name precision scale type hspec hname htype =>
        simp [typeCause?, hspec, hname, htype]
    | unknownType _ name precision scale hspec hname => simp [typeCause?, hspec, hname]
    | userType _ name hspec hname =>
        have hany : ¬ name.simple?.any (sameIgnoringCase · d.objectTypeName) = true := by
          rw [Option.any_eq_true]
          rintro ⟨part, hpart, hsame⟩
          exact hname part hpart hsame
        rw [hspec, typeCause?, if_neg hany]
    | collection _ element container hspec => rw [hspec, typeCause?_collection]
    | row _ name fields hspec => rw [hspec, typeCause?_row]

private theorem not_isGeneric_select (q : Query Node) : ¬ (Call.select q).kind.IsGeneric := by
  show ¬ Kind.select.IsGeneric
  decide

private theorem not_isGeneric_join (j : Join Node) : ¬ (Call.join j).kind.IsGeneric := by
  show ¬ Kind.join.IsGeneric
  decide

private theorem callCause?_select_iff {q : Query Node} (hlook : d.LooksAt (.select q)) :
    d.callCause? (before.any Node.isQuery) (.select q) = some cause ↔
      d.Refuses before (.call (.select q)) cause := by
  have hcause : d.callCause? (before.any Node.isQuery) (.select q) =
      queryCause? (before.any Node.isQuery) q := if_neg hlook.unlisted
  rw [hcause, queryCause?]
  constructor
  · intro h
    split at h
    · rename_i hmet
      rw [Bool.and_eq_true, Node.any_isQuery_iff, Query.limitsRows, Bool.or_eq_true] at hmet
      obtain ⟨⟨first, hfirst⟩, hlimit⟩ := hmet
      obtain rfl := Option.some.inj h
      exact .rowLimit q first hlook hfirst hlimit
    · cases h
  · intro h
    cases h with
    | kind _ _ _ hselect => exact absurd rfl (hselect q)
    | operator _ _ hkind => exact absurd hkind (not_isGeneric_select q)
    | rowLimit _ first _ hfirst hlimit =>
        rw [if_pos]
        rw [Bool.and_eq_true, Node.any_isQuery_iff, Query.limitsRows, Bool.or_eq_true]
        exact ⟨⟨first, hfirst⟩, hlimit⟩

private theorem callCause?_join_iff {j : Join Node} {queryMet : Bool}
    (hlook : d.LooksAt (.join j)) :
    d.callCause? queryMet (.join j) = some cause ↔ d.Refuses before (.call (.join j)) cause := by
  have hcause : d.callCause? queryMet (.join j) = d.joinCause? j := if_neg hlook.unlisted
  rw [hcause, joinCause?]
  constructor
  · intro h
    split at h
    · rename_i type htype
      split at h
      · cases h
      · rename_i hunlisted
        obtain rfl := Option.some.inj h
        exact .joinType j type hlook (Join.joinType?_eq_some_iff.mp htype) hunlisted
    · rename_i htype
      obtain rfl := Option.some.inj h
      refine .unknownJoin j hlook fun type hflag => ?_
      rw [Join.joinType?_eq_some_iff.mpr hflag] at htype
      cases htype
  · intro h
    cases h with
    | kind _ _ _ _ hjoin => exact absurd rfl (hjoin j)
    | operator _ _ hkind => exact absurd hkind (not_isGeneric_join j)
    | joinType _ type _ hflag htype =>
        rw [Join.joinType?_eq_some_iff.mpr hflag]
        exact if_neg htype
    | unknownJoin _ _ hflag =>
        have hnone : j.joinType? = none := by
          cases htype : j.joinType? with
          | none => rfl
          | some type => exact absurd (Join.joinType?_eq_some_iff.mp htype) (hflag type)
        rw [hnone]

/-- Calls that are neither queries nor joins are judged by kind, by operator or by statement. -/
theorem callCause?_of_plain {c : Call Node} {queryMet : Bool} (hlook : d.LooksAt c)
    (hselect : ∀ q, c ≠ .select q) (hjoin : ∀ j, c ≠ .join j) :
    d.callCause? queryMet c =
      if c.kind.IsGeneric then d.operatorCause? c.operator
      else if c.kind = .otherDdl then d.statementCause? c
      else if c.kind.IsExempt then none
      else some (.kind c.kind) := by
  unfold callCause?
  rw [if_neg hlook.unlisted]
  split
  case h_1 hkind =>
    cases c with
    | select q => exact absurd rfl (hselect q)
    | _ => simp [hkind, Kind.IsExempt, Kind.IsGeneric]
  case h_4 hkind =>
    cases c with
    | join j => exact absurd rfl (hjoin j)
    | _ => simp [hkind, Kind.IsExempt, Kind.IsGeneric]
  case h_10 _ hupdate hdelete _ hother hfunction hextract hposition hddl =>
    have hgeneric : ¬ c.kind.IsGeneric := by
      simp [Kind.IsGeneric, imp_false.mp hother, imp_false.mp hfunction, imp_false.mp hextract,
        imp_false.mp hposition]
    have hexempt : ¬ c.kind.IsExempt := by
      simp [Kind.IsExempt, hgeneric, imp_false.mp hupdate, imp_false.mp hdelete,
        imp_false.mp hddl]
    rw [if_neg hgeneric, if_neg hddl, if_neg hexempt]
  all_goals
    rename_i hkind
    simp [hkind, Kind.IsExempt, Kind.IsGeneric]

private theorem not_isGeneric_of_otherDdl {c : Call Node} (hkind : c.kind = .otherDdl) :
    ¬ c.kind.IsGeneric := by
  rw [hkind]
  decide

private theorem callCause?_plain_iff {c : Call Node} {queryMet : Bool} (hlook : d.LooksAt c)
    (hselect : ∀ q, c ≠ .select q) (hjoin : ∀ j, c ≠ .join j) :
    d.callCause? queryMet c = some cause ↔ d.Refuses before (.call c) cause := by
  rw [callCause?_of_plain hlook hselect hjoin]
  constructor
  · intro h
    split at h
    · rename_i hgeneric
      rw [operatorCause?] at h
      split at h
      · cases h
      · rename_i hop
        obtain rfl := Option.some.inj h
        exact .operator c hlook hgeneric hop
    split at h
    · rename_i hddl
      cases c with
      | basic op os p =>
          obtain rfl := Option.some.inj h
          exact .unnamedStatement op os p hlook hddl
      | select q => exact absurd rfl (hselect q)
      | join j => exact absurd rfl (hjoin j)
      | ddl op statement os p =>
          rw [statementCause?] at h
          split at h
          · cases h
          · rename_i hstatement
            obtain rfl := Option.some.inj h
            exact .statement op statement os p hlook hddl hstatement
    split at h
    · cases h
    · rename_i hkind
      obtain rfl := Option.some.inj h
      exact .kind c hlook hkind hselect hjoin
  · intro h
    cases h with
    | kind _ _ hkind =>
        have hgeneric : ¬ c.kind.IsGeneric := fun h => hkind (.inl h)
        have hddl : c.kind ≠ .otherDdl := fun h => hkind (.inr (by simp [h]))
        rw [if_neg hgeneric, if_neg hddl, if_neg hkind]
    | operator _ _ hgeneric hop =>
        rw [if_pos hgeneric]
        exact if_neg hop
    | rowLimit q => exact absurd rfl (hselect q)
    | joinType j => exact absurd rfl (hjoin j)
    | unknownJoin j => exact absurd rfl (hjoin j)
    | statement op statement os p _ hkind hstatement =>
        have hddl : (Call.ddl op statement os p).kind = .otherDdl := hkind
        rw [if_neg (not_isGeneric_of_otherDdl hddl), if_pos hddl]
        exact if_neg hstatement
    | unnamedStatement op os p _ hkind =>
        have hddl : (Call.basic op os p).kind = .otherDdl := hkind
        rw [if_neg (not_isGeneric_of_otherDdl hddl), if_pos hddl]
        rfl

/-- Only calls that need a closer look are refused. -/
theorem Refuses.looksAt {c : Call Node} (h : d.Refuses before (.call c) cause) : d.LooksAt c := by
  cases h <;> assumption

private theorem callCause?_eq_some_iff {c : Call Node} (hlook : d.LooksAt c) :
    d.callCause? (before.any Node.isQuery) c = some cause ↔ d.Refuses before (.call c) cause := by
  cases c with
  | select q => exact callCause?_select_iff hlook
  | join j => exact callCause?_join_iff hlook
  | _ => exact callCause?_plain_iff hlook (by simp) (by simp)

/-- The judgement that the pass makes at a node is the one that the rules make. -/
theorem refuses_iff :
    d.Refuses before n cause ↔ d.nodeCause? (before.any Node.isQuery) n = some cause := by
  cases n with
  | call c =>
      by_cases hlook : d.LooksAt c
      · have hcause : ∀ met, d.nodeCause? met (.call c) = d.callCause? met c := fun met =>
          if_neg (Bool.eq_false_iff.mp hlook.reached)
        rw [hcause, callCause?_eq_some_iff hlook]
      · refine ⟨fun h => absurd h.looksAt hlook, fun h => absurd ⟨?_, ?_⟩ hlook⟩
        · cases hskip : c.operator.isDynamicTableFunction with
          | false => rfl
          | true =>
              rw [nodeCause?, Node.isSkipped, if_pos hskip] at h
              cases h
        · intro hlisted
          rw [nodeCause?_of_listed hlisted] at h
          cases h
  | literal l => exact literalCause?_eq_some_iff.symm
  | dataType t => exact typeCause?_eq_some_iff.symm
  | _ =>
      constructor
      · intro h
        cases h
      · intro h
        cases h

/-- What is refused with nothing before it is refused wherever it stands. -/
theorem Refuses.context_free (h : d.Refuses [] n cause) (before : List Node) :
    d.Refuses before n cause := by
  rw [refuses_iff] at h ⊢
  cases hquery : n.isQuery with
  | true =>
      rw [List.any_nil, nodeCause?_false_of_isQuery hquery] at h
      cases h
  | false =>
      rw [nodeCause?_of_not_isQuery hquery]
      exact h

end Dialect

end SqlDialect
