import SqlDialect.Proofs.Validation.Rebuild
import SqlDialect.Node.Expression

/-!
# The skeleton of a statement

Much of a statement has no bearing on whether it is supported: where its parts stand,
which tables and columns it names, what values it mentions, how long its strings may be.
The skeleton of a statement is what is left when all of that is taken out. It keeps the
shape of the tree, the operators, the names of statements, the flags, the types of the
other literals and the names of declared scalar types.

Statements with one skeleton have one verdict. Only the position of a violation may be
another one, as it is the position that the refused node has in its own statement.

## Main results

* `Dialect.unnoticed_outline`: a pass does not ask for anything that an outline leaves out.
* `Dialect.verdict_depends_on_skeleton`: the verdicts on statements with one skeleton.
-/

namespace SqlDialect

/-! ## Outlines of the parts -/

namespace Identifier

/-- The name, standing nowhere. -/
def unplaced (i : Identifier) : Identifier := { i with position := .zero }

/-- What is left of a name that does not matter. -/
def blank : Identifier := ⟨[], .zero⟩

@[simp] theorem simple?_unplaced (i : Identifier) : i.unplaced.simple? = i.simple? := by
  obtain ⟨parts, position⟩ := i
  rcases parts with _ | ⟨part, _ | ⟨next, rest⟩⟩
  · rfl
  · rfl
  · rfl

@[simp] theorem text_unplaced (i : Identifier) : i.unplaced.text = i.text := rfl

end Identifier

/-- A flag without the type that it is written under, any other literal without its value. -/
def Literal.outline (l : Literal) : Literal :=
  match l.symbol? with
  | some flag => .symbol flag .zero
  | none => ⟨.null, l.type, .zero⟩

/-- A type by its name, or by its shape alone if it is made of other types. -/
def TypeSpec.outline : TypeSpec → TypeSpec
  | .basic name _ _ => .basic name.unplaced none none
  | .userDefined name => .userDefined name.unplaced
  | .collection _ _ => .collection (.userDefined .blank) .blank
  | .row _ _ => .row .blank []

/-- The list, standing nowhere. -/
def Listing.unplaced (l : Listing Node) : Listing Node := { l with position := .zero }

/-- The query, standing nowhere, nor any of its lists. -/
def Query.unplaced (q : Query Node) : Query Node :=
  { q with
    keywords := q.keywords.unplaced
    selectList := q.selectList.unplaced
    groupBy := q.groupBy.map Listing.unplaced
    orderBy := q.orderBy.map Listing.unplaced
    position := .zero }

/-- The call, standing nowhere. -/
def Call.unplaced : Call Node → Call Node
  | .basic op os _ => .basic op os .zero
  | .select q => .select q.unplaced
  | .join j => .join { j with position := .zero }
  | .ddl op statement os _ => .ddl op statement os .zero

/-! ## Outline and skeleton of a node -/

namespace Node

/-- What matters about a node for being supported; its operands are left as they are. -/
def outline : Node → Node
  | .call c => .call c.unplaced
  | .literal l => .literal l.outline
  | .identifier _ => .identifier .blank
  | .dataType t => .dataType (.plain t.spec.outline .zero)
  | .placeholder _ => .placeholder ⟨0, .zero⟩
  | .interval _ => .interval ⟨"", none, .zero⟩
  | .list l => .list l.unplaced

/-- The statement with the outline of each node in its place. -/
def skeleton (n : Node) : Node := n.rebuild outline

theorem openSlots_outline (n : Node) : n.outline.openSlots = n.openSlots := by
  cases n with
  | call c =>
      cases c with
      | select q =>
          have hclause : ∀ (row : Nat → Slot) (l : Option (Listing Node)),
              Slotted.clause row (l.map Listing.unplaced) = Slotted.clause row l := by
            intro row l
            cases l <;> rfl
          have hslots : (Call.select q.unplaced).slots = (Call.select q).slots := by
            simp only [Call.slots, Query.unplaced, Listing.unplaced, hclause]
          exact hslots
      | _ => rfl
  | _ => rfl

theorem isQuery_outline (n : Node) : n.outline.isQuery = n.isQuery := by
  cases n with
  | call c => cases c <;> rfl
  | _ => rfl

end Node

theorem Literal.symbol?_outline (l : Literal) : l.outline.symbol? = l.symbol? := by
  rw [outline]
  cases hvalue : l.symbol? <;> rfl

theorem Node.symbol?_outline (n : Node) : n.outline.symbol? = n.symbol? := by
  cases n with
  | literal l => exact l.symbol?_outline
  | _ => rfl

namespace Dialect

/-! ## The judgement on an outline -/

theorem literalCause?_outline (d : Dialect) (l : Literal) :
    d.literalCause? l.outline = d.literalCause? l := by
  rw [literalCause?, literalCause?, l.symbol?_outline]
  cases hvalue : l.symbol? with
  | some flag => rfl
  | none =>
      -- only without a flag is the type of the literal asked for
      have htype : l.outline.type = l.type := by
        rw [Literal.outline, hvalue]
      rw [htype]

theorem typeCause?_outline (d : Dialect) (spec : TypeSpec) :
    d.typeCause? spec.outline = d.typeCause? spec := by
  cases spec with
  | basic name precision scale =>
      rw [TypeSpec.outline, typeCause?, typeCause?, name.simple?_unplaced, name.text_unplaced]
  | userDefined name => rw [TypeSpec.outline, typeCause?, typeCause?, name.simple?_unplaced]
  | collection element container => rfl
  | row name fields => rfl

theorem nodeCause?_outline (d : Dialect) (queryMet : Bool) (n : Node) :
    d.nodeCause? queryMet n.outline = d.nodeCause? queryMet n := by
  cases n with
  | call c => cases c <;> rfl
  | literal l => exact d.literalCause?_outline l
  | dataType t => exact d.typeCause?_outline t.spec
  | _ => rfl

/-- A pass does not ask for anything that an outline leaves out. -/
theorem unnoticed_outline (d : Dialect) : d.Unnoticed Node.outline where
  openSlots := Node.openSlots_outline
  symbol? := Node.symbol?_outline
  isQuery := Node.isQuery_outline
  nodeCause? := d.nodeCause?_outline

/--
Statements with one skeleton are supported both or refused both. If they are refused, then
with the same description, and each at the position of its own node at one address.
-/
theorem verdict_depends_on_skeleton (d : Dialect) {n m : Node} (h : n.skeleton = m.skeleton) :
    (d.validate n = .ok () ∧ d.validate m = .ok ()) ∨
      ∃ a k l, ∃ cause : Cause, (a, k) ∈ n.reachedAt ∧ (a, l) ∈ m.reachedAt ∧
        d.validate n = .error ⟨k.position, cause.description⟩ ∧
        d.validate m = .error ⟨l.position, cause.description⟩ := by
  rw [validate_eq_verdictOn, validate_eq_verdictOn]
  rcases d.unnoticed_outline.firstRefused?_congr h with ⟨hn, hm⟩ | ⟨a, k, l, cause, hn, hm⟩
  · rw [hn, hm]
    exact .inl ⟨rfl, rfl⟩
  · refine .inr ⟨a, k, l, cause, mem_of_firstRefused? hn, mem_of_firstRefused? hm, ?_, ?_⟩
    · rw [hn]
      rfl
    · rw [hm]
      rfl

/-- `SELECT name, CAST(TRIM(BOTH FROM text) AS CHAR(length))`, with all parts at one place. -/
private def selectChars (name text : String) (length : UInt32) (flagType : TypeName)
    (place : Position) : Node :=
  let flag : Node := .literal ⟨.symbol (.trim .both), flagType, place⟩
  let trimmed : Node := .apply (.standard .trim) [flag, .string " ", .string text] place
  let chars : DataType := .plain (.basic (.named "CHAR" place) (some length) none) place
  .call (.select (.ofSelectList
    ⟨[.identifier (.named name place), .apply (.standard .cast) [trimmed, .dataType chars] place],
      place⟩ place))

/-- Whatever is selected, trimmed and cast, `CHAR` is refused, and where it stands. -/
theorem char_is_refused_in_place :
    ∃ a k l, ∃ cause : Cause,
      (a, k) ∈ (selectChars "a" "x" 3 .symbol (.point 1 1)).reachedAt ∧
      (a, l) ∈ (selectChars "b" "yes" 8 .any (.point 2 5)).reachedAt ∧
      executable.validate (selectChars "a" "x" 3 .symbol (.point 1 1)) =
        .error ⟨k.position, cause.description⟩ ∧
      executable.validate (selectChars "b" "yes" 8 .any (.point 2 5)) =
        .error ⟨l.position, cause.description⟩ := by
  have hrefused : executable.validate (selectChars "a" "x" 3 .symbol (.point 1 1)) =
      .error ⟨.point 1 1, Cause.description (.typeName "CHAR")⟩ := rfl
  have hskeleton : (selectChars "a" "x" 3 .symbol (.point 1 1)).skeleton =
      (selectChars "b" "yes" 8 .any (.point 2 5)).skeleton := rfl
  refine (verdict_depends_on_skeleton executable hskeleton).resolve_left fun h => ?_
  rw [hrefused] at h
  cases h.1

end Dialect

end SqlDialect
