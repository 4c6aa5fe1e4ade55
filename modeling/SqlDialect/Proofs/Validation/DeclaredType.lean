import SqlDialect.Node.Expression
import SqlDialect.Proofs.TypeName.Lookup
import SqlDialect.Proofs.Validation.FirstRefusal

/-!
# Which types may be declared

A type is declared by a name, and what the name says depends on its shape. The name of a
built-in type has to be one part that is the name of a type, in any case of letters, and this
type has to be one that the dialect declares. The name of a type of the user's own has to be the
one name under which all objects are declared. Collections and rows may not be declared at all.

If a declaration is refused, the user is told what the dialect has understood. A known type is
called by its own name, whatever the case in which it was written; a name of which nothing is
known is given back as it was written.

## Main definitions

* `Dialect.Declares`: the types that a dialect allows to be declared.
* `Dialect.RefusesType`: what is told about the others.

## Main results

* `Dialect.refusesType_iff`: these are the rules of refusal, told in terms of names.
* `declared_type_gate`: the verdict on a declared type, on its own and within a statement.
-/

namespace SqlDialect

namespace Identifier

/-- The name is a single part that agrees with the text up to case. -/
def IsWritten (name : Identifier) (text : String) : Prop :=
  ∃ part, name.parts = [part] ∧ EqualUpToCase part text

variable {name : Identifier} {part : String} {type : TypeName}

theorem simple?_eq_some_iff : name.simple? = some part ↔ name.parts = [part] := by
  obtain ⟨parts, position⟩ := name
  match parts with
  | [] | [_] | _ :: _ :: _ => simp [simple?]

/-- What is looked up is the only part of the name. -/
theorem ofName?_simple?_eq_some_iff :
    name.simple? >>= TypeName.ofName? = some type ↔ name.IsWritten type.name := by
  rw [Option.bind_eq_bind, Option.bind_eq_some_iff]
  simp only [simple?_eq_some_iff, TypeName.ofName?_eq_some_iff]
  rfl

theorem ofName?_simple?_eq_none_iff :
    name.simple? >>= TypeName.ofName? = none ↔ ∀ type : TypeName, ¬ name.IsWritten type.name := by
  simp only [Option.eq_none_iff_forall_ne_some, ne_eq, ofName?_simple?_eq_some_iff]

/-- A name is that of one type at most. -/
theorem IsWritten.unique {type' : TypeName} (h : name.IsWritten type.name)
    (h' : name.IsWritten type'.name) : type = type' :=
  Option.some.inj ((ofName?_simple?_eq_some_iff.mpr h).symm.trans
    (ofName?_simple?_eq_some_iff.mpr h'))

end Identifier

namespace Dialect

/-! ## The rules in terms of names -/

/-- The types that may be declared. -/
inductive Declares (d : Dialect) : TypeSpec → Prop
  /-- A built-in type that is listed, under its own name. -/
  | basic (name : Identifier) (precision scale : Option UInt32) (type : TypeName)
      (hname : name.IsWritten type.name) (htype : type ∈ d.declarableTypes) :
      Declares d (.basic name precision scale)
  /-- The type of all objects. -/
  | object (name : Identifier) (hname : name.IsWritten d.objectTypeName) :
      Declares d (.userDefined name)

/-- The types that may not be declared, with what is told about them. -/
inductive RefusesType (d : Dialect) : TypeSpec → String → Prop
  /-- A built-in type that is not listed is called by its own name. -/
  | unlisted (name : Identifier) (precision scale : Option UInt32) (type : TypeName)
      (hname : name.IsWritten type.name) (htype : type ∉ d.declarableTypes) :
      RefusesType d (.basic name precision scale) (type.name ++ " is not supported")
  /-- A name that is not the name of a type is given back. -/
  | unknown (name : Identifier) (precision scale : Option UInt32)
      (hname : ∀ type : TypeName, ¬ name.IsWritten type.name) :
      RefusesType d (.basic name precision scale) (name.text ++ " is not supported")
  /-- A type of the user's own. -/
  | userDefined (name : Identifier) (hname : ¬ name.IsWritten d.objectTypeName) :
      RefusesType d (.userDefined name) "Complex type specifications are not supported"
  /-- A collection, whatever its elements are. -/
  | collection (element : TypeSpec) (container : Identifier) :
      RefusesType d (.collection element container)
        "Complex type specifications are not supported"
  /-- A row, whatever its fields are. -/
  | row (name : Identifier) (fields : List (Identifier × TypeSpec)) :
      RefusesType d (.row name fields) "Complex type specifications are not supported"

variable {d : Dialect} {before : List Node} {t : DataType} {spec : TypeSpec} {description : String}

theorem refusesType_iff (before : List Node) :
    d.RefusesType t.spec description ↔
      ∃ cause, d.Refuses before (.dataType t) cause ∧ cause.description = description := by
  obtain ⟨spec, nullable, position⟩ := t
  constructor
  · intro h
    cases h with
    | unlisted name precision scale type hname htype =>
        exact ⟨_, .typeName _ name precision scale type rfl
          (Identifier.ofName?_simple?_eq_some_iff.mpr hname) htype, rfl⟩
    | unknown name precision scale hname =>
        exact ⟨_, .unknownType _ name precision scale rfl
          (Identifier.ofName?_simple?_eq_none_iff.mpr hname), rfl⟩
    | userDefined name hname =>
        refine ⟨_, .userType _ name rfl fun part hpart hsame => hname ?_, rfl⟩
        exact ⟨part, Identifier.simple?_eq_some_iff.mp hpart,
          sameIgnoringCase_iff_equalUpToCase.mp hsame⟩
    | collection element container => exact ⟨_, .collection _ element container rfl, rfl⟩
    | row name fields => exact ⟨_, .row _ name fields rfl, rfl⟩
  · rintro ⟨cause, h, rfl⟩
    cases h with
    | typeName _ name precision scale type hspec hname htype =>
        obtain rfl := hspec
        exact .unlisted name precision scale type
          (Identifier.ofName?_simple?_eq_some_iff.mp hname) htype
    | unknownType _ name precision scale hspec hname =>
        obtain rfl := hspec
        exact .unknown name precision scale (Identifier.ofName?_simple?_eq_none_iff.mp hname)
    | userType _ name hspec hname =>
        obtain rfl := hspec
        refine .userDefined name ?_
        rintro ⟨part, hpart, hsame⟩
        exact hname part (Identifier.simple?_eq_some_iff.mpr hpart)
          (sameIgnoringCase_iff_equalUpToCase.mpr hsame)
    | collection _ element container hspec =>
        obtain rfl := hspec
        exact .collection element container
    | row _ name fields hspec =>
        obtain rfl := hspec
        exact .row name fields

/-- The two rules leave out nothing and have nothing in common. -/
theorem declares_iff : d.Declares spec ↔ ∀ description, ¬ d.RefusesType spec description := by
  constructor
  · intro h description hrefuses
    cases h with
    | basic name precision scale type hname htype =>
        cases hrefuses with
        | unlisted _ _ _ type' hname' htype' => exact htype' (hname.unique hname' ▸ htype)
        | unknown _ _ _ hunknown => exact hunknown type hname
    | object name hname =>
        cases hrefuses with
        | userDefined _ hname' => exact hname' hname
  · intro h
    cases spec with
    | basic name precision scale =>
        by_cases hknown : ∃ type : TypeName, name.IsWritten type.name
        · obtain ⟨type, hname⟩ := hknown
          by_cases htype : type ∈ d.declarableTypes
          · exact .basic name precision scale type hname htype
          · exact absurd (.unlisted name precision scale type hname htype) (h _)
        · rw [not_exists] at hknown
          exact absurd (.unknown name precision scale hknown) (h _)
    | userDefined name =>
        by_cases hname : name.IsWritten d.objectTypeName
        · exact .object name hname
        · exact absurd (.userDefined name hname) (h _)
    | collection element container => exact absurd (.collection element container) (h _)
    | row name fields => exact absurd (.row name fields) (h _)

theorem declares_iff_not_refuses (before : List Node) :
    d.Declares t.spec ↔ ∀ cause, ¬ d.Refuses before (.dataType t) cause := by
  simp only [declares_iff, refusesType_iff before]
  constructor
  · exact fun h cause hrefuses => h _ ⟨cause, hrefuses, rfl⟩
  · rintro h description ⟨cause, hrefuses, -⟩
    exact h cause hrefuses

/-! ## Declared types in a statement and on their own -/

/-- If nothing is refused before a declared type, the type decides. -/
theorem validate_of_refusesType {root : Node} {after : List Node}
    (hsplit : root.reached = before ++ .dataType t :: after) (hbefore : d.Allows before)
    (h : d.RefusesType t.spec description) :
    d.validate root = .error ⟨t.position, description⟩ := by
  obtain ⟨cause, hrefuses, rfl⟩ := (refusesType_iff before).mp h
  exact validate_of_refuses hsplit hbefore hrefuses

theorem declares_of_validate_eq_ok {root : Node} (h : d.validate root = .ok ())
    (hmem : .dataType t ∈ root.reached) : d.Declares t.spec := by
  rw [validate_eq_judgeAll, judgeAll_eq_ok_iff] at h
  obtain ⟨before, after, hsplit⟩ := List.append_of_mem hmem
  exact (declares_iff_not_refuses before).mpr fun cause => h before _ after cause hsplit

theorem reached_dataType (t : DataType) : (Node.dataType t).reached = [] ++ [.dataType t] := by
  rw [Node.reached_eq]
  rfl

theorem validate_dataType_of_declares (h : d.Declares t.spec) :
    d.validate (.dataType t) = .ok () := by
  rw [validate_eq_judgeAll, reached_dataType, judgeAll_eq_ok_iff, allows_concat_iff]
  exact ⟨allows_nil, (declares_iff_not_refuses []).mp h⟩

theorem validate_dataType_eq_ok_iff : d.validate (.dataType t) = .ok () ↔ d.Declares t.spec :=
  ⟨fun h => declares_of_validate_eq_ok h (Node.self_mem_reached _), validate_dataType_of_declares⟩

theorem validate_dataType_eq_error_iff {v : Violation} :
    d.validate (.dataType t) = .error v ↔
      v.position = t.position ∧ d.RefusesType t.spec v.description := by
  constructor
  · intro h
    have hrefused : ¬ d.Declares t.spec := by
      intro hdeclares
      rw [validate_dataType_of_declares hdeclares] at h
      cases h
    simp only [declares_iff, not_forall, not_not] at hrefused
    obtain ⟨description, hrefuses⟩ := hrefused
    rw [validate_of_refusesType (reached_dataType t) allows_nil hrefuses] at h
    obtain rfl := Except.error.inj h
    exact ⟨rfl, hrefuses⟩
  · obtain ⟨position, description⟩ := v
    rintro ⟨rfl, hrefuses⟩
    exact validate_of_refusesType (reached_dataType t) allows_nil hrefuses

end Dialect

open Dialect

/--
A declared type is supported if and only if the dialect of the engine declares it, where the one
type of the user's own that it declares is `OBJECT`, and otherwise the violation is at the type
and says what the rules say. That is the verdict wherever the type stands in a statement, if
nothing before it is refused. The look-up that the rules rest on finds a type if and only if it
is given the name of the type up to case.
-/
theorem declared_type_gate :
    (∀ t : DataType, validate (.dataType t) = .ok () ↔ executable.Declares t.spec) ∧
    (∀ (t : DataType) (v : Violation), validate (.dataType t) = .error v ↔
      v.position = t.position ∧ executable.RefusesType t.spec v.description) ∧
    (∀ name, executable.Declares (.userDefined name) ↔ name.IsWritten "OBJECT") ∧
    (∀ root, validate root = .ok () → ∀ t, .dataType t ∈ root.reached →
      executable.Declares t.spec) ∧
    (∀ root before t after description, root.reached = before ++ .dataType t :: after →
      executable.Allows before → executable.RefusesType t.spec description →
      validate root = .error ⟨t.position, description⟩) ∧
    ∀ text type, TypeName.ofName? text = some type ↔ EqualUpToCase text type.name := by
  refine ⟨?_, ?_, ?_, ?_, ?_, ?_⟩
  · intro t
    exact validate_dataType_eq_ok_iff
  · intro t v
    exact validate_dataType_eq_error_iff
  · intro name
    constructor
    · intro h
      cases h with
      | object _ hname => exact hname
    · intro hname
      exact .object name hname
  · intro root hsupported t hmem
    exact declares_of_validate_eq_ok hsupported hmem
  · intro root before t after description hsplit hbefore hrefuses
    exact validate_of_refusesType hsplit hbefore hrefuses
  · intro text type
    exact TypeName.ofName?_eq_some_iff

/-- A built-in type whose name has the parts that are given. -/
private def spelled (parts : List String) : DataType :=
  .plain (.basic ⟨parts, .zero⟩ none none) (.point 1 11)

/-- `CAST(a AS type)`. -/
private def castTo (type : DataType) : Node := .cast (.name "a") (.dataType type)

private theorem reached_castTo (type : DataType) :
    (castTo type).reached = [castTo type, .name "a"] ++ .dataType type :: [] := by
  rw [Node.reached_eq]
  show castTo type :: ((Node.name "a").reached ++ ((Node.dataType type).reached ++ [])) = _
  rw [Node.reached_eq (.name "a"), reached_dataType]
  rfl

/--
`CAST(a AS VarChar)` is supported. In `CAST(a AS char)` the type is refused under its own name,
and in `CAST(a AS geo.*)` under the name that is written there.
-/
theorem declared_type_gate_of_cast :
    validate (castTo (spelled ["VarChar"])) = .ok () ∧
      executable.Declares (spelled ["VarChar"]).spec ∧
      validate (castTo (spelled ["char"])) = .error ⟨.point 1 11, "CHAR is not supported"⟩ ∧
      validate (castTo (spelled ["geo", ""])) =
        .error ⟨.point 1 11, "geo.* is not supported"⟩ := by
  obtain ⟨-, -, -, hdeclares, hrefused, -⟩ := declared_type_gate
  have hsupported : validate (castTo (spelled ["VarChar"])) = .ok () := rfl
  have hmem : .dataType (spelled ["VarChar"]) ∈ (castTo (spelled ["VarChar"])).reached := by
    rw [reached_castTo]
    exact List.mem_append_right _ (List.mem_singleton_self _)
  have hallows : ∀ parts, executable.Allows [castTo (spelled parts), .name "a"] := fun _ =>
    judgeAll_eq_ok_iff.mp rfl
  have hchar : executable.RefusesType (spelled ["char"]).spec "CHAR is not supported" :=
    .unlisted _ none none .char ⟨"char", rfl, by decide⟩ (by decide)
  have hunknown : ∀ type : TypeName, ¬ (Identifier.mk ["geo", ""] .zero).IsWritten type.name := by
    rintro type ⟨part, hparts, -⟩
    exact List.cons_ne_nil _ _ (List.cons.inj hparts).2
  have hstar : executable.RefusesType (spelled ["geo", ""]).spec "geo.* is not supported" :=
    .unknown _ none none hunknown
  exact ⟨hsupported, hdeclares _ hsupported _ hmem,
    hrefused _ _ _ _ _ (reached_castTo _) (hallows _) hchar,
    hrefused _ _ _ _ _ (reached_castTo _) (hallows _) hstar⟩

end SqlDialect
