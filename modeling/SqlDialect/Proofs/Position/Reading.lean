import SqlDialect.Position.Json
import Mathlib.Data.List.Basic
import Mathlib.Data.List.Forall2

/-!
# Reading positions from JSON

A position is read from two forms, an object of four named numbers and an array of four numbers,
and from nothing else. Both forms come down to the same thing, four JSON values in a fixed order,
and what is read is the position with these four numbers. So the reader is exact: what it
accepts is what holds four words, and writing the position again gives the four values back.

The order of the members of an object plays no part in this, nor does what else is in it. A name
that is wanted has to be there once: without it there is no value, and with a second one it
would be open which of the two is meant.

## Main definitions

* `Json.HasMember`: an object gives one value to a name.
* `Position.Holds`: the four values that a JSON value holds for a position.

## Main results

* `Json.wordMember?_eq_some_iff`: what is found under a name.
* `Position.ofJson?_eq_some_iff`: what a position is read from.
* `Position.reading_is_exact`: both forms are read, nothing else is, and nothing is changed.
-/

namespace SqlDialect

namespace Json

/-! ## Words -/

/-- The value is an integer from `0` to `2 ^ 32 - 1`. -/
def IsWord (value : Json) : Prop := ∃ n : Int, value = .integer n ∧ 0 ≤ n ∧ n ≤ 4294967295

variable {value : Json} {word : UInt32} {members others extra : List (String × Json)}
  {name : String}

theorem word?_eq_some_iff : value.word? = some word ↔ value = ofWord word := by
  constructor
  · intro h
    unfold word? at h
    split at h
    · split at h
      · obtain rfl := Option.some.inj h
        rw [ofWord, UInt32.toNat_ofNatLT]
      · cases h
    · cases h
  · rintro rfl
    exact word?_ofWord word

theorem isWord_ofWord (word : UInt32) : (ofWord word).IsWord := by
  have hlt : word.toNat < 2 ^ 32 := word.toNat_lt
  exact ⟨word.toNat, rfl, by omega, by omega⟩

theorem isWord_iff : value.IsWord ↔ ∃ word, value = ofWord word := by
  constructor
  · rintro ⟨n, rfl, hnonneg, hle⟩
    have hfits : n.toNat < UInt32.size := by
      have hsize : UInt32.size = 2 ^ 32 := rfl
      omega
    refine ⟨UInt32.ofNatLT n.toNat hfits, ?_⟩
    rw [ofWord, UInt32.toNat_ofNatLT, Int.ofNat_eq_natCast, Int.toNat_of_nonneg hnonneg]
  · rintro ⟨word, rfl⟩
    exact isWord_ofWord word

/-! ## Members of an object -/

/-- Among the members there is one of the name, and it has the value. -/
def HasMember (members : List (String × Json)) (name : String) (value : Json) : Prop :=
  (name, value) ∈ members ∧ (members.map Prod.fst).count name = 1

theorem hasMember_iff_filter :
    HasMember members name value ↔ members.filter (·.1 == name) = [(name, value)] := by
  have hcount : (members.map Prod.fst).count name = (members.filter (·.1 == name)).length := by
    rw [List.count, List.countP_map, List.countP_eq_length_filter]
    rfl
  rw [HasMember, hcount, List.length_eq_one_iff]
  constructor
  · rintro ⟨hmem, member, hmember⟩
    have hfilter : (name, value) ∈ members.filter (·.1 == name) :=
      List.mem_filter.mpr ⟨hmem, beq_self_eq_true name⟩
    rw [hmember, List.mem_singleton] at hfilter
    rw [hmember, hfilter]
  · intro h
    have hmem : (name, value) ∈ members.filter (·.1 == name) := h ▸ List.mem_singleton_self _
    exact ⟨List.mem_of_mem_filter hmem, _, h⟩

theorem HasMember.unique {value' : Json} (h : HasMember members name value)
    (h' : HasMember members name value') : value = value' := by
  rw [hasMember_iff_filter] at h h'
  exact (Prod.mk.inj (List.singleton_inj.mp (h.symm.trans h'))).2

theorem HasMember.perm (hperm : members.Perm others) (h : HasMember members name value) :
    HasMember others name value :=
  ⟨hperm.mem_iff.mp h.1, ((hperm.map Prod.fst).count_eq name) ▸ h.2⟩

/-- Members of other names are not seen. -/
theorem HasMember.append (h : HasMember members name value)
    (hextra : ∀ member ∈ extra, member.1 ≠ name) : HasMember (members ++ extra) name value := by
  have hnone : (extra.map Prod.fst).count name = 0 := by
    rw [List.count_eq_zero]
    rintro hmem
    obtain ⟨member, hmember, rfl⟩ := List.mem_map.mp hmem
    exact hextra member hmember rfl
  refine ⟨List.mem_append_left extra h.1, ?_⟩
  rw [List.map_append, List.count_append, hnone, h.2]

theorem wordMember?_eq_some_iff :
    wordMember? members name = some word ↔ HasMember members name (ofWord word) := by
  rw [hasMember_iff_filter, wordMember?]
  constructor
  · intro h
    split at h
    · next name' value hfilter =>
        have hmem : (name', value) ∈ members.filter (·.1 == name) :=
          hfilter ▸ List.mem_singleton_self _
        obtain rfl : name' = name := by simpa using (List.mem_filter.mp hmem).2
        rw [hfilter, word?_eq_some_iff.mp h]
    · cases h
  · intro h
    rw [h]
    exact word?_ofWord word

end Json

namespace Position

/-! ## Four values -/

/-- The names of the numbers of a position. -/
def fieldNames : List String := ["line", "column", "end_line", "end_column"]

/-- The numbers of a position as JSON, in the order of their names. -/
def numbers (p : Position) : List Json :=
  [p.start.line, p.start.column, p.stop.line, p.stop.column].map .ofWord

/-- The four values that a JSON value holds for a position. -/
inductive Holds : Json → List Json → Prop
  /-- An object holds what it has under the four names. -/
  | object (members : List (String × Json)) (values : List Json)
      (hvalues : List.Forall₂ (Json.HasMember members) fieldNames values) :
      Holds (.object members) values
  /-- An array of four items holds these items. -/
  | array (values : List Json) (hlength : values.length = 4) : Holds (.array values) values

variable {p : Position} {v : Json} {items values : List Json}
  {members extra : List (String × Json)}

theorem toJson_eq (p : Position) : p.toJson = .object (fieldNames.zip p.numbers) := rfl

theorem isWord_of_mem_numbers {value : Json} (h : value ∈ p.numbers) : value.IsWord := by
  obtain ⟨word, -, rfl⟩ := List.mem_map.mp h
  exact Json.isWord_ofWord word

/-- Four words are the numbers of a position. -/
theorem exists_numbers_eq (hlength : values.length = 4) (hwords : ∀ value ∈ values, value.IsWord) :
    ∃ p : Position, p.numbers = values := by
  match values, hlength with
  | [line, column, endLine, endColumn], _ =>
      obtain ⟨l, rfl⟩ := Json.isWord_iff.mp (hwords line (by simp))
      obtain ⟨c, rfl⟩ := Json.isWord_iff.mp (hwords column (by simp))
      obtain ⟨el, rfl⟩ := Json.isWord_iff.mp (hwords endLine (by simp))
      obtain ⟨ec, rfl⟩ := Json.isWord_iff.mp (hwords endColumn (by simp))
      exact ⟨⟨⟨l, c⟩, ⟨el, ec⟩⟩, rfl⟩

theorem Holds.length_eq (h : Holds v values) : values.length = 4 := by
  cases h with
  | object members values hvalues => exact hvalues.length_eq.symm
  | array values hlength => exact hlength

/-- There is one answer to what a JSON value holds. -/
theorem Holds.unique {values' : List Json} (h : Holds v values) (h' : Holds v values') :
    values = values' := by
  cases h with
  | array values hlength =>
      cases h' with
      | array => rfl
  | object members values hvalues =>
      cases h' with
      | object _ _ hvalues' =>
          have hunique : Relator.RightUnique (Json.HasMember members) := fun _ _ _ =>
            Json.HasMember.unique
          exact List.right_unique_forall₂' hunique hvalues hvalues'

/-! ## What a position is read from -/

private theorem ofJson?_object_iff :
    ofJson? (.object members) = some p ↔
      List.Forall₂ (Json.HasMember members) fieldNames p.numbers := by
  obtain ⟨⟨line, column⟩, ⟨endLine, endColumn⟩⟩ := p
  simp [fieldNames, numbers, ofJson?, Option.bind_eq_some_iff, ← Json.wordMember?_eq_some_iff]

private theorem ofJson?_array_iff : ofJson? (.array items) = some p ↔ items = p.numbers := by
  constructor
  · intro h
    match items, h with
    | [line, column, endLine, endColumn], h =>
        simp only [ofJson?, Option.bind_eq_bind, Option.bind_eq_some_iff,
          Json.word?_eq_some_iff] at h
        obtain ⟨l, rfl, c, rfl, el, rfl, ec, rfl, hp⟩ := h
        obtain rfl := Option.some.inj hp
        rfl
  · rintro rfl
    simp [ofJson?, numbers]

/-- A position is read from what holds its numbers. -/
theorem ofJson?_eq_some_iff : ofJson? v = some p ↔ Holds v p.numbers := by
  cases v with
  | object members =>
      rw [ofJson?_object_iff]
      constructor
      · exact .object members p.numbers
      · intro h
        cases h with
        | object _ _ hvalues => exact hvalues
  | array items =>
      rw [ofJson?_array_iff]
      constructor
      · rintro rfl
        exact .array p.numbers rfl
      · intro h
        cases h with
        | array => rfl
  | _ =>
      constructor
      · intro h
        cases h
      · intro h
        cases h

/-- What is written is held by the members in any order, and with any others beside them. -/
theorem holds_of_perm (hperm : members.Perm (fieldNames.zip p.numbers ++ extra))
    (hextra : ∀ member ∈ extra, member.1 ∉ fieldNames) : Holds (.object members) p.numbers := by
  have hread : Holds (.object (fieldNames.zip p.numbers)) p.numbers :=
    ofJson?_eq_some_iff.mp (toJson_eq p ▸ ofJson?_toJson p)
  cases hread with
  | object _ _ hvalues =>
      rw [List.forall₂_iff_zip] at hvalues
      refine .object members p.numbers (List.forall₂_iff_zip.mpr ⟨hvalues.1, ?_⟩)
      intro name value hzip
      have hname : name ∈ fieldNames := (List.of_mem_zip hzip).1
      have hother : ∀ member ∈ extra, member.1 ≠ name := fun member hmember heq =>
        hextra member hmember (heq ▸ hname)
      exact ((hvalues.2 hzip).append hother).perm hperm.symm

/--
A position is read back from the object that it is written as, also if the members are put in
another order and members of other names are added, and from the array of its numbers. A JSON
value is read if and only if it is an object that gives words to the four names or an array of
four words, and writing what was read gives these four values under their names.
-/
theorem reading_is_exact :
    (∀ (p : Position) (own extra members : List (String × Json)), p.toJson = .object own →
      members.Perm (own ++ extra) → (∀ member ∈ extra, member.1 ∉ fieldNames) →
      ofJson? (.object members) = some p) ∧
    (∀ p : Position, ofJson? p.toJson = some p ∧
      ofJson? (.array [.ofWord p.start.line, .ofWord p.start.column, .ofWord p.stop.line,
        .ofWord p.stop.column]) = some p) ∧
    (∀ v, (∃ p, ofJson? v = some p) ↔ ∃ values, Holds v values ∧ ∀ value ∈ values, value.IsWord) ∧
    ∀ v p values, ofJson? v = some p → Holds v values →
      p.toJson = .object (fieldNames.zip values) := by
  refine ⟨?_, ?_, ?_, ?_⟩
  · intro p own extra members hown hperm hextra
    obtain rfl : own = fieldNames.zip p.numbers := by
      rw [toJson_eq] at hown
      exact (Json.object.inj hown).symm
    exact ofJson?_eq_some_iff.mpr (holds_of_perm hperm hextra)
  · intro p
    exact ⟨ofJson?_toJson p, ofJson?_eq_some_iff.mpr (.array p.numbers rfl)⟩
  · intro v
    constructor
    · rintro ⟨p, hread⟩
      exact ⟨p.numbers, ofJson?_eq_some_iff.mp hread, fun _ => isWord_of_mem_numbers⟩
    · rintro ⟨values, hholds, hwords⟩
      obtain ⟨p, rfl⟩ := exists_numbers_eq hholds.length_eq hwords
      exact ⟨p, ofJson?_eq_some_iff.mpr hholds⟩
  · intro v p values hread hholds
    rw [toJson_eq, (ofJson?_eq_some_iff.mp hread).unique hholds]

/-- A region of line `1`, with its end before its start and a note between. -/
theorem reading_is_exact_of_noted_region :
    let region : Position := ⟨⟨1, 15⟩, ⟨1, 20⟩⟩
    let stop : List (String × Json) :=
      [("end_line", .integer 1), ("end_column", .integer 20), ("note", .null)]
    let start : List (String × Json) := [("line", .integer 1), ("column", .integer 15)]
    let items : List Json := [.integer 1, .integer 15, .integer 1, .integer 20]
    ofJson? (.object (stop ++ start)) = some region ∧
      (∃ p, ofJson? (.array items) = some p) ∧
      Holds (.array items) items ∧ (∀ item ∈ items, item.IsWord) ∧
      region.toJson = .object (fieldNames.zip items) := by
  intro region stop start items
  obtain ⟨hadded, -, hread, hwritten⟩ := reading_is_exact
  have hnote : ∀ member ∈ [("note", Json.null)], member.1 ∉ fieldNames := by
    simp [fieldNames]
  have hperm : (stop ++ start).Perm (start ++ stop) := List.perm_append_comm
  have hholds : Holds (.array items) items := .array items rfl
  have hwords : ∀ item ∈ items, item.IsWord := fun _ => isWord_of_mem_numbers (p := region)
  exact ⟨hadded region _ [("note", .null)] (stop ++ start) rfl hperm hnote,
    (hread (.array items)).mpr ⟨items, hholds, hwords⟩, hholds, hwords,
    hwritten (.array items) region items rfl hholds⟩

end Position

end SqlDialect
