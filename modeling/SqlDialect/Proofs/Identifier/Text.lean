import SqlDialect.Identifier
import Mathlib.Data.List.Basic

/-!
# What the text of a name tells

A name is written with dots between its parts and a star for a part without characters. Parts
that a parser hands over may themselves hold dots or be a star, so different names can have one
text: `a.b` is written like the two parts `a` and `b`, and a part `*` like an empty one.

That is all that gets lost. Splitting is undone by joining, so a text stands for the pieces
between its dots and for nothing else, and these pieces come from the parts one after the other.

## Main results

* `Identifier.atDots_intercalate`, `Identifier.intercalate_atDots`: splitting at dots and joining
  with dots.
* `Identifier.text_determines_pieces`: which names have one text, and how a plain name is read
  back.
-/

namespace SqlDialect

namespace Identifier

/-! ## Splitting at dots -/

/-- The pieces of a text between its dots. A text without dots is one piece, also if it is empty. -/
def atDots (text : String) : List String := (text.split '.').toList.map (·.copy)

theorem atDots_eq (text : String) : atDots text = (text.toList.splitOn '.').map String.ofList :=
  String.toList_split_char

theorem atDots_eq_singleton {text : String} (h : '.' ∉ text.toList) : atDots text = [text] := by
  rw [atDots_eq, List.splitOn_eq_singleton h, List.map_singleton, String.ofList_toList]

theorem atDots_append_dot (text rest : String) :
    atDots (text ++ "." ++ rest) = atDots text ++ atDots rest := by
  have hdot : (text ++ "." ++ rest).toList = text.toList ++ '.' :: rest.toList := by
    simp [String.toList_append]
  rw [atDots_eq, hdot, List.splitOn_append_cons_self, List.map_append, ← atDots_eq, ← atDots_eq]

/-- A text is its pieces, joined with dots again. -/
theorem intercalate_atDots (text : String) : ".".intercalate (atDots text) = text := by
  rw [← String.toList_inj, String.toList_intercalate, atDots_eq, List.map_map]
  have hid : String.toList ∘ String.ofList = id := funext fun _ => String.toList_ofList
  rw [hid, List.map_id]
  exact List.intercalate_splitOn '.'

/-- Texts that are joined with dots are split into their own pieces. -/
theorem atDots_intercalate {texts : List String} (h : texts ≠ []) :
    atDots (".".intercalate texts) = texts.flatMap atDots := by
  induction texts with
  | nil => exact absurd rfl h
  | cons text rest ih =>
      cases rest with
      | nil => simp
      | cons next rest =>
          rw [String.intercalate_cons_cons, atDots_append_dot, ih (List.cons_ne_nil _ _)]
          exact List.flatMap_cons.symm

/-! ## Names -/

/-- The pieces of a name: its parts as they are written, each split at its dots. -/
def pieces (identifier : Identifier) : List String :=
  identifier.parts.flatMap fun part => atDots (partText part)

/-- The part that has the text, if the part is plain. -/
def ofPartText (text : String) : String := if text = "*" then "" else text

/-- Whether the parts of a name are free of what is written between parts and for empty ones. -/
def IsPlain (identifier : Identifier) : Prop :=
  ∀ part ∈ identifier.parts, '.' ∉ part.toList ∧ part ≠ "*"

variable {i j : Identifier} {part : String}

theorem partText_ne_empty (part : String) : partText part ≠ "" := by
  unfold partText
  split
  · decide
  · assumption

theorem ofPartText_partText (h : part ≠ "*") : ofPartText (partText part) = part := by
  by_cases hempty : part = ""
  · rw [hempty]
    rfl
  · rw [partText, if_neg hempty, ofPartText, if_neg h]

/-- A part without dots is a single piece, as the star for an empty part is. -/
theorem atDots_partText (h : '.' ∉ part.toList) : atDots (partText part) = [partText part] := by
  refine atDots_eq_singleton ?_
  unfold partText
  split
  · decide
  · exact h

/-- No part is written without a character, so only the name without parts is. -/
theorem text_eq_empty_iff : i.text = "" ↔ i.parts = [] := by
  obtain ⟨parts, position⟩ := i
  cases parts with
  | nil => simp [text]
  | cons part rest =>
      cases rest with
      | nil => simp [text, partText_ne_empty]
      | cons next rest => simp [text]

theorem atDots_text (h : i.parts ≠ []) : atDots i.text = i.pieces := by
  rw [text, atDots_intercalate (by simpa using h), List.flatMap_map]
  rfl

theorem intercalate_pieces (i : Identifier) : ".".intercalate i.pieces = i.text := by
  by_cases h : i.parts = []
  · simp [pieces, text, h]
  · rw [← atDots_text h, intercalate_atDots]

/-- The text of a name tells its pieces, and is made of them. -/
theorem text_eq_iff_pieces_eq : i.text = j.text ↔ i.pieces = j.pieces := by
  constructor
  · intro h
    -- An empty text is split into one piece, so the name without parts goes apart.
    by_cases hi : i.parts = []
    · have hj : j.parts = [] := text_eq_empty_iff.mp (h ▸ text_eq_empty_iff.mpr hi)
      rw [pieces, pieces, hi, hj]
    · have hj : j.parts ≠ [] := fun hj =>
        hi (text_eq_empty_iff.mp (h ▸ text_eq_empty_iff.mpr hj))
      rw [← atDots_text hi, ← atDots_text hj, h]
  · intro h
    rw [← intercalate_pieces i, ← intercalate_pieces j, h]

/-- The pieces of a plain name are its parts as they are written. -/
theorem IsPlain.pieces_eq (h : i.IsPlain) : i.pieces = i.parts.map partText := by
  have hpart : ∀ part ∈ i.parts, atDots (partText part) = [partText part] := fun part hmem =>
    atDots_partText (h part hmem).1
  rw [pieces, List.map_eq_flatMap]
  exact List.flatMap_congr hpart

/-- A plain name is read back from its pieces. -/
theorem IsPlain.map_ofPartText_pieces (h : i.IsPlain) : i.pieces.map ofPartText = i.parts := by
  have hpart : ∀ part ∈ i.parts, ofPartText (partText part) = part := fun part hmem =>
    ofPartText_partText (h part hmem).2
  calc i.pieces.map ofPartText
      = i.parts.map (ofPartText ∘ partText) := by rw [h.pieces_eq, List.map_map]
    _ = i.parts.map id := List.map_congr_left hpart
    _ = i.parts := List.map_id _

/--
Two names have one text if and only if they have the same pieces. Plain names have one text only
if they are one name, and a plain name with parts is read back by splitting its text at dots and
taking a star for an empty part.
-/
theorem text_determines_pieces :
    (∀ i j : Identifier, i.text = j.text ↔ i.pieces = j.pieces) ∧
    (∀ i j : Identifier, i.IsPlain → j.IsPlain → (i.text = j.text ↔ i.parts = j.parts)) ∧
    ∀ i : Identifier, i.IsPlain → i.parts ≠ [] → (atDots i.text).map ofPartText = i.parts := by
  refine ⟨fun i j => text_eq_iff_pieces_eq, ?_, ?_⟩
  · intro i j hi hj
    rw [text_eq_iff_pieces_eq]
    constructor
    · intro h
      rw [← hi.map_ofPartText_pieces, ← hj.map_ofPartText_pieces, h]
    · intro h
      rw [pieces, pieces, h]
  · intro i hi hparts
    rw [atDots_text hparts, hi.map_ofPartText_pieces]

/-- The column `a` of a table `t`, and all of its columns. -/
theorem text_determines_pieces_of_columns :
    let column : Identifier := ⟨["t", "a"], .zero⟩
    let columns : Identifier := ⟨["t", ""], .zero⟩
    column.IsPlain ∧ columns.IsPlain ∧ columns.parts ≠ [] ∧
      (column.text = columns.text ↔ column.parts = columns.parts) ∧
      (atDots columns.text).map ofPartText = ["t", ""] := by
  intro column columns
  have hcolumn : column.IsPlain := by simp [IsPlain, column]
  have hcolumns : columns.IsPlain := by simp [IsPlain, columns]
  have hparts : columns.parts ≠ [] := by simp [columns]
  obtain ⟨-, hplain, hread⟩ := text_determines_pieces
  exact ⟨hcolumn, hcolumns, hparts, hplain column columns hcolumn hcolumns,
    hread columns hcolumns hparts⟩

/-- A part with a dot in it is written like two parts. -/
example : text ⟨["a.b"], .zero⟩ = text ⟨["a", "b"], .zero⟩ := by decide

end Identifier

end SqlDialect
