import SqlDialect.Violation

/-!
# Nothing is lost in rendering

The description of a violation may be any text, because it quotes the statement: a name in it
may hold colons and digits, or may itself read like the place of a violation. Both renderings
can be read back all the same, each from the end at which its numbers stand. The text with
context begins with the region, so its numbers are read from the left and the description is
what remains. The short text ends with the place, so it is read from the right.

A number is read off whole because its decimal digits are followed, or preceded, by a character
that is no digit.

## Main results

* `toString_append_inj`, `append_toString_inj`: a number beside another text, read from the left
  and from the right.
* `Position.append_text_inj`: what the text of a position tells, behind any text.
* `Violation.renderings_lose_nothing`: what the two renderings of a violation tell.
-/

namespace SqlDialect

/-! ## Runs of digits -/

section Digits

variable {xs ys ds es : List Char}

/-- A run of digits reaches up to the first character that is no digit. -/
private theorem takeWhile_digits (hds : ∀ c ∈ ds, c.isDigit = true)
    (hxs : ∀ c ∈ xs.head?, c.isDigit = false) : (ds ++ xs).takeWhile Char.isDigit = ds := by
  rw [List.takeWhile_append_of_pos hds]
  cases xs with
  | nil => rw [List.takeWhile_nil, List.append_nil]
  | cons c xs =>
      have hc : c.isDigit = false := hxs c rfl
      rw [List.takeWhile_cons_of_neg (by simp [hc]), List.append_nil]

private theorem digits_append_inj (hds : ∀ c ∈ ds, c.isDigit = true)
    (hes : ∀ c ∈ es, c.isDigit = true) (hxs : ∀ c ∈ xs.head?, c.isDigit = false)
    (hys : ∀ c ∈ ys.head?, c.isDigit = false) (h : ds ++ xs = es ++ ys) : ds = es ∧ xs = ys := by
  have hrun : ds = es := by
    rw [← takeWhile_digits hds hxs, h, takeWhile_digits hes hys]
  exact ⟨hrun, List.append_cancel_left (hrun ▸ h)⟩

/-- A run of digits at the end is one at the beginning of the reversed list. -/
private theorem append_digits_inj (hds : ∀ c ∈ ds, c.isDigit = true)
    (hes : ∀ c ∈ es, c.isDigit = true) (hxs : ∀ c ∈ xs.getLast?, c.isDigit = false)
    (hys : ∀ c ∈ ys.getLast?, c.isDigit = false) (h : xs ++ ds = ys ++ es) : xs = ys ∧ ds = es := by
  have hreverse : ds.reverse ++ xs.reverse = es.reverse ++ ys.reverse := by
    rw [← List.reverse_append, ← List.reverse_append, h]
  obtain ⟨hdigits, hrest⟩ := digits_append_inj (by simpa using hds) (by simpa using hes)
    (by simpa using hxs) (by simpa using hys) hreverse
  exact ⟨List.reverse_inj.mp hrest, List.reverse_inj.mp hdigits⟩

end Digits

/-! ## Numbers beside other texts -/

variable {m n : UInt32} {mark s t : String} {c : Char}

private theorem toList_toString (n : UInt32) : (toString n).toList = Nat.toDigits 10 n.toNat :=
  Nat.toList_repr

private theorem isDigit_of_mem_toString (h : c ∈ (toString n).toList) : c.isDigit = true :=
  Nat.isDigit_of_mem_toDigits (by decide) (by decide) (toList_toString n ▸ h)

/-- A number is read back from its digits. -/
private theorem eq_of_toList_toString_eq (h : (toString m).toList = (toString n).toList) :
    m = n := by
  rw [toList_toString, toList_toString] at h
  have hread := congrArg (Nat.ofDigitChars 10 · 0) h
  simp only [Nat.ofDigitChars_ten_toDigits] at hread
  exact UInt32.toNat_inj.mp hread

/-- A number is read from the left, up to a mark that begins with no digit. -/
theorem toString_append_inj (hmark : mark.toList.head? = some c) (hc : c.isDigit = false) :
    toString m ++ (mark ++ s) = toString n ++ (mark ++ t) ↔ m = n ∧ s = t := by
  have hhead : ∀ u : String, ∀ x ∈ (mark.toList ++ u.toList).head?, x.isDigit = false := by
    intro u x hx
    rw [List.head?_append, hmark] at hx
    obtain rfl := Option.some.inj hx
    exact hc
  constructor
  · intro h
    have hlist := congrArg String.toList h
    simp only [String.toList_append] at hlist
    obtain ⟨hnumber, hrest⟩ := digits_append_inj (fun _ => isDigit_of_mem_toString)
      (fun _ => isDigit_of_mem_toString) (hhead s) (hhead t) hlist
    exact ⟨eq_of_toList_toString_eq hnumber,
      String.toList_inj.mp (List.append_cancel_left hrest)⟩
  · rintro ⟨rfl, rfl⟩
    rfl

/-- A number is read from the right, down to a mark that ends with no digit. -/
theorem append_toString_inj (hmark : mark.toList.getLast? = some c) (hc : c.isDigit = false) :
    s ++ mark ++ toString m = t ++ mark ++ toString n ↔ s = t ∧ m = n := by
  have hlast : ∀ u : String, ∀ x ∈ (u.toList ++ mark.toList).getLast?, x.isDigit = false := by
    intro u x hx
    rw [List.getLast?_append, hmark] at hx
    obtain rfl := Option.some.inj hx
    exact hc
  constructor
  · intro h
    have hlist := congrArg String.toList h
    simp only [String.toList_append] at hlist
    obtain ⟨hrest, hnumber⟩ := append_digits_inj (fun _ => isDigit_of_mem_toString)
      (fun _ => isDigit_of_mem_toString) (hlast s) (hlast t) hlist
    exact ⟨String.toList_inj.mp (List.append_cancel_right hrest),
      eq_of_toList_toString_eq hnumber⟩
  · rintro ⟨rfl, rfl⟩
    rfl

/-! ## Positions and violations -/

/-- Behind any text, the text of a position tells where the position begins. -/
theorem Position.append_text_inj {p q : Position} :
    s ++ p.text = t ++ q.text ↔
      s = t ∧ p.start.line = q.start.line ∧ p.start.column = q.start.column := by
  have hline : "line ".toList.getLast? = some ' ' := rfl
  have hcolumn : ", column ".toList.getLast? = some ' ' := rfl
  simp only [text, ← String.append_assoc]
  rw [append_toString_inj hcolumn rfl, append_toString_inj hline rfl, and_assoc]

namespace Violation

theorem text_inj {v w : Violation} :
    v.text = w.text ↔
      v.description = w.description ∧ v.position.start.line = w.position.start.line ∧
        v.position.start.column = w.position.start.column := by
  rw [text, text, Position.append_text_inj, String.append_left_inj]

theorem context_inj {v w : Violation} :
    v.context = w.context ↔
      v.position.start.line = w.position.start.line ∧
      v.position.start.column = w.position.start.column ∧
      v.position.stop.line = w.position.stop.line ∧
      v.position.stop.column = w.position.stop.column ∧
      v.description = w.description := by
  have hcolumn : ", column ".toList.head? = some ',' := rfl
  have hto : " to line ".toList.head? = some ' ' := rfl
  have hend : ": ".toList.head? = some ':' := rfl
  unfold context
  simp only [String.append_assoc, String.append_right_inj, toString_append_inj hcolumn rfl,
    toString_append_inj hto rfl, toString_append_inj hend rfl]

/--
The text with context tells a violation apart from every other, whatever their descriptions. The
short text tells the description and where the violation begins; only the end of the region is
not in it.
-/
theorem renderings_lose_nothing (v w : Violation) :
    (v.context = w.context ↔ v = w) ∧
      (v.text = w.text ↔
        v.description = w.description ∧ v.position.start.line = w.position.start.line ∧
          v.position.start.column = w.position.start.column) := by
  refine ⟨?_, text_inj⟩
  constructor
  · intro h
    obtain ⟨hline, hcolumn, hendLine, hendColumn, hdescription⟩ := context_inj.mp h
    obtain ⟨⟨⟨line, column⟩, ⟨endLine, endColumn⟩⟩, description⟩ := v
    obtain rfl := hline
    obtain rfl := hcolumn
    obtain rfl := hendLine
    obtain rfl := hendColumn
    obtain rfl := hdescription
    rfl
  · intro h
    rw [h]

end Violation

end SqlDialect
