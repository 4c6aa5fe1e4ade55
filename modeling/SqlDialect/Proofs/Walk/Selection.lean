import SqlDialect.Node.Expression
import SqlDialect.Proofs.Walk.Recording

/-!
# Recorders that see a part

A recorder that attends to everything and goes everywhere writes down the whole tree of
visits. What a recorder writes down that does less is known from this record: one that
attends to a single role finds the visits in that role, in the same order, and one that
stays out of some visits finds all but those inside of them.

## Main results

* `Recorder.agrees_with_full`: both kinds of recorders against the one that does everything.
-/

namespace SqlDialect

/-! ## Outermost visits -/

namespace Trail.Above

variable {t u v : Trail}

protected theorem trans (h : t.Above u) (h' : u.Above v) : t.Above v := by
  refine ⟨h.1.trans h'.1, ?_⟩
  rintro rfl
  exact h.2 (h.1.eq_of_length_le h'.1.length_le)

theorem length_lt (h : t.Above u) : t.length < u.length :=
  Nat.lt_of_le_of_ne h.1.length_le fun hlength => h.2 (h.1.eq_of_length hlength)

end Trail.Above

namespace Trails

variable {roles : List Visit.Role} {xs : Trails}

/-- A visit in one of the given roles that is inside no other such visit. -/
def Outermost (roles : List Visit.Role) (xs : Trails) (x : Trail × Visit) : Prop :=
  x.2.role ∈ roles ∧ ∀ y ∈ xs, y.2.role ∈ roles → ¬ y.1.Above x.1

instance (roles : List Visit.Role) (xs : Trails) (x : Trail × Visit) :
    Decidable (xs.Outermost roles x) := inferInstanceAs (Decidable (_ ∧ _))

/-- What is inside some visit in one of the roles is inside an outermost one. -/
theorem exists_outermost {t : Trail} {x : Trail × Visit} (hx : x ∈ xs) (hrole : x.2.role ∈ roles)
    (habove : x.1.Above t) : ∃ y ∈ xs, xs.Outermost roles y ∧ y.1.Above t := by
  by_cases houter : xs.Outermost roles x
  · exact ⟨x, hx, houter, habove⟩
  · simp only [Outermost, hrole, true_and, not_forall, not_not] at houter
    obtain ⟨y, hy, hyrole, hyabove⟩ := houter
    exact exists_outermost hy hyrole (hyabove.trans habove)
termination_by x.1.length
decreasing_by exact hyabove.length_lt

end Trails

namespace Recorder

/-! ## What is written down -/

/-- What is missing if the recorder keeps out of some visits is what is inside the outermost. -/
theorem writes_skipping (roles : List Visit.Role) (x : Visit) :
    (full.skipping roles).writes x =
      (x.trails.filter fun y =>
        ∀ z ∈ x.trails, x.trails.Outermost roles z → ¬ z.1.Above y.1).map Prod.snd := by
  have hbars (t : Trail) : (full.skipping roles).bars x.trails t = true ↔
      ∃ z ∈ x.trails, x.trails.Outermost roles z ∧ z.1.Above t := by
    rw [bars_eq_true_iff]
    constructor
    · rintro ⟨z, hz, hkeeps, habove⟩
      have hrole : z.2.role ∈ roles := by simpa [keepsOut, skipping, full] using hkeeps
      exact Trails.exists_outermost hz hrole habove
    · rintro ⟨z, hz, houter, habove⟩
      exact ⟨z, hz, by simp [keepsOut, skipping, full, houter.1], habove⟩
  refine congrArg (List.map Prod.snd) (List.filter_congr fun y _ => ?_)
  have hrecords : (full.skipping roles).records y.2.role = true := rfl
  rw [hrecords, Bool.true_and, Bool.eq_iff_iff, Bool.not_eq_true', ← Bool.not_eq_true, hbars,
    decide_eq_true_iff]
  push Not
  rfl

/-! ## Whole records -/

/--
The recorder of everything makes a record of all visits. A recorder of a single role has
the visits in that role on its record. A recorder that does not go on inside visits in
some roles has all visits on its record but those inside the outermost visits in these roles;
these are the visits that the recorder of everything makes as it goes on there.
-/
theorem agrees_with_full (root : Node) :
    let made := (Visit.node root).trails
    full.run (·.visit root) = ⟨made.map Prod.snd, false⟩ ∧
      (∀ role, (only role).run (·.visit root) =
        ⟨(made.map Prod.snd).filter (·.role = role), false⟩) ∧
      (∀ roles, (full.skipping roles).run (·.visit root) =
        ⟨(made.filter fun y =>
          ∀ z ∈ made, made.Outermost roles z → ¬ z.1.Above y.1).map Prod.snd, false⟩) ∧
      ∀ z ∈ made, full.run (·.below z.2) =
        ⟨(made.filter fun y => z.1.Above y.1).map Prod.snd, false⟩ := by
  refine ⟨?_, fun role => ?_, fun roles => ?_, fun z hz => ?_⟩
  · rw [run_visit_of_unlimited rfl, writes_full]
  · rw [run_visit_of_unlimited rfl, writes_of_descends fun _ => rfl]
    rfl
  · rw [run_visit_of_unlimited rfl, writes_skipping]
  · rw [run_below_of_unlimited rfl, writesInside_full, Visit.filter_above_trails hz,
      Trails.map_snd_after]

/-- A row with a row in it. -/
private def nestedRow : Node := .sequence [.name "a", .sequence [.name "b"]]

/-- Going on at the inner list, the recorder of everything finds what is inside of it. -/
theorem agrees_with_full_nested :
    full.run (·.walkList ⟨[.name "b"], .zero⟩) =
      ⟨((Visit.node nestedRow).trails.filter fun y =>
        Trail.Above [.construct, .slot (.item 1), .construct] y.1).map Prod.snd, false⟩ := by
  have hmade : ([.construct, .slot (.item 1), .construct], .list ⟨[.name "b"], .zero⟩) ∈
      (Visit.node nestedRow).trails := by
    simp [nestedRow, Node.sequence, Node.construct, Visit.cons_mem_trails_iff,
      Visit.mem_ofSlotted, Slotted.mem_items, Visit.nil_mem_trails_iff]
  exact (agrees_with_full nestedRow).2.2.2 _ hmade

end Recorder

end SqlDialect
