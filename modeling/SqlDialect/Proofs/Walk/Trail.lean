import SqlDialect.Proofs.Walk.Inside
import Mathlib.Data.List.Lex
import Mathlib.Data.Prod.Lex

/-!
# Trails

The same construct can stand at many places of a statement, so a visit does not tell which
of them it is made at. What does is its trail: the steps that lead to it from the visit
that the walk begins with. `Visit.trails` lists all visits that are made while one is,
each with its trail, in the order in which a walk makes them that leaves nothing out.

One visit is inside another if its trail is longer by some steps. Of two visits neither of
which is inside the other, the trails part at some point, and there one of them takes a
step to a place that is written earlier.

## Main definitions

* `Trail.Above`: the visit at one trail is inside that at another.
* `Trail.Before`: the order in which a statement is written.

## Main results

* `Visit.cons_mem_trails_iff`: what there is to be visited.
* `Visit.pairwise_trails`, `Visit.nodup_trails`: it is listed in the order in which it is
  written, and nothing twice.
* `Visit.exists_stretch`: a visit stands next to those inside it.
-/

namespace SqlDialect

/-! ## The order of steps -/

/-- The place of a slot in its row; a slot that is not in a row is the only one of its field. -/
def Slot.index : Slot → Nat
  | .operand i | .item i | .keyword i | .selectItem i | .groupItem i | .orderItem i => i
  | _ => 0

/-- The field of a query that holds the clause, by its place among the fields. -/
def Clause.field (c : Clause) : Nat := (c.row 0).field

namespace Visit

namespace Step

/-- The field that a step leads to, and the place in the field. -/
def rank : Step → ℕ ×ₗ ℕ
  | .construct => toLex (0, 0)
  | .clause c => toLex (c.field, 0)
  | .slot s => toLex (s.field, s.index)

/-- Of two steps from one visit, the first leads to what is written earlier. -/
def Precedes (s t : Step) : Prop := s.rank < t.rank

instance (s t : Step) : Decidable (s.Precedes t) := inferInstanceAs (Decidable (_ < _))

end Step

private theorem precedes_of_lt (row : Nat → Slot) (field : Nat)
    (hfield : ∀ i, (row i).field = field) (hindex : ∀ i, (row i).index = i) (i j : Nat)
    (h : i < j) : (Step.slot (row i)).Precedes (.slot (row j)) := by
  rw [Step.Precedes, Step.rank, Step.rank, hfield, hfield, hindex, hindex, Prod.Lex.toLex_lt_toLex]
  exact .inr ⟨rfl, h⟩

private theorem pairwise_ofSlotted {xs : Slotted}
    (h : xs.labels.Pairwise fun s t => (Step.slot s).Precedes (.slot t)) :
    (ofSlotted xs).Pairwise fun y z => y.1.Precedes z.1 := by
  rw [ofSlotted, List.pairwise_map]
  rw [Slotted.labels, List.pairwise_map] at h
  exact h

/-- The visits inside a visit are made in the order in which they are written. -/
theorem pairwise_inside (x : Visit) : x.inside.Pairwise fun y z => y.1.Precedes z.1 := by
  cases x with
  | node n => exact List.pairwise_singleton _ _
  | call c =>
      cases c with
      | basic op os p | ddl op statement os p =>
          have hrow := precedes_of_lt .operand 0 (fun _ => rfl) fun _ => rfl
          exact pairwise_ofSlotted (Slotted.pairwise_present hrow os)
      | select q =>
          have hsteps : Query.steps.Pairwise Step.Precedes := by decide
          rw [inside]
          refine hsteps.filterMap _ fun s t hst y hy z hz => ?_
          obtain ⟨-, -, rfl⟩ := Option.map_eq_some_iff.mp hy
          obtain ⟨-, -, rfl⟩ := Option.map_eq_some_iff.mp hz
          exact hst
      | join j =>
          obtain ⟨left, natural, joinType, right, conditionType, condition, p⟩ := j
          refine pairwise_ofSlotted ?_
          cases condition with
          | none =>
              exact (by decide : [Slot.left, .natural, .joinType, .right, .conditionType].Pairwise
                fun s t => (Step.slot s).Precedes (.slot t))
          | some n =>
              exact (by decide : [Slot.left, .natural, .joinType, .right, .conditionType,
                .condition].Pairwise fun s t => (Step.slot s).Precedes (.slot t))
  | list l =>
      have hrow := precedes_of_lt .item 0 (fun _ => rfl) fun _ => rfl
      exact pairwise_ofSlotted (Slotted.pairwise_present hrow _)
  | _ => exact .nil

/-- No two visits directly inside a visit are made by the same step. -/
theorem eq_of_mem_inside {x : Visit} {y z : Step × Visit} (hy : y ∈ x.inside) (hz : z ∈ x.inside)
    (h : y.1 = z.1) : y = z := by
  have hnodup : (x.inside.map Prod.fst).Nodup :=
    List.pairwise_map.mpr (x.pairwise_inside.imp fun hlt heq => (heq ▸ hlt).false)
  exact List.inj_on_of_nodup_map hnodup hy hz h

/-- The other visits inside are made by other steps. -/
theorem exists_inside_split {x : Visit} {z : Step × Visit} (hz : z ∈ x.inside) :
    ∃ left right, x.inside = left ++ z :: right ∧ ∀ y ∈ left ++ right, y.1 ≠ z.1 := by
  obtain ⟨left, right, hsplit⟩ := List.append_of_mem hz
  have hlabels : (left ++ z :: right).Pairwise fun y w => y.1 ≠ w.1 :=
    hsplit ▸ x.pairwise_inside.imp fun hlt heq => (heq ▸ hlt).false
  rw [List.pairwise_append, List.pairwise_cons] at hlabels
  refine ⟨left, right, hsplit, fun y hy => ?_⟩
  rcases List.mem_append.mp hy with hy | hy
  · exact hlabels.2.2 y hy z List.mem_cons_self
  · exact (hlabels.2.1.1 y hy).symm

end Visit

/-! ## Trails -/

/-- The steps that lead from a visit to one inside it, at whatever depth. -/
abbrev Trail := List Visit.Step

/-- Visits with their trails. -/
abbrev Trails := List (Trail × Visit)

/-- The same visits, seen from further up. -/
def Trails.after (t : Trail) (xs : Trails) : Trails := xs.map (Prod.map (t ++ ·) id)

@[simp] theorem Trails.after_nil (xs : Trails) : xs.after [] = xs :=
  List.map_id xs

@[simp] theorem Trails.after_append (t : Trail) (xs ys : Trails) :
    Trails.after t (xs ++ ys) = xs.after t ++ ys.after t := List.map_append

@[simp] theorem Trails.after_after (t u : Trail) (xs : Trails) :
    (xs.after u).after t = xs.after (t ++ u) := by
  simp [after]

@[simp] theorem Trails.map_snd_after (t : Trail) (xs : Trails) :
    (xs.after t).map Prod.snd = xs.map Prod.snd := by
  simp [after]

theorem Trails.mem_after {t u : Trail} {x : Visit} {xs : Trails} :
    (u, x) ∈ xs.after t ↔ ∃ v, u = t ++ v ∧ (v, x) ∈ xs := by
  simp only [after, List.mem_map, Prod.exists, Prod.map_apply, id, Prod.mk.injEq]
  constructor
  · rintro ⟨v, y, hmem, rfl, rfl⟩
    exact ⟨v, rfl, hmem⟩
  · rintro ⟨v, rfl, hmem⟩
    exact ⟨v, x, hmem, rfl, rfl⟩

namespace Trail

/-- The visit at the second trail is inside that at the first. -/
def Above (t u : Trail) : Prop := t <+: u ∧ t ≠ u

instance (t u : Trail) : Decidable (t.Above u) := inferInstanceAs (Decidable (_ ∧ _))

@[simp] theorem not_above_nil (t : Trail) : ¬ t.Above [] := fun h =>
  h.2 (List.prefix_nil.mp h.1)

@[simp] theorem nil_above_cons (s : Visit.Step) (t : Trail) : Above [] (s :: t) :=
  ⟨List.nil_prefix, (List.cons_ne_nil s t).symm⟩

@[simp] theorem cons_above_cons {s s' : Visit.Step} {t u : Trail} :
    Above (s :: t) (s' :: u) ↔ s = s' ∧ t.Above u := by
  simp only [Above, List.cons_prefix_cons, ne_eq, List.cons.injEq, not_and]
  constructor
  · rintro ⟨⟨rfl, hprefix⟩, hne⟩
    exact ⟨rfl, hprefix, hne rfl⟩
  · rintro ⟨rfl, hprefix, hne⟩
    exact ⟨⟨rfl, hprefix⟩, fun _ => hne⟩

/-- What is visited at the first trail is written before what is visited at the second. -/
inductive Before : Trail → Trail → Prop
  /-- A visit comes before all that is inside it. -/
  | above {t u : Trail} (h : t.Above u) : Before t u
  /-- Where two trails part, all that is on the one side comes before all on the other. -/
  | beside (t : Trail) {s s' : Visit.Step} (h : s.Precedes s') (u u' : Trail) :
      Before (t ++ s :: u) (t ++ s' :: u')

namespace Before

variable {t u : Trail}

/-- The order of trails is the lexicographic order of the places that their steps lead to. -/
protected theorem lt (h : Before t u) : t.map Visit.Step.rank < u.map Visit.Step.rank := by
  cases h with
  | above h =>
      obtain ⟨⟨r, rfl⟩, hne⟩ := h
      cases r with
      | nil => exact absurd (List.append_nil t).symm hne
      | cons s r =>
          have hnil : ([] : List (ℕ ×ₗ ℕ)) < (s :: r).map Visit.Step.rank := List.nil_lt_cons _ _
          have hlt : t.map Visit.Step.rank ++ [] < t.map Visit.Step.rank ++ (s :: r).map _ :=
            List.append_left_lt hnil
          rwa [List.append_nil, ← List.map_append] at hlt
  | beside r h v v' =>
      have hcons : (_ :: v).map Visit.Step.rank < (_ :: v').map Visit.Step.rank :=
        List.cons_lt_cons_iff.mpr (.inl h)
      rw [List.map_append, List.map_append]
      exact List.append_left_lt hcons

protected theorem asymm (h : Before t u) : ¬ Before u t := by
  intro h'
  exact lt_asymm h.lt h'.lt

theorem cons (s : Visit.Step) (h : Before t u) : Before (s :: t) (s :: u) := by
  cases h with
  | above h => exact .above (cons_above_cons.mpr ⟨rfl, h⟩)
  | beside r h v v' => exact .beside (s :: r) h v v'

end Before

end Trail

namespace Visit

/-- All visits made while one is, which comes first, with their trails. -/
def trails (x : Visit) : Trails :=
  ([], x) :: x.inside.attach.flatMap fun y => y.1.2.trails.after [y.1.1]
termination_by x.weight
decreasing_by exact weight_lt_of_mem_inside y.2

theorem trails_eq (x : Visit) :
    x.trails = ([], x) :: x.inside.flatMap fun y => y.2.trails.after [y.1] := by
  rw [trails, List.flatMap_subtype (g := fun y => y.2.trails.after [y.1]) (fun _ _ => rfl),
    List.unattach_attach]

theorem nil_mem_trails_iff {x y : Visit} : ([], y) ∈ x.trails ↔ y = x := by
  rw [trails_eq, List.mem_cons, Prod.mk.injEq, List.mem_flatMap]
  constructor
  · rintro (⟨-, rfl⟩ | ⟨z, -, hz⟩)
    · rfl
    · obtain ⟨u, hu, -⟩ := Trails.mem_after.mp hz
      cases hu
  · rintro rfl
    exact .inl ⟨rfl, rfl⟩

/-- A step leads to a visit inside, and the rest of the trail goes on from there. -/
theorem cons_mem_trails_iff {x y : Visit} {s : Step} {t : Trail} :
    (s :: t, y) ∈ x.trails ↔ ∃ z, (s, z) ∈ x.inside ∧ (t, y) ∈ z.trails := by
  rw [trails_eq, List.mem_cons, Prod.mk.injEq, List.mem_flatMap]
  constructor
  · rintro (⟨h, -⟩ | ⟨⟨r, z⟩, hz, hy⟩)
    · cases h
    · obtain ⟨u, hu, hy⟩ := Trails.mem_after.mp hy
      obtain ⟨rfl, rfl⟩ := List.cons.inj hu
      exact ⟨z, hz, hy⟩
  · rintro ⟨z, hz, hy⟩
    exact .inr ⟨(s, z), hz, Trails.mem_after.mpr ⟨t, rfl, hy⟩⟩

theorem mem_trails_iff {x y : Visit} {t : Trail} :
    (t, y) ∈ x.trails ↔
      (t = [] ∧ y = x) ∨ ∃ s z u, (s, z) ∈ x.inside ∧ t = s :: u ∧ (u, y) ∈ z.trails := by
  cases t with
  | nil => simp [nil_mem_trails_iff]
  | cons s t => simp [cons_mem_trails_iff, and_assoc]

theorem self_mem_trails (x : Visit) : ([], x) ∈ x.trails := nil_mem_trails_iff.mpr rfl

/-- Visits are listed in the order in which they are written. -/
theorem pairwise_trails (x : Visit) : x.trails.Pairwise fun y z => y.1.Before z.1 := by
  induction x using inductionOnInside with
  | step x ih =>
      rw [trails_eq, List.pairwise_cons, List.pairwise_flatMap]
      refine ⟨fun z hz => ?_, fun y hy => ?_, x.pairwise_inside.imp fun {y z} hyz u hu v hv => ?_⟩
      · obtain ⟨y, -, hz⟩ := List.mem_flatMap.mp hz
        obtain ⟨w, -, rfl⟩ := List.mem_map.mp hz
        exact .above (Trail.nil_above_cons _ _)
      · exact List.pairwise_map.mpr ((ih y hy).imp fun h => h.cons y.1)
      · obtain ⟨u, -, rfl⟩ := List.mem_map.mp hu
        obtain ⟨v, -, rfl⟩ := List.mem_map.mp hv
        exact .beside [] hyz u.1 v.1

/-- Of two visits in the list, the one that is written earlier stands earlier. -/
theorem before_iff_lt (x : Visit) (i j : Fin x.trails.length) :
    x.trails[i].1.Before x.trails[j].1 ↔ i < j := by
  have hsorted (i j : Fin x.trails.length) (hlt : i < j) :
      x.trails[i].1.Before x.trails[j].1 :=
    List.pairwise_iff_getElem.mp x.pairwise_trails i j i.isLt j.isLt hlt
  constructor
  · intro hbefore
    rcases Nat.lt_trichotomy i j with hlt | heq | hgt
    · exact hlt
    · obtain rfl := Fin.ext heq
      exact absurd hbefore hbefore.asymm
    · exact absurd hbefore (hsorted j i hgt).asymm
  · exact hsorted i j

/-- No trail is listed twice. -/
theorem nodup_trails (x : Visit) : (x.trails.map Prod.fst).Nodup :=
  List.pairwise_map.mpr (x.pairwise_trails.imp fun h heq => (heq ▸ h).asymm (heq ▸ h))

/-! ## The stretch of a visit -/

/--
A visit and the visits inside it stand next to each other, and nothing else in the list
has a trail that goes on from that of the visit.
-/
theorem exists_stretch {x y : Visit} {t : Trail} (h : (t, y) ∈ x.trails) :
    ∃ before after, x.trails = before ++ y.trails.after t ++ after ∧
      ∀ z ∈ before ++ after, ¬ t <+: z.1 := by
  induction t generalizing x with
  | nil =>
      obtain rfl := nil_mem_trails_iff.mp h
      exact ⟨[], [], by simp, by simp⟩
  | cons s t ih =>
      obtain ⟨z, hz, hy⟩ := cons_mem_trails_iff.mp h
      obtain ⟨before, after, hsplit, hapart⟩ := ih hy
      obtain ⟨left, right, hinside, hothers⟩ := exists_inside_split hz
      let flat (ys : List (Step × Visit)) : Trails := ys.flatMap fun y => y.2.trails.after [y.1]
      refine ⟨([], x) :: flat left ++ before.after [s], after.after [s] ++ flat right, ?_, ?_⟩
      · rw [trails_eq, hinside, List.flatMap_append, List.flatMap_cons, hsplit]
        simp only [flat, Trails.after_append, Trails.after_after, List.append_assoc,
          List.cons_append, List.nil_append]
      intro w hw hprefix
      have hcases : w = ([], x) ∨ w ∈ flat (left ++ right) ∨
          w ∈ Trails.after [s] (before ++ after) := by
        simp only [flat, List.flatMap_append, Trails.after_append, List.mem_append,
          List.mem_cons] at hw ⊢
        tauto
      rcases hcases with rfl | hw | hw
      · exact List.cons_ne_nil s t (List.prefix_nil.mp hprefix)
      · obtain ⟨y, hy, hw⟩ := List.mem_flatMap.mp hw
        obtain ⟨u, hu, -⟩ := Trails.mem_after.mp hw
        rw [hu] at hprefix
        exact hothers y hy (List.cons_prefix_cons.mp hprefix).1.symm
      · obtain ⟨u, hu, hw⟩ := Trails.mem_after.mp hw
        rw [hu] at hprefix
        exact hapart _ hw (List.cons_prefix_cons.mp hprefix).2

/-- The visits inside a visit are those at the trails that go on from its own. -/
theorem filter_above_trails {x y : Visit} {t : Trail} (h : (t, y) ∈ x.trails) :
    x.trails.filter (fun z => t.Above z.1) =
      Trails.after t (y.inside.flatMap fun z => z.2.trails.after [z.1]) := by
  obtain ⟨before, after, hsplit, hapart⟩ := exists_stretch h
  have hnone (xs : Trails) (h : ∀ z ∈ xs, z ∈ before ++ after) :
      xs.filter (fun z => t.Above z.1) = [] :=
    List.filter_eq_nil_iff.mpr fun z hz habove =>
      hapart z (h z hz) (of_decide_eq_true habove).1
  have hbefore := hnone before fun _ => List.mem_append_left after
  have hafter := hnone after fun _ => List.mem_append_right before
  have hinside : (Trails.after t (y.inside.flatMap fun z => z.2.trails.after [z.1])).filter
      (fun z => t.Above z.1) =
        Trails.after t (y.inside.flatMap fun z => z.2.trails.after [z.1]) := by
    refine List.filter_eq_self.mpr fun z hz => decide_eq_true ?_
    obtain ⟨u, hu, hz⟩ := Trails.mem_after.mp hz
    obtain ⟨w, -, hw⟩ := List.mem_flatMap.mp hz
    obtain ⟨v, rfl, -⟩ := Trails.mem_after.mp hw
    rw [hu]
    exact ⟨List.prefix_append t _, by simp⟩
  rw [hsplit, trails_eq, ← List.singleton_append]
  simp only [Trails.after_append, List.filter_append, hbefore, hafter, hinside]
  simp [Trails.after, Trail.Above]

end Visit

end SqlDialect
