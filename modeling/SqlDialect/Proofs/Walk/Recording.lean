import SqlDialect.Node.Expression
import SqlDialect.Walk.Recorder
import SqlDialect.Proofs.Walk.Trail

/-!
# What a recorder writes down

A recorder chooses what it writes down, where it keeps the walk out and when it ends the
walk. The first two choices settle beforehand what there is to be written down: the visits
in the roles that the recorder attends to, apart from those inside a visit at which it
keeps the walk out. The walk is a loop over this list, and the third choice says at which
item the loop breaks off.

## Main results

* `Recorder.writes_eq`: the list is made from the lists for the visits inside.
* `Recorder.walk_eq_forM_writes`: a walk is a loop over the list, wherever it is entered.
* `Recorder.ends_at_limit`: a walk with a limit goes as far as the limit, and is ended there
  if there is so much to be written down.
-/

namespace SqlDialect

open Visitor (descend)

namespace Recorder

variable (r : Recorder)

/-! ## The list of visits to be written down -/

/-- Whether the recorder keeps the walk from going on inside the visit. -/
def keepsOut (x : Visit) : Bool := r.records x.role && !r.descends x.role

/-- Whether the trail leads into one of the visits that the recorder keeps the walk out of. -/
def bars (xs : Trails) (t : Trail) : Bool := xs.any fun y => r.keepsOut y.2 && decide (y.1.Above t)

/-- What the recorder writes down of a visit and all visits inside it, if nothing ends the walk. -/
def writes (x : Visit) : List Visit :=
  (x.trails.filter fun y => r.records y.2.role && !r.bars x.trails y.1).map Prod.snd

/-- What the recorder writes down of the visits inside a visit, if nothing ends the walk. -/
def writesInside (x : Visit) : List Visit := x.inside.flatMap fun y => r.writes y.2

theorem bars_eq_true_iff {xs : Trails} {t : Trail} :
    r.bars xs t = true ↔ ∃ y ∈ xs, r.keepsOut y.2 = true ∧ y.1.Above t := by
  simp [bars]

theorem bars_nil (xs : Trails) : r.bars xs [] = false := by
  simp [bars]

/-- A trail is barred by the visit that it begins with, or by one further on. -/
theorem bars_cons {x y : Visit} {s : Visit.Step} (hy : (s, y) ∈ x.inside) (t : Trail) :
    r.bars x.trails (s :: t) = (r.keepsOut x || r.bars y.trails t) := by
  rw [Bool.eq_iff_iff, Bool.or_eq_true, bars_eq_true_iff, bars_eq_true_iff]
  constructor
  · rintro ⟨⟨u, z⟩, hz, hkeeps, habove⟩
    cases u with
    | nil =>
        obtain rfl := Visit.nil_mem_trails_iff.mp hz
        exact .inl hkeeps
    | cons s' u =>
        obtain ⟨rfl, hbelow⟩ := Trail.cons_above_cons.mp habove
        obtain ⟨y', hy', hz'⟩ := Visit.cons_mem_trails_iff.mp hz
        obtain ⟨-, rfl⟩ := Prod.mk.inj (Visit.eq_of_mem_inside hy hy' rfl)
        exact .inr ⟨(u, z), hz', hkeeps, hbelow⟩
  · rintro (hkeeps | ⟨⟨u, z⟩, hz, hkeeps, habove⟩)
    · exact ⟨([], x), Visit.self_mem_trails x, hkeeps, Trail.nil_above_cons s t⟩
    · exact ⟨(s :: u, z), Visit.cons_mem_trails_iff.mpr ⟨y, hy, hz⟩, hkeeps,
        Trail.cons_above_cons.mpr ⟨rfl, habove⟩⟩

/-- A visit is written down before those inside it, unless the recorder keeps out of them. -/
theorem writes_eq (x : Visit) :
    r.writes x = (if r.records x.role then [x] else []) ++
      if r.keepsOut x then [] else r.writesInside x := by
  let p (y : Trail × Visit) : Bool := r.records y.2.role && !r.bars x.trails y.1
  have hself : p ([], x) = r.records x.role := by
    simp [p, bars_nil]
  have hinside : ∀ y ∈ x.inside, ((y.2.trails.after [y.1]).filter p).map Prod.snd =
      if r.keepsOut x then [] else r.writes y.2 := by
    intro y hy
    have hp : p ∘ Prod.map ([y.1] ++ ·) id = fun z =>
        !r.keepsOut x && (r.records z.2.role && !r.bars y.2.trails z.1) := by
      funext z
      simp only [p, Function.comp_apply, Prod.map, id, List.singleton_append, r.bars_cons hy,
        Bool.not_or]
      exact Bool.and_left_comm _ _ _
    rw [Trails.after, List.filter_map, hp, List.map_map]
    cases r.keepsOut x with
    | true => simp
    | false => simp [writes, Function.comp_def]
  have hsplit : r.writes x = ((([], x) :: x.inside.flatMap fun y =>
      y.2.trails.after [y.1]).filter p).map Prod.snd := by
    rw [← Visit.trails_eq]
    rfl
  rw [hsplit, ← List.singleton_append, List.filter_append, List.map_append, List.filter_flatMap,
    List.map_flatMap, List.flatMap_congr hinside]
  congr 1
  · rw [List.filter_singleton, hself]
    cases r.records x.role with
    | true => rfl
    | false => rfl
  · split
    · simp
    · rfl

/-! ## Recorders that go everywhere -/

variable {r} in
/-- Nothing is missing from the visits attended to if the recorder keeps out of none. -/
theorem writes_of_descends (h : ∀ role, r.descends role = true) (x : Visit) :
    r.writes x = (x.trails.map Prod.snd).filter fun y => r.records y.role := by
  have hbars (t : Trail) : r.bars x.trails t = false := by
    simp [bars, keepsOut, h]
  rw [List.filter_map]
  simp [writes, hbars, Function.comp_def]

theorem writes_full (x : Visit) : full.writes x = x.trails.map Prod.snd := by
  rw [writes_of_descends (fun _ => rfl)]
  exact List.filter_true _

theorem writesInside_full (x : Visit) :
    full.writesInside x = (x.inside.flatMap fun y => y.2.trails.after [y.1]).map Prod.snd := by
  simp [writesInside, writes_full, List.map_flatMap]

/-! ## The walk as a loop -/

/-- Writes down a visit, which ends the walk if it is the one at the limit. -/
def write (x : Visit) : Recording Unit := do
  modify (· ++ [x])
  if r.limit = some (← get).length then throw ()

theorem run_write (x : Visit) (visits : List Visit) :
    (r.write x).run.run visits =
      (if r.limit = some (visits.length + 1) then .error () else .ok (), visits ++ [x]) := by
  show (ite (r.limit = some (visits ++ [x]).length) _ _ : Recording Unit).run.run _ = _
  rw [List.length_append, List.length_singleton]
  split <;> rfl

/-- The recorder writes a visit down if it attends to it, and then goes on inside or does not. -/
theorem descend_record (x : Visit) (below : Recording Unit) :
    descend (r.record x) below = (do
      forM (if r.records x.role then [x] else []) r.write
      if r.keepsOut x then pure () else below) := by
  refine ExceptT.ext (StateT.ext fun visits => ?_)
  rw [descend, ExceptT.run_bind, StateT.run_bind, run_record, ExceptT.run_bind, StateT.run_bind]
  cases hrecords : r.records x.role with
  | false =>
      simp only [keepsOut, hrecords, Bool.false_and]
      rfl
  | true =>
      rw [if_pos rfl, if_pos rfl, List.forM_cons, ExceptT.run_bind, StateT.run_bind, run_write]
      by_cases hlast : r.limit = some (visits.length + 1)
      · rw [if_pos hlast, if_pos hlast]
        rfl
      · rw [if_neg hlast, if_neg hlast]
        cases hdescends : r.descends x.role with
        | false =>
            simp only [keepsOut, hrecords, hdescends]
            rfl
        | true =>
            simp only [keepsOut, hrecords, hdescends]
            rfl

theorem enter_visitor (x : Visit) :
    r.visitor.enter x = descend (r.record x) (r.visitor.below x) := by
  rw [Visitor.enter_eq]
  cases x with
  | node n | call c | list l => rfl
  | _ => simp [Visitor.answer, Visitor.below, visitor, descend, discard, map_const]

private theorem below_eq_forM_of_enter {x : Visit}
    (h : ∀ y ∈ x.inside, r.visitor.enter y.2 = forM (r.writes y.2) r.write) :
    r.visitor.below x = forM (r.writesInside x) r.write := by
  rw [Visitor.below_eq_forM, writesInside, forM_flatMap]
  exact forM_congr h

/-- A visit with all that is inside it is recorded by a loop over what there is to be written. -/
theorem enter_eq_forM_writes (x : Visit) : r.visitor.enter x = forM (r.writes x) r.write := by
  induction x using Visit.inductionOnInside with
  | step x ih =>
      rw [enter_visitor, descend_record, writes_eq, List.forM_append, below_eq_forM_of_enter r ih]
      cases r.keepsOut x with
      | true => rfl
      | false => rfl

theorem below_eq_forM_writes (x : Visit) :
    r.visitor.below x = forM (r.writesInside x) r.write :=
  below_eq_forM_of_enter r fun y _ => r.enter_eq_forM_writes y.2

/-- What the recorder writes down on a walk that is entered there, if nothing ends the walk. -/
def writesFrom (e : Entry) : List Visit := e.visits.flatMap r.writes

theorem walk_eq_forM_writes (e : Entry) : r.visitor.walk e = forM (r.writesFrom e) r.write := by
  rw [Visitor.walk_eq_forM, writesFrom, forM_flatMap]
  exact forM_congr fun x _ => r.enter_eq_forM_writes x

/-! ## How the loop ends -/

variable {r} {k : Nat} {visits : List Visit}

theorem run_forM_write_of_unlimited (h : r.limit = none) (xs : List Visit) :
    (forM xs r.write).run.run visits = (.ok (), visits ++ xs) := by
  induction xs generalizing visits with
  | nil => rw [List.append_nil]; rfl
  | cons x xs ih =>
      rw [List.forM_cons, ExceptT.run_bind, StateT.run_bind, run_write, h]
      show (forM xs r.write).run.run (visits ++ [x]) = _
      rw [ih, List.append_assoc]
      rfl

/-- With a limit the loop stops when the record is as long as the limit says. -/
theorem run_forM_write_of_limited (h : r.limit = some k) (xs : List Visit)
    (hlt : visits.length < k) :
    (forM xs r.write).run.run visits =
      if k ≤ visits.length + xs.length then (.error (), (visits ++ xs).take k)
      else (.ok (), visits ++ xs) := by
  induction xs generalizing visits with
  | nil =>
      rw [if_neg (by simpa using hlt), List.append_nil]
      rfl
  | cons x xs ih =>
      rw [List.forM_cons, ExceptT.run_bind, StateT.run_bind, run_write, h]
      by_cases hlast : visits.length + 1 = k
      · have htake : (visits ++ x :: xs).take k = visits ++ [x] := by
          rw [← hlast, List.append_cons]
          exact List.take_left' (by rw [List.length_append, List.length_singleton])
        have hle : k ≤ visits.length + (x :: xs).length := by
          rw [List.length_cons]
          omega
        rw [if_pos hle, htake, hlast, if_pos rfl]
        rfl
      · have hlonger : (visits ++ [x]).length < k := by
          rw [List.length_append, List.length_singleton]
          omega
        have hlength : (visits ++ [x]).length + xs.length = visits.length + (x :: xs).length := by
          rw [List.length_append, List.length_singleton, List.length_cons]
          omega
        rw [if_neg fun h => hlast (Option.some.inj h).symm]
        show (forM xs r.write).run.run (visits ++ [x]) = _
        rw [ih hlonger, hlength, ← List.append_cons]

theorem run_eq_of_unlimited {walk : Visitor Recording → Recording Unit} {xs : List Visit}
    (h : r.limit = none) (hwalk : walk r.visitor = forM xs r.write) :
    r.run walk = ⟨xs, false⟩ := by
  rw [run, hwalk, run_forM_write_of_unlimited h]
  rfl

theorem run_visit_of_unlimited (h : r.limit = none) (n : Node) :
    r.run (·.visit n) = ⟨r.writes (.node n), false⟩ :=
  run_eq_of_unlimited h (r.enter_eq_forM_writes (.node n))

theorem run_below_of_unlimited (h : r.limit = none) (x : Visit) :
    r.run (·.below x) = ⟨r.writesInside x, false⟩ :=
  run_eq_of_unlimited h (r.below_eq_forM_writes x)

variable (r) (e : Entry)

theorem run_walk_of_unlimited (h : r.limit = none) :
    r.run (·.walk e) = ⟨r.writesFrom e, false⟩ :=
  run_eq_of_unlimited h (r.walk_eq_forM_writes e)

theorem run_walk_of_limited (h : r.limit = some k) (hk : 1 ≤ k) :
    r.run (·.walk e) =
      if k ≤ (r.writesFrom e).length then ⟨(r.writesFrom e).take k, true⟩
      else ⟨r.writesFrom e, false⟩ := by
  have hlt : ([] : List Visit).length < k := hk
  rw [run, walk_eq_forM_writes, run_forM_write_of_limited h _ hlt, List.length_nil, Nat.zero_add]
  by_cases hle : k ≤ (r.writesFrom e).length
  · rw [if_pos hle, if_pos hle]
    rfl
  · rw [if_neg hle, if_neg hle]
    rfl

/--
Whatever a recorder attends to and wherever it keeps out, a limit ends its walk right after
the visit of that number, and a walk with fewer visits is not affected.
-/
theorem ends_at_limit (hk : 1 ≤ k) :
    ∃ visits, (r.stoppingAt none).run (·.walk e) = ⟨visits, false⟩ ∧
      (r.stoppingAt (some k)).run (·.walk e) =
        if k ≤ visits.length then ⟨visits.take k, true⟩ else ⟨visits, false⟩ :=
  ⟨r.writesFrom e, run_walk_of_unlimited _ e rfl, run_walk_of_limited _ e rfl hk⟩

/-- `SELECT a, b`. -/
private def twoColumns : Query Node :=
  .ofSelectList ⟨[.name "a", .name "b"], .zero⟩ .zero

/-- Writes down calls, lists and identifiers, and keeps out of nothing but lists. -/
private def listsAndNames : Recorder :=
  ⟨fun role => [Visit.Role.call, .list, .identifier].contains role, (· != .list), none⟩

/-- Entered below the call, the walk comes to two lists. -/
theorem ends_at_limit_lists :
    (listsAndNames.stoppingAt (some 1)).run (·.walkCall (.select twoColumns)) =
      ⟨[.list twoColumns.keywords], true⟩ := by
  obtain ⟨visits, hwhole, hlimited⟩ :=
    ends_at_limit listsAndNames (.call (.select twoColumns)) (Nat.le_refl 1)
  have hvisits : [.list twoColumns.keywords, .list twoColumns.selectList] = visits :=
    (Record.mk.inj (hwhole.symm.trans rfl)).1.symm
  rw [← hvisits] at hlimited
  exact hlimited

end Recorder

end SqlDialect
