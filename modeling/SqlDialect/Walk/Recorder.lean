import SqlDialect.Walk.Visit
import SqlDialect.Walk.Visitor

/-!
# Recording a walk

A recorder is a visitor that writes down what it visits. It may attend to visits
in some roles only, may refuse to go below some constructs, and may end the
walk at a visit of a given number. It serves to look at walks, and to try what a
visitor of one's own would come past.

## Main results

* `Recorder.run_record`: the record after a visit, and whether the walk goes on.
-/

namespace SqlDialect

/-- What a recorder attends to, and where it stops. -/
structure Recorder where
  /-- The roles in which visits are written down. -/
  records : Visit.Role → Bool
  /-- The roles, among those, in which the walk goes on below what is visited. -/
  descends : Visit.Role → Bool
  /-- The number, counted from one, of the visit that ends the walk. -/
  limit : Option Nat

/-- A walk that keeps its record also when it is ended. -/
abbrev Recording := ExceptT Unit (StateM (List Visit))

/-- The record of a walk. -/
structure Record where
  /-- The visits written down, in order. -/
  visits : List Visit
  /-- Whether the walk was ended before it was complete. -/
  stopped : Bool

namespace Recorder

/-- Writes down everything and goes everywhere. -/
def full : Recorder := ⟨fun _ => true, fun _ => true, none⟩

/-- Attends to no visit at all. -/
def nothing : Recorder := { full with records := fun _ => false }

/-- Attends to visits in a single role. -/
def only (role : Visit.Role) : Recorder := { full with records := (· == role) }

/-- Refuses to go below what is visited in one of the given roles. -/
def skipping (r : Recorder) (roles : List Visit.Role) : Recorder :=
  { r with descends := fun role => r.descends role && !roles.contains role }

/-- Ends the walk at the visit of the given number. -/
def stoppingAt (r : Recorder) (limit : Option Nat) : Recorder := { r with limit }

/-- Writes down a visit, and says whether to go on below it. -/
def record (r : Recorder) (visit : Visit) : Recording Bool := do
  if r.records visit.role then
    let visits := (← get) ++ [visit]
    set visits
    if r.limit = some visits.length then throw () else return r.descends visit.role
  else
    return true

/--
A visit that is attended to is on the record also when it is the one that ends
the walk; any other visit leaves the record alone and the walk free to go on.
-/
theorem run_record (r : Recorder) (visit : Visit) (visits : List Visit) :
    (r.record visit).run.run visits =
      if r.records visit.role then
        (if r.limit = some (visits.length + 1) then .error () else .ok (r.descends visit.role),
          visits ++ [visit])
      else (.ok true, visits) := by
  unfold record
  split
  · show (ite (r.limit = some (visits ++ [visit]).length) _ _ : Recording Bool).run.run _ = _
    rw [List.length_append, List.length_singleton]
    split <;> rfl
  · rfl

/-- The visitor that writes down what it visits. -/
def visitor (r : Recorder) : Visitor Recording where
  node n := r.record (.node n)
  call c := r.record (.call c)
  list l := r.record (.list l)
  literal l := discard (r.record (.literal l))
  identifier i := discard (r.record (.identifier i))
  dataType t := discard (r.record (.dataType t))
  placeholder p := discard (r.record (.placeholder p))
  interval q := discard (r.record (.interval q))

/-- The record of a walk, entered wherever the caller chooses. -/
def run (r : Recorder) (walk : Visitor Recording → Recording Unit) : Record :=
  match (walk r.visitor).run.run [] with
  | (.ok (), visits) => ⟨visits, false⟩
  | (.error (), visits) => ⟨visits, true⟩

end Recorder

end SqlDialect
