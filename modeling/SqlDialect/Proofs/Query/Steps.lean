import SqlDialect.Node.Expression
import SqlDialect.Query.Builder
import Mathlib.Data.List.DropRight
import Mathlib.Data.List.Infix
import Mathlib.Data.List.Induction

/-!
# What the steps of a query come to

Each step of making a query brings an argument for one part of it. What the steps come to can
be read off from these arguments, part by part: the keywords add up, in any other part the last
argument stands, and what was brought before a restart is forgotten. In which order the steps
for different parts were taken is lost.

The position is one of the parts. It does not matter when it is set, so neither does it when
the keywords and the lists that it is given to are set.

## Main definitions

* `Query.arguments`: what the steps bring for a part, from the last restart on.
* `Query.SameArguments`: sequences of steps that bring the same for every part.

## Main results

* `Query.Builder.ofSteps_eq`: a query in the making from the arguments for its parts.
* `Query.Builder.ofSteps_move`, `Query.Builder.ofSteps_overwritten`: steps that may be moved or
  left out.
* `Query.query_from_arguments`: the query that is built, also on the way.
-/

namespace SqlDialect

namespace Query

/-! ## Parts and arguments -/

/-- The parts of a query that can be set. -/
inductive Part where
  | keywords
  | columns
  | fromClause
  | whereClause
  | groupBy
  | having
  | orderBy
  | offset
  | fetch
  | position
deriving DecidableEq

/-- What a step brings for a part. -/
@[reducible]
def Part.Argument : Part → Type
  | .keywords => SelectKeyword
  | .columns | .groupBy | .orderBy => List Node
  | .fromClause | .whereClause | .having | .offset | .fetch => Node
  | .position => Position

namespace Step

/-- The part that a step is for. A restart is for none. -/
def part? : Step → Option Part
  | .keyword _ => some .keywords
  | .columns _ => some .columns
  | .fromClause _ => some .fromClause
  | .whereClause _ => some .whereClause
  | .groupBy _ => some .groupBy
  | .having _ => some .having
  | .orderBy _ => some .orderBy
  | .offset _ => some .offset
  | .fetch _ => some .fetch
  | .position _ => some .position
  | .restart => none

/-- What the step brings for the part, if it is for this part. -/
def argument? : (part : Part) → Step → Option part.Argument
  | .keywords, .keyword word => some word
  | .columns, .columns ns => some ns
  | .fromClause, .fromClause n => some n
  | .whereClause, .whereClause n => some n
  | .groupBy, .groupBy ns => some ns
  | .having, .having n => some n
  | .orderBy, .orderBy ns => some ns
  | .offset, .offset n => some n
  | .fetch, .fetch n => some n
  | .position, .position place => some place
  | _, _ => none

theorem argument?_eq_none {s : Step} {part : Part} (h : s.part? ≠ some part) :
    s.argument? part = none := by
  revert h
  cases s <;> cases part <;> simp [part?, argument?]

theorem exists_argument {s : Step} {part : Part} (h : s.part? = some part) :
    ∃ a, s.argument? part = some a := by
  cases s <;> cases h <;> exact ⟨_, rfl⟩

theorem eq_restart {s : Step} (h : ¬ s.part?.isSome = true) : s = .restart := by
  cases s with
  | restart => rfl
  | _ => exact absurd rfl h

end Step

/-- The steps after the last restart. -/
def sinceRestart (steps : List Step) : List Step := steps.rtakeWhile fun s => s.part?.isSome

/-- What the steps bring for the part, in order and from the last restart on. -/
def arguments (part : Part) (steps : List Step) : List part.Argument :=
  (sinceRestart steps).filterMap (Step.argument? part)

/-- What the steps bring last for the part. -/
def lastArgument? (part : Part) (steps : List Step) : Option part.Argument :=
  (arguments part steps).getLast?

/-- The steps bring the same keywords, and last the same for any other part. -/
structure SameArguments (steps others : List Step) : Prop where
  keywords : arguments .keywords steps = arguments .keywords others
  last : ∀ part, part ≠ .keywords → lastArgument? part steps = lastArgument? part others

variable {part : Part} {steps others before between after : List Step} {s t : Step}

@[simp] theorem sinceRestart_concat_restart (steps : List Step) :
    sinceRestart (steps ++ [.restart]) = [] := by
  simp [sinceRestart, Step.part?]

theorem sinceRestart_concat (h : s.part?.isSome = true) :
    sinceRestart (steps ++ [s]) = sinceRestart steps ++ [s] := by
  rw [sinceRestart, List.rtakeWhile_concat, if_pos h, sinceRestart]

/-- Where there is no restart, all steps count. -/
theorem sinceRestart_eq_self (h : ∀ s ∈ steps, s.part?.isSome = true) :
    sinceRestart steps = steps := List.rtakeWhile_eq_self_iff.mpr h

@[simp] theorem arguments_concat_restart (part : Part) (steps : List Step) :
    arguments part (steps ++ [.restart]) = [] := by
  rw [arguments, sinceRestart_concat_restart, List.filterMap_nil]

theorem arguments_append (h : ∀ s ∈ others, s.part?.isSome = true) :
    arguments part (steps ++ others) =
      arguments part steps ++ others.filterMap (Step.argument? part) := by
  induction others using List.reverseRecOn with
  | nil => simp
  | append_singleton others s ih =>
      have hs : s.part?.isSome = true := h s (by simp)
      have hothers : ∀ t ∈ others, t.part?.isSome = true := fun t ht =>
        h t (List.mem_append_left _ ht)
      rw [← List.append_assoc, arguments, sinceRestart_concat hs, List.filterMap_append,
        ← arguments, ih hothers, List.filterMap_append, List.append_assoc]

theorem arguments_concat (h : s.part?.isSome = true) :
    arguments part (steps ++ [s]) = arguments part steps ++ (s.argument? part).toList := by
  rw [arguments_append (by simpa using h)]
  cases hs : s.argument? part <;> simp [hs]

theorem lastArgument?_concat (h : s.part?.isSome = true) :
    lastArgument? part (steps ++ [s]) = (s.argument? part).or (lastArgument? part steps) := by
  rw [lastArgument?, arguments_concat h, lastArgument?]
  cases s.argument? part <;> simp

/-- It makes no difference to the arguments if a step is taken after steps for other parts. -/
theorem filterMap_argument?_move (h : ∀ t ∈ between, t.part? ≠ s.part?) (part : Part) :
    (s :: between).filterMap (Step.argument? part) =
      (between ++ [s]).filterMap (Step.argument? part) := by
  rw [← List.singleton_append, List.filterMap_append, List.filterMap_append]
  by_cases hs : s.part? = some part
  · have hnone : between.filterMap (Step.argument? part) = [] :=
      List.filterMap_eq_nil_iff.mpr fun t ht => Step.argument?_eq_none (hs ▸ h t ht)
    rw [hnone, List.append_nil, List.nil_append]
  · have hnone : [s].filterMap (Step.argument? part) = [] := by
      rw [List.filterMap_cons_none (Step.argument?_eq_none hs), List.filterMap_nil]
    rw [hnone, List.append_nil, List.nil_append]

/-! ## A query in the making -/

namespace Builder

@[simp] theorem ofSteps_concat (steps : List Step) (s : Step) :
    ofSteps (steps ++ [s]) = (ofSteps steps).step s := List.foldl_concat ..

/-- Each part is what the arguments for it come to; the position is zero if none is set. -/
theorem ofSteps_eq (steps : List Step) :
    ofSteps steps =
      { keywords := arguments .keywords steps
        columns := lastArgument? .columns steps
        fromClause := lastArgument? .fromClause steps
        whereClause := lastArgument? .whereClause steps
        groupBy := lastArgument? .groupBy steps
        having := lastArgument? .having steps
        orderBy := lastArgument? .orderBy steps
        offset := lastArgument? .offset steps
        fetch := lastArgument? .fetch steps
        position := (lastArgument? .position steps).getD .zero } := by
  induction steps using List.reverseRecOn with
  | nil => rfl
  | append_singleton steps s ih =>
      rw [ofSteps_concat, ih]
      by_cases hs : s.part?.isSome = true
      · simp only [arguments_concat hs, lastArgument?_concat hs]
        cases s with
        | restart => cases hs
        | _ => simp [step, Step.argument?]
      · rw [Step.eq_restart hs]
        simp [step, lastArgument?, empty]

/-- Steps that bring the same come to the same. -/
theorem ofSteps_congr (h : SameArguments steps others) : ofSteps steps = ofSteps others := by
  rw [ofSteps_eq, ofSteps_eq others, h.keywords]
  simp (disch := decide) only [h.last]

/-- A step can be taken later, after steps for other parts. -/
theorem ofSteps_move (hs : s.part?.isSome = true)
    (hbetween : ∀ t ∈ between, t.part?.isSome = true ∧ t.part? ≠ s.part?) :
    ofSteps (before ++ s :: between) = ofSteps (before ++ (between ++ [s])) := by
  have hall : ∀ t ∈ s :: between, t.part?.isSome = true :=
    List.forall_mem_cons.mpr ⟨hs, fun t ht => (hbetween t ht).1⟩
  have hall' : ∀ t ∈ between ++ [s], t.part?.isSome = true := fun t ht =>
    hall t (List.perm_append_singleton s between |>.subset ht)
  have harguments : ∀ part, arguments part (before ++ s :: between) =
      arguments part (before ++ (between ++ [s])) := by
    intro part
    rw [arguments_append hall, arguments_append hall',
      filterMap_argument?_move (fun t ht => (hbetween t ht).2) part]
  refine ofSteps_congr ⟨harguments _, fun part _ => ?_⟩
  rw [lastArgument?, lastArgument?, harguments]

/-- A step can be left out if a later one is for the same part, except for keywords. -/
theorem ofSteps_overwritten (hs : s.part? = some part) (ht : t.part? = some part)
    (hpart : part ≠ .keywords) (hbetween : ∀ u ∈ between, u.part?.isSome = true) :
    ofSteps (before ++ s :: between ++ [t]) = ofSteps (before ++ between ++ [t]) := by
  have hset : t.part?.isSome = true := by rw [ht]; rfl
  have hall : ∀ u ∈ s :: between, u.part?.isSome = true :=
    List.forall_mem_cons.mpr ⟨by rw [hs]; rfl, hbetween⟩
  have harguments : ∀ other, other ≠ part →
      arguments other (before ++ s :: between) = arguments other (before ++ between) := by
    intro other hother
    have hnone : s.argument? other = none :=
      Step.argument?_eq_none (by simpa [hs] using hother.symm)
    rw [arguments_append hall, arguments_append hbetween, List.filterMap_cons_none hnone]
  refine ofSteps_congr ⟨?_, fun other _ => ?_⟩
  · rw [arguments_concat hset, arguments_concat hset, harguments _ hpart.symm]
  · rw [lastArgument?_concat hset, lastArgument?_concat hset]
    by_cases hother : other = part
    · obtain ⟨a, ha⟩ := Step.exists_argument (hother ▸ ht)
      rw [ha]
      rfl
    · rw [lastArgument?, lastArgument?, harguments other hother]

/-- What came before a restart is forgotten. -/
theorem ofSteps_restart (before after : List Step) :
    ofSteps (before ++ .restart :: after) = ofSteps after := by
  rw [ofSteps, List.foldl_append]
  rfl

/-- What comes to the same does so after further steps as well. -/
theorem ofSteps_append_congr (h : ofSteps steps = ofSteps others) (after : List Step) :
    ofSteps (steps ++ after) = ofSteps (others ++ after) := by
  rw [ofSteps, ofSteps, List.foldl_append, List.foldl_append]
  exact congrArg (after.foldl step) h

/-- On the way there is what could be built if the steps ended there. -/
theorem stages_eq (b : Builder) (steps : List Step) :
    b.stages steps = steps.inits.map fun taken => (taken.foldl step b).build? := by
  induction steps generalizing b with
  | nil => rfl
  | cons s steps ih =>
      rw [stages, ih, List.inits_cons, List.map_cons, List.map_map]
      rfl

end Builder

/-! ## The query that is built -/

/--
What is built depends on nothing but the arguments that the steps bring for each part from the
last restart on. The keywords are all that were brought, in order, and every other part is what
was brought for it last; only without a select list is there no query. The position that was
set last, or zero, is also that of the keywords and of the lists that are made, while the nodes
that were brought keep theirs. The same holds of what could be built after each of the steps.

So sequences of steps that bring the same build the same, and go on to do so when further steps
follow. In particular a step may be taken later, after steps for other parts, and one that is
overwritten may be left out.
-/
theorem query_from_arguments :
    (∀ steps, ofSteps? steps = (lastArgument? .columns steps).map fun columns =>
      let place := (lastArgument? .position steps).getD .zero
      { keywords := ⟨(arguments .keywords steps).map fun keyword =>
          .literal (.symbol (.select keyword) place), place⟩
        selectList := ⟨columns, place⟩
        fromClause := lastArgument? .fromClause steps
        whereClause := lastArgument? .whereClause steps
        groupBy := (lastArgument? .groupBy steps).map fun items => ⟨items, place⟩
        having := lastArgument? .having steps
        orderBy := (lastArgument? .orderBy steps).map fun items => ⟨items, place⟩
        offset := lastArgument? .offset steps
        fetch := lastArgument? .fetch steps
        position := place }) ∧
    (∀ steps, Builder.empty.stages steps = steps.inits.map ofSteps?) ∧
    (∀ steps others, SameArguments steps others → ∀ after,
      ofSteps? (steps ++ after) = ofSteps? (others ++ after)) ∧
    (∀ before s between after, s.part?.isSome = true →
      (∀ t ∈ between, t.part?.isSome = true ∧ t.part? ≠ s.part?) →
      ofSteps? (before ++ s :: between ++ after) =
        ofSteps? (before ++ (between ++ [s]) ++ after)) ∧
    (∀ before s between t after part, s.part? = some part → t.part? = some part →
      part ≠ .keywords → (∀ u ∈ between, u.part?.isSome = true) →
      ofSteps? (before ++ s :: between ++ [t] ++ after) =
        ofSteps? (before ++ between ++ [t] ++ after)) ∧
    ∀ before after, ofSteps? (before ++ .restart :: after) = ofSteps? after := by
  refine ⟨?_, ?_, ?_, ?_, ?_, ?_⟩
  · intro steps
    rw [ofSteps?, Builder.ofSteps_eq]
    rfl
  · intro steps
    exact Builder.stages_eq .empty steps
  · intro steps others h after
    exact congrArg Builder.build? (Builder.ofSteps_append_congr (Builder.ofSteps_congr h) after)
  · intro before s between after hs hbetween
    exact congrArg Builder.build?
      (Builder.ofSteps_append_congr (Builder.ofSteps_move hs hbetween) after)
  · intro before s between t after part hs ht hpart hbetween
    exact congrArg Builder.build?
      (Builder.ofSteps_append_congr (Builder.ofSteps_overwritten hs ht hpart hbetween) after)
  · intro before after
    exact congrArg Builder.build? (Builder.ofSteps_restart before after)

/-- `SELECT DISTINCT * FROM t`, with another table at first and the position set in between. -/
theorem query_from_arguments_distinct :
    let distinct : Step := .keyword .distinct
    let columns : Step := .columns [.star]
    let fromU : Step := .fromClause (.name "u")
    let fromT : Step := .fromClause (.name "t")
    let place : Step := .position (.point 1 1)
    ofSteps? ([columns, fromU, distinct, place, fromT] ++ [.fetch (.integer 1)]) =
        ofSteps? ([distinct, fromT, place, columns] ++ [.fetch (.integer 1)]) ∧
      ofSteps? ([] ++ columns :: [distinct, place] ++ [fromT]) =
        ofSteps? ([] ++ ([distinct, place] ++ [columns]) ++ [fromT]) ∧
      ofSteps? ([columns] ++ fromU :: [place] ++ [fromT] ++ [distinct]) =
        ofSteps? ([columns] ++ [place] ++ [fromT] ++ [distinct]) := by
  intro distinct columns fromU fromT place
  obtain ⟨-, -, hsame, hmove, hoverwritten, -⟩ := query_from_arguments
  refine ⟨hsame _ _ ⟨rfl, ?_⟩ _, hmove [] columns _ _ rfl ?_, ?_⟩
  · intro part _
    cases part <;> rfl
  · decide
  · exact hoverwritten [columns] fromU [place] fromT [distinct] .fromClause rfl rfl
      (by decide) (by simp [place, Step.part?])

end Query

end SqlDialect
