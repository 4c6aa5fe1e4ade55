import SqlDialect.Proofs.Query.Steps
import SqlDialect.Proofs.Validation.RowLimit

/-!
# Keywords of a query

The keywords of a query are the first thing that a pass comes to after the query itself, so a
keyword that is not supported is refused before any clause is looked at. Keywords that are
supported go for nothing: they have no operands, and the pass does not remember them.

The keywords of a query that is built by steps all stand where the query does, even where the
position was set after them.

## Main results

* `Dialect.judgeAll_keywordNodes`: the verdict on keywords at one place.
* `Dialect.validate_query`: the verdict on a query from its keywords and its other operands.
* `stream_decides_over_keywords`: what the keywords among the steps do to the verdict.
-/

namespace SqlDialect

/-! ## Leaving out steps for keywords -/

namespace Query

variable {steps : List Step} {keep : Step → Bool}

theorem sinceRestart_filter (hkeep : ∀ s, s.part? ≠ some .keywords → keep s = true)
    (steps : List Step) :
    sinceRestart (steps.filter keep) = (sinceRestart steps).filter keep := by
  induction steps using List.reverseRecOn with
  | nil => rfl
  | append_singleton steps s ih =>
      by_cases hset : s.part?.isSome = true
      · rw [sinceRestart_concat hset, List.filter_append, List.filter_append, ← ih]
        cases hs : keep s with
        | true =>
            rw [List.filter_cons_of_pos hs, List.filter_nil, sinceRestart_concat hset]
        | false =>
            rw [List.filter_cons_of_neg (by simp [hs]), List.filter_nil, List.append_nil,
              List.append_nil]
      · rw [Step.eq_restart hset]
        have hrestart : keep .restart = true := hkeep .restart nofun
        rw [List.filter_append, List.filter_cons_of_pos hrestart, List.filter_nil,
          sinceRestart_concat_restart, sinceRestart_concat_restart, List.filter_nil]

/-- What is brought for the parts other than the keywords is brought by steps that are kept. -/
theorem arguments_filter (hkeep : ∀ s, s.part? ≠ some .keywords → keep s = true) {part : Part}
    (hpart : part ≠ .keywords) (steps : List Step) :
    arguments part (steps.filter keep) = arguments part steps := by
  rw [arguments, sinceRestart_filter hkeep, List.filterMap_filter, arguments]
  refine List.filterMap_congr fun s _ => ?_
  by_cases hs : s.part? = some .keywords
  · rw [Step.argument?_eq_none (by simpa [hs] using hpart.symm), ite_self]
  · rw [if_pos (hkeep s hs)]

/-- No keywords come in when steps are left out. -/
theorem arguments_keywords_filter_subset
    (hkeep : ∀ s, s.part? ≠ some .keywords → keep s = true) (steps : List Step) :
    arguments .keywords (steps.filter keep) ⊆ arguments .keywords steps := by
  rw [arguments, sinceRestart_filter hkeep, arguments]
  exact List.filterMap_subset _ (List.filter_subset_self _)

/-- The keywords of a query that is built stand where the query does. -/
theorem keywords_of_ofSteps? {q : Query Node} (h : ofSteps? steps = some q) :
    q.keywords.items = (arguments .keywords steps).map (Builder.keywordNode q.position) := by
  rw [ofSteps?, Builder.ofSteps_eq] at h
  obtain ⟨columns, -, rfl⟩ := Option.map_eq_some_iff.mp h
  rfl

namespace Builder

/-- With steps for keywords left out, only the keywords are others. -/
theorem ofSteps_filter (hkeep : ∀ s, s.part? ≠ some .keywords → keep s = true)
    (steps : List Step) :
    ofSteps (steps.filter keep) =
      { ofSteps steps with keywords := arguments .keywords (steps.filter keep) } := by
  have hlast : ∀ part, part ≠ .keywords →
      lastArgument? part (steps.filter keep) = lastArgument? part steps := by
    intro part hpart
    rw [lastArgument?, arguments_filter hkeep hpart, lastArgument?]
  rw [ofSteps_eq, ofSteps_eq steps]
  simp (disch := decide) only [hlast]

/-- What is built with other keywords differs in nothing else. -/
theorem build?_with_keywords (b : Builder) (keywords : List SelectKeyword) :
    build? { b with keywords } = b.build?.map fun q =>
      { q with keywords := ⟨keywords.map (keywordNode b.position), b.position⟩ } := by
  rw [build?, build?, Option.map_map]
  rfl

end Builder

theorem ofSteps?_filter (hkeep : ∀ s, s.part? ≠ some .keywords → keep s = true) {q : Query Node}
    (h : ofSteps? steps = some q) :
    ∃ keywords, ofSteps? (steps.filter keep) = some { q with keywords } := by
  have hbuild : (Builder.ofSteps steps).build? = some q := h
  rw [ofSteps?, Builder.ofSteps_filter hkeep, Builder.build?_with_keywords, hbuild]
  exact ⟨_, rfl⟩

end Query

/-! ## The verdict on keywords -/

/-- The keyword as a node has nothing below it. -/
theorem Node.reached_keywordNode (place : Position) (keyword : SelectKeyword) :
    (Query.Builder.keywordNode place keyword).reached =
      [Query.Builder.keywordNode place keyword] :=
  Node.reached_eq _

namespace Dialect

variable {d : Dialect} {q : Query Node} {keywords : List SelectKeyword} {place : Position}

/-- Of keywords at one place, the first that the dialect does not have is refused there. -/
theorem judgeAll_keywordNodes (d : Dialect) (queryMet : Bool) (place : Position)
    (keywords : List SelectKeyword) :
    d.judgeAll queryMet (keywords.map (Query.Builder.keywordNode place)) =
      match keywords.find? (· ∉ d.selectKeywords) with
      | none => .ok ()
      | some keyword => .error ⟨place, keyword.name ++ " literal is not supported"⟩ := by
  induction keywords with
  | nil => rfl
  | cons keyword keywords ih =>
      have hcause : d.nodeCause? queryMet (Query.Builder.keywordNode place keyword) =
          if keyword ∈ d.selectKeywords then none else some (.symbol (.select keyword)) := by
        show (if d.supportsSymbol (.select keyword) then none else _) = _
        simp [supportsSymbol]
      have hquery : (Query.Builder.keywordNode place keyword).isQuery = false := rfl
      rw [List.map_cons, judgeAll, hcause, hquery, Bool.or_false, ih, List.find?_cons]
      by_cases hlisted : keyword ∈ d.selectKeywords
      · simp [hlisted]
      · simp [hlisted]
        rfl

/-- A query is judged by its keywords and then by its other operands; it is itself allowed. -/
theorem validate_query (d : Dialect) (q : Query Node) :
    d.validate (.call (.select q)) =
      (d.judgeAll true (q.keywords.items.flatMap Node.reached) >>= fun _ =>
        d.judgeAll true
          ((Node.call (.select { q with keywords := .empty })).operands.flatMap Node.reached)) := by
  have hskip : (Node.call (.select q)).isSkipped = false := rfl
  have hoperands : (Node.call (.select q)).operands =
      q.keywords.items ++ (Node.call (.select { q with keywords := .empty })).operands := by
    rw [Node.operands_select, Node.operands_select]
    simp [Listing.empty]
  rw [validate_eq_judgeAll, Node.reached_eq, judgeAll_false_query, hskip, if_neg Bool.false_ne_true,
    hoperands, List.flatMap_append, judgeAll_append, Bool.true_or]

/-- If its keywords are not refused, a query is judged by its other operands. -/
theorem validate_query_of_ok (h : d.judgeAll true (q.keywords.items.flatMap Node.reached) = .ok ()) :
    d.validate (.call (.select q)) =
      d.judgeAll true
        ((Node.call (.select { q with keywords := .empty })).operands.flatMap Node.reached) := by
  rw [validate_query, h]
  rfl

end Dialect

open Dialect

/-! ## Queries that are built -/

namespace Query

/-- Whether the step adds a keyword other than `STREAM`. -/
def Step.isPlainKeyword : Step → Bool
  | .keyword .distinct | .keyword .all => true
  | _ => false

variable {steps : List Step} {q : Query Node}

private theorem judgeAll_keywords_of_ofSteps? (h : ofSteps? steps = some q) :
    executable.judgeAll true (q.keywords.items.flatMap Node.reached) =
      match (arguments .keywords steps).find? (· ∉ executable.selectKeywords) with
      | none => .ok ()
      | some keyword => .error ⟨q.position, keyword.name ++ " literal is not supported"⟩ := by
  have hreached : q.keywords.items.flatMap Node.reached =
      (arguments .keywords steps).map (Builder.keywordNode q.position) := by
    rw [keywords_of_ofSteps? h, List.flatMap_map]
    simp only [Node.reached_keywordNode]
    exact List.map_eq_flatMap.symm
  rw [hreached, judgeAll_keywordNodes]

private theorem eq_stream_iff (keyword : SelectKeyword) :
    keyword ∉ executable.selectKeywords ↔ keyword = .stream := by
  cases keyword <;> decide

private theorem stream_mem_arguments_iff :
    .stream ∈ arguments .keywords steps ↔ .keyword .stream ∈ sinceRestart steps := by
  rw [arguments, List.mem_filterMap]
  constructor
  · rintro ⟨s, hs, hargument⟩
    cases s <;> cases hargument
    exact hs
  · intro h
    exact ⟨_, h, rfl⟩

private theorem judgeAll_keywords_eq_ok (h : ofSteps? steps = some q)
    (hstream : .stream ∉ arguments .keywords steps) :
    executable.judgeAll true (q.keywords.items.flatMap Node.reached) = .ok () := by
  have hnone : (arguments .keywords steps).find? (· ∉ executable.selectKeywords) = none := by
    rw [List.find?_eq_none]
    intro keyword hkeyword hunlisted
    have hkeyword' := (eq_stream_iff keyword).mp (of_decide_eq_true hunlisted)
    exact hstream (hkeyword' ▸ hkeyword)
  rw [judgeAll_keywords_of_ofSteps? h, hnone]

/--
A query that is built by steps one of which adds `STREAM` is refused where it stands, whatever
else the steps set and whichever of them come first. If no step does so, then it makes no
difference to the verdict to leave out all steps that add `DISTINCT` or `ALL`.

The steps before the last restart are forgotten, so it is the others that count. Where there
is no restart, these are all steps.
-/
theorem stream_decides_over_keywords (steps : List Step) (q : Query Node)
    (h : ofSteps? steps = some q) :
    (.keyword .stream ∈ sinceRestart steps →
      validate (.call (.select q)) = .error ⟨q.position, "STREAM literal is not supported"⟩) ∧
    (.keyword .stream ∉ sinceRestart steps →
      ∃ p, ofSteps? (steps.filter fun s => !s.isPlainKeyword) = some p ∧
        validate (.call (.select q)) = validate (.call (.select p))) := by
  rw [← stream_mem_arguments_iff]
  constructor
  · intro hstream
    obtain ⟨keyword, hfind⟩ : ∃ keyword,
        (arguments .keywords steps).find? (· ∉ executable.selectKeywords) = some keyword := by
      rw [← Option.isSome_iff_exists, List.find?_isSome]
      exact ⟨.stream, hstream, by decide⟩
    have hunlisted := List.find?_some hfind
    have hkeyword : keyword = .stream := (eq_stream_iff keyword).mp (of_decide_eq_true hunlisted)
    rw [validate, validate_query, judgeAll_keywords_of_ofSteps? h, hfind, hkeyword]
    rfl
  · intro hstream
    have hkeep : ∀ s : Step, s.part? ≠ some .keywords → (!s.isPlainKeyword) = true := by
      intro s hs
      cases s with
      | keyword keyword => exact absurd rfl hs
      | _ => rfl
    obtain ⟨keywords, hp⟩ := ofSteps?_filter hkeep h
    have hstream' : .stream ∉ arguments .keywords (steps.filter fun s => !s.isPlainKeyword) :=
      fun hmem => hstream (arguments_keywords_filter_subset hkeep steps hmem)
    refine ⟨_, hp, ?_⟩
    rw [validate, validate, validate_query_of_ok (judgeAll_keywords_eq_ok h hstream),
      validate_query_of_ok (judgeAll_keywords_eq_ok hp hstream')]

/-- `SELECT DISTINCT STREAM` of something that is refused too, with the position set last. -/
private def streamSteps : List Step :=
  [.columns [.standard .except []], .keyword .distinct, .keyword .stream, .position (.point 1 1)]

/-- `SELECT DISTINCT * FETCH 1`. -/
private def distinctSteps : List Step :=
  [.keyword .distinct, .columns [.star], .fetch (.integer 1), .position (.point 1 1)]

theorem stream_decides_over_keywords_distinct :
    (∃ q, ofSteps? streamSteps = some q ∧
      validate (.call (.select q)) = .error ⟨.point 1 1, "STREAM literal is not supported"⟩) ∧
    ∃ q p, ofSteps? distinctSteps = some q ∧
      ofSteps? [.columns [.star], .fetch (.integer 1), .position (.point 1 1)] = some p ∧
      validate (.call (.select q)) = validate (.call (.select p)) := by
  constructor
  · obtain ⟨q, hq⟩ : ∃ q, ofSteps? streamSteps = some q := ⟨_, rfl⟩
    have hall : ∀ s ∈ streamSteps, s.part?.isSome = true := by decide
    have hstream : .keyword .stream ∈ sinceRestart streamSteps := by
      rw [sinceRestart_eq_self hall]
      simp [streamSteps]
    have hplace : q.position = .point 1 1 := by
      obtain rfl := Option.some.inj hq
      rfl
    exact ⟨q, hq, hplace ▸ (stream_decides_over_keywords streamSteps q hq).1 hstream⟩
  · obtain ⟨q, hq⟩ : ∃ q, ofSteps? distinctSteps = some q := ⟨_, rfl⟩
    have hall : ∀ s ∈ distinctSteps, s.part?.isSome = true := by decide
    have hstream : .keyword .stream ∉ sinceRestart distinctSteps := by
      rw [sinceRestart_eq_self hall]
      simp [distinctSteps]
    obtain ⟨p, hp, hverdict⟩ := (stream_decides_over_keywords distinctSteps q hq).2 hstream
    exact ⟨q, p, hq, hp, hverdict⟩

end Query

end SqlDialect
