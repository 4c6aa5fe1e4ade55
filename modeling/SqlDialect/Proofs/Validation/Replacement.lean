import SqlDialect.Proofs.Validation.FirstRefusal
import SqlDialect.Node.Expression

/-!
# Replacing a node that a pass comes to

A construct that is refused on its own is refused in every place that a pass comes
to: the pass reports this construct and nothing else, whatever is around it and
below it.

What has to be shown is that nothing before the place changes its mind. Of the nodes
before it only those above it are touched at all, and what a node is judged by does
not reach into its operands, with one exception: a join is judged by the operand
that holds its variant. So that operand is the one place that is left out.

## Main results

* `Dialect.judgeAll_of_alike`: nodes that are judged alike have the same verdict.
* `Dialect.judgeAll_of_editedAlong`: editing nodes does not change the verdict on them.
* `Dialect.validate_replaceAt`: a refused call is blamed wherever it is put.
-/

namespace SqlDialect

/-! ## What a judgement does not look at -/

/-- A join is of the variant that it was, unless the slot for the variant gets another flag. -/
theorem Join.joinType?_modify {j : Join Node} {s : Slot} {f : Node → Node}
    (hflag : s = .joinType → (f j.joinType).symbol? = j.joinType.symbol?) :
    (j.modify s f).joinType? = j.joinType? := by
  by_cases hs : s = .joinType
  · subst hs
    have hsymbol : (j.modify .joinType f).joinType.symbol? = j.joinType.symbol? := hflag rfl
    rw [joinType?, joinType?, hsymbol]
  · rw [joinType?, joinType?, j.joinType_modify hs]

namespace Dialect

variable {d : Dialect}

theorem queryCause?_modify (queryMet : Bool) (q : Query Node) (s : Slot) (f : Node → Node) :
    queryCause? queryMet (q.modify s f) = queryCause? queryMet q := by
  rw [queryCause?, queryCause?, q.limitsRows_modify]

/-- The judgement on a call does not look at its operands, but for the variant of a join. -/
theorem callCause?_modify {c : Call Node} {s : Slot} {f : Node → Node} {queryMet : Bool}
    (hflag : s = .joinType → ∀ m, (s, m) ∈ c.slots → (f m).symbol? = m.symbol?) :
    d.callCause? queryMet (c.modify s f) = d.callCause? queryMet c := by
  cases c with
  | select q =>
      show (if Kind.select ∈ d.kinds then none else queryCause? queryMet (q.modify s f)) = _
      rw [queryCause?_modify]
      rfl
  | join j =>
      have htype : (j.modify s f).joinType? = j.joinType? :=
        Join.joinType?_modify fun hs => hflag hs j.joinType (by simp [hs, Call.slots])
      show (if Kind.join ∈ d.kinds then none else d.joinCause? (j.modify s f)) = _
      rw [joinCause?, htype]
      rfl
  | _ => cases s <;> rfl

/-- Nodes that are the same but for an operand are judged alike. -/
theorem nodeCause?_of_edited {n m : Node} (h : Node.Edited n m) (queryMet : Bool) :
    d.nodeCause? queryMet m = d.nodeCause? queryMet n := by
  cases h with
  | same => rfl
  | slot s f hflag =>
      cases n with
      | call c =>
          have hcall : d.callCause? queryMet (c.modify s f) = d.callCause? queryMet c :=
            callCause?_modify hflag
          show (if ((Node.call c).modify s f).isSkipped then none
            else d.callCause? queryMet (c.modify s f)) = _
          rw [Node.isSkipped_modify, hcall]
          rfl
      | _ => cases s <;> rfl

private theorem isQuery_of_edited {n m : Node} (h : Node.Edited n m) : m.isQuery = n.isQuery := by
  cases h with
  | same => rfl
  | slot s f _ => exact n.isQuery_modify s f

private theorem position_of_edited {n m : Node} (h : Node.Edited n m) :
    m.position = n.position := by
  cases h with
  | same => rfl
  | slot s f _ => exact n.position_modify s f

/-! ## Nodes that are judged alike -/

/--
The nodes are refused for the same causes at the same position, and both are queries or
neither is.
-/
structure Alike (d : Dialect) (n m : Node) : Prop where
  nodeCause? : ∀ queryMet, d.nodeCause? queryMet m = d.nodeCause? queryMet n
  isQuery : m.isQuery = n.isQuery
  position : m.position = n.position

theorem Alike.refl (d : Dialect) (n : Node) : d.Alike n n := ⟨fun _ => rfl, rfl, rfl⟩

theorem alike_of_edited {n m : Node} (h : Node.Edited n m) : d.Alike n m where
  nodeCause? := nodeCause?_of_edited h
  isQuery := isQuery_of_edited h
  position := position_of_edited h

/-- Nodes that are judged alike one by one have the same verdict. -/
theorem judgeAll_of_alike {ns ms : List Node} (h : List.Forall₂ d.Alike ns ms)
    (queryMet : Bool) : d.judgeAll queryMet ms = d.judgeAll queryMet ns := by
  induction h generalizing queryMet with
  | nil => rfl
  | cons halike _ ih =>
      rw [judgeAll, judgeAll, halike.nodeCause?, halike.isQuery, halike.position, ih]

/-- Editing nodes does not change the verdict on them. -/
theorem judgeAll_of_editedAlong {xs ys : Located} (h : Node.EditedAlong xs ys)
    (queryMet : Bool) : d.judgeAll queryMet ys.nodes = d.judgeAll queryMet xs.nodes := by
  have halike : List.Forall₂ d.Alike xs.nodes ys.nodes :=
    List.rel_map (fun _ _ hxy => alike_of_edited hxy.2) h
  exact judgeAll_of_alike halike queryMet

/-! ## Blame -/

/-- The pass over a statement comes to a node: it refuses nothing before it. -/
def Visits (d : Dialect) (root : Node) (a : Address) (n : Node) : Prop :=
  ∃ before after, root.reachedAt = before ++ (a, n) :: after ∧ d.Allows before.nodes

/-- What stands before a node that occurs once does not depend on how it is found. -/
private theorem before_unique {xs before before' after after' : Located} {x : Address × Node}
    (hnodup : xs.Nodup) (hxs : xs = before ++ x :: after) (hxs' : xs = before' ++ x :: after') :
    before = before' := by
  subst hxs
  have hnot : x ∉ before ++ after := (List.nodup_middle.mp hnodup).notMem
  rw [List.mem_append, not_or] at hnot
  exact ((List.append_cons_inj_of_notMem hnot.1 hnot.2).mp hxs').1

/--
A call that is refused on its own is blamed wherever it is put: if the pass over a
statement comes to a node, and the node is not the one that holds the variant of a
join, then with the node replaced by the call the statement is refused for the
reason for which the call is, at the position of the call.
-/
theorem validate_replaceAt {root n : Node} {a : Address} (hvisits : d.Visits root a n)
    (hslot : a.getLast? ≠ some .joinType) {c : Call Node} {cause : Cause}
    (hcall : d.Refuses [] (.call c) cause) :
    d.validate (root.replaceAt a (.call c)) = .error ⟨c.position, cause.description⟩ ∧
      d.validate (.call c) = .error ⟨c.position, cause.description⟩ := by
  constructor
  · obtain ⟨before, after, hsplit, hallows⟩ := hvisits
    have hmem : (a, n) ∈ root.reachedAt := by simp [hsplit]
    obtain ⟨before₂, after₂, hsplit₂, hreplace⟩ := Node.reachedAt_replaceAt hmem
    obtain ⟨below, hbelow⟩ := n.exists_under_reachedAt a
    obtain ⟨below', hbelow'⟩ := (Node.call c).exists_under_reachedAt a
    -- The address alone tells what stands before it, so that is what the pass allows.
    have hsplit₃ : root.reachedAt = before₂ ++ (a, n) :: (below ++ after₂) := by
      rw [hsplit₂, hbelow, List.append_assoc, List.cons_append]
    obtain rfl := before_unique root.nodup_reachedAt.of_map hsplit hsplit₃
    obtain ⟨before', hedited, hafter⟩ := hreplace (.call c) fun hlast => absurd hlast hslot
    have hallows' : d.Allows before'.nodes := by
      rw [← judgeAll_eq_ok_iff, judgeAll_of_editedAlong hedited]
      exact judgeAll_eq_ok_iff.mpr hallows
    have hreached : (root.replaceAt a (.call c)).reached =
        Located.nodes before' ++ .call c :: (Located.nodes below' ++ Located.nodes after₂) := by
      rw [Node.reached, hafter, hbelow']
      simp [Located.nodes]
    exact validate_of_refuses hreached hallows' (hcall.context_free _)
  · have hreached : (Node.call c).reached = [] ++ .call c :: _ := Node.reached_eq _
    exact validate_of_refuses hreached allows_nil hcall

/-- `SELECT *` with a difference of nothing in the place of `*`. -/
theorem validate_replaceAt_star :
    executable.validate
        ((Node.call (.select (.ofSelectList ⟨[.star], .zero⟩ .zero))).replaceAt [.selectItem 0]
          (.call (.basic (.standard .except) [none, none] ⟨⟨1, 8⟩, ⟨1, 20⟩⟩))) =
      .error ⟨⟨⟨1, 8⟩, ⟨1, 20⟩⟩, "EXCEPT is not supported"⟩ := by
  have hvisits : executable.Visits (.call (.select (.ofSelectList ⟨[.star], .zero⟩ .zero)))
      [.selectItem 0] .star := by
    refine ⟨[([], .call (.select (.ofSelectList ⟨[.star], .zero⟩ .zero)))], [], ?_,
      judgeAll_eq_ok_iff.mp rfl⟩
    rw [Node.reachedAt_eq]
    show ([], _) :: (Node.star.reachedAt.under [.selectItem 0] ++ []) = _
    rw [Node.reachedAt_of_slots_eq_nil rfl]
    rfl
  have hcall : executable.Refuses []
      (.call (.basic (.standard .except) [none, none] ⟨⟨1, 8⟩, ⟨1, 20⟩⟩)) (.kind .except) :=
    .kind _ ⟨rfl, by decide⟩ (by decide) (by simp) (by simp)
  exact (validate_replaceAt hvisits (by decide) hcall).1

end Dialect

end SqlDialect
