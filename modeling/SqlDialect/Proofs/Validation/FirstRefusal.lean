import SqlDialect.Proofs.Validation.Refusal
import Mathlib.Data.List.Induction

/-!
# The verdict is that of the first refusal

The rules of refusal know no pass: they speak of a list of nodes. A list is allowed
if the rules refuse nothing in it, and the verdict on a list that is not allowed is
the violation by the first node that they refuse.

The rules look back from a node to all nodes before it, so lists are taken apart at
their ends.

## Main results

* `Dialect.judgeAll_eq_ok_iff`, `Dialect.judgeAll_eq_error_iff`: the verdict of the
  recursion is the one that the rules give.
* `Dialect.validate_eq_first_refusal`: so is the verdict of validation, on the calls,
  literals and declared types of the statement.
-/

namespace SqlDialect

namespace Dialect

/-- The rules refuse none of the nodes, each taken after those before it. -/
def Allows (d : Dialect) (ns : List Node) : Prop :=
  ∀ before n after cause, ns = before ++ n :: after → ¬ d.Refuses before n cause

variable {d : Dialect} {ns ms : List Node} {n : Node}

theorem allows_nil : d.Allows [] := by
  intro before n after cause h
  simp at h

theorem Allows.left (h : d.Allows (ns ++ ms)) : d.Allows ns := by
  rintro before n after cause rfl
  exact h before n (after ++ ms) cause (by simp)

theorem allows_concat_iff :
    d.Allows (ns ++ [n]) ↔ d.Allows ns ∧ ∀ cause, ¬ d.Refuses ns n cause := by
  constructor
  · exact fun h => ⟨h.left, fun cause => h ns n [] cause rfl⟩
  · rintro ⟨hns, hn⟩ before m after cause hsplit
    cases after using List.reverseRecOn with
    | nil =>
        obtain ⟨rfl, hnm⟩ := List.append_inj' hsplit rfl
        obtain rfl := List.singleton_inj.mp hnm
        exact hn cause
    | append_singleton after k =>
        rw [← List.cons_append, ← List.append_assoc] at hsplit
        exact hns before m after cause (List.append_inj_left' hsplit rfl)

/-! ## The verdict on a list -/

private theorem judgeAll_singleton (d : Dialect) (queryMet : Bool) (n : Node) :
    d.judgeAll queryMet [n] =
      match d.nodeCause? queryMet n with
      | some cause => .error (cause.violation n.position)
      | none => .ok () := rfl

theorem judgeAll_eq_ok_iff : d.judgeAll false ns = .ok () ↔ d.Allows ns := by
  induction ns using List.reverseRecOn with
  | nil => exact ⟨fun _ => allows_nil, fun _ => rfl⟩
  | append_singleton ns n ih =>
      have hlast : d.judgeAll (ns.any Node.isQuery) [n] = .ok () ↔
          ∀ cause, ¬ d.Refuses ns n cause := by
        rw [judgeAll_singleton]
        simp only [refuses_iff]
        cases d.nodeCause? (ns.any Node.isQuery) n <;> simp
      rw [judgeAll_append_eq_ok_iff, Bool.false_or, ih, hlast, allows_concat_iff]

/-- The verdict on nodes of which the first that is refused is known. -/
theorem judgeAll_of_refuses {before after : List Node} {cause : Cause} (hbefore : d.Allows before)
    (hn : d.Refuses before n cause) :
    d.judgeAll false (before ++ n :: after) = .error (cause.violation n.position) := by
  rw [judgeAll_append, judgeAll_eq_ok_iff.mpr hbefore, Bool.false_or]
  show d.judgeAll (before.any Node.isQuery) (n :: after) = _
  rw [judgeAll, refuses_iff.mp hn]

theorem judgeAll_eq_error_iff {v : Violation} :
    d.judgeAll false ns = .error v ↔
      ∃ before n after cause, ns = before ++ n :: after ∧ d.Allows before ∧
        d.Refuses before n cause ∧ v = cause.violation n.position := by
  constructor
  · intro h
    induction ns using List.reverseRecOn with
    | nil => cases h
    | append_singleton ns n ih =>
        rw [judgeAll_append, Bool.false_or] at h
        cases hns : d.judgeAll false ns with
        | error w =>
            rw [hns] at h ih
            obtain ⟨before, m, after, cause, rfl, hrest⟩ := ih h
            exact ⟨before, m, after ++ [n], cause, by simp, hrest⟩
        | ok u =>
            have hlast : d.judgeAll (ns.any Node.isQuery) [n] = .error v := by
              rw [hns] at h
              exact h
            rw [judgeAll_singleton] at hlast
            cases hcause : d.nodeCause? (ns.any Node.isQuery) n with
            | none =>
                rw [hcause] at hlast
                cases hlast
            | some cause =>
                rw [hcause] at hlast
                obtain rfl := Except.error.inj hlast
                exact ⟨ns, n, [], cause, rfl, judgeAll_eq_ok_iff.mp hns, refuses_iff.mpr hcause,
                  rfl⟩
  · rintro ⟨before, n, after, cause, rfl, hbefore, hn, rfl⟩
    exact judgeAll_of_refuses hbefore hn

end Dialect

/-! ## The verdict on a statement -/

namespace Node

/-- Whether the node is something to be judged: a call, a literal or a declared type. -/
def isSite : Node → Bool
  | .call _ | .literal _ | .dataType _ => true
  | _ => false

/-- The calls, literals and declared types that validation can come to, in pre-order. -/
def sites (n : Node) : List Node := n.reached.filter isSite

end Node

namespace Dialect

variable {d : Dialect}

/-- Nodes that are not sites can be left out. -/
private theorem judgeAll_filter_isSite (d : Dialect) (queryMet : Bool) (ns : List Node) :
    d.judgeAll queryMet (ns.filter Node.isSite) = d.judgeAll queryMet ns := by
  induction ns generalizing queryMet with
  | nil => rfl
  | cons n ns ih =>
      cases hsite : n.isSite with
      | true => rw [List.filter_cons_of_pos hsite, judgeAll, judgeAll, ih]
      | false =>
          have hquery : n.isQuery = false := by
            cases n with
            | call c => cases hsite
            | _ => rfl
          have hcause : d.nodeCause? queryMet n = none := by
            cases n with
            | call c | literal l | dataType t => cases hsite
            | _ => rfl
          rw [List.filter_cons_of_neg (by simp [hsite]), ih, judgeAll, hcause, hquery,
            Bool.or_false]

/-- The verdict on a statement in which the first node that is refused is known. -/
theorem validate_of_refuses {root n : Node} {before after : List Node} {cause : Cause}
    (hsplit : root.reached = before ++ n :: after) (hbefore : d.Allows before)
    (hn : d.Refuses before n cause) :
    d.validate root = .error ⟨n.position, cause.description⟩ := by
  rw [validate_eq_judgeAll, hsplit]
  exact judgeAll_of_refuses hbefore hn

/-- The verdict on what is refused on its own, taken for a statement. -/
theorem validate_self_of_refuses {n : Node} {cause : Cause} (hn : d.Refuses [] n cause) :
    d.validate n = .error ⟨n.position, cause.description⟩ := by
  obtain ⟨below, hsplit⟩ : ∃ below, n.reached = [] ++ n :: below := ⟨_, n.reached_eq⟩
  exact validate_of_refuses hsplit allows_nil hn

/--
A statement is supported if the rules refuse none of its calls, literals and declared
types, and otherwise it is refused with the first of them that the rules refuse, at
the position of that construct and for the cause that the rules give.
-/
theorem validate_eq_first_refusal (d : Dialect) (root : Node) :
    (d.validate root = .ok () ↔ d.Allows root.sites) ∧
      ∀ v, d.validate root = .error v ↔
        ∃ before site after cause, root.sites = before ++ site :: after ∧ d.Allows before ∧
          d.Refuses before site cause ∧ v = ⟨site.position, cause.description⟩ := by
  rw [validate_eq_judgeAll, ← judgeAll_filter_isSite]
  exact ⟨judgeAll_eq_ok_iff, fun v => judgeAll_eq_error_iff⟩

end Dialect

end SqlDialect
