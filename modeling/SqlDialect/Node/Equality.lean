import SqlDialect.Node

/-!
# Equality of nodes

Two nodes are equal when they are built alike, positions included; operators are
compared by identity. The comparison recurses over the nodes together with every
list and option in which nodes occur, so it is spelled out for each of them.

## Main results

* `Node.same_iff`: `Node.same` decides equality.
-/

namespace SqlDialect

namespace Node

/-! ## The comparison -/

mutual

/-- Whether two nodes are built alike. -/
def same : Node → Node → Bool
  | .call c, .call d => sameCall c d
  | .literal l, .literal l' => l == l'
  | .identifier i, .identifier i' => i == i'
  | .dataType t, .dataType t' => t == t'
  | .placeholder p, .placeholder p' => p == p'
  | .interval q, .interval q' => q == q'
  | .list l, .list l' => sameListing l l'
  | _, _ => false

/-- Whether two calls are built alike. -/
def sameCall : Call Node → Call Node → Bool
  | .basic op operands position, .basic op' operands' position' =>
    op == op' && sameOperands operands operands' && position == position'
  | .select q, .select q' => sameQuery q q'
  | .join j, .join j' => sameJoin j j'
  | .ddl op statement operands position, .ddl op' statement' operands' position' =>
    op == op' && statement == statement' && sameOperands operands operands' &&
      position == position'
  | _, _ => false

/-- Whether two queries are built alike. -/
def sameQuery : Query Node → Query Node → Bool
  | ⟨keywords, selectList, fromClause, whereClause, groupBy, having, orderBy, offset, fetch,
      position⟩, q =>
    sameListing keywords q.keywords && sameListing selectList q.selectList &&
      sameOption fromClause q.fromClause && sameOption whereClause q.whereClause &&
      sameClause groupBy q.groupBy && sameOption having q.having &&
      sameClause orderBy q.orderBy && sameOption offset q.offset &&
      sameOption fetch q.fetch && position == q.position

/-- Whether two joins are built alike. -/
def sameJoin : Join Node → Join Node → Bool
  | ⟨left, natural, joinType, right, conditionType, condition, position⟩, j =>
    same left j.left && same natural j.natural && same joinType j.joinType &&
      same right j.right && same conditionType j.conditionType &&
      sameOption condition j.condition && position == j.position

/-- Whether two lists are built alike. -/
def sameListing : Listing Node → Listing Node → Bool
  | ⟨items, position⟩, l => sameItems items l.items && position == l.position

/-- Whether two clauses are both absent or built alike. -/
def sameClause : Option (Listing Node) → Option (Listing Node) → Bool
  | none, none => true
  | some l, some l' => sameListing l l'
  | _, _ => false

/-- Whether two operands are both absent or built alike. -/
def sameOption : Option Node → Option Node → Bool
  | none, none => true
  | some n, some n' => same n n'
  | _, _ => false

/-- Whether two sequences hold nodes built alike. -/
def sameItems : List Node → List Node → Bool
  | [], [] => true
  | n :: ns, n' :: ns' => same n n' && sameItems ns ns'
  | _, _ => false

/-- Whether two sequences of operands are built alike. -/
def sameOperands : List (Option Node) → List (Option Node) → Bool
  | [], [] => true
  | o :: os, o' :: os' => sameOption o o' && sameOperands os os'
  | _, _ => false

end

/-! ## It decides equality -/

mutual

theorem same_iff : ∀ (n m : Node), same n m = true ↔ n = m
  | .call c, m => by cases m <;> simp [same, sameCall_iff c]
  | .literal _, m => by cases m <;> simp [same]
  | .identifier _, m => by cases m <;> simp [same]
  | .dataType _, m => by cases m <;> simp [same]
  | .placeholder _, m => by cases m <;> simp [same]
  | .interval _, m => by cases m <;> simp [same]
  | .list l, m => by cases m <;> simp [same, sameListing_iff l]

theorem sameCall_iff : ∀ (c d : Call Node), sameCall c d = true ↔ c = d
  | .basic _ os _, d => by
    cases d <;> simp [sameCall, sameOperands_iff os, and_assoc]
  | .select q, d => by cases d <;> simp [sameCall, sameQuery_iff q]
  | .join j, d => by cases d <;> simp [sameCall, sameJoin_iff j]
  | .ddl _ _ os _, d => by
    cases d <;> simp [sameCall, sameOperands_iff os, and_assoc]

theorem sameQuery_iff : ∀ (q r : Query Node), sameQuery q r = true ↔ q = r
  | ⟨keywords, selectList, fromClause, whereClause, groupBy, having, orderBy, offset, fetch, _⟩,
      r => by
    cases r
    simp [sameQuery, sameListing_iff keywords, sameListing_iff selectList,
      sameOption_iff fromClause, sameOption_iff whereClause,
      sameClause_iff groupBy, sameOption_iff having,
      sameClause_iff orderBy, sameOption_iff offset,
      sameOption_iff fetch, and_assoc]

theorem sameJoin_iff : ∀ (j k : Join Node), sameJoin j k = true ↔ j = k
  | ⟨left, natural, joinType, right, conditionType, condition, _⟩, k => by
    cases k
    simp [sameJoin, same_iff left, same_iff natural, same_iff joinType,
      same_iff right, same_iff conditionType, sameOption_iff condition,
      and_assoc]

theorem sameListing_iff : ∀ (l k : Listing Node), sameListing l k = true ↔ l = k
  | ⟨items, _⟩, k => by cases k; simp [sameListing, sameItems_iff items]

theorem sameClause_iff : ∀ (l k : Option (Listing Node)), sameClause l k = true ↔ l = k
  | none, k => by cases k <;> simp [sameClause]
  | some l, k => by cases k <;> simp [sameClause, sameListing_iff l]

theorem sameOption_iff : ∀ (o p : Option Node), sameOption o p = true ↔ o = p
  | none, p => by cases p <;> simp [sameOption]
  | some n, p => by cases p <;> simp [sameOption, same_iff n]

theorem sameItems_iff : ∀ (ns ms : List Node), sameItems ns ms = true ↔ ns = ms
  | [], ms => by cases ms <;> simp [sameItems]
  | n :: ns, ms => by
    cases ms <;> simp [sameItems, same_iff n, sameItems_iff ns]

theorem sameOperands_iff : ∀ (os ps : List (Option Node)), sameOperands os ps = true ↔ os = ps
  | [], ps => by cases ps <;> simp [sameOperands]
  | o :: os, ps => by
    cases ps <;> simp [sameOperands, sameOption_iff o, sameOperands_iff os]

end

instance : DecidableEq Node := fun n m => decidable_of_iff _ (same_iff n m)

instance : DecidableEq (Call Node) := fun c d => decidable_of_iff _ (sameCall_iff c d)

end Node

end SqlDialect
