import EmergencyDispatch.Priorities
import EmergencyDispatch.Library.Ranks

/-!
# Tables with ascending numbers

The level of a number is counted (`priority_to_level`), while the inverse and
the timers index the table.  In a table with strictly ascending numbers the
level of a listed number is its rank in the chain of the numbers, hence the
index of its row, and a promotion leads to its successor.
-/

namespace EmergencyDispatch

open Ranks

/-- The numbers of the rows are strictly ascending. -/
def AscendingTable (table : List PriorityRule) : Prop :=
  table.Pairwise fun rule rule' => rule.number < rule'.number

instance (table : List PriorityRule) : Decidable (AscendingTable table) :=
  inferInstanceAs (Decidable (table.Pairwise _))

/-- The chain of the numbers. -/
def priorityNumbers (table : List PriorityRule) : List ℤ := table.map (·.number)

variable {table : List PriorityRule} {p q : ℤ}

@[simp] theorem length_priorityNumbers : (priorityNumbers table).length = table.length :=
  List.length_map ..

@[simp] theorem mem_priorityNumbers : p ∈ priorityNumbers table ↔ Listed table p := Iff.rfl

theorem priorityToLevel_eq_rank (hp : Listed table p) :
    priorityToLevel table p = rank (priorityNumbers table) p := by
  rw [priorityToLevel_of_listed hp, rank, priorityNumbers, List.countP_map]
  rfl

theorem ruleAt_eq_getElem {level : ℕ} (h : level < table.length) :
    ruleAt table level = table[level] := by
  have hmin : min level (table.length - 1) = level := by omega
  rw [ruleAt, hmin, List.getElem?_eq_getElem h, Option.getD_some]

theorem priorityNumbers_getElem? {level : ℕ} (h : level < table.length) :
    (priorityNumbers table)[level]? = some (levelToPriority table level) := by
  rw [priorityNumbers, List.getElem?_map, List.getElem?_eq_getElem h, levelToPriority,
    ruleAt_eq_getElem h]
  rfl

namespace AscendingTable

theorem pairwise_numbers (h : AscendingTable table) :
    (priorityNumbers table).Pairwise (· < ·) :=
  List.pairwise_map.mpr h

/-- The level of the number of a row is the index of the row. -/
theorem level_levelToPriority (h : AscendingTable table) {level : ℕ}
    (hlevel : level < table.length) :
    priorityToLevel table (levelToPriority table level) = level := by
  have hnumber := priorityNumbers_getElem? hlevel
  obtain ⟨hlt, hget⟩ := List.getElem?_eq_some_iff.mp hnumber
  rw [priorityToLevel_eq_rank, ← hget, rank_getElem h.pairwise_numbers hlt]
  exact List.mem_of_getElem? hnumber

theorem levelToPriority_level (h : AscendingTable table) (hp : Listed table p) :
    levelToPriority table (priorityToLevel table p) = p := by
  have hrank := getElem?_rank h.pairwise_numbers hp
  have hlt := rank_lt_length h.pairwise_numbers hp
  rw [length_priorityNumbers] at hlt
  rw [priorityToLevel_eq_rank hp]
  rw [priorityNumbers_getElem? hlt] at hrank
  exact Option.some.inj hrank

theorem ruleAt_number (h : AscendingTable table) {rule : PriorityRule} (hrule : rule ∈ table) :
    ruleAt table (priorityToLevel table rule.number) = rule := by
  obtain ⟨level, hlevel, rfl⟩ := List.mem_iff_getElem.mp hrule
  have hrow := ruleAt_eq_getElem hlevel
  have hback := h.level_levelToPriority hlevel
  rw [levelToPriority, hrow] at hback
  rw [hback, hrow]

theorem timers (h : AscendingTable table) {rule : PriorityRule} (hrule : rule ∈ table) :
    priorityToTimeoutTimer table rule.number = rule.timeBeforeTimeout ∧
      priorityToPromotionTimer table rule.number = rule.timeBeforePromotion := by
  rw [priorityToTimeoutTimer, priorityToPromotionTimer, h.ruleAt_number hrule]
  exact ⟨rfl, rfl⟩

/-- A promotion goes to the next number of the chain. -/
theorem getNextPriority_eq_successor (h : AscendingTable table) (hp : Listed table p) :
    getNextPriority table p = successor (priorityNumbers table) p := by
  have hlt := rank_lt_length h.pairwise_numbers hp
  rw [length_priorityNumbers] at hlt
  rw [getNextPriority, successor, priorityToLevel_eq_rank hp]
  by_cases hlast : rank (priorityNumbers table) p + 1 = table.length
  · rw [if_pos hlast, List.getElem?_eq_none (by simp [hlast])]
    rfl
  · rw [if_neg hlast, priorityNumbers_getElem? (by omega)]
    rfl

theorem iterate_getNextPriority (h : AscendingTable table) (hp : Listed table p) (k : ℕ) :
    (getNextPriority table)^[k] p = (successor (priorityNumbers table))^[k] p ∧
      Listed table ((getNextPriority table)^[k] p) := by
  have hne : table ≠ [] := by
    rintro rfl
    simp [Listed] at hp
  induction k with
  | zero => exact ⟨rfl, hp⟩
  | succ k ih =>
      obtain ⟨hsame, hlisted⟩ := ih
      rw [Function.iterate_succ_apply', Function.iterate_succ_apply']
      refine ⟨?_, hlisted.getNextPriority hne⟩
      rw [h.getNextPriority_eq_successor hlisted, hsame]

end AscendingTable

/-- `compare_priorities` has the sign of the difference of the numbers. -/
theorem sign_comparePriorities (hp : Listed table p) (hq : Listed table q) :
    (comparePriorities table p q).sign = (p - q).sign := by
  unfold comparePriorities
  rcases lt_trichotomy p q with hlt | rfl | hgt
  · have hlevel := priorityToLevel_lt_of_lt hp hq hlt
    rw [Int.sign_eq_neg_one_of_neg (by omega), Int.sign_eq_neg_one_of_neg (by omega)]
  · rw [sub_self, sub_self]
  · have hlevel := priorityToLevel_lt_of_lt hq hp hgt
    rw [Int.sign_eq_one_of_pos (by omega), Int.sign_eq_one_of_pos (by omega)]

/-- The two views of a table agree: levels that are counted and rows that are
indexed, the order of the numbers and the order of the levels, and promotions,
which climb from any row to the last one without skipping a row. -/
theorem priority_table_views_agree (h : AscendingTable table) (hp : Listed table p) :
    levelToPriority table (priorityToLevel table p) = p ∧
    (∃ rule ∈ table, rule.number = p) ∧
    (∀ rule ∈ table, rule.number = p →
      priorityToTimeoutTimer table p = rule.timeBeforeTimeout ∧
        priorityToPromotionTimer table p = rule.timeBeforePromotion) ∧
    (∀ q, Listed table q → (comparePriorities table p q).sign = (p - q).sign) ∧
    ((∃ q, Listed table q ∧ p < q) →
      IsLeast {q | Listed table q ∧ p < q} (getNextPriority table p)) ∧
    ((∀ q, Listed table q → q ≤ p) → getNextPriority table p = p) ∧
    IsGreatest {q | Listed table q} ((getNextPriority table)^[table.length - 1] p) ∧
    ∀ q, Listed table q → p ≤ q →
      ∃ k ≤ table.length - 1, (getNextPriority table)^[k] p = q := by
  have hchain := h.pairwise_numbers
  refine ⟨h.levelToPriority_level hp, hp.exists_rule, ?_, fun q => sign_comparePriorities hp,
    ?_, ?_, ?_, ?_⟩
  · rintro rule hrule rfl
    exact h.timers hrule
  · rintro ⟨q, hq, hlt⟩
    rw [h.getNextPriority_eq_successor hp]
    exact isLeast_successor hchain hp hq hlt
  · intro hlast
    rw [h.getNextPriority_eq_successor hp]
    exact successor_of_forall_le hchain hp hlast
  · rw [(h.iterate_getNextPriority hp _).1, ← length_priorityNumbers]
    exact isGreatest_iterate_successor hchain hp
  · intro q hq hle
    obtain ⟨k, hk, hiterate⟩ := exists_iterate_successor hchain hp hq hle
    rw [length_priorityNumbers] at hk
    exact ⟨k, hk, (h.iterate_getNextPriority hp k).1.trans hiterate⟩

theorem priority_table_views_agree_default :
    AscendingTable defaultPriorityLookupTable ∧ Listed defaultPriorityLookupTable 1 ∧
      getNextPriority defaultPriorityLookupTable 1 = 2 ∧
      (∃ rule ∈ defaultPriorityLookupTable, rule.number = 1) ∧
      IsGreatest {q | Listed defaultPriorityLookupTable q}
        ((getNextPriority defaultPriorityLookupTable)^[2] 1) := by
  have hlegal : AscendingTable defaultPriorityLookupTable ∧
      Listed defaultPriorityLookupTable 1 ∧
        getNextPriority defaultPriorityLookupTable 1 = 2 := by decide
  obtain ⟨hascending, hlisted, hnext⟩ := hlegal
  obtain ⟨-, hrow, -, -, -, -, hgreatest, -⟩ := priority_table_views_agree hascending hlisted
  exact ⟨hascending, hlisted, hnext, hrow, hgreatest⟩

end EmergencyDispatch
