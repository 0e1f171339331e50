import EmergencyDispatch.Structs

/-!
# Priorities and levels (`main.c`)

The table of priorities is the array `priority_lookup_table` of
`config_server.h`, which the developer is invited to edit: it is a parameter.
-/

namespace EmergencyDispatch

/-- `priority_lookup_table` as the repository has it. -/
def defaultPriorityLookupTable : List PriorityRule :=
  [⟨0, 60, NO_TIMEOUT⟩, ⟨1, NO_PROMOTION, 60⟩, ⟨2, NO_PROMOTION, 30⟩]

theorem defaultPriorityLookupTable_ne_nil : defaultPriorityLookupTable ≠ [] :=
  List.cons_ne_nil _ _

variable (table : List PriorityRule)

/-- `get_priority_level`: how many rows have a smaller number, and `0` for a
number that is in no row. -/
def getPriorityLevel (priorityNumber : ℤ) : ℕ :=
  if table.any fun rule => rule.number == priorityNumber then
    table.countP fun rule => rule.number < priorityNumber
  else 0

/-- `priority_to_level`. -/
def priorityToLevel (priority : ℤ) : ℕ := getPriorityLevel table priority

/-- The row of index `level`, the last one when there are fewer. -/
def ruleAt (level : ℕ) : PriorityRule :=
  (table[min level (table.length - 1)]?).getD ⟨0, NO_PROMOTION, NO_TIMEOUT⟩

/-- `level_to_priority`. -/
def levelToPriority (level : ℕ) : ℤ := (ruleAt table level).number

/-- `priority_to_timeout_timer`. -/
def priorityToTimeoutTimer (priority : ℤ) : ℤ :=
  (ruleAt table (priorityToLevel table priority)).timeBeforeTimeout

/-- `priority_to_promotion_timer`. -/
def priorityToPromotionTimer (priority : ℤ) : ℤ :=
  (ruleAt table (priorityToLevel table priority)).timeBeforePromotion

/-- `get_next_priority`. -/
def getNextPriority (p : ℤ) : ℤ :=
  if priorityToLevel table p + 1 = table.length then p
  else levelToPriority table (priorityToLevel table p + 1)

/-- `compare_priorities`: positive when the first one is higher. -/
def comparePriorities (a b : ℤ) : ℤ :=
  (priorityToLevel table a : ℤ) - (priorityToLevel table b : ℤ)

/-! ## Priorities that are in the table -/

/-- The number is the number of a row. -/
def Listed (p : ℤ) : Prop := p ∈ table.map (·.number)

instance (p : ℤ) : Decidable (Listed table p) := inferInstanceAs (Decidable (_ ∈ _))

variable {table} {p q : ℤ}

theorem Listed.exists_rule (h : Listed table p) : ∃ rule ∈ table, rule.number = p := by
  simpa [Listed] using h

theorem priorityToLevel_of_listed (h : Listed table p) :
    priorityToLevel table p = table.countP fun rule => decide (rule.number < p) := by
  obtain ⟨rule, hrule, hnumber⟩ := h.exists_rule
  rw [priorityToLevel, getPriorityLevel, if_pos]
  exact List.any_eq_true.mpr ⟨rule, hrule, by simpa using hnumber⟩

theorem priorityToLevel_lt (hne : table ≠ []) (p : ℤ) :
    priorityToLevel table p < table.length := by
  by_cases h : Listed table p
  · obtain ⟨rule, hrule, hnumber⟩ := h.exists_rule
    rw [priorityToLevel_of_listed h]
    -- the row of `p` itself is not counted
    refine lt_of_le_of_ne (List.countP_le_length) fun hall => ?_
    have := List.countP_eq_length.mp hall rule hrule
    simp [hnumber] at this
  · have hany : ¬(table.any fun rule => rule.number == p) = true := by
      intro hany
      obtain ⟨rule, hrule, hnumber⟩ := List.any_eq_true.mp hany
      exact h (List.mem_map.mpr ⟨rule, hrule, by simpa using hnumber⟩)
    rw [priorityToLevel, getPriorityLevel, if_neg hany]
    exact List.length_pos_iff.mpr hne

theorem priorityToLevel_lt_of_lt (hp : Listed table p) (hq : Listed table q) (h : p < q) :
    priorityToLevel table p < priorityToLevel table q := by
  rw [priorityToLevel_of_listed hp, priorityToLevel_of_listed hq]
  obtain ⟨rule, hrule, hnumber⟩ := hp.exists_rule
  -- every row below `p` is below `q`, and the row of `p` is one more
  have hsub : ∀ l : List PriorityRule,
      (l.countP fun rule => decide (rule.number < p)) ≤
        l.countP fun rule => decide (rule.number < q) := by
    intro l
    refine List.countP_mono_left fun r _ hr => ?_
    have : r.number < p := by simpa using hr
    simpa using this.trans h
  obtain ⟨before, after, rfl⟩ := List.append_of_mem hrule
  have hbefore := hsub before
  have hafter := hsub after
  simp only [List.countP_append, List.countP_cons, hnumber, lt_self_iff_false, decide_false, h,
    decide_true, if_true, Bool.false_eq_true, if_false]
  omega

/-- Of two listed numbers, the levels are ordered as the numbers are. -/
theorem lt_of_priorityToLevel_lt (hp : Listed table p) (hq : Listed table q)
    (h : priorityToLevel table p < priorityToLevel table q) : p < q := by
  rcases lt_trichotomy p q with hlt | rfl | hgt
  · exact hlt
  · exact absurd h (lt_irrefl _)
  · exact absurd (priorityToLevel_lt_of_lt hq hp hgt) (by omega)

theorem eq_of_priorityToLevel_eq (hp : Listed table p) (hq : Listed table q)
    (h : priorityToLevel table p = priorityToLevel table q) : p = q := by
  rcases lt_trichotomy p q with hlt | heq | hgt
  · exact absurd (priorityToLevel_lt_of_lt hp hq hlt) (by omega)
  · exact heq
  · exact absurd (priorityToLevel_lt_of_lt hq hp hgt) (by omega)

theorem ruleAt_mem (hne : table ≠ []) (level : ℕ) : ruleAt table level ∈ table := by
  have hpos := List.length_pos_iff.mpr hne
  have hlt : min level (table.length - 1) < table.length := by omega
  rw [ruleAt, List.getElem?_eq_getElem hlt, Option.getD_some]
  exact List.getElem_mem hlt

theorem Listed.getNextPriority (hne : table ≠ []) (h : Listed table p) :
    Listed table (getNextPriority table p) := by
  rw [EmergencyDispatch.getNextPriority]
  split
  · exact h
  · exact List.mem_map.mpr ⟨_, ruleAt_mem hne _, rfl⟩

end EmergencyDispatch
