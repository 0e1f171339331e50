import Mathlib.Data.List.Perm.Basic
import Mathlib.Data.List.Flatten

/-!
# A vector of FIFO lists

The functional reading of a priority queue with a fixed number of levels: one
list per level, the oldest item first, the list of index `0` the lowest level.
Taking an item out scans the levels from the highest down.
-/

namespace LeveledFifo

variable {α : Type*}

/-- The levels, the lowest first; each level lists its items, the oldest first. -/
abbrev Levels (α : Type*) := List (List α)

/-- All items, level by level. -/
def contents (levels : Levels α) : List α := levels.flatten

/-- Append `a` to the level of index `level`; a level that does not exist drops it. -/
def pushBack (levels : Levels α) (level : ℕ) (a : α) : Levels α :=
  levels.modify level (· ++ [a])

/-- Take the first item satisfying `p`, from the highest level down. -/
def extractFirst (p : α → Bool) : Levels α → Option (α × Levels α)
  | [] => none
  | items :: higher =>
      match extractFirst p higher with
      | some (a, higher') => some (a, items :: higher')
      | none =>
          match items.find? p with
          | some a => some (a, items.eraseP p :: higher)
          | none => none

/-- Take the oldest item of the highest level that is not empty. -/
def popFirst : Levels α → Option (α × Levels α)
  | [] => none
  | items :: higher =>
      match popFirst higher with
      | some (a, higher') => some (a, items :: higher')
      | none =>
          match items with
          | [] => none
          | a :: rest => some (a, rest :: higher)

@[simp] theorem contents_nil : contents ([] : Levels α) = [] := rfl

@[simp] theorem contents_cons (items : List α) (higher : Levels α) :
    contents (items :: higher) = items ++ contents higher := rfl

@[simp] theorem contents_replicate_nil (n : ℕ) :
    contents (List.replicate n ([] : List α)) = [] := by
  simp [contents]

theorem contents_pushBack_perm {levels : Levels α} {level : ℕ} (a : α)
    (hlevel : level < levels.length) :
    (contents (pushBack levels level a)).Perm (a :: contents levels) := by
  induction levels generalizing level with
  | nil => simp at hlevel
  | cons items higher ih =>
      cases level with
      | zero =>
          simp only [pushBack, List.modify_zero_cons, contents_cons, List.append_assoc]
          exact List.perm_middle
      | succ level =>
          have hperm : (contents (pushBack higher level a)).Perm (a :: contents higher) :=
            ih (by simpa using hlevel)
          simp only [pushBack, List.modify_succ_cons, contents_cons] at hperm ⊢
          exact (hperm.append_left items).trans List.perm_middle

@[simp] theorem length_pushBack (levels : Levels α) (level : ℕ) (a : α) :
    (pushBack levels level a).length = levels.length := by
  simp [pushBack]

/-- An item was extracted from a higher level, or from the lowest one when no higher one has a
match. -/
theorem extractFirst_cons_cases {p : α → Bool} {items : List α} {higher rest : Levels α} {a : α}
    (h : extractFirst p (items :: higher) = some (a, rest)) :
    (∃ higher', extractFirst p higher = some (a, higher') ∧ rest = items :: higher') ∨
      extractFirst p higher = none ∧ items.find? p = some a ∧
        rest = items.eraseP p :: higher := by
  rw [extractFirst] at h
  cases hhigher : extractFirst p higher with
  | some found =>
      obtain ⟨b, higher'⟩ := found
      simp only [hhigher, Option.some.injEq, Prod.mk.injEq] at h
      obtain ⟨rfl, rfl⟩ := h
      exact .inl ⟨higher', rfl, rfl⟩
  | none =>
      simp only [hhigher] at h
      cases hfind : items.find? p with
      | none => simp [hfind] at h
      | some b =>
          simp only [hfind, Option.some.injEq, Prod.mk.injEq] at h
          obtain ⟨rfl, rfl⟩ := h
          exact .inr ⟨rfl, rfl, rfl⟩

/-- An extracted item satisfies the predicate, and exactly it leaves the queue. -/
theorem extractFirst_perm {p : α → Bool} {levels rest : Levels α} {a : α}
    (h : extractFirst p levels = some (a, rest)) :
    p a = true ∧ (contents levels).Perm (a :: contents rest) := by
  induction levels generalizing rest with
  | nil => simp [extractFirst] at h
  | cons items higher ih =>
      rcases extractFirst_cons_cases h with ⟨higher', hhigher, rfl⟩ | ⟨-, hfind, rfl⟩
      · obtain ⟨hp, hperm⟩ := ih hhigher
        exact ⟨hp, (hperm.append_left items).trans List.perm_middle⟩
      · refine ⟨List.find?_some hfind, ?_⟩
        have hsplit := List.find?_eq_some_iff_append.mp hfind
        obtain ⟨hp, before, after, rfl, hbefore⟩ := hsplit
        have herase : (before ++ a :: after).eraseP p = before ++ after := by
          rw [List.eraseP_append_right _ fun x hx => by simpa using hbefore x hx]
          simp [hp]
        rw [contents_cons, contents_cons, herase]
        exact List.perm_middle.append_right _

theorem popFirst_eq_extractFirst (levels : Levels α) :
    popFirst levels = extractFirst (fun _ => true) levels := by
  induction levels with
  | nil => rfl
  | cons items higher ih =>
      simp only [popFirst, extractFirst, ih]
      cases extractFirst (fun _ => true) higher with
      | some found => rfl
      | none => cases items <;> rfl

theorem popFirst_perm {levels rest : Levels α} {a : α} (h : popFirst levels = some (a, rest)) :
    (contents levels).Perm (a :: contents rest) := by
  rw [popFirst_eq_extractFirst] at h
  exact (extractFirst_perm h).2

theorem length_extractFirst {p : α → Bool} {levels rest : Levels α} {a : α}
    (h : extractFirst p levels = some (a, rest)) : rest.length = levels.length := by
  induction levels generalizing rest with
  | nil => simp [extractFirst] at h
  | cons items higher ih =>
      rcases extractFirst_cons_cases h with ⟨higher', hhigher, rfl⟩ | ⟨-, -, rfl⟩
      · rw [List.length_cons, List.length_cons, ih hhigher]
      · rfl

/-! ## Level by level -/

/-- The items of the level of index `level`, none when there is no such level. -/
def itemsAt (levels : Levels α) (level : ℕ) : List α := levels.getD level []

@[simp] theorem itemsAt_nil (level : ℕ) : itemsAt ([] : Levels α) level = [] := rfl

@[simp] theorem itemsAt_cons_zero (items : List α) (higher : Levels α) :
    itemsAt (items :: higher) 0 = items := rfl

@[simp] theorem itemsAt_cons_succ (items : List α) (higher : Levels α) (level : ℕ) :
    itemsAt (items :: higher) (level + 1) = itemsAt higher level := rfl

theorem mem_contents_iff {levels : Levels α} {a : α} :
    a ∈ contents levels ↔ ∃ level, a ∈ itemsAt levels level := by
  induction levels with
  | nil => simp
  | cons items higher ih =>
      rw [contents_cons, List.mem_append, ih]
      constructor
      · rintro (h | ⟨level, h⟩)
        · exact ⟨0, h⟩
        · exact ⟨level + 1, h⟩
      · rintro ⟨level, h⟩
        cases level with
        | zero => exact .inl h
        | succ level => exact .inr ⟨level, h⟩

/-- Pushing appends to one level and leaves the others alone. -/
theorem itemsAt_pushBack {levels : Levels α} {level : ℕ} (a : α) (hlevel : level < levels.length)
    (l : ℕ) : itemsAt (pushBack levels level a) l =
      if l = level then itemsAt levels l ++ [a] else itemsAt levels l := by
  induction levels generalizing level l with
  | nil => simp at hlevel
  | cons items higher ih =>
      cases level with
      | zero =>
          cases l with
          | zero => simp [pushBack]
          | succ l => simp [pushBack]
      | succ level =>
          cases l with
          | zero => simp [pushBack]
          | succ l =>
              have hrest := @ih level (by simpa using hlevel) l
              simpa [pushBack] using hrest

theorem extractFirst_eq_none_iff {p : α → Bool} {levels : Levels α} :
    extractFirst p levels = none ↔ ∀ level, ∀ a ∈ itemsAt levels level, p a = false := by
  induction levels with
  | nil => simp [extractFirst]
  | cons items higher ih =>
      simp only [extractFirst]
      cases hhigher : extractFirst p higher with
      | some found =>
          have hnot : ¬∀ level, ∀ a ∈ itemsAt higher level, p a = false := by
            rw [← ih, hhigher]
            simp
          simp only [reduceCtorEq, false_iff]
          exact fun h => hnot fun level => h (level + 1)
      | none =>
          have hall := ih.mp hhigher
          cases hfind : items.find? p with
          | some a =>
              simp only [reduceCtorEq, false_iff]
              intro h
              have := h 0 a (List.mem_of_find?_eq_some hfind)
              simp [List.find?_some hfind] at this
          | none =>
              simp only [true_iff]
              intro level a ha
              cases level with
              | zero => simpa using List.find?_eq_none.mp hfind a ha
              | succ level => exact hall level a ha

/-- Extracting takes the first match of the highest level that has one: it leaves
the other levels alone, and the rest of this level as it is. -/
theorem extractFirst_spec {p : α → Bool} {levels rest : Levels α} {a : α}
    (h : extractFirst p levels = some (a, rest)) :
    ∃ level, (itemsAt levels level).find? p = some a ∧
      (∀ l, level < l → ∀ b ∈ itemsAt levels l, p b = false) ∧
      ∀ l, itemsAt rest l =
        if l = level then (itemsAt levels l).eraseP p else itemsAt levels l := by
  induction levels generalizing rest with
  | nil => simp [extractFirst] at h
  | cons items higher ih =>
      rcases extractFirst_cons_cases h with ⟨higher', hhigher, rfl⟩ | ⟨hhigher, hfind, rfl⟩
      · obtain ⟨level, hfind, habove, hrest⟩ := ih hhigher
        refine ⟨level + 1, hfind, fun l hl => ?_, fun l => ?_⟩
        · cases l with
          | zero => omega
          | succ l => exact habove l (by omega)
        · cases l with
          | zero => simp
          | succ l => simpa using hrest l
      · refine ⟨0, hfind, fun l hl => ?_, fun l => ?_⟩
        · cases l with
          | zero => omega
          | succ l => exact extractFirst_eq_none_iff.mp hhigher l
        · cases l with
          | zero => simp
          | succ l => simp

/-- Popping takes the head of the highest level that is not empty. -/
theorem popFirst_spec {levels rest : Levels α} {a : α} (h : popFirst levels = some (a, rest)) :
    ∃ level, itemsAt levels level = a :: itemsAt rest level ∧
      (∀ l, level < l → itemsAt levels l = []) ∧
      ∀ l, l ≠ level → itemsAt rest l = itemsAt levels l := by
  rw [popFirst_eq_extractFirst] at h
  obtain ⟨level, hfind, habove, hrest⟩ := extractFirst_spec h
  refine ⟨level, ?_, fun l hl => ?_, fun l hl => by rw [hrest l, if_neg hl]⟩
  · rw [hrest level, if_pos rfl]
    cases hitems : itemsAt levels level with
    | nil => simp [hitems] at hfind
    | cons b items =>
        obtain rfl : b = a := by simpa [hitems] using hfind
        simp
  · apply List.eq_nil_iff_forall_not_mem.mpr
    intro b hb
    simpa using habove l hl b hb

theorem itemsAt_set {levels : Levels α} {level : ℕ} (items : List α)
    (hlevel : level < levels.length) (l : ℕ) :
    itemsAt (levels.set level items) l = if l = level then items else itemsAt levels l := by
  unfold itemsAt
  by_cases hl : l = level
  · subst hl
    simp [List.getD, hlevel]
  · rw [if_neg hl, List.getD, List.getD, List.getElem?_set_ne (Ne.symm hl)]

theorem lt_length_of_itemsAt {levels : Levels α} {level : ℕ} (h : itemsAt levels level ≠ []) :
    level < levels.length := by
  by_contra hge
  exact h (by simp [itemsAt, List.getD, List.getElem?_eq_none (Nat.le_of_not_lt hge)])

theorem pushBack_eq_set (levels : Levels α) (level : ℕ) (a : α) :
    pushBack levels level a = levels.set level (itemsAt levels level ++ [a]) := by
  induction levels generalizing level with
  | nil => simp [pushBack]
  | cons items higher ih =>
      cases level with
      | zero => rfl
      | succ level =>
          have hrest := ih level
          simp only [pushBack] at hrest
          simp [pushBack, hrest]

theorem length_contents_pushBack_le (levels : Levels α) (level : ℕ) (a : α) :
    (contents (pushBack levels level a)).length ≤ (contents levels).length + 1 := by
  by_cases hlevel : level < levels.length
  · have hlength := (contents_pushBack_perm a hlevel).length_eq
    rw [List.length_cons] at hlength
    omega
  · rw [pushBack_eq_set, List.set_eq_of_length_le (Nat.le_of_not_lt hlevel)]
    exact Nat.le_succ _

/-- The first match of the highest level that has one is what is extracted. -/
theorem extractFirst_of_find {p : α → Bool} {levels : Levels α} {level : ℕ} {a : α}
    (hfind : (itemsAt levels level).find? p = some a)
    (habove : ∀ l, level < l → ∀ b ∈ itemsAt levels l, p b = false) :
    extractFirst p levels = some (a, levels.set level ((itemsAt levels level).eraseP p)) := by
  induction levels generalizing level with
  | nil => simp at hfind
  | cons items higher ih =>
      cases level with
      | zero =>
          have hhigher : extractFirst p higher = none :=
            extractFirst_eq_none_iff.mpr fun l => habove (l + 1) (Nat.succ_pos l)
          have hfind : items.find? p = some a := hfind
          simp [extractFirst, hhigher, hfind]
      | succ level =>
          have hhigher := ih hfind fun l hl => habove (l + 1) (Nat.succ_lt_succ hl)
          simp [extractFirst, hhigher]

theorem popFirst_of_cons {levels : Levels α} {level : ℕ} {a : α} {items : List α}
    (hitems : itemsAt levels level = a :: items)
    (habove : ∀ l, level < l → itemsAt levels l = []) :
    popFirst levels = some (a, levels.set level items) := by
  have hfind : (itemsAt levels level).find? (fun _ => true) = some a := by simp [hitems]
  rw [popFirst_eq_extractFirst, extractFirst_of_find hfind]
  · simp [hitems]
  · intro l hl b hb
    simp [habove l hl] at hb

theorem popFirst_eq_none_iff {levels : Levels α} :
    popFirst levels = none ↔ contents levels = [] := by
  rw [popFirst_eq_extractFirst, extractFirst_eq_none_iff, List.eq_nil_iff_forall_not_mem]
  constructor
  · intro h a ha
    obtain ⟨level, hlevel⟩ := mem_contents_iff.mp ha
    exact absurd (h level a hlevel) (by simp)
  · intro h level a ha
    exact absurd (mem_contents_iff.mpr ⟨level, ha⟩) (h a)

theorem contents_perm_set {levels : Levels α} {level : ℕ} {a : α} {items : List α}
    (hlevel : level < levels.length) (hperm : (itemsAt levels level).Perm (a :: items)) :
    (contents levels).Perm (a :: contents (levels.set level items)) := by
  induction levels generalizing level with
  | nil => simp at hlevel
  | cons lowest higher ih =>
      cases level with
      | zero => exact List.Perm.append_right (contents higher) hperm
      | succ level =>
          have hhigher := ih (Nat.lt_of_succ_lt_succ hlevel) hperm
          rw [List.set_cons_succ, contents_cons, contents_cons]
          exact (hhigher.append_left lowest).trans List.perm_middle

theorem length_itemsAt_le (levels : Levels α) (level : ℕ) :
    (itemsAt levels level).length ≤ (contents levels).length := by
  induction levels generalizing level with
  | nil => simp
  | cons items higher ih =>
      rw [contents_cons, List.length_append]
      cases level with
      | zero => exact Nat.le_add_right ..
      | succ level => exact Nat.le_trans (ih level) (Nat.le_add_left ..)

/-! ### Renaming the items -/

section map

variable {β : Type*} (f : α → β)

/-- Rename all items. -/
def mapItems (levels : Levels α) : Levels β := levels.map (List.map f)

@[simp] theorem length_mapItems (levels : Levels α) :
    (mapItems f levels).length = levels.length := by
  simp [mapItems]

@[simp] theorem contents_mapItems (levels : Levels α) :
    contents (mapItems f levels) = (contents levels).map f := by
  simp [mapItems, contents, List.map_flatten]

@[simp] theorem itemsAt_mapItems (levels : Levels α) (level : ℕ) :
    itemsAt (mapItems f levels) level = (itemsAt levels level).map f := by
  unfold itemsAt mapItems
  rw [List.getD, List.getD, List.getElem?_map]
  cases levels[level]? <;> rfl

theorem mapItems_pushBack (levels : Levels α) (level : ℕ) (a : α) :
    mapItems f (pushBack levels level a) = pushBack (mapItems f levels) level (f a) := by
  rw [pushBack_eq_set, pushBack_eq_set, itemsAt_mapItems]
  simp [mapItems, List.map_set]

theorem extractFirst_mapItems (p : β → Bool) (levels : Levels α) :
    extractFirst p (mapItems f levels) =
      (extractFirst (fun a => p (f a)) levels).map fun (a, rest) => (f a, mapItems f rest) := by
  induction levels with
  | nil => rfl
  | cons items higher ih =>
      have hcons : mapItems f (items :: higher) = items.map f :: mapItems f higher := rfl
      rw [hcons, extractFirst, extractFirst, ih]
      cases extractFirst (fun a => p (f a)) higher with
      | some found => rfl
      | none =>
          have hfind : (items.map f).find? p = (items.find? fun a => p (f a)).map f := by
            rw [List.find?_map]
            rfl
          have herase : (items.map f).eraseP p = (items.eraseP fun a => p (f a)).map f := by
            rw [List.eraseP_map]
            rfl
          rw [Option.map_none, hfind, herase]
          cases items.find? fun a => p (f a) <;> rfl

theorem popFirst_mapItems (levels : Levels α) :
    popFirst (mapItems f levels) =
      (popFirst levels).map fun (a, rest) => (f a, mapItems f rest) := by
  rw [popFirst_eq_extractFirst, popFirst_eq_extractFirst, extractFirst_mapItems]

end map

/-! ## Items at their level, in the order in which they came -/

/-- Each item is at its level, and each level is in the order of time. -/
structure Arranged (levelOf time : α → ℕ) (levels : Levels α) : Prop where
  level : ∀ l, ∀ a ∈ itemsAt levels l, levelOf a = l
  order : ∀ l, (itemsAt levels l).Pairwise fun a b => time a < time b

namespace Arranged

variable {levelOf time : α → ℕ} {levels rest : Levels α}

/-- Only the levels and the times of the items matter. -/
theorem congr (h : Arranged levelOf time levels) {levelOf' time' : α → ℕ}
    (hlevel : ∀ a ∈ contents levels, levelOf' a = levelOf a)
    (htime : ∀ a ∈ contents levels, time' a = time a) : Arranged levelOf' time' levels where
  level l a ha := (hlevel a (mem_contents_iff.mpr ⟨l, ha⟩)).trans (h.level l a ha)
  order l := by
    refine (h.order l).imp_of_mem fun {a b} ha hb hlt => ?_
    rw [htime a (mem_contents_iff.mpr ⟨l, ha⟩), htime b (mem_contents_iff.mpr ⟨l, hb⟩)]
    exact hlt

/-- An item that comes last goes to the end of its level. -/
theorem pushBack (h : Arranged levelOf time levels) {a : α} (hlength : levelOf a < levels.length)
    (hlast : ∀ b ∈ contents levels, time b < time a) :
    Arranged levelOf time (pushBack levels (levelOf a) a) where
  level l b hb := by
    rw [itemsAt_pushBack a hlength] at hb
    split at hb
    · rename_i hl
      rcases List.mem_append.mp hb with hold | hnew
      · exact h.level l b hold
      · rw [List.mem_singleton.mp hnew, hl]
    · exact h.level l b hb
  order l := by
    rw [itemsAt_pushBack a hlength]
    split
    · refine List.pairwise_append.mpr ⟨h.order l, List.pairwise_singleton _ _, fun b hb c hc => ?_⟩
      rw [List.mem_singleton.mp hc]
      exact hlast b (mem_contents_iff.mpr ⟨l, hb⟩)
    · exact h.order l

theorem extractFirst (h : Arranged levelOf time levels) {p : α → Bool} {a : α}
    (hextract : extractFirst p levels = some (a, rest)) : Arranged levelOf time rest := by
  obtain ⟨level, -, -, hrest⟩ := extractFirst_spec hextract
  have hsub : ∀ l, (itemsAt rest l).Sublist (itemsAt levels l) := by
    intro l
    rw [hrest l]
    split
    · exact List.eraseP_sublist
    · exact List.Sublist.refl _
  exact ⟨fun l a ha => h.level l a ((hsub l).subset ha), fun l => (h.order l).sublist (hsub l)⟩

/-- **Order of service.**  What is popped is at the highest level, and came first
among the items of its level. -/
theorem popFirst_first (h : Arranged levelOf time levels) {a : α}
    (hpop : popFirst levels = some (a, rest)) {b : α} (hb : b ∈ contents rest) :
    levelOf b < levelOf a ∨ levelOf b = levelOf a ∧ time a < time b := by
  obtain ⟨level, hitems, habove, hother⟩ := popFirst_spec hpop
  have ha : levelOf a = level := h.level level a (by simp [hitems])
  obtain ⟨l, hl⟩ := mem_contents_iff.mp hb
  by_cases heq : l = level
  · subst heq
    have horder := h.order l
    rw [hitems] at horder
    refine .inr ⟨?_, (List.pairwise_cons.mp horder).1 b hl⟩
    rw [ha]
    exact h.level l b (by rw [hitems]; exact List.mem_cons_of_mem _ hl)
  · rw [hother l heq] at hl
    have hle : ¬level < l := by
      intro hlt
      simp [habove l hlt] at hl
    refine .inl ?_
    rw [ha, h.level l b hl]
    omega

end Arranged

end LeveledFifo
