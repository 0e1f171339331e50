import EmergencyDispatch.Library.LeveledFifo
import Mathlib.Data.List.Nodup

/-!
# Taking out all that matches

A loop that extracts the first match again and again takes the matching items out
in the order of service: from the highest level down, the oldest first.  When the
items are different, what it leaves after the items `done` are the levels without
them (`extractFirst_keep`).  A loop that pushes back what it has taken out, as
something that does not match any more, ends as well: the items pushed are at the
ends of their new levels and are passed over (`extractFirst_pushAll`).
-/

namespace LeveledFifo

variable {α : Type*}

/-- All items in the order in which they are served. -/
def servingOrder : Levels α → List α
  | [] => []
  | items :: higher => servingOrder higher ++ items

/-- The items that satisfy `q`, each at its level. -/
def keep (q : α → Bool) (levels : Levels α) : Levels α := levels.map (List.filter q)

/-- Push the items one after the other, each to its level. -/
def pushAll (levelOf : α → ℕ) (levels : Levels α) (items : List α) : Levels α :=
  items.foldl (fun levels a => pushBack levels (levelOf a) a) levels

variable {p q : α → Bool} {levels : Levels α} {a : α}

theorem servingOrder_perm (levels : Levels α) : (servingOrder levels).Perm (contents levels) := by
  induction levels with
  | nil => exact .refl _
  | cons items higher ih =>
      rw [servingOrder, contents_cons]
      exact List.perm_append_comm.trans (ih.append_left items)

theorem mem_servingOrder : a ∈ servingOrder levels ↔ a ∈ contents levels :=
  (servingOrder_perm levels).mem_iff

theorem nodup_servingOrder : (servingOrder levels).Nodup ↔ (contents levels).Nodup :=
  (servingOrder_perm levels).nodup_iff

/-! ## Keeping some of the items -/

@[simp] theorem length_keep (q : α → Bool) (levels : Levels α) :
    (keep q levels).length = levels.length := by
  simp [keep]

@[simp] theorem itemsAt_keep (q : α → Bool) (levels : Levels α) (l : ℕ) :
    itemsAt (keep q levels) l = (itemsAt levels l).filter q := by
  unfold itemsAt keep
  rw [List.getD, List.getD, List.getElem?_map]
  cases levels[l]? <;> rfl

@[simp] theorem servingOrder_keep (q : α → Bool) (levels : Levels α) :
    servingOrder (keep q levels) = (servingOrder levels).filter q := by
  induction levels with
  | nil => rfl
  | cons items higher ih =>
      have hcons : keep q (items :: higher) = items.filter q :: keep q higher := rfl
      rw [hcons, servingOrder, servingOrder, ih, List.filter_append]

theorem keep_keep (p q : α → Bool) (levels : Levels α) :
    keep p (keep q levels) = keep (fun a => p a && q a) levels := by
  simp [keep, Function.comp_def]

theorem keep_congr (h : ∀ a ∈ contents levels, p a = q a) : keep p levels = keep q levels := by
  refine List.map_congr_left fun items hitems => List.filter_congr fun a ha => h a ?_
  exact List.mem_flatten.mpr ⟨items, hitems, ha⟩

theorem keep_eq_self (h : ∀ a ∈ contents levels, q a = true) : keep q levels = levels := by
  have hid : (List.filter fun _ : α => true) = id :=
    funext fun l => List.filter_eq_self.mpr fun _ _ => rfl
  have htrue : keep q levels = keep (fun _ => true) levels := keep_congr h
  rw [htrue, keep, hid, List.map_id]

theorem nodup_keep (h : (contents levels).Nodup) (q : α → Bool) :
    (contents (keep q levels)).Nodup := by
  rw [← nodup_servingOrder, servingOrder_keep]
  exact (nodup_servingOrder.mpr h).filter q

theorem mem_contents_keep : a ∈ contents (keep q levels) ↔ a ∈ contents levels ∧ q a = true := by
  rw [← mem_servingOrder, servingOrder_keep, List.mem_filter, mem_servingOrder]

/-! ## The first match -/

theorem extractFirst_congr (h : ∀ a ∈ contents levels, p a = q a) :
    extractFirst p levels = extractFirst q levels := by
  induction levels with
  | nil => rfl
  | cons items higher ih =>
      have hitems : ∀ a ∈ items, p a = q a := fun a ha => h a (List.mem_append_left _ ha)
      have hfind : items.find? p = items.find? q ∧ items.eraseP p = items.eraseP q := by
        clear ih h
        induction items with
        | nil => exact ⟨rfl, rfl⟩
        | cons a items ih =>
            obtain ⟨hfind, herase⟩ := ih fun b hb => hitems b (List.mem_cons_of_mem a hb)
            rw [List.find?_cons, List.find?_cons, List.eraseP_cons, List.eraseP_cons,
              hitems a List.mem_cons_self, hfind, herase]
            exact ⟨rfl, rfl⟩
      rw [extractFirst, extractFirst, ih fun a ha => h a (List.mem_append_right _ ha), hfind.1,
        hfind.2]

theorem extractFirst_pushBack (level : ℕ) (ha : p a = false) :
    extractFirst p (pushBack levels level a) =
      (extractFirst p levels).map fun (b, rest) => (b, pushBack rest level a) := by
  induction levels generalizing level with
  | nil => cases level <;> rfl
  | cons items higher ih =>
      -- either the item joins this level, or a higher one
      cases level with
      | zero =>
          have hpush : pushBack (items :: higher) 0 a = (items ++ [a]) :: higher := rfl
          have hfind : (items ++ [a]).find? p = items.find? p := by
            rw [List.find?_append, List.find?_singleton, ha]
            cases items.find? p <;> rfl
          rw [hpush, extractFirst, extractFirst, hfind]
          cases extractFirst p higher with
          | some found => rfl
          | none =>
              cases hitem : items.find? p with
              | none => rfl
              | some b =>
                  have hmem := List.mem_of_find?_eq_some hitem
                  have herase : (items ++ [a]).eraseP p = items.eraseP p ++ [a] :=
                    List.eraseP_append_left (List.find?_some hitem) [a] hmem
                  simp only [herase]
                  rfl
      | succ level =>
          have hpush : ∀ items : List α, pushBack (items :: higher) (level + 1) a =
              items :: pushBack higher level a := fun _ => rfl
          rw [hpush, extractFirst, extractFirst, ih level]
          cases extractFirst p higher with
          | some found => rfl
          | none => cases items.find? p <;> rfl

/-! ## Pushing items back -/

section pushAll

variable {levelOf : α → ℕ} {items : List α}

@[simp] theorem length_pushAll (levelOf : α → ℕ) (levels : Levels α) (items : List α) :
    (pushAll levelOf levels items).length = levels.length := by
  unfold pushAll
  induction items generalizing levels with
  | nil => rfl
  | cons a items ih => rw [List.foldl_cons, ih, length_pushBack]

theorem pushAll_concat (levelOf : α → ℕ) (levels : Levels α) (items : List α) (a : α) :
    pushAll levelOf levels (items ++ [a]) =
      pushBack (pushAll levelOf levels items) (levelOf a) a := by
  rw [pushAll, List.foldl_append]
  rfl

/-- The items pushed are behind those of their level, in the order in which they were pushed. -/
theorem itemsAt_pushAll (hlevels : ∀ a ∈ items, levelOf a < levels.length) (l : ℕ) :
    itemsAt (pushAll levelOf levels items) l =
      itemsAt levels l ++ items.filter fun a => levelOf a = l := by
  induction items generalizing levels with
  | nil => exact (List.append_nil _).symm
  | cons a items ih =>
      have ha := hlevels a List.mem_cons_self
      have hrest : ∀ b ∈ items, levelOf b < (pushBack levels (levelOf a) a).length := by
        intro b hb
        rw [length_pushBack]
        exact hlevels b (List.mem_cons_of_mem a hb)
      have hpush : pushAll levelOf levels (a :: items) =
          pushAll levelOf (pushBack levels (levelOf a) a) items := rfl
      rw [hpush, ih hrest, itemsAt_pushBack a ha]
      by_cases hl : l = levelOf a
      · subst hl
        simp
      · have hl' : ¬levelOf a = l := fun h => hl h.symm
        simp [hl, hl']

theorem contents_pushAll_perm (hlevels : ∀ a ∈ items, levelOf a < levels.length) :
    (contents (pushAll levelOf levels items)).Perm (contents levels ++ items) := by
  induction items generalizing levels with
  | nil => exact .of_eq (List.append_nil _).symm
  | cons a items ih =>
      have hrest : ∀ b ∈ items, levelOf b < (pushBack levels (levelOf a) a).length := by
        intro b hb
        rw [length_pushBack]
        exact hlevels b (List.mem_cons_of_mem a hb)
      have hpush := contents_pushBack_perm a (hlevels a List.mem_cons_self)
      calc
        List.Perm (contents (pushAll levelOf (pushBack levels (levelOf a) a) items))
            (contents (pushBack levels (levelOf a) a) ++ items) := ih hrest
        List.Perm _ (a :: contents levels ++ items) := hpush.append_right items
        List.Perm _ (contents levels ++ a :: items) := List.perm_middle.symm

/-- What was pushed back and does not match is passed over. -/
theorem extractFirst_pushAll (hitems : ∀ a ∈ items, p a = false) :
    extractFirst p (pushAll levelOf levels items) =
      (extractFirst p levels).map fun (b, rest) => (b, pushAll levelOf rest items) := by
  induction items generalizing levels with
  | nil =>
      show extractFirst p levels = _
      cases extractFirst p levels <;> rfl
  | cons a items ih =>
      have hpush : ∀ levels, pushAll levelOf levels (a :: items) =
          pushAll levelOf (pushBack levels (levelOf a) a) items := fun _ => rfl
      rw [hpush, ih fun b hb => hitems b (List.mem_cons_of_mem a hb),
        extractFirst_pushBack _ (hitems a List.mem_cons_self)]
      cases extractFirst p levels <;> rfl

end pushAll

theorem not_served_before (hnodup : (contents levels).Nodup) {done left : List α}
    (hmatches : (servingOrder levels).filter p = done ++ a :: left) : a ∉ done := by
  have hparts := (nodup_servingOrder.mpr hnodup).filter p
  rw [hmatches] at hparts
  intro hmem
  exact List.disjoint_of_nodup_append hparts hmem List.mem_cons_self

variable [DecidableEq α]

/-- Of different items exactly the one that is found goes. -/
theorem eraseP_eq_filter {items : List α} (hnodup : items.Nodup) (hfind : items.find? p = some a) :
    items.eraseP p = items.filter (· ≠ a) := by
  obtain ⟨hp, before, after, rfl, hbefore⟩ := List.find?_eq_some_iff_append.mp hfind
  have hnotin := (List.nodup_middle.mp hnodup).notMem
  rw [List.mem_append, not_or] at hnotin
  rw [List.eraseP_append_right _ fun x hx => by simpa using hbefore x hx,
    List.eraseP_cons_of_pos hp, List.filter_append, List.filter_cons_of_neg (by simp)]
  have hkeep : ∀ l : List α, a ∉ l → l.filter (· ≠ a) = l := fun l hl =>
    List.filter_eq_self.mpr fun x hx => by
      have hne : x ≠ a := fun heq => hl (heq ▸ hx)
      simpa using hne
  rw [hkeep before hnotin.1, hkeep after hnotin.2]

/-- **The first match** of different items, in the order of service, and the levels without it. -/
theorem extractFirst_of_nodup (hnodup : (contents levels).Nodup) :
    extractFirst p levels =
      ((servingOrder levels).find? p).map fun a => (a, keep (· ≠ a) levels) := by
  induction levels with
  | nil => rfl
  | cons items higher ih =>
      obtain ⟨hitems, hhigher, hdisjoint⟩ := List.nodup_append.mp hnodup
      have hcons : ∀ a, keep (· ≠ a) (items :: higher) =
          items.filter (· ≠ a) :: keep (· ≠ a) higher := fun _ => rfl
      rw [extractFirst, servingOrder, List.find?_append, ih hhigher]
      cases hfind : (servingOrder higher).find? p with
      | some a =>
          have ha : a ∈ contents higher := mem_servingOrder.mp (List.mem_of_find?_eq_some hfind)
          have hkeep : items.filter (· ≠ a) = items := List.filter_eq_self.mpr fun b hb => by
            simpa using hdisjoint b hb a ha
          simp only [Option.map_some, Option.some_or, hcons, hkeep]
      | none =>
          rw [Option.map_none, Option.none_or]
          cases hitem : items.find? p with
          | none => rfl
          | some a =>
              have ha := List.mem_of_find?_eq_some hitem
              have hkeep : keep (· ≠ a) higher = higher := keep_eq_self fun b hb => by
                simpa using Ne.symm (hdisjoint a ha b hb)
              simp only [Option.map_some, hcons, hkeep, eraseP_eq_filter hitems hitem]

/-- **A round of the loop.**  When the matches of the levels are `done` and then `left`, the
first match of what the loop leaves after `done` is the first of `left`. -/
theorem extractFirst_keep (hnodup : (contents levels).Nodup) {done left : List α}
    (hmatches : (servingOrder levels).filter p = done ++ left) :
    extractFirst p (keep (· ∉ done) levels) =
      left.head?.map fun a => (a, keep (· ∉ done ++ [a]) levels) := by
  have hserved := nodup_servingOrder.mpr hnodup
  have hleft : (done ++ left).filter (· ∉ done) = left := by
    have hparts := hserved.filter p
    rw [hmatches] at hparts
    have hdone : done.filter (· ∉ done) = [] := List.filter_eq_nil_iff.mpr (by simp)
    rw [List.filter_append, hdone, List.nil_append]
    refine List.filter_eq_self.mpr fun a ha => ?_
    simpa using fun h => (List.disjoint_of_nodup_append hparts) h ha
  have hfind : (servingOrder (keep (· ∉ done) levels)).find? p = left.head? := by
    calc (servingOrder (keep (· ∉ done) levels)).find? p
        = (((servingOrder levels).filter (· ∉ done)).filter p).head? := by
          rw [servingOrder_keep, List.head?_filter]
      _ = (((servingOrder levels).filter p).filter (· ∉ done)).head? := by
          simp only [List.filter_filter, Bool.and_comm]
      _ = left.head? := by rw [hmatches, hleft]
  rw [extractFirst_of_nodup (nodup_keep hnodup _), hfind]
  congr 1
  funext a
  rw [keep_keep]
  simp [and_comm]

end LeveledFifo
