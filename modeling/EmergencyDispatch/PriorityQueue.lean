import EmergencyDispatch.Library.LeveledFifo
import EmergencyDispatch.Structs

/-!
# The queues of emergencies (`priority_queue.c`)

A queue `pq_t` as the contents of its lists: one FIFO list per level.  `size` is
the number of items, so `size == 0` is the test that no level has one.
-/

namespace EmergencyDispatch

/-- `pq_t`: the lists, the lowest level first, and whether the queue is closed. -/
structure Pq where
  lists : LeveledFifo.Levels EmergencyId
  closed : Bool
  deriving DecidableEq

namespace Pq

/-- `pq_create`. -/
def create (levels : ℕ) : Pq := ⟨List.replicate levels [], false⟩

/-- The items, level by level. -/
def contents (q : Pq) : List EmergencyId := LeveledFifo.contents q.lists

/-- The level `pq_push` uses: `prio` clamped into the levels there are. -/
def clampLevel (q : Pq) (prio : ℤ) : ℕ := (min prio (q.lists.length - 1)).toNat

/-- `pq_push`: a closed queue drops the item. -/
def push (q : Pq) (e : EmergencyId) (prio : ℤ) : Pq :=
  if q.closed then q
  else { q with lists := LeveledFifo.pushBack q.lists (q.clampLevel prio) e }

/-- The item `pq_pop` takes, and what is left; `none` when the queue is empty. -/
def pop (q : Pq) : Option (EmergencyId × Pq) :=
  (LeveledFifo.popFirst q.lists).map fun (e, lists) => (e, { q with lists })

/-- `pq_extract_first`. -/
def extractFirst (q : Pq) (pred : EmergencyId → Bool) : Option (EmergencyId × Pq) :=
  (LeveledFifo.extractFirst pred q.lists).map fun (e, lists) => (e, { q with lists })

/-- `pq_close`. -/
def close (q : Pq) : Pq := { q with closed := true }

@[simp] theorem contents_create (levels : ℕ) : (create levels).contents = [] := by
  simp [create, contents]

theorem push_of_closed {q : Pq} (h : q.closed = true) (e : EmergencyId) (prio : ℤ) :
    q.push e prio = q := by simp [push, h]

/-- A level that the queue has is the one that is used. -/
theorem lists_push {q : Pq} (hopen : q.closed = false) {level : ℕ} (hlevel : level < q.lists.length)
    (e : EmergencyId) : (q.push e level).lists = LeveledFifo.pushBack q.lists level e := by
  have hclamp : q.clampLevel level = level := by
    unfold clampLevel
    omega
  rw [push, if_neg (by simp [hopen]), hclamp]

/-- An open queue with a level keeps what is pushed. -/
theorem contents_push_perm {q : Pq} (hopen : q.closed = false) (hlevels : q.lists ≠ [])
    (e : EmergencyId) (prio : ℤ) : (q.push e prio).contents.Perm (e :: q.contents) := by
  have hpos : 0 < q.lists.length := List.length_pos_iff.mpr hlevels
  rw [push, if_neg (by simp [hopen])]
  refine LeveledFifo.contents_pushBack_perm e ?_
  unfold clampLevel
  omega

/-- Whatever the queue, pushing adds at most the pushed item. -/
theorem mem_contents_push {q : Pq} (hlevels : q.lists ≠ []) {e x : EmergencyId} {prio : ℤ}
    (h : x ∈ (q.push e prio).contents) : x = e ∨ x ∈ q.contents := by
  cases hclosed : q.closed with
  | true => rw [push_of_closed hclosed] at h; exact .inr h
  | false => simpa using (contents_push_perm hclosed hlevels e prio).mem_iff.mp h

theorem mem_contents_push_of_mem {q : Pq} (hlevels : q.lists ≠ []) {e x : EmergencyId}
    (h : x ∈ q.contents) (prio : ℤ) : x ∈ (q.push e prio).contents := by
  cases hclosed : q.closed with
  | true => rwa [push_of_closed hclosed]
  | false =>
      apply (contents_push_perm hclosed hlevels e prio).mem_iff.mpr
      exact List.mem_cons_of_mem _ h

theorem mem_contents_push_self {q : Pq} (hopen : q.closed = false) (hlevels : q.lists ≠ [])
    (e : EmergencyId) (prio : ℤ) : e ∈ (q.push e prio).contents :=
  (contents_push_perm hopen hlevels e prio).mem_iff.mpr List.mem_cons_self

@[simp] theorem push_closed (q : Pq) (e : EmergencyId) (prio : ℤ) :
    (q.push e prio).closed = q.closed := by
  unfold push; split <;> rfl

@[simp] theorem length_lists_push (q : Pq) (e : EmergencyId) (prio : ℤ) :
    (q.push e prio).lists.length = q.lists.length := by
  unfold push; split <;> simp

theorem extractFirst_spec {q rest : Pq} {pred : EmergencyId → Bool} {e : EmergencyId}
    (h : q.extractFirst pred = some (e, rest)) :
    pred e = true ∧ q.contents.Perm (e :: rest.contents) ∧ rest.closed = q.closed ∧
      rest.lists.length = q.lists.length := by
  simp only [extractFirst, Option.map_eq_some_iff, Prod.mk.injEq] at h
  obtain ⟨⟨a, lists⟩, hextract, rfl, rfl⟩ := h
  obtain ⟨hp, hperm⟩ := LeveledFifo.extractFirst_perm hextract
  exact ⟨hp, hperm, rfl, LeveledFifo.length_extractFirst hextract⟩

theorem not_of_extractFirst {q : Pq} {pred : EmergencyId → Bool} {e : EmergencyId}
    (h : q.extractFirst pred = none) (he : e ∈ q.contents) : pred e = false := by
  obtain ⟨level, hlevel⟩ := LeveledFifo.mem_contents_iff.mp he
  exact LeveledFifo.extractFirst_eq_none_iff.mp (Option.map_eq_none_iff.mp h) level e hlevel

theorem pop_eq_extractFirst (q : Pq) : q.pop = q.extractFirst fun _ => true := by
  simp [pop, extractFirst, LeveledFifo.popFirst_eq_extractFirst]

theorem contents_eq_nil_of_pop {q : Pq} (h : q.pop = none) : q.contents = [] :=
  LeveledFifo.popFirst_eq_none_iff.mp (Option.map_eq_none_iff.mp h)

theorem pop_spec {q rest : Pq} {e : EmergencyId} (h : q.pop = some (e, rest)) :
    q.contents.Perm (e :: rest.contents) ∧ rest.closed = q.closed ∧
      rest.lists.length = q.lists.length := by
  rw [pop_eq_extractFirst] at h
  exact (extractFirst_spec h).2

end Pq

end EmergencyDispatch
