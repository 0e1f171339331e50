import EmergencyDispatch.Accounting
import EmergencyDispatch.Endings
import Mathlib.Data.List.Perm.Lattice
import Mathlib.Data.List.Nodup
import Mathlib.Data.List.Range

/-!
# The report of `close_server`

At the end `close_server` counts: the accepted emergencies with `valid_count`, the
completed ones with the size of their queue, and by a `pq_map` each those of
`canceled_emergencies` whose status is `TIMEOUT` or `CANCELED` and those left in
`emergency_queue`.  The last four add up to the first when every accepted
emergency is in exactly one of the queues and its status says why it is there.
-/

namespace EmergencyDispatch

open State TransitionSystem

variable {cfg : Config} {s s' : State} {a : Action} {e : EmergencyId} {i : Worker}

/-! ## The counters -/

/-- `pq_map`, its callback updating a counter. -/
def Pq.map {β : Type*} (q : Pq) (fn : β → EmergencyId → β) (init : β) : β :=
  q.contents.foldl fn init

/-- `count_pq_timeout`. -/
def countPqTimeout (w : World) (timeoutCount : ℕ) (e : EmergencyId) : ℕ :=
  if (w.emergencies e).status = .timeout then timeoutCount + 1 else timeoutCount

/-- `count_pq_canceled`. -/
def countPqCanceled (w : World) (canceledCount : ℕ) (e : EmergencyId) : ℕ :=
  if (w.emergencies e).status = .canceled then canceledCount + 1 else canceledCount

/-- `count_pq_waiting`. -/
def countPqWaiting (waitingCount : ℕ) (_e : EmergencyId) : ℕ := waitingCount + 1

/-- The numbers that `close_server` logs. -/
structure Report where
  elaborated : ℕ
  completed : ℕ
  timedOut : ℕ
  canceled : ℕ
  waiting : ℕ
  deriving DecidableEq

/-- What `close_server` counts. -/
def closeServerReport (s : State) : Report where
  elaborated := s.validCount
  completed := s.completedEmergencies.contents.length
  timedOut := s.canceledEmergencies.map (countPqTimeout s.world) 0
  canceled := s.canceledEmergencies.map (countPqCanceled s.world) 0
  waiting := s.emergencyQueue.map countPqWaiting 0

theorem foldl_countPqTimeout (w : World) (items : List EmergencyId) (n : ℕ) :
    items.foldl (countPqTimeout w) n =
      n + items.countP fun e => (w.emergencies e).status = .timeout := by
  induction items generalizing n with
  | nil => rfl
  | cons e items ih =>
      rw [List.foldl_cons, ih, List.countP_cons, countPqTimeout]
      by_cases he : (w.emergencies e).status = .timeout
      · simp only [he, if_true, decide_true]
        omega
      · simp [he]

theorem foldl_countPqCanceled (w : World) (items : List EmergencyId) (n : ℕ) :
    items.foldl (countPqCanceled w) n =
      n + items.countP fun e => (w.emergencies e).status = .canceled := by
  induction items generalizing n with
  | nil => rfl
  | cons e items ih =>
      rw [List.foldl_cons, ih, List.countP_cons, countPqCanceled]
      by_cases he : (w.emergencies e).status = .canceled
      · simp only [he, if_true, decide_true]
        omega
      · simp [he]

theorem foldl_countPqWaiting (items : List EmergencyId) (n : ℕ) :
    items.foldl countPqWaiting n = n + items.length := by
  induction items generalizing n with
  | nil => rfl
  | cons e items ih =>
      rw [List.foldl_cons, ih, List.length_cons, countPqWaiting]
      omega

theorem timedOut_add_canceled {w : World} {items : List EmergencyId}
    (h : ∀ e ∈ items, (w.emergencies e).status = .timeout ∨ (w.emergencies e).status = .canceled) :
    items.foldl (countPqTimeout w) 0 + items.foldl (countPqCanceled w) 0 = items.length := by
  rw [foldl_countPqTimeout, foldl_countPqCanceled, Nat.zero_add, Nat.zero_add]
  induction items with
  | nil => rfl
  | cons e items ih =>
      have hrest := ih fun x hx => h x (List.mem_cons_of_mem _ hx)
      rcases h e List.mem_cons_self with he | he <;>
        simp only [List.countP_cons, he, List.length_cons, decide_true, reduceCtorEq, decide_false,
          if_true, Bool.false_eq_true, if_false] <;>
        omega

/-! ## Why an emergency is where it is -/

/-- Nothing is pushed on `emergency_queue` after it has been closed, a worker that has stored its
emergency in the loop reads the flag as false at line 85, and no search takes a rescuer that
serves a stored emergency. -/
def KeepsAccounts (cfg : Config) (s : State) (a : Action) : Prop :=
  PushesInTime s a ∧ EndsOnce cfg s a

instance (cfg : Config) (s : State) (a : Action) : Decidable (KeepsAccounts cfg s a) :=
  inferInstanceAs (Decidable (_ ∧ _))

/-- What is stored as not completed has timed out or was canceled. -/
def CanceledForReason (s : State) : Prop :=
  ∀ e ∈ s.canceledEmergencies.contents,
    (s.world.emergencies e).status = .timeout ∨ (s.world.emergencies e).status = .canceled

theorem effect_canceled (hinv : Invariant cfg s) (heffect : Effect cfg s a s')
    (he : e ∈ s'.canceledEmergencies.contents) : e ∈ s.canceledEmergencies.contents ∨
      (s'.world.emergencies e).status = .timeout ∨
        (s'.world.emergencies e).status = .canceled := by
  have hlevels : s.canceledEmergencies.lists ≠ [] := by
    intro hnil
    have hlength := hinv.storage.canceled_levels
    rw [hnil] at hlength
    exact cfg.priorityLookupTable_ne_nil (List.length_eq_zero_iff.mp hlength.symm)
  cases heffect with
  | quiet hq => exact .inl (hq.canceled ▸ he)
  | store i e' reason level hpc =>
      dsimp only at he
      have hphase := hinv.storage.phase i
      rw [hpc] at hphase
      -- only completed emergencies go to the other queue
      cases reason with
      | completed news => exact .inl he
      | canceled news => exact hphase.elim
      | searchFailed =>
          rcases Pq.mem_contents_push hlevels he with rfl | hbefore
          · exact .inr (.inl (by simp [storeWorld, StoreReason.news]))
          · exact .inl hbefore
      | stopping =>
          rcases Pq.mem_contents_push hlevels he with rfl | hbefore
          · exact .inr (.inr (by simp [storeWorld, StoreReason.news]))
          · exact .inl hbefore
  | expire e' level hpc =>
      rcases Pq.mem_contents_push hlevels he with rfl | hbefore
      · exact .inr (.inl (by simp))
      · exact .inl hbefore
  | _ => exact .inl he

theorem canceledForReason_of_reachable
    (hreach : ReachableWith (State.step cfg) (EndsOnce cfg) (initialState cfg) s) :
    CanceledForReason s := by
  refine hreach.invariant CanceledForReason ?_ ?_
  · intro e he
    simp [initialState] at he
  · intro s a s' hs h hguard hstep e he
    have hinv := reachable_invariant hs.reachable
    have heffect := (step_effect hstep).2
    rcases effect_canceled hinv heffect he with hbefore | hstatus
    · have hstored : 0 < s.stored e :=
        Nat.add_pos_right _ (List.count_pos_iff.mpr hbefore)
      rw [stored_status_step hinv (storedOnce_of_reachable (hs.mono fun _ _ h => h.1)) hguard.2
        heffect hstored]
      exact h e hbefore
    · exact hstatus

/-! ## The end of the workers -/

/-- A worker that was not created has not moved, and when the run is over the others have
ended. -/
structure WorkersJoined (s : State) : Prop where
  idle : ∀ i : Worker, s.started < 4 + i.val → s.worker i = .loop
  exited_of_over : Over s → ∀ i : Worker, s.started < 4 + i.val ∨ s.worker i = .exited

theorem Woken.of_emergency_none {pc pc' : WorkerPc} (h : Woken pc pc')
    (hpc : pc = .loop ∨ pc = .exited) : pc' = pc := by
  cases h with
  | same => rfl
  | pop | blocked => rcases hpc with hpc | hpc <;> cases hpc

theorem allExited_worker (h : s.allExited = true) (i : Worker) :
    s.started < 4 + i.val ∨ s.worker i = .exited := by
  simp only [allExited, Bool.and_eq_true, Bool.or_eq_true, decide_eq_true_eq, beq_iff_eq,
    List.all_eq_true] at h
  exact h.2 i (List.mem_finRange i)

/-- A worker steps only between its creation and its end. -/
theorem step_worker_running (h : State.step cfg s a = some s')
    (ha : a.thread = some (.worker i)) : 4 + i.val ≤ s.started ∧ s.worker i ≠ .exited := by
  cases (step_thread h).2 <;> simp only [Action.thread, Option.some.injEq, reduceCtorEq,
    Thread.worker.injEq] at ha
  case worker j hstarted hown =>
    subst ha
    refine ⟨hstarted, fun hpc => ?_⟩
    simp [stepWorker, hpc] at hown

theorem workersJoined_step (h : WorkersJoined s) (hstep : State.step cfg s a = some s') :
    WorkersJoined s' := by
  have hframe := step_frame hstep
  have hidle : ∀ i : Worker, s.started < 4 + i.val → s'.worker i = .loop := by
    intro i hlt
    have hother : a.thread ≠ some (.worker i) := fun ha =>
      absurd (step_worker_running hstep ha).1 (by omega)
    have hpc := h.idle i hlt
    rw [(hframe.worker i hother).of_emergency_none (.inl hpc), hpc]
  have hexited : ∀ i, s.worker i = .exited → s'.worker i = .exited := by
    intro i hpc
    have hother : a.thread ≠ some (.worker i) := fun ha => (step_worker_running hstep ha).2 hpc
    rw [(hframe.worker i hother).of_emergency_none (.inr hpc), hpc]
  refine ⟨fun i hlt => hidle i (hframe.started.trans_lt hlt), fun hover i => ?_⟩
  by_cases hmain : a.thread = some .main
  · obtain ⟨ok, rfl, hown⟩ := step_main hstep hmain
    obtain ⟨hpc, hstarted, -⟩ := stepMain_over hown hover
    rw [hstarted]
    rcases hpc with ⟨-, hall⟩ | hpc
    · exact (allExited_worker hall i).imp id (hexited i)
    · exact (h.exited_of_over (.inl hpc) i).imp id (hexited i)
  · have hbefore : Over s := by
      unfold Over at hover ⊢
      rwa [hframe.main hmain] at hover
    rw [hframe.created hmain]
    exact (h.exited_of_over hbefore i).imp id (hexited i)

theorem workersJoined_of_reachable (hreach : Reachable cfg s) : WorkersJoined s := by
  refine hreach.invariant WorkersJoined ⟨fun _ _ => rfl, ?_⟩ ?_
  · rintro (h | h) <;> cases h
  · intro s a s' _ h _ hstep
    exact workersJoined_step h hstep

theorem WorkersJoined.emergency_eq_none (h : WorkersJoined s) (hover : Over s) (i : Worker) :
    (s.worker i).emergency = none := by
  rcases h.exited_of_over hover i with hlt | hpc
  · rw [h.idle i hlt]
    rfl
  · rw [hpc]
    rfl

/-! ## The accounts -/

/-- The emergencies in the three queues. -/
def State.reported (s : State) : List EmergencyId :=
  s.emergencyQueue.contents ++ (s.completedEmergencies.contents ++ s.canceledEmergencies.contents)

theorem nodup_reported (hinv : Invariant cfg s) (honce : StoredOnce s) : s.reported.Nodup := by
  have hle : ∀ e, s.completedEmergencies.contents.count e +
      s.canceledEmergencies.contents.count e ≤ 1 := honce.le_one
  have hcount : ∀ e, s.reported.count e ≤ 1 := by
    intro e
    unfold State.reported
    rw [List.count_append, List.count_append]
    have hqueue := List.nodup_iff_count_le_one.mp (hinv.custody.exclusive.nodup .queue) e
    by_cases he : e ∈ s.emergencyQueue.contents
    · have hzero : s.stored e = 0 := hinv.storage.unstored .queue (by simp) e he
      have hqueue : s.emergencyQueue.contents.count e ≤ 1 := hqueue
      unfold State.stored at hzero
      omega
    · rw [List.count_eq_zero_of_not_mem he]
      have := hle e
      omega
  exact List.nodup_iff_count_le_one.mpr hcount

theorem effect_popped_queue (heffect : Effect cfg s a s') (hpopped : (i, e) ∈ s'.popped) :
    (i, e) ∈ s.popped ∨ e ∈ s.emergencyQueue.contents := by
  cases heffect with
  | quiet hq => exact .inl (hq.popped ▸ hpopped)
  | pop j x queue hpc hpop =>
      rcases List.mem_append.mp hpopped with hbefore | hnew
      · exact .inl hbefore
      · obtain ⟨-, rfl⟩ := Prod.mk.inj (List.mem_singleton.mp hnew)
        exact .inr ((Pq.pop_spec hpop).1.mem_iff.mpr List.mem_cons_self)
  | _ => exact .inl hpopped

/-- The numbers below those of the accepted emergencies belong to nobody. -/
structure NumbersAccepted (cfg : Config) (s : State) : Prop where
  held : ∀ p, (∀ i, p ≠ Place.worker i) → ∀ e ∈ s.holds p, cfg.emergencies.length ≤ e
  popped : ∀ i e, (i, e) ∈ s.popped → cfg.emergencies.length ≤ e
  stored : ∀ e, 0 < s.stored e → cfg.emergencies.length ≤ e

theorem numbersAccepted_of_reachable (hreach : Reachable cfg s) : NumbersAccepted cfg s := by
  refine hreach.invariant (NumbersAccepted cfg) ⟨fun p _ e he => ?_, fun i e he => ?_,
    fun e he => ?_⟩ ?_
  · rw [holds_initialState] at he
    cases he
  · cases he
  · simp [State.stored, initialState] at he
  · intro s a s' hs h _ hstep
    have hinv := reachable_invariant hs
    have heffect := (step_effect hstep).2
    refine ⟨fun p hp e he => ?_, fun i e he => ?_, fun e he => ?_⟩
    · rcases effect_held hinv.custody heffect hp he with rfl | ⟨q, hq, hbefore⟩
      · rw [nextId_of_reachable hs]
        exact Nat.le_add_right _ _
      · exact h.held q hq e hbefore
    · rcases effect_popped_queue heffect he with hbefore | hqueue
      · exact h.popped i e hbefore
      · exact h.held .queue (by simp) e hqueue
    · rcases effect_stored hinv.storage heffect e with hsame | ⟨-, hstores | ⟨hpc, -⟩⟩
      · exact h.stored e (hsame ▸ he)
      · obtain ⟨i, reason, -, hpc, -⟩ := hstores
        exact h.popped i e (hinv.custody.popped_of_worker i e (by rw [hpc]; rfl))
      · exact h.held .updater (by simp) e (mem_holds_updater.mpr (by rw [hpc]; rfl))

/-- When the run is over the reported emergencies are the accepted ones. -/
theorem mem_reported_iff
    (hreach : ReachableWith (State.step cfg) (KeepsAccounts cfg) (initialState cfg) s)
    (hover : Over s) (e : EmergencyId) :
    e ∈ s.reported ↔ cfg.emergencies.length ≤ e ∧ e < s.nextId := by
  have hinv := reachable_invariant hreach.reachable
  have hnumbers := numbersAccepted_of_reachable hreach.reachable
  constructor
  · intro he
    rcases List.mem_append.mp he with hqueue | hrest
    · exact ⟨hnumbers.held .queue (by simp) e hqueue, hinv.custody.fresh .queue e hqueue⟩
    · have hstored : 0 < s.stored e := by
        unfold State.stored
        rw [← List.count_append]
        exact List.count_pos_iff.mpr hrest
      refine ⟨hnumbers.stored e hstored, ?_⟩
      by_contra hge
      rw [hinv.storage.fresh e (Nat.le_of_not_lt hge)] at hstored
      exact absurd hstored (Nat.lt_irrefl 0)
  · rintro ⟨hge, hlt⟩
    have hkept := (accounted_of_reachable (hreach.mono fun _ _ h => h.1) e hge hlt).kept
    obtain ⟨hreceiver, hupdater⟩ := (joined_of_reachable hreach.reachable).none_between hover
    rcases hkept (by simp [hreceiver]) (by simp [hupdater]) with h | h | h | ⟨i, h⟩
    · exact List.mem_append_left _ h
    · exact List.mem_append_right _ (List.mem_append_left _ h)
    · exact List.mem_append_right _ (List.mem_append_right _ h)
    · rw [(workersJoined_of_reachable hreach.reachable).emergency_eq_none hover i] at h
      cases h

/-- When the run is over every accepted emergency is reported once. -/
theorem reported_perm
    (hreach : ReachableWith (State.step cfg) (KeepsAccounts cfg) (initialState cfg) s)
    (hover : Over s) :
    s.reported.Perm (List.range' cfg.emergencies.length s.validCount) := by
  have hinv := reachable_invariant hreach.reachable
  have honce : StoredOnce s := storedOnce_of_reachable (hreach.mono fun _ _ h => h.2.1)
  refine (List.perm_ext_iff_of_nodup (nodup_reported hinv honce) List.nodup_range').mpr ?_
  intro e
  rw [mem_reported_iff hreach hover, List.mem_range'_1, nextId_of_reachable hreach.reachable]

/-- **The report adds up.**  In every run that keeps its accounts the emergencies that
`close_server` reports as completed, timed out, canceled and waiting are together those that
were accepted. -/
theorem report_adds_up
    (hreach : ReachableWith (State.step cfg) (KeepsAccounts cfg) (initialState cfg) s)
    (hover : Over s) :
    let report := closeServerReport s
    report.completed + report.timedOut + report.canceled + report.waiting = report.elaborated := by
  intro report
  have hreason := canceledForReason_of_reachable (hreach.mono fun _ _ h => h.2)
  have hcanceled := timedOut_add_canceled hreason
  have hwaiting : report.waiting = s.emergencyQueue.contents.length := by
    show s.emergencyQueue.contents.foldl countPqWaiting 0 = _
    rw [foldl_countPqWaiting, Nat.zero_add]
  calc report.completed + report.timedOut + report.canceled + report.waiting
      = s.completedEmergencies.contents.length + s.canceledEmergencies.contents.length +
          s.emergencyQueue.contents.length := by
        rw [hwaiting, ← hcanceled, ← Nat.add_assoc]
        rfl
    _ = s.reported.length := by
        rw [State.reported, List.length_append, List.length_append]
        omega
    _ = report.elaborated := by
        rw [(reported_perm hreach hover).length_eq, List.length_range']
        rfl

/-- One emergency has timed out, one is canceled at the end and one is left in the queue. -/
def threeEndings : List Action :=
  searchFails ++ workerSteps 1 2 ++ requestArrives "g 5 4 0" ++ List.replicate 7 (.main true) ++
    [.receiver none, .clock, .clock, .updater none] ++ workerSteps 0 5 ++
    (List.finRange WORKER_THREADS_NUMBER).tail.map .worker ++ List.replicate 2 (.main true)

theorem report_adds_up_three :
    let s := stateAfterWith (KeepsAccounts exampleServer) exampleServer threeEndings
    let report := closeServerReport s
    report = ⟨3, 0, 1, 1, 1⟩ ∧
      report.completed + report.timedOut + report.canceled + report.waiting =
        report.elaborated := by
  intro s report
  have hclosed : s.main = .closed := by decide +kernel
  exact ⟨by decide +kernel,
    report_adds_up (reachableWith_stateAfterWith _ exampleServer _) (.inr hclosed)⟩

end EmergencyDispatch
