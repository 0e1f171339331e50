import EmergencyDispatch.Invariants

/-!
# How often an emergency is stored

A worker stores its emergency when the search fails, when it is completed, or
when the server stops.  The last store stands after the loop, at the end of
which an emergency that was stored inside it arrives too: there the worker reads
`server_must_stop` once more, and an emergency that was stored as `TIMEOUT` or
`COMPLETED` is stored again as `CANCELED` when the flag is raised by then, be it
before or after the store.  If that does not happen, every emergency that a worker
has popped is stored exactly once.
-/

namespace EmergencyDispatch

open State TransitionSystem

variable {cfg : Config} {s s' : State} {a : Action}

/-- A worker that has stored its emergency in the loop reads the flag as false at line 85. -/
def StopUnseenAfterStore (s : State) : Action → Prop
  | .worker i =>
      match s.worker i with
      | .ended e => 0 < s.stored e → s.serverMustStop = false
      | _ => True
  | _ => True

instance (s : State) (a : Action) : Decidable (StopUnseenAfterStore s a) := by
  unfold StopUnseenAfterStore
  rcases a
  case worker i => dsimp only; generalize s.worker i = pc; rcases pc <;> infer_instance
  all_goals infer_instance

/-- What holds when no store is repeated. -/
structure StoredOnce (s : State) : Prop where
  le_one : ∀ e, s.stored e ≤ 1
  released : ∀ i e, (i, e) ∈ s.popped → (s.worker i).emergency ≠ some e → s.stored e = 1
  stopping : ∀ i e, s.worker i = .store e .stopping → s.stored e = 0

theorem StoredOnce.stored_of_store (h : StoredOnce s) (hinv : Invariant cfg s) {i : Worker}
    {e : EmergencyId} {reason : StoreReason} (hpc : s.worker i = .store e reason) :
    s.stored e = 0 := by
  have hphase := hinv.storage.phase i
  rw [hpc] at hphase
  cases reason with
  | searchFailed => exact hphase.stored
  | completed news => exact hphase.1.stored
  | canceled news => exact hphase.elim
  | stopping => exact h.stopping i e hpc

/-- An emergency that a worker has popped and given up is stored no more. -/
theorem stored_of_released (hinv : Invariant cfg s) (heffect : Effect cfg s a s') {i : Worker}
    {e : EmergencyId} (hpopped : (i, e) ∈ s.popped) (hleft : (s.worker i).emergency ≠ some e) :
    s'.stored e = s.stored e := by
  rcases effect_stored hinv.storage heffect e with hsame | ⟨-, ⟨j, reason, -, hpc, -⟩ | ⟨hpc, -⟩⟩
  · exact hsame
  · have hj : (s.worker j).emergency = some e := by rw [hpc]; rfl
    have := hinv.custody.popped_place i e hpopped _ (mem_holds_worker.mpr hj)
    obtain rfl := Place.worker.inj this
    exact absurd hj hleft
  · have hu : s.updater.emergency = some e := by rw [hpc]; rfl
    have := hinv.custody.popped_place i e hpopped _ (mem_holds_updater.mpr hu)
    simp at this

/-- A worker gives its emergency up only where it goes on to close its slot. -/
theorem LocalMove.closing_of_drop {pc pc' : WorkerPc} (h : LocalMove s pc pc') {e : EmergencyId}
    (hheld : pc.emergency = some e) (hleft : pc'.emergency ≠ some e) :
    pc = .ended e ∧ s.serverMustStop = false := by
  cases h with
  | finish e' hstop =>
      obtain rfl : e' = e := by simpa [WorkerPc.emergency] using hheld
      exact ⟨rfl, hstop⟩
  | leave | again | closed | empty => cases hheld
  | _ => exact absurd hheld hleft

/-- A worker gives its emergency up when it stores it or when it goes on to close
its slot. -/
theorem effect_giving_up (hinv : Invariant cfg s) (heffect : Effect cfg s a s') {i : Worker}
    {e : EmergencyId} (hheld : (s.worker i).emergency = some e)
    (hleft : (s'.worker i).emergency ≠ some e) :
    (s.worker i = .ended e ∧ s.serverMustStop = false ∧ s'.stored e = s.stored e) ∨
      ∃ reason, s.worker i = .store e reason ∧ s'.stored e = s.stored e + 1 := by
  by_cases ha : a = .worker i
  · subst ha
    cases heffect with
    | quiet hq => exact absurd ((hq.worker i).emergency.trans hheld) hleft
    | move _ pc hmove =>
        have hpc' : (s.setWorker i pc).worker i = pc := by simp [setWorker]
        obtain ⟨hended, hstop⟩ := hmove.closing_of_drop hheld (hpc' ▸ hleft)
        exact .inl ⟨hended, hstop, rfl⟩
    | pop _ e' queue hpc hpop => rw [hpc] at hheld; cases hheld
    | openSlot _ e' hpc =>
        rw [hpc] at hheld
        exact absurd hheld (by simpa [setWorker, WorkerPc.emergency] using hleft)
    -- found or not, the worker keeps the emergency
    | search _ e' w found worker hpc hfind hwoken =>
        rw [hpc] at hheld
        refine absurd hheld ?_
        cases found <;> simpa [WorkerPc.emergency] using hleft
    | store _ e' reason level hpc =>
        have he := hheld
        rw [hpc] at he
        obtain rfl : e' = e := by simpa [WorkerPc.emergency] using he
        refine .inr ⟨reason, hpc, ?_⟩
        rw [stored_store hinv.storage _ rfl rfl, if_pos rfl]
    | closeSlot _ leaving hpc => rw [hpc] at hheld; cases hheld
  · have hwoken := (effect_undisturbed hinv heffect ha).2
    exact absurd (hwoken.emergency.trans hheld) hleft

/-- When the worker gives its emergency up, it has been stored once. -/
theorem stored_of_giving_up (hinv : Invariant cfg s) (h : StoredOnce s)
    (heffect : Effect cfg s a s') {i : Worker} {e : EmergencyId}
    (hheld : (s.worker i).emergency = some e) (hleft : (s'.worker i).emergency ≠ some e) :
    s'.stored e = 1 := by
  have hphase := hinv.storage.phase i
  rcases effect_giving_up hinv heffect hheld hleft with ⟨hpc, hstop, hsame⟩ | ⟨reason, hpc, hsucc⟩
  · rw [hpc] at hphase
    rcases hphase with hs | ⟨-, hstop'⟩
    · rw [hsame, hs.stored]
    · rw [hstop] at hstop'
      cases hstop'
  · rw [hsucc, h.stored_of_store hinv hpc]

theorem effect_popped (heffect : Effect cfg s a s') {i : Worker} {e : EmergencyId}
    (hpopped : (i, e) ∈ s'.popped) : (i, e) ∈ s.popped ∨ (s'.worker i).emergency = some e := by
  cases heffect with
  | quiet hq => exact .inl (hq.popped ▸ hpopped)
  | pop j e' queue hpc hpop =>
      rcases List.mem_append.mp hpopped with hold | hnew
      · exact .inl hold
      · obtain ⟨rfl, rfl⟩ := Prod.mk.inj (List.mem_singleton.mp hnew)
        exact .inr (by simp [WorkerPc.emergency])
  | _ => exact .inl hpopped

/-- A worker comes to the last store only by reading that the server must stop. -/
theorem effect_stopping (hinv : Invariant cfg s) (heffect : Effect cfg s a s') {i : Worker}
    {e : EmergencyId} (hpc : s'.worker i = .store e .stopping) :
    s'.stored e = s.stored e ∧ (s.worker i = .store e .stopping ∨
      a = .worker i ∧ s.worker i = .ended e ∧ s.serverMustStop = true) := by
  have hwoken : Woken (s.worker i) (s'.worker i) → s.worker i = .store e .stopping := by
    intro h
    rw [hpc] at h
    generalize s.worker i = old at h ⊢
    cases h
    rfl
  by_cases ha : a = .worker i
  · subst ha
    cases heffect with
    | quiet hq =>
        exact ⟨stored_of_eq hq.completed hq.canceled e, .inl (hwoken (hq.worker i))⟩
    | move _ pc hmove =>
        obtain rfl : pc = .store e .stopping := by simpa [setWorker] using hpc
        generalize hold : s.worker i = old at hmove
        cases hmove with
        | stopping _ hstop => exact ⟨rfl, .inr ⟨rfl, rfl, hstop⟩⟩
    | pop _ e' queue hpc' hpop => simp at hpc
    | openSlot _ e' hpc' => simp [setWorker] at hpc
    | search _ e' w found worker hpc' hfind hw => cases found <;> simp at hpc
    | store _ e' reason level hpc' => cases reason <;> simp [StoreReason.next] at hpc
    | closeSlot _ leaving hpc' => cases leaving <;> simp [setWorker] at hpc
  · obtain ⟨hundisturbed, hw⟩ := effect_undisturbed hinv heffect ha
    have hold := hwoken hw
    exact ⟨hundisturbed.stored e (by rw [hold]; rfl), .inl hold⟩

theorem storedOnce_step (hinv : Invariant cfg s) (h : StoredOnce s)
    (hguard : StopUnseenAfterStore s a) (heffect : Effect cfg s a s') : StoredOnce s' where
  le_one e := by
    have hle := h.le_one e
    rcases effect_stored hinv.storage heffect e with hsame | ⟨hsucc, hstore⟩
    · rwa [hsame]
    · have hzero : s.stored e = 0 := by
        rcases hstore with ⟨i, reason, -, hpc, -⟩ | ⟨hpc, -⟩
        · exact h.stored_of_store hinv hpc
        · exact hinv.storage.unstored_updater (by rw [hpc]; rfl)
      rw [hsucc, hzero]
  released i e hpopped hleft := by
    by_cases hheld : (s.worker i).emergency = some e
    · exact stored_of_giving_up hinv h heffect hheld hleft
    · have hold := (effect_popped heffect hpopped).resolve_right hleft
      exact (stored_of_released hinv heffect hold hheld).trans (h.released i e hold hheld)
  stopping i e hpc := by
    obtain ⟨hsame, hold | ⟨rfl, hended, hstop⟩⟩ := effect_stopping hinv heffect hpc
    · exact hsame.trans (h.stopping i e hold)
    · rw [hsame]
      by_contra hne
      -- the flag was read as raised: by the guard nothing had been stored yet
      have : s.serverMustStop = false := by
        simp only [StopUnseenAfterStore, hended] at hguard
        exact hguard (Nat.pos_of_ne_zero hne)
      rw [hstop] at this
      cases this

theorem storedOnce_of_reachable
    (hreach : ReachableWith (State.step cfg) StopUnseenAfterStore (initialState cfg) s) :
    StoredOnce s := by
  refine hreach.invariant StoredOnce ⟨fun e => ?_, fun i e he => ?_, fun i e hpc => ?_⟩ ?_
  · simp [State.stored, initialState]
  · simp [initialState] at he
  · simp [initialState] at hpc
  · intro s a s' hs honce hguard hstep
    exact storedOnce_step (reachable_invariant hs.reachable) honce hguard (step_effect hstep).2

/-- **Stored exactly once.**  In every run in which the workers that have stored their
emergency in the loop read the flag as false at line 85, an emergency that a worker has
popped is in exactly one of the two queues, and there once, when the worker has gone on. -/
theorem popped_emergency_stored_once
    (hreach : ReachableWith (State.step cfg) StopUnseenAfterStore (initialState cfg) s)
    {i : Worker} {e : EmergencyId} (hpopped : (i, e) ∈ s.popped)
    (hleft : (s.worker i).emergency ≠ some e) :
    s.completedEmergencies.contents.count e + s.canceledEmergencies.contents.count e = 1 :=
  (storedOnce_of_reachable hreach).released i e hpopped hleft

/-- A run in which a search fails: the second of two emergencies `f` finds the
only rescuer taken. -/
def searchFails : List Action :=
  threadsStart ++ requestArrives "f 5 4 0" ++ requestArrives "f 5 6 0" ++ workerSteps 0 5 ++
    workerSteps 1 6

/-- When nobody stops the server, the emergency of the failed search is stored once. -/
theorem popped_emergency_stored_once_timeout :
    let s := stateAfterWith StopUnseenAfterStore exampleServer (searchFails ++ workerSteps 1 2)
    (1, 4) ∈ s.popped ∧ (s.worker 1).emergency ≠ some 4 ∧
      s.completedEmergencies.contents.count 4 + s.canceledEmergencies.contents.count 4 = 1 :=
  ⟨by decide +kernel, by decide +kernel,
    popped_emergency_stored_once (reachableWith_stateAfterWith _ _ _) (i := 1) (by decide +kernel)
      (by decide +kernel)⟩

/-- The flag turns true after the emergency is stored as `TIMEOUT`: the worker
stores it again before it exits. -/
theorem popped_emergency_stored_twice :
    let s := stateAfter exampleServer (searchFails ++ [.main true, .main true] ++ workerSteps 1 3)
    Reachable exampleServer s ∧ (1, 4) ∈ s.popped ∧ s.worker 1 = .exited ∧
      s.canceledEmergencies.contents.count 4 = 2 :=
  ⟨reachable_stateAfter _ _, by decide +kernel, by decide +kernel, by decide +kernel⟩

end EmergencyDispatch
