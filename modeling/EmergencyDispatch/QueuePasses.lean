import EmergencyDispatch.Endings
import EmergencyDispatch.Locking

/-!
# Around the passes over the queue

After its section with the system locked the updater goes over `emergency_queue`
three times, and the other threads run on.  What they can do to the emergencies
that wait there: push and pop, and otherwise nothing.  A step of another thread that
neither pushes nor pops nor closes the queue leaves the queue and the waiting emergencies
alone (`step_leavesAlone`), because a rescuer serves an emergency only after a worker has
popped it (`ServesPopped`).
-/

namespace EmergencyDispatch

open State

variable {cfg : Config} {s s' : State} {w w' : World} {a : Action} {e : EmergencyId}

/-- The step is not a push of the receiver, a pop of a worker or the `pq_close` of the
main thread. -/
def LeavesQueue (s : State) : Action → Prop
  | .receiver _ => s.receiver.emergency = none
  | .worker i => s.worker i ≠ .pop
  | .main _ =>
      match s.main with
      | .shutdown (.close :: _) => False
      | _ => True
  | _ => True

instance (s : State) (a : Action) : Decidable (LeavesQueue s a) := by
  unfold LeavesQueue
  rcases a
  case main ok =>
    dsimp only
    generalize s.main = pc
    rcases pc
    case shutdown ops => rcases ops with _ | ⟨_ | _, _⟩ <;> infer_instance
    all_goals infer_instance
  all_goals infer_instance

/-! ## The queue -/

theorem stepClock_queue (h : s.stepClock = some s') : s'.emergencyQueue = s.emergencyQueue := by
  cases hpc : s.clock <;> simp only [stepClock, hpc, reduceCtorEq, Option.some.injEq] at h <;>
    subst h <;> rfl

theorem stepReceiver_queue {woken : Option Worker} (hpc : s.receiver.emergency = none)
    (h : s.stepReceiver cfg woken = some s') : s'.emergencyQueue = s.emergencyQueue := by
  unfold stepReceiver at h
  split at h
  · obtain rfl := Option.some.inj h
    rfl
  · split at h
    · cases h
    · dsimp only at h
      split at h
      · obtain rfl := Option.some.inj h
        rfl
      · split at h
        · obtain rfl := Option.some.inj h
          rfl
        · split at h <;> obtain rfl := Option.some.inj h <;> rfl
  · rename_i e hpush
    rw [hpush] at hpc
    cases hpc
  · cases h

theorem stepWorker_queue {i : Worker} (hpop : s.worker i ≠ .pop)
    (h : s.stepWorker cfg i = some s') : s'.emergencyQueue = s.emergencyQueue := by
  cases hpc : s.worker i with
  | pop => exact absurd hpc hpop
  | popped e | closing leaving =>
      simp only [stepWorker, hpc, Option.ite_none_right_eq_some] at h
      obtain rfl := Option.some.inj h.2
      rfl
  | find e =>
      simp only [stepWorker, hpc, Option.ite_none_right_eq_some] at h
      obtain ⟨-, h⟩ := h
      split at h <;> obtain rfl := Option.some.inj h <;> rfl
  | wait e =>
      simp only [stepWorker, hpc, Option.ite_none_right_eq_some] at h
      obtain ⟨-, h⟩ := h
      split at h <;> obtain rfl := Option.some.inj h <;> rfl
  | store e reason =>
      simp only [stepWorker, hpc, Option.ite_none_right_eq_some] at h
      obtain rfl := Option.some.inj h.2
      obtain ⟨level, heq⟩ := changeStatusStoreClose_eq cfg s i e reason
      rw [heq]
      rfl
  | popWait | blocked e | exited =>
      simp only [stepWorker, hpc] at h
      cases h
  | _ =>
      -- a read of a flag or of a status
      simp only [stepWorker, hpc] at h
      obtain rfl := Option.some.inj h
      rfl

theorem shutdownOp_queue {op : ShutdownOp} {more : List ShutdownOp} (hop : op ≠ .close)
    (h : s.shutdownOp op = some (s', more)) : s'.emergencyQueue = s.emergencyQueue := by
  cases op with
  | close => exact absurd rfl hop
  | request =>
      simp only [shutdownOp] at h
      split at h <;> cases h <;> rfl
  | raise | updated =>
      cases h
      rfl
  | wake | send =>
      simp only [shutdownOp, Option.ite_none_right_eq_some] at h
      obtain ⟨-, h⟩ := h
      cases h
      rfl

theorem stepMain_queue {ok : Bool} (hclose : LeavesQueue s (.main ok))
    (h : s.stepMain ok = some s') : s'.emergencyQueue = s.emergencyQueue := by
  cases hpc : s.main with
  | shutdown todo =>
      cases todo with
      | nil =>
          simp only [stepMain, hpc] at h
          obtain rfl := Option.some.inj h
          rfl
      | cons op rest =>
          simp only [stepMain, hpc, Option.map_eq_some_iff, Prod.exists] at h
          obtain ⟨s₁, more, hop, rfl⟩ := h
          have hop' : op ≠ .close := by
            rintro rfl
            simp only [LeavesQueue, hpc] at hclose
          have hqueue : s₁.emergencyQueue = s.emergencyQueue := shutdownOp_queue hop' hop
          exact hqueue
  | closeServer =>
      simp only [stepMain, hpc, Option.map_eq_some_iff, Prod.exists] at h
      obtain ⟨s₁, more, hop, rfl⟩ := h
      have hqueue : s₁.emergencyQueue = s.emergencyQueue := shutdownOp_queue (by decide) hop
      exact hqueue
  | start =>
      simp only [stepMain, hpc] at h
      split at h <;> obtain rfl := Option.some.inj h <;> rfl
  | sigwait =>
      simp only [stepMain, hpc] at h
      obtain rfl := Option.some.inj h
      rfl
  | join =>
      simp only [stepMain, hpc, Option.ite_none_right_eq_some] at h
      obtain rfl := Option.some.inj h.2
      rfl
  | closed =>
      simp only [stepMain, hpc] at h
      cases h

theorem step_queue (hother : a.thread ≠ some .updater) (hleaves : LeavesQueue s a)
    (hstep : State.step cfg s a = some s') : s'.emergencyQueue = s.emergencyQueue := by
  cases (step_thread hstep).2 with
  | clock _ h => exact stepClock_queue h
  | updater woken _ h => exact absurd rfl hother
  | receiver woken _ h => exact stepReceiver_queue hleaves h
  | worker i _ h => exact stepWorker_queue hleaves h
  | main ok h => exact stepMain_queue hleaves h
  | client message _ => rfl
  | wakeWorker i h =>
      unfold stepWakeWorker at h
      split at h
      · obtain rfl := Option.some.inj h
        rfl
      · obtain rfl := Option.some.inj h
        rfl
      · cases h
  | wakeUpdater hpc => rfl

/-! ## Who is served -/

/-- A rescuer serves only emergencies that a worker has popped. -/
def ServesPopped (s : State) : Prop :=
  ∀ t e, (s.world.twins t).serves e = true → ∃ i, (i, e) ∈ s.popped

theorem Effect.popped_mono (heffect : Effect cfg s a s') {i : Worker}
    (hpopped : (i, e) ∈ s.popped) : (i, e) ∈ s'.popped := by
  cases heffect with
  | quiet hq => exact hq.popped ▸ hpopped
  | pop => exact List.mem_append_left _ hpopped
  | _ => exact hpopped

theorem servesPopped_of_reachable (hreach : Reachable cfg s) : ServesPopped s := by
  refine hreach.invariant ServesPopped ?_ ?_
  · intro t e hserves
    have hrest : ((initialState cfg).world.twins t).isAtRest := ⟨rfl, .inl rfl⟩
    rw [RescuerDigitalTwin.serves_of_atRest hrest] at hserves
    cases hserves
  · intro s a s' hs ih _ hstep t e hserves
    have hinv := reachable_invariant hs
    have heffect := (step_effect hstep).2
    rcases (world_effect hinv heffect).serves hinv hserves with hold | ⟨i, -, hpc⟩
    · obtain ⟨i, hpopped⟩ := ih t e hold
      exact ⟨i, heffect.popped_mono hpopped⟩
    · have hpopped := hinv.custody.popped_of_worker i e (by rw [hpc]; rfl)
      exact ⟨i, heffect.popped_mono hpopped⟩

/-! ## The records -/

/-- A dispatch writes the emergency it is for and the one it takes the rescuer from. -/
theorem DispatchStep.emergencies_of_ne {k : ℕ} {t : TwinId} {x : EmergencyId}
    (h : DispatchStep x k t w w') (he : e ≠ x) (hserves : ∀ u, (w.twins u).serves e = false) :
    w'.emergencies e = w.emergencies e := by
  cases h with
  | atRest request hrest => simp [bindWorld, he]
  | preempting request old l missing hne hold =>
      have hne' : e ≠ old := by
        rintro rfl
        rw [hserves t] at hold
        cases hold
      simp [bindWorld, preemptWorld, he, hne']

theorem DispatchRun.emergencies_of_ne {candidates : List TwinId} {x : EmergencyId}
    (h : DispatchRun x candidates w w') (he : e ≠ x) (hserves : ∀ u, (w.twins u).serves e = false) :
    w'.emergencies e = w.emergencies e := by
  induction h with
  | nil w => rfl
  | @cons k t candidates w w' w'' hstep hrun ih =>
      have hserves' : ∀ u, (w'.twins u).serves e = false := by
        intro u
        rw [Bool.eq_false_iff]
        intro h
        have := hstep.serves he h
        rw [hserves u] at this
        cases this
      rw [ih hserves', hstep.emergencies_of_ne he hserves]

theorem FindStep.emergencies_of_ne {table : List PriorityRule} {found : Bool} {x : EmergencyId}
    (h : FindStep table w x (.ok (w', found))) (he : e ≠ x)
    (hserves : ∀ u, (w.twins u).serves e = false) : w'.emergencies e = w.emergencies e := by
  cases h with
  | nothingMissing => rfl
  | notEnough => rfl
  | dispatched hmissing h hnotDone hrun =>
      rw [clearMissing, World.setEmergency_of_ne _ _ _ he]
      exact hrun.emergencies_of_ne he hserves

/-- What a state knows of an emergency that no worker has had. -/
structure Unpopped (s : State) (e : EmergencyId) : Prop where
  made : e < s.nextId
  popped : ∀ i, (i, e) ∉ s.popped

theorem Unpopped.ne_of_worker (h : Unpopped s e) (hinv : Invariant cfg s) {i : Worker}
    {x : EmergencyId} (hx : (s.worker i).emergency = some x) : e ≠ x := by
  rintro rfl
  exact h.popped i (hinv.custody.popped_of_worker i e hx)

theorem step_record (hinv : Invariant cfg s) (hserves : ServesPopped s)
    (hother : a.thread ≠ some .updater) (he : Unpopped s e) (hstep : State.step cfg s a = some s') :
    s'.world.emergencies e = s.world.emergencies e := by
  have hnot : ∀ u, (s.world.twins u).serves e = false := by
    intro u
    rw [Bool.eq_false_iff]
    intro h
    obtain ⟨i, hpopped⟩ := hserves u e h
    exact he.popped i hpopped
  generalize hw : s'.world = w'
  have hworld := world_effect hinv (step_effect hstep).2
  rw [hw] at hworld
  cases hworld with
  | openSlot i x hpc =>
      exact World.setEmergency_of_ne _ _ _ (he.ne_of_worker hinv (by rw [hpc]; rfl))
  | search i x w found hpc hfind =>
      exact hfind.emergencies_of_ne (he.ne_of_worker hinv (by rw [hpc]; rfl)) hnot
  | store i x reason hpc =>
      have hne := he.ne_of_worker hinv (by rw [hpc]; rfl)
      rw [storeWorld, World.setActive_emergencies, World.setEmergency_of_ne _ _ _ hne]
  | receive request emergency hemergency =>
      exact World.setEmergency_of_ne _ _ _ (Nat.ne_of_lt he.made)
  | same | closeSlot => rfl
  | tickStay | walk | arriveOnScene | arriveAtBase | fatal | slot | mapWaiting | expire
  | promote => exact absurd rfl hother

theorem step_canceled (hinv : Invariant cfg s) (hother : a.thread ≠ some .updater)
    (he : Unpopped s e) (hstep : State.step cfg s a = some s') :
    s'.canceledEmergencies.contents.count e = s.canceledEmergencies.contents.count e := by
  cases (step_effect hstep).2 with
  | quiet hq => rw [hq.canceled]
  | store i x reason level hpc =>
      have hne := he.ne_of_worker hinv (by rw [hpc]; rfl)
      dsimp only
      split
      · rfl
      · rw [count_push cfg hinv.storage.canceled_open hinv.storage.canceled_levels, if_neg hne,
          Nat.add_zero]
  | expire => exact absurd rfl hother
  | _ => rfl

theorem Unpopped.step (he : Unpopped s e) (hleaves : LeavesQueue s a)
    (hstep : State.step cfg s a = some s') : Unpopped s' e := by
  constructor
  · rcases step_accepted hstep with ⟨hnextId, -⟩ | ⟨hnextId, -⟩
    · exact hnextId ▸ he.made
    · exact hnextId ▸ Nat.lt_succ_of_lt he.made
  · intro i
    cases (step_effect hstep).2 with
    | quiet hq => exact hq.popped ▸ he.popped i
    | pop j x queue hpc => exact absurd hpc hleaves
    | _ => exact he.popped i

end EmergencyDispatch
