import EmergencyDispatch.WorldEffects

/-!
# Paused emergencies

A preemption pauses the emergency that loses the rescuer and adds it to what is
missing there.  Only a successful search of the paused emergency could undo the
pause, but the search clears what is missing and leaves the status: from then on
the emergency is paused with nobody missing.  As long as no search of a paused
emergency finds enough rescuers, every paused emergency misses some.
-/

namespace EmergencyDispatch

open State TransitionSystem

variable {cfg : Config} {s s' : State} {a : Action} {i : Worker} {e : EmergencyId}

/-- A paused emergency misses rescuers. -/
def Emergency.MissingWhilePaused (em : Emergency) : Prop :=
  em.status = .paused → 0 < totalCount em.rescuersMissing

theorem Emergency.SameOrders.missingWhilePaused {em em' : Emergency} (h : em.SameOrders em')
    (hmissing : em.MissingWhilePaused) : em'.MissingWhilePaused := by
  obtain ⟨_, _, _, rfl⟩ := h
  exact hmissing

/-- What is missing for an emergency that is not paused does not matter. -/
theorem Emergency.missingWhilePaused_of_ne {em : Emergency} (h : em.status ≠ .paused) :
    em.MissingWhilePaused := fun hpaused => absurd hpaused h

/-- The dispatch of a candidate pauses the emergency it is taken from, which
then misses it. -/
theorem DispatchStep.missingWhilePaused {w w' : World} {k : ℕ} {t : TwinId}
    (h : DispatchStep e k t w w') {e' : EmergencyId} (he : e' ≠ e)
    (hmissing : (w.emergencies e').MissingWhilePaused) :
    (w'.emergencies e').MissingWhilePaused := by
  cases h with
  | atRest request hrest => simpa [bindWorld, he] using hmissing
  | preempting request old j missing hne hserves hslot htypes hcount =>
      by_cases hold : e' = old
      · subst hold
        have hmore := hcount anyType
        rw [requested_anyType] at hmore
        intro _
        simp only [bindWorld, preemptWorld, preempted, World.setTwin_emergencies,
          World.setEmergency_of_ne _ _ _ he, World.setEmergency_self, hmore, anyType,
          Bool.toNat_true]
        omega
      · simpa [bindWorld, preemptWorld, he, hold] using hmissing

theorem DispatchRun.missingWhilePaused {w w' : World} {candidates : List TwinId}
    (h : DispatchRun e candidates w w') {e' : EmergencyId} (he : e' ≠ e)
    (hmissing : (w.emergencies e').MissingWhilePaused) :
    (w'.emergencies e').MissingWhilePaused := by
  induction h with
  | nil w => exact hmissing
  | cons hstep hrun ih => exact ih (hstep.missingWhilePaused he hmissing)

/-- No search of a paused emergency finds enough rescuers. -/
def PausedSearchFails (cfg : Config) (s : State) : Action → Prop
  | .worker i =>
      match s.worker i with
      | .find e => (s.world.emergencies e).status = .paused →
          ¬EnoughRescuers cfg.priorityLookupTable s.world e
      | _ => True
  | _ => True

instance (cfg : Config) (s : State) (a : Action) : Decidable (PausedSearchFails cfg s a) := by
  unfold PausedSearchFails
  rcases a
  case worker i => dsimp only; generalize s.worker i = pc; rcases pc <;> infer_instance
  all_goals infer_instance

/-- A step that is no successful search of a paused emergency keeps the rescuers
missing. -/
theorem missingWhilePaused_step (hinv : Invariant cfg s) (hguard : PausedSearchFails cfg s a)
    (heffect : Effect cfg s a s') (h : ∀ e, (s.world.emergencies e).MissingWhilePaused)
    (e' : EmergencyId) : (s'.world.emergencies e').MissingWhilePaused := by
  have hold := h e'
  have hworld := world_effect hinv heffect
  generalize s'.world = w' at hworld
  -- one emergency is overwritten
  have hset : ∀ {w : World} {e em}, w.emergencies e' = s.world.emergencies e' →
      (e' = e → em.MissingWhilePaused) →
      ((w.setEmergency e em).emergencies e').MissingWhilePaused := by
    intro w e em hw hem
    by_cases he : e' = e
    · subst he; simpa using hem rfl
    · simpa [he, hw] using hold
  cases hworld with
  | same => exact hold
  | openSlot i e hpc => exact hset rfl fun _ => Emergency.missingWhilePaused_of_ne (by simp)
  | search i e w found hpc hstep =>
      cases hstep with
      | nothingMissing => exact hold
      | notEnough => exact hold
      | dispatched hmissing henough hnotDone hrun =>
          have hnot : (s.world.emergencies e).status ≠ .paused := by
            simp only [PausedSearchFails, hpc] at hguard
            exact fun hpaused => hguard hpaused henough
          by_cases he : e' = e
          · subst he
            refine Emergency.missingWhilePaused_of_ne ?_
            simpa [clearMissing, hrun.status_self] using hnot
          · simpa [clearMissing, he] using hrun.missingWhilePaused he hold
  | store i e reason hpc =>
      refine hset (w := s.world) rfl fun _ => Emergency.missingWhilePaused_of_ne ?_
      have hnews := Phase.news_mem (hpc ▸ hinv.storage.phase i)
      intro hpaused
      rw [show reason.news = .paused from hpaused] at hnews
      exact absurd hnews (by decide)
  | closeSlot i leaving hpc => exact hold
  | tickStay t hstatus => exact hold
  | walk t w twin arrived hstart hwalk =>
      exact (hstart.sameOrders hinv.links e').missingWhilePaused hold
  | arriveOnScene t e hroute => exact (arriveOnScene_sameOrders _ t e e').missingWhilePaused hold
  | arriveAtBase t hreturning => exact hold
  | fatal t hstatus => exact hold
  | slot i e hactive =>
      refine hset (w := s.world) rfl fun _ => ?_
      intro hpaused
      rw [(updateActiveEmergencyState_spec _ _).2.2.1]
      refine h e ?_
      rcases updateActiveEmergencyState_status cfg.priorityLookupTable
        (s.world.emergencies e) with hs | ⟨-, -, hs⟩ | ⟨-, -, hs⟩
      · rw [← hs]; exact hpaused
      · rw [hs] at hpaused; cases hpaused
      · rw [hs] at hpaused; cases hpaused
  | mapWaiting =>
      dsimp only
      split
      · exact hold
      · exact hold
  | expire e hpc => exact hset rfl fun _ => Emergency.missingWhilePaused_of_ne (by simp)
  | promote e hpc => exact hset rfl fun _ => h e
  | receive request emergency hemergency =>
      refine hset rfl fun _ => Emergency.missingWhilePaused_of_ne ?_
      simp [(mallocateEmergency_spec hemergency).2.2.2.2.2.2.1]

/-- **A paused emergency misses rescuers.**  In every run in which no search of
a paused emergency finds enough rescuers, a paused emergency in a slot has
missing rescuers, and an emergency for which the next step finds the rescuers is
not left paused. -/
theorem paused_emergency_misses_rescuers
    (hreach : ReachableWith (State.step cfg) (PausedSearchFails cfg) (initialState cfg) s) :
    (∀ i e, s.world.active i = some e → (s.world.emergencies e).status = .paused →
        0 < totalCount (s.world.emergencies e).rescuersMissing) ∧
      ∀ i e w, s.worker i = .find e → PausedSearchFails cfg s (.worker i) →
        findRescuersLoggingBlocking cfg.priorityLookupTable s.world e = .ok (w, true) →
        (w.emergencies e).status ≠ .paused := by
  have hmissing : ∀ e, (s.world.emergencies e).MissingWhilePaused := by
    refine hreach.invariant (fun s => ∀ e, (s.world.emergencies e).MissingWhilePaused) ?_ ?_
    · exact fun e => Emergency.missingWhilePaused_of_ne (nomatch ·)
    · intro s a s' hs h hguard hstep
      exact missingWhilePaused_step (reachable_invariant hs.reachable) hguard
        (step_effect hstep).2 h
  refine ⟨fun i e _ => hmissing e, fun i e w hpc hguard hfind hpaused => ?_⟩
  have hstep := (reachable_invariant hreach.reachable).findStep hpc hfind
  have hwas : (s.world.emergencies e).status = .paused := hstep.status_self ▸ hpaused
  simp only [PausedSearchFails, hpc] at hguard
  cases hstep with
  | nothingMissing hnone =>
      have := hmissing e hwas
      omega
  | dispatched _ henough => exact hguard hwas henough

/-- The paused emergency `e` misses the rescuer that was taken. -/
theorem paused_emergency_misses_rescuers_taken :
    let s := stateAfterWith (PausedSearchFails exampleServer) exampleServer rescuerTaken
    s.world.active 0 = some 3 ∧ (s.world.emergencies 3).status = .paused ∧
      0 < totalCount (s.world.emergencies 3).rescuersMissing :=
  ⟨by decide +kernel, by decide +kernel,
    (paused_emergency_misses_rescuers (reachableWith_stateAfterWith _ _ _)).1 0 3
      (by decide +kernel) (by decide +kernel)⟩

/-- The rescuer comes back from `g` and the search of `e` succeeds: `e` is still
paused, and misses nobody. -/
theorem paused_emergency_misses_nobody :
    let s := stateAfter exampleServer (rescuerTaken ++ clockTicks 22 ++ clockTicks 21 ++
      workerSteps 0 5)
    Reachable exampleServer s ∧ s.systemFree = true ∧ s.world.active 0 = some 3 ∧
      (s.world.emergencies 3).status = .paused ∧
      totalCount (s.world.emergencies 3).rescuersMissing = 0 :=
  ⟨reachable_stateAfter _ _, by decide +kernel, by decide +kernel, by decide +kernel,
    by decide +kernel⟩

end EmergencyDispatch
