import EmergencyDispatch.Storing
import EmergencyDispatch.WorldEffects

/-!
# What remains of an ended emergency

An emergency that is stored as completed has no rescuers left.  One that is
stored because its search has failed keeps those it still had after a
preemption: nobody sends them back, they go on serving an emergency that no
worker holds, and a later search that takes one of them pauses the emergency
again.  Without such a store every rescuer serves an emergency in a slot, and
without such a search, and without a second store, the status with which an
emergency ended is final.
-/

namespace EmergencyDispatch

open State TransitionSystem

variable {cfg : Config} {s s' : State} {a : Action} {i : Worker} {t : TwinId} {e : EmergencyId}
  {w w' : World}

/-! ## Who begins to serve -/

theorem serves_of_setTwin {twin : RescuerDigitalTwin} {u : TwinId}
    (hserves : ((w.setTwin t twin).twins u).serves e = true)
    (htwin : twin.serves e = true → (w.twins t).serves e = true) :
    (w.twins u).serves e = true := by
  by_cases hu : u = t
  · subst hu
    exact htwin (by simpa using hserves)
  · simpa [hu] using hserves

theorem WalkStart.serves {n : EmergencyId} (hl : WellLinked cfg n w) (h : WalkStart w t w')
    {u : TwinId} (hserves : (w'.twins u).serves e = true) : (w.twins u).serves e = true := by
  cases h with
  | travelling => exact hserves
  | leaving e' hscene =>
      obtain ⟨i, -, hw⟩ := leaveScene_spec (tickStay_linked hl)
        ((isOnSceneOf_tickStay w t e').trans hscene)
      rw [hw] at hserves
      have hstay : ((tickStay w t).twins u).serves e = true := by
        refine serves_of_setTwin (t := t) hserves fun h' => ?_
        simp [RescuerDigitalTwin.serves] at h'
      exact serves_of_setTwin hstay id

/-- Only a search makes a twin serve another emergency. -/
theorem WorldEffect.serves (hinv : Invariant cfg s) (h : WorldEffect cfg s a w')
    (hserves : (w'.twins t).serves e = true) :
    (s.world.twins t).serves e = true ∨ ∃ i, a = .worker i ∧ s.worker i = .find e := by
  cases h with
  | search i e' w found hpc hstep =>
      by_cases he : e = e'
      · exact .inr ⟨i, rfl, he ▸ hpc⟩
      · cases hstep with
        | nothingMissing => exact .inl hserves
        | notEnough => exact .inl hserves
        | dispatched _ _ _ hrun => exact .inl (hrun.serves he hserves)
  | walk u w twin arrived hstart hwalk =>
      obtain ⟨step, -, -, rfl⟩ := walkOneTick_spec hwalk
      exact .inl (hstart.serves hinv.links (serves_of_setTwin hserves id))
  | tickStay u hstatus => exact .inl (serves_of_setTwin hserves id)
  | fatal u hstatus => exact .inl (serves_of_setTwin hserves id)
  | arriveAtBase u hreturning =>
      refine .inl (serves_of_setTwin hserves fun h' => ?_)
      simp [RescuerDigitalTwin.serves] at h'
  | arriveOnScene u e' hroute =>
      refine .inl (serves_of_setTwin (t := u) hserves fun h' => ?_)
      have hemergency := (RescuerDigitalTwin.serves_iff.mp h').1
      exact RescuerDigitalTwin.serves_iff.mpr
        ⟨hemergency, .inl (RescuerDigitalTwin.isEnRouteTo_iff.mp hroute).1⟩
  | same | openSlot | store | closeSlot | slot | mapWaiting | expire | promote | receive =>
      exact .inl hserves

/-- The slot of a worker is emptied when it stores its emergency. -/
theorem WorldEffect.active (hinv : Invariant cfg s) (h : WorldEffect cfg s a w')
    (hactive : s.world.active i = some e) :
    w'.active i = some e ∨ ∃ reason, a = .worker i ∧ s.worker i = .store e reason := by
  have hwork := hinv.emergency_of_active hactive
  cases h with
  | openSlot j e' hpc =>
      -- a slot is opened by a worker whose slot is empty
      have hji : i ≠ j := by
        rintro rfl
        have := hinv.storage.phase i
        rw [hpc] at this
        simp [this.2] at hactive
      exact .inl (by simpa [hji] using hactive)
  | search j e' w found hpc hstep => exact .inl (by simpa [hstep.active] using hactive)
  | store j e' reason hpc =>
      by_cases hji : i = j
      · subst hji
        rw [hpc] at hwork
        obtain rfl : e' = e := Option.some_injective _ hwork
        exact .inr ⟨reason, rfl, hpc⟩
      · exact .inl (by simpa [storeWorld, hji] using hactive)
  | closeSlot j leaving hpc =>
      have hji : i ≠ j := by
        rintro rfl
        rw [hpc] at hwork
        cases hwork
      exact .inl (by simpa [hji] using hactive)
  | walk u w twin arrived hstart hwalk =>
      exact .inl (by simpa [hstart.active hinv.links] using hactive)
  | same | tickStay | arriveOnScene | arriveAtBase | fatal | slot | mapWaiting | expire
  | promote | receive => exact .inl hactive

/-! ## Rescuers of ended emergencies -/

/-- No search fails for an emergency that still has rescuers in its slots. -/
def FailsWithoutRescuers (s : State) : Action → Prop
  | .worker i =>
      match s.worker i with
      | .store e .searchFailed => (s.world.emergencies e).rescuerTwins.reduceOption = []
      | _ => True
  | _ => True

instance (s : State) (a : Action) : Decidable (FailsWithoutRescuers s a) := by
  unfold FailsWithoutRescuers
  rcases a
  case worker i =>
    dsimp only
    generalize s.worker i = pc
    rcases pc
    case store e reason => rcases reason <;> infer_instance
    all_goals infer_instance
  all_goals infer_instance

/-- Every rescuer on its way or on a scene serves an emergency in a slot. -/
def ServesActive (s : State) : Prop :=
  ∀ t e, (s.world.twins t).serves e = true → ∃ i, s.world.active i = some e

theorem Linked.not_serves_of_slots {n : EmergencyId} {owed : EmergencyId → (RescuerType → Bool) → ℕ}
    (h : Linked cfg n w owed) (hslots : (w.emergencies e).rescuerTwins.reduceOption = [])
    (t : TwinId) : (w.twins t).serves e = false := by
  by_contra hserves
  obtain ⟨k, hk⟩ := (h.slot_iff t e).mpr (by simpa using hserves)
  have hmem := List.reduceOption_mem_iff.mpr (List.mem_of_getElem? hk)
  simp [hslots] at hmem

theorem servesActive_step (hinv : Invariant cfg s) (hguard : FailsWithoutRescuers s a)
    (heffect : Effect cfg s a s') (hstop : s.serverMustStop = false) (h : ServesActive s) :
    ServesActive s' := by
  intro t e hserves
  have hworld := world_effect hinv heffect
  rcases hworld.serves hinv hserves with hold | ⟨i, rfl, hpc⟩
  · obtain ⟨i, hi⟩ := h t e hold
    rcases hworld.active hinv hi with hkept | ⟨reason, rfl, hpc⟩
    · exact ⟨i, hkept⟩
    · -- an emergency is stored with nobody serving it
      have hphase := hinv.storage.phase i
      rw [hpc] at hphase
      cases reason with
      | searchFailed =>
          simp only [FailsWithoutRescuers, hpc] at hguard
          simp [hinv.links.not_serves_of_slots hguard t] at hold
      | completed news => simp [hinv.not_serves_completed hphase.2.1 t] at hold
      | canceled news => exact hphase.elim
      | stopping => exact absurd hphase.1 (by simp [hstop])
  · have hphase := hinv.storage.phase i
    rw [hpc] at hphase
    rcases hworld.active hinv hphase.active with hkept | ⟨reason, -, hstore⟩
    · exact ⟨i, hkept⟩
    · rw [hpc] at hstore
      cases hstore

theorem servesActive_of_reachable
    (hreach : ReachableWith (State.step cfg) FailsWithoutRescuers (initialState cfg) s)
    (hstop : s.serverMustStop = false) : ServesActive s := by
  refine hreach.invariant (fun s => s.serverMustStop = false → ServesActive s) ?_ ?_ hstop
  · intro _ t e hserves
    simp [initialState, initialWorld, mallocateRescuerDigitalTwin,
      RescuerDigitalTwin.serves] at hserves
  · intro s a s' hs h hguard hstep hstop'
    have heffect := (step_effect hstep).2
    have hstop : s.serverMustStop = false := by
      by_contra hs
      rw [heffect.serverMustStop (by simpa using hs)] at hstop'
      cases hstop'
    exact servesActive_step (reachable_invariant hs.reachable) hguard heffect hstop (h hstop)

/-- **Rescuers serve active emergencies.**  In every run in which no search
fails for an emergency that still has rescuers, and as long as nobody stops the
server, a rescuer on its way or on a scene serves an emergency that is in a slot
and has not ended; and whoever stores an emergency for which a search has failed
leaves it without rescuers. -/
theorem rescuers_serve_active_emergencies
    (hreach : ReachableWith (State.step cfg) FailsWithoutRescuers (initialState cfg) s)
    (hstop : s.serverMustStop = false) :
    (∀ t, (s.world.twins t).status = .enRouteToScene ∨ (s.world.twins t).status = .onScene →
        ∃ e i, (s.world.twins t).emergency = some e ∧ s.world.active i = some e ∧
          (s.world.emergencies e).status ∉ terminalStatuses) ∧
      ∀ i e s', s.worker i = .store e .searchFailed → FailsWithoutRescuers s (.worker i) →
        State.step cfg s (.worker i) = some s' → ∀ t, (s'.world.twins t).serves e = false := by
  have hinv := reachable_invariant hreach.reachable
  refine ⟨fun t hstatus => ?_, fun i e s' hpc hguard hstep t => ?_⟩
  · obtain ⟨e, hserves⟩ := hinv.links.exists_serves (t := t)
      (by rcases hstatus with h | h <;> simp [h]) (by rcases hstatus with h | h <;> simp [h])
    obtain ⟨i, hactive⟩ := servesActive_of_reachable hreach hstop t e hserves
    refine ⟨e, i, (RescuerDigitalTwin.serves_iff.mp hserves).1, hactive, ?_⟩
    -- a completed emergency has let all its rescuers go
    have hnot : (s.world.emergencies e).status ≠ .completed := by
      intro hcompleted
      simp [hinv.not_serves_completed hcompleted t] at hserves
    have hworking := (hinv.working_of_active hactive).status
    generalize (s.world.emergencies e).status = status at hworking hnot
    revert hworking hnot
    cases status <;> decide
  · by_contra hserves
    have hworld := world_effect hinv (step_effect hstep).2
    -- the store gives no rescuer to anybody
    rcases hworld.serves hinv (by simpa using hserves) with hold | ⟨j, hj, hfind⟩
    · simp only [FailsWithoutRescuers, hpc] at hguard
      simp [hinv.links.not_serves_of_slots hguard t] at hold
    · cases hj
      rw [hpc] at hfind
      cases hfind

/-- After a preemption that is followed by no search, the rescuer that is left
serves the emergency in the slot of worker `0`. -/
theorem rescuers_serve_active_emergencies_taken :
    let s := stateAfterWith FailsWithoutRescuers exampleServer rescuerTaken
    s.serverMustStop = false ∧ (s.world.twins 1).status = .enRouteToScene ∧
      ∃ e i, (s.world.twins 1).emergency = some e ∧ s.world.active i = some e ∧
        (s.world.emergencies e).status ∉ terminalStatuses :=
  ⟨by decide +kernel, by decide +kernel,
    (rescuers_serve_active_emergencies (reachableWith_stateAfterWith _ _ _)
      (by decide +kernel)).1 1 (by decide +kernel)⟩

/-- The search that follows the preemption fails: the emergency is stored as
`TIMEOUT` while the rescuer it has kept is on its way to it. -/
def rescuerAbandoned : List Action := rescuerTaken ++ workerSteps 0 6

theorem rescuer_serves_stored_emergency :
    let s := stateAfter exampleServer rescuerAbandoned
    Reachable exampleServer s ∧ s.systemFree = true ∧ s.serverMustStop = false ∧
      (s.world.twins 1).status = .enRouteToScene ∧ (s.world.twins 1).emergency = some 3 ∧
      (∀ i, s.world.active i ≠ some 3) ∧ (s.world.emergencies 3).status = .timeout :=
  ⟨reachable_stateAfter _ _, by decide +kernel, by decide +kernel, by decide +kernel,
    by decide +kernel, by decide +kernel, by decide +kernel⟩

/-! ## The last status of an emergency -/

/-- No search takes a rescuer that serves an emergency that has been stored. -/
def TakesFromUnstored (cfg : Config) (s : State) : Action → Prop
  | .worker i =>
      match s.worker i with
      | .find e => EnoughRescuers cfg.priorityLookupTable s.world e →
          ∀ t ∈ (selectCandidates cfg.priorityLookupTable s.world e).candidates,
            ∀ e' ∈ (s.world.twins t).emergency, s.stored e' = 0
      | _ => True
  | _ => True

instance (cfg : Config) (s : State) (a : Action) : Decidable (TakesFromUnstored cfg s a) := by
  unfold TakesFromUnstored
  rcases a
  case worker i => dsimp only; generalize s.worker i = pc; rcases pc <;> infer_instance
  all_goals infer_instance

/-- A worker that has stored its emergency in the loop reads the flag as false at line 85, and no
search takes a rescuer that serves a stored emergency. -/
def EndsOnce (cfg : Config) (s : State) (a : Action) : Prop :=
  StopUnseenAfterStore s a ∧ TakesFromUnstored cfg s a

instance (cfg : Config) (s : State) (a : Action) : Decidable (EndsOnce cfg s a) := by
  unfold EndsOnce
  infer_instance

theorem stored_status_step (hinv : Invariant cfg s) (honce : StoredOnce s)
    (hguard : TakesFromUnstored cfg s a) (heffect : Effect cfg s a s') (hstored : 0 < s.stored e) :
    (s'.world.emergencies e).status = (s.world.emergencies e).status := by
  have hworld := world_effect hinv heffect
  generalize s'.world = w' at hworld
  have hne : ∀ {e'}, s.stored e' = 0 → e ≠ e' := by
    rintro e' hzero rfl
    omega
  cases hworld with
  | openSlot i e' hpc =>
      have hphase := hinv.storage.phase i
      rw [hpc] at hphase
      simp [hne hphase.1]
  | search i e' w found hpc hstep =>
      by_cases he : e = e'
      · subst he
        exact hstep.status_self
      cases hstep with
      | nothingMissing => rfl
      | notEnough => rfl
      | dispatched hmissing henough hnotDone hrun =>
          rcases hrun.status he with hsame | ⟨-, t, ht, hserves⟩
          · simpa [clearMissing, he] using hsame
          -- the search would pause `e`: then it takes a rescuer from it, which the guard excludes
          · simp only [TakesFromUnstored, hpc] at hguard
            have := hguard henough t ht e (RescuerDigitalTwin.serves_iff.mp hserves).1
            omega
  | store i e' reason hpc => simp [storeWorld, hne (honce.stored_of_store hinv hpc)]
  | walk t w twin arrived hstart hwalk => simp [hstart.status hinv.links]
  | arriveOnScene t e' hroute => exact arriveOnScene_status _ _ _ _
  | slot i e' hactive => simp [hne (hinv.working_of_active hactive).stored]
  | mapWaiting =>
      dsimp only
      split <;> rfl
  | expire e' hpc | promote e' hpc =>
      have hzero : s.stored e' = 0 := hinv.storage.unstored_updater (by rw [hpc]; rfl)
      simp [hne hzero]
  | receive request emergency hemergency => simp [hne (hinv.storage.fresh _ le_rfl)]
  | same | closeSlot | tickStay | arriveAtBase | fatal => rfl

/-- An emergency is stored with one of the last statuses. -/
theorem terminal_of_store (hinv : Invariant cfg s) (heffect : Effect cfg s a s')
    (hzero : s.stored e = 0) (hstored : 0 < s'.stored e) :
    (s'.world.emergencies e).status ∈ terminalStatuses := by
  have hsame : s'.stored e ≠ s.stored e := by omega
  cases heffect with
  | quiet hq => exact absurd (stored_of_eq hq.completed hq.canceled e) hsame
  | store i e' reason level hpc =>
      by_cases he : e = e'
      · subst he
        simpa [storeWorld] using Phase.news_mem (hpc ▸ hinv.storage.phase i)
      · refine absurd ?_ hsame
        rw [stored_store hinv.storage _ rfl rfl, if_neg he, Nat.add_zero]
  | expire e' level hpc =>
      by_cases he : e = e'
      · subst he
        simp [terminalStatuses]
      · refine absurd ?_ hsame
        unfold State.stored
        dsimp only
        rw [count_push cfg hinv.storage.canceled_open hinv.storage.canceled_levels,
          if_neg he, Nat.add_zero]
  | _ => exact absurd rfl hsame

theorem terminal_of_stored
    (hreach : ReachableWith (State.step cfg) (EndsOnce cfg) (initialState cfg) s)
    (hstored : 0 < s.stored e) : (s.world.emergencies e).status ∈ terminalStatuses := by
  refine hreach.invariant (fun s => 0 < s.stored e →
    (s.world.emergencies e).status ∈ terminalStatuses) ?_ ?_ hstored
  · simp [State.stored, initialState]
  · intro s a s' hs h hguard hstep hstored'
    have hinv := reachable_invariant hs.reachable
    have heffect := (step_effect hstep).2
    rcases Nat.eq_zero_or_pos (s.stored e) with hzero | hpos
    -- either the step stores it, or it was stored and keeps its status
    · exact terminal_of_store hinv heffect hzero hstored'
    · rw [stored_status_step hinv (storedOnce_of_reachable (hs.mono fun _ _ h => h.1)) hguard.2
        heffect hpos]
      exact h hpos

/-- **The last status is final.**  In every run in which no emergency is stored
twice and no search takes a rescuer that still serves a stored emergency, a
stored emergency has one of the last statuses, and keeps it until the end. -/
theorem stored_status_final
    (hreach : ReachableWith (State.step cfg) (EndsOnce cfg) (initialState cfg) s)
    (hrun : ReachableWith (State.step cfg) (EndsOnce cfg) s s') (hstored : 0 < s.stored e) :
    (s.world.emergencies e).status ∈ terminalStatuses ∧
      (s'.world.emergencies e).status = (s.world.emergencies e).status := by
  refine ⟨terminal_of_stored hreach hstored, ?_⟩
  have hkept : 0 < s'.stored e ∧
      (s'.world.emergencies e).status = (s.world.emergencies e).status := by
    refine hrun.invariant (fun s' => 0 < s'.stored e ∧
      (s'.world.emergencies e).status = (s.world.emergencies e).status) ⟨hstored, rfl⟩ ?_
    rintro s₁ a s₂ hs ⟨hpos, hsame⟩ hguard hstep
    have hs₁ := hreach.trans hs
    have hinv := reachable_invariant hs₁.reachable
    have heffect := (step_effect hstep).2
    refine ⟨?_, ?_⟩
    · rcases effect_stored hinv.storage heffect e with h | ⟨h, -⟩ <;> omega
    · rw [stored_status_step hinv (storedOnce_of_reachable (hs₁.mono fun _ _ h => h.1)) hguard.2
        heffect hpos, hsame]
  exact hkept.2

/-- The emergency whose search has failed stays `TIMEOUT`. -/
theorem stored_status_final_timeout :
    let s := stateAfterWith (EndsOnce exampleServer) exampleServer searchFails
    let s' := continueWith (EndsOnce exampleServer) exampleServer s
      (workerSteps 1 2 ++ clockTicks 20)
    0 < s.stored 4 ∧ (s.world.emergencies 4).status ∈ terminalStatuses ∧
      (s'.world.emergencies 4).status = (s.world.emergencies 4).status :=
  ⟨by decide +kernel, stored_status_final (reachableWith_stateAfterWith _ _ _)
    (reachableWith_continueWith _ _ _ _) (by decide +kernel)⟩

/-- The rescuer that serves an emergency stored as `TIMEOUT` is taken by a search:
the emergency is paused. -/
theorem stored_status_changes :
    let s := stateAfter exampleServer rescuerAbandoned
    let s' := continueWith (fun _ _ => True) exampleServer s
      (requestArrives "f 5 6 0" ++ workerSteps 2 5)
    Reachable exampleServer s ∧ Reachable exampleServer s' ∧ s.stored 3 = 1 ∧
      (s.world.emergencies 3).status = .timeout ∧ s'.stored 3 = 1 ∧
      (s'.world.emergencies 3).status = .paused :=
  ⟨reachable_stateAfter _ _, (reachable_stateAfter _ _).trans (reachableWith_continueWith _ _ _ _),
    by decide +kernel, by decide +kernel, by decide +kernel, by decide +kernel⟩

end EmergencyDispatch
