import EmergencyDispatch.PromotionLevels
import EmergencyDispatch.SearchOptimality

/-!
# Who is paused, and for whom

Only a search pauses an emergency, when it takes the first of its rescuers for
another one, and it takes rescuers from emergencies of a lower level only.  The
count of the pauses goes up exactly when the status becomes `PAUSED`, however
many rescuers are taken in one search.  So an emergency whose type has the
highest priority is never paused.
-/

namespace EmergencyDispatch

open State TransitionSystem

variable {cfg : Config} {s s' : State} {a : Action} {w w' : World} {t : TwinId}
  {e x : EmergencyId} {em em' : Emergency} {lower : Prop}

/-! ## Searches -/

/-- What a search makes of the status and the pauses; `lower` says that it may take rescuers. -/
inductive PauseOutcome (lower : Prop) (em em' : Emergency) : Prop
  | kept (hstatus : em'.status = em.status)
      (hcount : em'.howManyTimesWasPaused = em.howManyTimesWasPaused)
  | paused (hlower : lower) (hbefore : em.status ≠ .paused) (hafter : em'.status = .paused)
      (hcount : em'.howManyTimesWasPaused = em.howManyTimesWasPaused + 1)

namespace PauseOutcome

theorem refl (em : Emergency) : PauseOutcome lower em em := .kept rfl rfl

theorem trans {em'' : Emergency} (h : PauseOutcome lower em em')
    (h' : PauseOutcome lower em' em'') : PauseOutcome lower em em'' := by
  cases h with
  | kept hstatus hcount =>
      cases h' with
      | kept hstatus' hcount' => exact .kept (hstatus'.trans hstatus) (hcount'.trans hcount)
      | paused hlower hbefore hafter hcount' =>
          exact .paused hlower (hstatus ▸ hbefore) hafter (by rw [hcount', hcount])
  | paused hlower hbefore hafter hcount =>
      cases h' with
      | kept hstatus' hcount' =>
          exact .paused hlower hbefore (hstatus'.trans hafter) (hcount'.trans hcount)
      | paused _ hbefore' => exact absurd hafter hbefore'

theorem setEmergency (w : World) (x : EmergencyId) (em : Emergency)
    (h : e = x → PauseOutcome lower (w.emergencies x) em) :
    PauseOutcome lower (w.emergencies e) ((w.setEmergency x em).emergencies e) := by
  by_cases he : e = x
  · subst he
    simpa using h rfl
  · rw [World.setEmergency_of_ne _ _ _ he]
    exact .refl _

end PauseOutcome

theorem DispatchStep.pauseOutcome {k : ℕ} (h : DispatchStep x k t w w')
    (hlower : (w.twins t).serves e = true → lower) :
    PauseOutcome lower (w.emergencies e) (w'.emergencies e) := by
  have hbind : ∀ (w : World) (request : RescuerRequest),
      PauseOutcome lower (w.emergencies e) ((bindWorld w t x k request).emergencies e) := by
    intro w request
    exact PauseOutcome.setEmergency w x _ fun _ => .kept rfl rfl
  cases h with
  | atRest request hrest => exact hbind w request
  | preempting request old l missing hne hserves =>
      have hpreempt : PauseOutcome lower (w.emergencies e)
          ((preemptWorld w t old l missing).emergencies e) := by
        refine PauseOutcome.setEmergency w old _ fun he => ?_
        subst he
        by_cases hpaused : (w.emergencies e).status = .paused
        · exact .kept hpaused.symm (if_pos hpaused)
        · exact .paused (hlower hserves) hpaused rfl (if_neg hpaused)
      exact hpreempt.trans (hbind _ request)

theorem DispatchRun.pauseOutcome {candidates : List TwinId} (h : DispatchRun x candidates w w')
    (hnodup : candidates.Nodup)
    (hlower : ∀ t ∈ candidates, (w.twins t).serves e = true → lower) :
    PauseOutcome lower (w.emergencies e) (w'.emergencies e) := by
  induction h with
  | nil w => exact .refl _
  | cons hstep _ ih =>
      obtain ⟨hfresh, hnodup⟩ := List.nodup_cons.mp hnodup
      have hfirst := hstep.pauseOutcome (hlower _ List.mem_cons_self)
      refine hfirst.trans (ih hnodup fun u hu hserves => ?_)
      -- the other candidates still serve whom they served
      have hne : u ≠ _ := ne_of_mem_of_not_mem hu hfresh
      rw [hstep.twins_of_ne hne] at hserves
      exact hlower u (List.mem_cons_of_mem _ hu) hserves

/-- A candidate that serves an emergency serves one of a lower level. -/
theorem Chosen.level_lt {candidates : List TwinId} {owed : EmergencyId → (RescuerType → Bool) → ℕ}
    {n : ℕ} {table : List PriorityRule} (h : Chosen table w x candidates)
    (hlinked : Linked cfg n w owed) (ht : t ∈ candidates) (hserves : (w.twins t).serves e = true) :
    priorityToLevel table (w.emergencies e).priority <
      priorityToLevel table (w.emergencies x).priority := by
  obtain ⟨hemergency, hstatus⟩ := RescuerDigitalTwin.serves_iff.mp hserves
  obtain ⟨hserve, -⟩ := (eligible_iff_canServe hlinked t).mp (h.eligible t ht)
  rcases hserve with hidle | ⟨-, old, hold, hlt⟩
  · rw [hidle] at hstatus
    simp at hstatus
  · obtain rfl : e = old := Option.some.inj (hemergency.symm.trans hold)
    exact hlt

/-! ## Steps -/

/-- What a step makes of the status and the pauses of `e`. -/
inductive PauseStep (cfg : Config) (s : State) (a : Action) (e : EmergencyId)
    (em : Emergency) : Prop
  | kept (hstatus : em.status = .paused → (s.world.emergencies e).status = .paused)
      (hcount : em.howManyTimesWasPaused = (s.world.emergencies e).howManyTimesWasPaused)
  | paused (i : Worker) (x : EmergencyId) (ha : a = .worker i) (hpc : s.worker i = .find x)
      (hlower : s.level cfg e < s.level cfg x)
      (hbefore : (s.world.emergencies e).status ≠ .paused) (hafter : em.status = .paused)
      (hcount : em.howManyTimesWasPaused = (s.world.emergencies e).howManyTimesWasPaused + 1)

theorem Emergency.SameOrders.pauseStep (h : (s.world.emergencies e).SameOrders em) :
    PauseStep cfg s a e em := by
  obtain ⟨slots, notArrived, notDone, rfl⟩ := h
  exact .kept id rfl

theorem updateActiveEmergencyState_pause (table : List PriorityRule) (em : Emergency) :
    ((updateActiveEmergencyState table em).1.status = .paused → em.status = .paused) ∧
      (updateActiveEmergencyState table em).1.howManyTimesWasPaused =
        em.howManyTimesWasPaused := by
  unfold updateActiveEmergencyState
  dsimp only
  split
  · split
    · exact ⟨id, rfl⟩
    · exact ⟨id, rfl⟩
  · split
    · exact ⟨id, rfl⟩
    · repeat' split
      all_goals exact ⟨by simp, rfl⟩

theorem Invariant.news_ne_paused (hinv : Invariant cfg s) {i : Worker} {reason : StoreReason}
    (hpc : s.worker i = .store x reason) : reason.news ≠ .paused := by
  have hphase := hinv.storage.phase i
  rw [hpc] at hphase
  cases reason with
  | searchFailed | stopping => simp [StoreReason.news]
  | completed news =>
      obtain ⟨-, -, rfl⟩ := hphase
      simp [StoreReason.news]
  | canceled news => exact hphase.elim

theorem step_pause (hinv : Invariant cfg s) (hstep : State.step cfg s a = some s')
    (hlt : e < s.nextId) : PauseStep cfg s a e (s'.world.emergencies e) := by
  -- most steps write one emergency `x`; only when it is `e` is there anything to show
  have hset : ∀ (x : EmergencyId) (em : Emergency), (e = x → PauseStep cfg s a e em) →
      PauseStep cfg s a e ((s.world.setEmergency x em).emergencies e) := by
    intro x em h
    by_cases he : e = x
    · subst he
      simpa using h rfl
    · rw [World.setEmergency_of_ne _ _ _ he]
      exact .kept id rfl
  have heffect := world_effect hinv (step_effect hstep).2
  revert heffect
  generalize s'.world = w'
  intro heffect
  cases heffect with
  | same | closeSlot | tickStay | arriveAtBase | fatal => exact .kept id rfl
  | openSlot i x hpc =>
      exact hset x _ (by rintro rfl; exact .kept (fun h => by cases h) rfl)
  | search i x w found hpc hfind =>
      cases hfind with
      | nothingMissing | notEnough => exact .kept id rfl
      | @dispatched w' hmissing henough hnotDone hrun =>
          obtain ⟨-, hchosen, -⟩ := selectCandidates_spec hinv.links cfg.priorityLookupTable x
          have hsearch : PauseOutcome (s.level cfg e < s.level cfg x) (s.world.emergencies e)
              (w'.emergencies e) :=
            hrun.pauseOutcome hchosen.nodup fun t ht => hchosen.level_lt hinv.links ht
          have hclear : PauseOutcome (s.level cfg e < s.level cfg x) (s.world.emergencies e)
              ((clearMissing w' x).emergencies e) :=
            hsearch.trans (PauseOutcome.setEmergency w' x _ fun _ => .kept rfl rfl)
          cases hclear with
          | kept hstatus hcount => exact .kept (fun h => hstatus ▸ h) hcount
          | paused hlower hbefore hafter hcount =>
              exact .paused i x rfl hpc hlower hbefore hafter hcount
  | store i x reason hpc =>
      exact hset x _ (by
        rintro rfl
        exact .kept (fun h => absurd h (hinv.news_ne_paused hpc)) rfl)
  | walk t w twin arrived hstart hwalk => exact (hstart.sameOrders hinv.links e).pauseStep
  | arriveOnScene t x hroute => exact (arriveOnScene_sameOrders s.world t x e).pauseStep
  | slot i x hactive =>
      obtain ⟨hstatus, hcount⟩ :=
        updateActiveEmergencyState_pause cfg.priorityLookupTable (s.world.emergencies x)
      exact hset x _ (by rintro rfl; exact .kept hstatus hcount)
  | mapWaiting =>
      dsimp only
      split
      · exact .kept id rfl
      · exact .kept id rfl
  | expire x hpc => exact hset x _ (by rintro rfl; exact .kept (fun h => by cases h) rfl)
  | promote x hpc => exact hset x _ (by rintro rfl; exact .kept id rfl)
  | receive request emergency hemergency =>
      exact hset s.nextId _ fun he => absurd hlt (he ▸ Nat.lt_irrefl _)

/-! ## Runs -/

/-- **Pauses.**  In every run a step pauses an emergency that is not paused exactly when it
raises the count of its pauses, by one, and such a step is a search for an emergency of a
strictly higher level. -/
theorem pauses_for_higher (hreach : Reachable cfg s) (hstep : State.step cfg s a = some s')
    (hlt : e < s.nextId) :
    let before := s.world.emergencies e
    let after := s'.world.emergencies e
    (before.status ≠ .paused ∧ after.status = .paused ↔
      after.howManyTimesWasPaused = before.howManyTimesWasPaused + 1) ∧
    (after.howManyTimesWasPaused ≠ before.howManyTimesWasPaused →
      after.howManyTimesWasPaused = before.howManyTimesWasPaused + 1 ∧
        ∃ i x, a = .worker i ∧ s.worker i = .find x ∧ s.level cfg e < s.level cfg x) := by
  intro before after
  cases step_pause (reachable_invariant hreach) hstep hlt with
  | kept hstatus hcount =>
      refine ⟨⟨fun h => absurd (hstatus h.2) h.1, fun h => ?_⟩, fun h => absurd hcount h⟩
      have hcount : after.howManyTimesWasPaused = before.howManyTimesWasPaused := hcount
      omega
  | paused i x ha hpc hlower hbefore hafter hcount =>
      exact ⟨⟨fun _ => hcount, fun _ => ⟨hbefore, hafter⟩⟩,
        fun _ => ⟨hcount, i, x, ha, hpc, hlower⟩⟩

/-- The emergency `g` is about to take the rescuer of the emergency `e`. -/
def beforeTaking : List Action :=
  threadsStart ++ requestArrives "e 3 4 0" ++ workerSteps 0 6 ++ requestArrives "g 5 4 0" ++
    workerSteps 1 4

theorem pauses_for_higher_taken :
    let s := stateAfter exampleServer beforeTaking
    let s' := nextState exampleServer s (.worker 1)
    (s.world.emergencies 3).status = .assigned ∧ (s'.world.emergencies 3).status = .paused ∧
      (s'.world.emergencies 3).howManyTimesWasPaused =
        (s.world.emergencies 3).howManyTimesWasPaused + 1 ∧
      ∃ i x, Action.worker 1 = .worker i ∧ s.worker i = .find x ∧
        s.level exampleServer 3 < s.level exampleServer x := by
  intro s s'
  have hstep : State.step exampleServer s (.worker 1) = some s' :=
    step_nextState (by decide +kernel)
  obtain ⟨hiff, hcause⟩ := pauses_for_higher (e := 3) (reachable_stateAfter _ _) hstep
    (by decide +kernel)
  have hbefore : (s.world.emergencies 3).status = .assigned := by decide +kernel
  have hafter : (s'.world.emergencies 3).status = .paused := by decide +kernel
  have hcount := hiff.mp ⟨by rw [hbefore]; simp, hafter⟩
  exact ⟨hbefore, hafter, hcount, (hcause (by omega)).2⟩

/-- An emergency that was never paused. -/
def Emergency.NeverPaused (em : Emergency) : Prop :=
  em.status ≠ .paused ∧ em.howManyTimesWasPaused = 0

theorem effect_made_neverPaused (heffect : Effect cfg s a s') (hge : s.nextId ≤ e)
    (hlt : e < s'.nextId) : (s'.world.emergencies e).NeverPaused := by
  have hnone : s'.nextId ≠ s.nextId := fun heq => absurd hlt (heq ▸ Nat.not_lt.mpr hge)
  cases heffect with
  | quiet hq => exact absurd hq.nextId hnone
  | receive request emergency mq hpc hemergency =>
      obtain rfl : e = s.nextId := Nat.le_antisymm (Nat.le_of_lt_succ hlt) hge
      obtain ⟨type, -, rfl⟩ := Option.map_eq_some_iff.mp hemergency
      simp [Emergency.NeverPaused]
  | _ => exact absurd rfl hnone

/-- **The highest priority is never preempted.**  In every reachable state an emergency whose
type has the last priority of the table is not paused and never was. -/
theorem highest_never_paused (hascending : AscendingTable cfg.priorityLookupTable)
    (hlisted : cfg.PrioritiesListed) (hreach : Reachable cfg s)
    (hfirst : cfg.emergencies.length ≤ e) (hlt : e < s.nextId)
    (hhighest : typeLevel cfg (s.world.emergencies e).type + 1 = cfg.priorityLookupTable.length) :
    (s.world.emergencies e).status ≠ .paused ∧
      (s.world.emergencies e).howManyTimesWasPaused = 0 := by
  have hall : e < s.nextId →
      typeLevel cfg (s.world.emergencies e).type + 1 = cfg.priorityLookupTable.length →
        (s.world.emergencies e).NeverPaused := by
    refine hreach.invariant (fun s => e < s.nextId →
      typeLevel cfg (s.world.emergencies e).type + 1 = cfg.priorityLookupTable.length →
        (s.world.emergencies e).NeverPaused) ?_ ?_
    · intro hlt
      exact absurd hfirst (Nat.not_le.mpr hlt)
    · intro s a s' hs h _ hstep hlt hhighest
      by_cases hold : e < s.nextId
      · have htype := congrArg Origin.type (step_origin (reachable_invariant hs) hstep hold)
        have htype : (s'.world.emergencies e).type = (s.world.emergencies e).type := htype
        rw [htype] at hhighest
        have hbefore := h hold hhighest
        cases step_pause (reachable_invariant hs) hstep hold with
        | kept hstatus hcount => exact ⟨fun hp => hbefore.1 (hstatus hp), hcount.trans hbefore.2⟩
        -- no level is above the highest one
        | paused i x ha hpc hlower =>
            have hlevel := level_of_reachable hascending hlisted hs hfirst hold
            have hx := priorityToLevel_lt cfg.priorityLookupTable_ne_nil
              (s.world.emergencies x).priority
            have hx : s.level cfg x < cfg.priorityLookupTable.length := hx
            omega
      · exact effect_made_neverPaused (step_effect hstep).2 (Nat.le_of_not_lt hold) hlt
  exact hall hlt hhighest

theorem highest_never_paused_taken :
    let s := stateAfter exampleServer rescuerTaken
    (s.world.emergencies 3).status = .paused ∧ (s.world.emergencies 4).status ≠ .paused ∧
      (s.world.emergencies 4).howManyTimesWasPaused = 0 := by
  intro s
  have hreach : Reachable exampleServer s := reachable_stateAfter _ _
  exact ⟨by decide +kernel, highest_never_paused (by decide) (by decide) hreach (by decide)
    (by decide +kernel) (by decide +kernel)⟩

end EmergencyDispatch
