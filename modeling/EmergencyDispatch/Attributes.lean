import EmergencyDispatch.Urgency

/-!
# What stays of an emergency

The workers and the work on the twins write the status of an emergency, its
rescuers, their counters and how often it was paused.  Every attribute that does
not depend on these is changed by the updater only, when it counts a timer down
or promotes, and set when the receiver makes the emergency.
-/

namespace EmergencyDispatch

open State

variable {β : Type*} {f : Emergency → β} {cfg : Config} {s : State} {a : Action}
  {w w' : World} {e : EmergencyId}

/-- The attribute does not depend on what the workers write. -/
structure Attribute (f : Emergency → β) : Prop where
  of_written : ∀ (em : Emergency) (status : EmergencyStatus) (missing : List RescuerRequest)
    (twins : List (Option TwinId)) (notArrived notDone : ℤ) (paused : ℕ),
    f { em with
      status := status
      rescuersMissing := missing
      rescuerTwins := twins
      rescuersNotArrivedYet := notArrived
      rescuersNotDoneYet := notDone
      howManyTimesWasPaused := paused } = f em

namespace Attribute

theorem setEmergency (w : World) (x : EmergencyId) (em : Emergency)
    (h : f em = f (w.emergencies x)) (e : EmergencyId) :
    f ((w.setEmergency x em).emergencies e) = f (w.emergencies e) := by
  by_cases he : e = x
  · subst he; simpa using h
  · simp [he]

theorem of_sameOrders (hf : Attribute f) {em em' : Emergency} (h : em.SameOrders em') :
    f em' = f em := by
  obtain ⟨slots, notArrived, notDone, rfl⟩ := h
  exact hf.of_written em em.status em.rescuersMissing slots notArrived notDone
    em.howManyTimesWasPaused

theorem dispatchStep (hf : Attribute f) {k : ℕ} {t : TwinId} {x : EmergencyId}
    (h : DispatchStep x k t w w') (e : EmergencyId) :
    f (w'.emergencies e) = f (w.emergencies e) := by
  have hbind : ∀ (w : World) (request : RescuerRequest),
      f ((bindWorld w t x k request).emergencies e) = f (w.emergencies e) := by
    intro w request
    refine setEmergency w x _ ?_ e
    exact hf.of_written ..
  cases h with
  | atRest request hrest => exact hbind w request
  | preempting request old l missing =>
      have hpreempt : f ((preemptWorld w t old l missing).emergencies e) = f (w.emergencies e) := by
        refine setEmergency w old _ ?_ e
        exact hf.of_written ..
      exact (hbind _ request).trans hpreempt

theorem dispatchRun (hf : Attribute f) {candidates : List TwinId} {x : EmergencyId}
    (h : DispatchRun x candidates w w') (e : EmergencyId) :
    f (w'.emergencies e) = f (w.emergencies e) := by
  induction h with
  | nil w => rfl
  | cons hstep _ ih => exact ih.trans (hf.dispatchStep hstep e)

theorem findStep (hf : Attribute f) {table : List PriorityRule} {found : Bool} {x : EmergencyId}
    (h : FindStep table w x (.ok (w', found))) (e : EmergencyId) :
    f (w'.emergencies e) = f (w.emergencies e) := by
  cases h with
  | nothingMissing | notEnough => rfl
  | dispatched hmissing h hnotDone hrun =>
      refine (setEmergency _ x _ ?_ e).trans (hf.dispatchRun hrun e)
      exact hf.of_written ..

end Attribute

/-- What a step does to an attribute of `e`. -/
inductive AttributeStep (f : Emergency → β) (cfg : Config) (s : State) (e : EmergencyId)
    (em : Emergency) : Prop
  | same (h : f em = f (s.world.emergencies e))
  | active (i : Worker) (hactive : s.world.active i = some e)
      (h : em = (updateActiveEmergencyState cfg.priorityLookupTable (s.world.emergencies e)).1)
  | waiting (hwaiting : e ∈ s.emergencyQueue.contents)
      (h : em = updateWaitingEmergencyState (s.world.emergencies e))
  | promoted (hpc : s.updater = .promoted e)
      (h : em = promoteEmergency cfg.priorityLookupTable (s.world.emergencies e))
  | made (he : e = s.nextId) (request : EmergencyRequest)
      (h : mallocateEmergency cfg.priorityLookupTable cfg.emergencies request
        s.tickCountSinceStart = some em)

/-- **Step lemma.** -/
theorem Attribute.worldEffect (hf : Attribute f) (hinv : Invariant cfg s)
    (h : WorldEffect cfg s a w) (e : EmergencyId) :
    AttributeStep f cfg s e (w.emergencies e) := by
  -- most steps write one emergency `x`; only when it is `e` is there anything to show
  have hset : ∀ (x : EmergencyId) (em : Emergency), (e = x → AttributeStep f cfg s e em) →
      AttributeStep f cfg s e ((s.world.setEmergency x em).emergencies e) := by
    intro x em h
    by_cases he : e = x
    · subst he
      simpa using h rfl
    · rw [World.setEmergency_of_ne _ _ _ he]
      exact .same rfl
  have hwritten : ∀ (x : EmergencyId) (em : Emergency), f em = f (s.world.emergencies x) →
      AttributeStep f cfg s e ((s.world.setEmergency x em).emergencies e) := by
    intro x em h
    exact .same (Attribute.setEmergency s.world x em h e)
  cases h with
  | same | closeSlot | tickStay | arriveAtBase | fatal => exact .same rfl
  | openSlot i x hpc => exact hwritten x _ (hf.of_written ..)
  | search i x w found hpc hfind => exact .same (hf.findStep hfind e)
  | store i x reason hpc => exact hwritten x _ (hf.of_written ..)
  | walk t w twin arrived hstart hwalk =>
      exact .same (hf.of_sameOrders (hstart.sameOrders hinv.links e))
  | arriveOnScene t x hroute =>
      exact .same (hf.of_sameOrders (arriveOnScene_sameOrders s.world t x e))
  | slot i x hactive => exact hset x _ (by rintro rfl; exact .active i hactive rfl)
  | mapWaiting =>
      dsimp only
      split
      · exact .waiting ‹_› rfl
      · exact .same rfl
  | expire x hpc => exact hwritten x _ (hf.of_written ..)
  | promote x hpc => exact hset x _ (by rintro rfl; exact .promoted hpc rfl)
  | receive request emergency hemergency =>
      exact hset s.nextId _ (by rintro rfl; exact .made rfl request hemergency)

end EmergencyDispatch
