import EmergencyDispatch.Invariants

/-!
# What a step does to the world

In a reachable state the outcomes of the sections are known case by case; a step
either leaves the world alone or is one of these (`WorldEffect`).  The updater's
work on one twin touches the counters and the slots of emergencies, and nothing
else of them (`Emergency.SameOrders`).
-/

namespace EmergencyDispatch

open State

variable {cfg : Config} {s s' : State} {w w' : World} {t : TwinId} {e : EmergencyId}

/-- What a step makes of the world. -/
inductive WorldEffect (cfg : Config) (s : State) : Action → World → Prop
  | same (a : Action) : WorldEffect cfg s a s.world
  | openSlot (i : Worker) (e : EmergencyId) (hpc : s.worker i = .popped e) :
      WorldEffect cfg s (.worker i) ((s.world.setActive i (some e)).setEmergency e
        { s.world.emergencies e with status := .assigned })
  | search (i : Worker) (e : EmergencyId) (w : World) (found : Bool) (hpc : s.worker i = .find e)
      (hstep : FindStep cfg.priorityLookupTable s.world e (.ok (w, found))) :
      WorldEffect cfg s (.worker i) { w with signals := [] }
  | store (i : Worker) (e : EmergencyId) (reason : StoreReason)
      (hpc : s.worker i = .store e reason) :
      WorldEffect cfg s (.worker i) (storeWorld s.world i e reason)
  | closeSlot (i : Worker) (leaving : Bool) (hpc : s.worker i = .closing leaving) :
      WorldEffect cfg s (.worker i) (s.world.setActive i none)
  | tickStay {woken : Option Worker} (t : TwinId) (hstatus : (s.world.twins t).status = .onScene) :
      WorldEffect cfg s (.updater woken) (tickStay s.world t)
  | walk {woken : Option Worker} (t : TwinId) (w : World) (twin : RescuerDigitalTwin)
      (arrived : Bool) (hstart : WalkStart s.world t w)
      (hwalk : walkOneTick (w.twins t) = some (twin, arrived)) :
      WorldEffect cfg s (.updater woken) (w.setTwin t twin)
  | arriveOnScene {woken : Option Worker} (t : TwinId) (e : EmergencyId)
      (hroute : (s.world.twins t).isEnRouteTo e = true) :
      WorldEffect cfg s (.updater woken) (arriveOnScene s.world t e)
  | arriveAtBase {woken : Option Worker} (t : TwinId)
      (hreturning : (s.world.twins t).status = .returningToBase) :
      WorldEffect cfg s (.updater woken) (s.world.setTwin t
        { s.world.twins t with isTravelling := false, status := .idle })
  | fatal {woken : Option Worker} (t : TwinId)
      (hstatus : (s.world.twins t).status = .idle ∨ (s.world.twins t).status = .onScene) :
      WorldEffect cfg s (.updater woken)
        (s.world.setTwin t { s.world.twins t with isTravelling := false })
  | slot {woken : Option Worker} (i : Worker) (e : EmergencyId)
      (hactive : s.world.active i = some e) :
      WorldEffect cfg s (.updater woken) { s.world.setEmergency e
        (updateActiveEmergencyState cfg.priorityLookupTable (s.world.emergencies e)).1 with
          signals := [] }
  | mapWaiting {woken : Option Worker} : WorldEffect cfg s (.updater woken) { s.world with
      emergencies := fun e =>
        if e ∈ s.emergencyQueue.contents then
          updateWaitingEmergencyState (s.world.emergencies e)
        else s.world.emergencies e }
  | expire {woken : Option Worker} (e : EmergencyId) (hpc : s.updater = .expired e) :
      WorldEffect cfg s (.updater woken)
        (s.world.setEmergency e { s.world.emergencies e with status := .timeout })
  | promote {woken : Option Worker} (e : EmergencyId) (hpc : s.updater = .promoted e) :
      WorldEffect cfg s (.updater woken) (s.world.setEmergency e
        (promoteEmergency cfg.priorityLookupTable (s.world.emergencies e)))
  | receive {woken : Option Worker} (request : EmergencyRequest) (emergency : Emergency)
      (hemergency : mallocateEmergency cfg.priorityLookupTable cfg.emergencies request
        s.tickCountSinceStart = some emergency) :
      WorldEffect cfg s (.receiver woken) (s.world.setEmergency s.nextId emergency)

/-- Every step from a state with the invariant. -/
theorem world_effect {a : Action} (h : Invariant cfg s) (heffect : Effect cfg s a s') :
    WorldEffect cfg s a s'.world := by
  cases heffect with
  | quiet hq => rw [hq.world]; exact .same _
  | move i pc hmove => exact .same _
  | pop i e queue hpc hpop => exact .same _
  | openSlot i e hpc => exact .openSlot i e hpc
  | search i e w found worker hpc hfind hwoken =>
      exact .search i e w found hpc (h.findStep hpc hfind)
  | store i e reason level hpc => exact .store i e reason hpc
  | closeSlot i leaving hpc => exact .closeSlot i leaving hpc
  | stays t rest w hpc hupdate =>
      have hcases := update_cases h.links cfg.size t
      rw [hupdate] at hcases
      cases hcases with
      | idle => exact .same _
      | stays hstatus => exact .tickStay t hstatus
  | walked t rest w outside arrived hpc hupdate =>
      have hcases := update_cases h.links cfg.size t
      rw [hupdate] at hcases
      cases hcases with
      | walked hstart hwalk => exact .walk t _ _ _ hstart hwalk
  | arrived t rest w hpc harrive =>
      have hcases := arrival_cases h.links t
      rw [harrive] at hcases
      cases hcases with
      | onScene e hroute => exact .arriveOnScene t e hroute
      | atBase hreturning => exact .arriveAtBase t hreturning
  | fatal t rest w hpc harrive =>
      have hcases := arrival_cases h.links t
      rw [harrive] at hcases
      cases hcases with
      | fatal hstatus => exact .fatal t hstatus
  | slot i e rest worker hpc hactive hwoken => exact .slot i e hactive
  | mapWaiting hpc => exact .mapWaiting
  | extract e queue pred pc hpc hextract hnext => exact .same _
  | expire e level hpc => exact .expire e hpc
  | promote e level worker hpc hwoken => exact .promote e hpc
  | receive request emergency mq hpc hemergency => exact .receive request emergency hemergency
  | receiverPush e level worker hpc hwoken => exact .same _

/-! ## What the updater leaves of an emergency -/

/-- Only the slots and the two counters differ. -/
def Emergency.SameOrders (em em' : Emergency) : Prop :=
  ∃ slots notArrived notDone, em' = { em with
    rescuerTwins := slots
    rescuersNotArrivedYet := notArrived
    rescuersNotDoneYet := notDone }

theorem Emergency.SameOrders.refl (em : Emergency) : em.SameOrders em := ⟨_, _, _, rfl⟩

theorem WalkStart.sameOrders {n : EmergencyId} (h : WellLinked cfg n w)
    (hstart : WalkStart w t w') (e : EmergencyId) :
    (w.emergencies e).SameOrders (w'.emergencies e) := by
  cases hstart with
  | travelling => exact .refl _
  | leaving e' hscene =>
      obtain ⟨i, -, hw⟩ := leaveScene_spec (tickStay_linked h)
        ((isOnSceneOf_tickStay w t e').trans hscene)
      rw [hw]
      by_cases he : e = e'
      · subst he
        exact ⟨(w.emergencies e).rescuerTwins.set i none, (w.emergencies e).rescuersNotArrivedYet,
          (w.emergencies e).rescuersNotDoneYet - 1, by simp [tickStay]⟩
      · simpa [tickStay, he] using Emergency.SameOrders.refl _

theorem arriveOnScene_sameOrders (w : World) (t : TwinId) (e e' : EmergencyId) :
    (w.emergencies e').SameOrders ((arriveOnScene w t e).emergencies e') := by
  by_cases he : e' = e
  · subst he
    exact ⟨(w.emergencies e').rescuerTwins, (w.emergencies e').rescuersNotArrivedYet - 1,
      (w.emergencies e').rescuersNotDoneYet, by simp [arriveOnScene]⟩
  · simpa [arriveOnScene, he] using Emergency.SameOrders.refl _

end EmergencyDispatch
