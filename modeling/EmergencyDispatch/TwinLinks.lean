import EmergencyDispatch.LinkOperations

/-!
# The updater keeps the links

The updater moves a twin along its trajectory, ends its stay, or records its
arrival; each of these leaves twins and emergencies linked, and none of them can
dereference a `NULL` emergency or change the status of an emergency.
-/

namespace EmergencyDispatch

variable {cfg : Config} {n : EmergencyId} {w w' : World} {t : TwinId} {e : EmergencyId}

/-! ## Removal from a slot -/

theorem getTwinIndexById_spec {slots : List (Option TwinId)}
    (h : ∃ i : ℕ, slots[i]? = some (some t)) :
    ∃ i : ℕ, getTwinIndexById t slots = some i ∧ slots[i]? = some (some t) := by
  obtain ⟨j, hj⟩ := h
  cases hfind : getTwinIndexById t slots with
  | none =>
      have hmem := List.mem_of_getElem? hj
      have := List.findIdx?_eq_none_iff.mp hfind (some t) hmem
      simp at this
  | some i =>
      obtain ⟨hi, hslot, -⟩ := List.findIdx?_eq_some_iff_getElem.mp hfind
      refine ⟨i, rfl, ?_⟩
      rw [List.getElem?_eq_getElem hi]
      simpa using hslot

theorem removeTwinFromItsEmergency_spec (hemergency : (w.twins t).emergency = some e)
    (hslot : ∃ i : ℕ, (w.emergencies e).rescuerTwins[i]? = some (some t)) :
    ∃ i : ℕ, (w.emergencies e).rescuerTwins[i]? = some (some t) ∧
      removeTwinFromItsEmergency w t = w.setEmergency e { w.emergencies e with
        rescuerTwins := (w.emergencies e).rescuerTwins.set i none } := by
  obtain ⟨i, hfind, hi⟩ := getTwinIndexById_spec hslot
  refine ⟨i, hi, ?_⟩
  simp only [removeTwinFromItsEmergency, hemergency, hfind]

/-! ## Destinations -/

variable (twin : RescuerDigitalTwin) (x y : ℤ)

@[simp] theorem changeDestination_status :
    (changeRescuerDigitalTwinDestinationBlocked twin x y).status = twin.status := by
  unfold changeRescuerDigitalTwinDestinationBlocked; split <;> rfl

@[simp] theorem changeDestination_emergency :
    (changeRescuerDigitalTwinDestinationBlocked twin x y).emergency = twin.emergency := by
  unfold changeRescuerDigitalTwinDestinationBlocked; split <;> rfl

@[simp] theorem changeDestination_rescuer :
    (changeRescuerDigitalTwinDestinationBlocked twin x y).rescuer = twin.rescuer := by
  unfold changeRescuerDigitalTwinDestinationBlocked; split <;> rfl

@[simp] theorem changeDestination_isACandidate :
    (changeRescuerDigitalTwinDestinationBlocked twin x y).isACandidate = twin.isACandidate := by
  unfold changeRescuerDigitalTwinDestinationBlocked; split <;> rfl

@[simp] theorem changeDestination_x :
    (changeRescuerDigitalTwinDestinationBlocked twin x y).x = twin.x := by
  unfold changeRescuerDigitalTwinDestinationBlocked; split <;> rfl

@[simp] theorem changeDestination_y :
    (changeRescuerDigitalTwinDestinationBlocked twin x y).y = twin.y := by
  unfold changeRescuerDigitalTwinDestinationBlocked; split <;> rfl

/-- The twin that leaves a scene, as a function of what it was on the scene. -/
theorem sendBack_of_onScene {twin : RescuerDigitalTwin} (h : twin.status = .onScene) :
    sendRescuerDigitalTwinBackToBase twin = changeRescuerDigitalTwinDestinationBlocked
      { twin with
        status := .returningToBase
        timeToManage := INVALID_TIME
        timeLeftBeforeLeaving := INVALID_TIME } twin.rescuer.x twin.rescuer.y := by
  simp [sendRescuerDigitalTwinBackToBase, h]

variable {twin x y}

/-! ## The end of a stay -/

theorem leaveScene_spec (h : WellLinked cfg n w) (hscene : (w.twins t).isOnSceneOf e = true) :
    ∃ i : ℕ, (w.emergencies e).rescuerTwins[i]? = some (some t) ∧
      leaveScene w t e =
        { twins := Function.update w.twins t
            { sendRescuerDigitalTwinBackToBase (w.twins t) with emergency := none }
          emergencies := Function.update w.emergencies e { w.emergencies e with
            rescuersNotDoneYet := (w.emergencies e).rescuersNotDoneYet - 1
            rescuerTwins := (w.emergencies e).rescuerTwins.set i none }
          active := w.active
          finished := w.finished ++ [⟨(w.twins t).rescuer, e⟩]
          signals := w.signals } := by
  obtain ⟨hstatus, hemergency⟩ := RescuerDigitalTwin.isOnSceneOf_iff.mp hscene
  have hserves : (w.twins t).serves e = true := by simp [RescuerDigitalTwin.serves_eq, hscene]
  let w₁ := w.setEmergency e { w.emergencies e with
    rescuersNotDoneYet := (w.emergencies e).rescuersNotDoneYet - 1 }
  obtain ⟨i, hi, hremove⟩ := removeTwinFromItsEmergency_spec (w := w₁) (t := t) (e := e)
    (by simpa [w₁] using hemergency) (by simpa [w₁] using (h.slot_iff t e).mpr hserves)
  refine ⟨i, by simpa [w₁] using hi, ?_⟩
  have hback : (sendRescuerDigitalTwinBackToBase (w.twins t)).rescuer = (w.twins t).rescuer := by
    rw [sendBack_of_onScene hstatus, changeDestination_rescuer]
  simp only [leaveScene]
  rw [hremove]
  simp [w₁, World.setTwin, World.setEmergency, hback]

theorem leaveScene_linked (h : WellLinked cfg n w)
    (hscene : (w.twins t).isOnSceneOf e = true) : WellLinked cfg n (leaveScene w t e) := by
  obtain ⟨hstatus, hemergency⟩ := RescuerDigitalTwin.isOnSceneOf_iff.mp hscene
  have hserves : (w.twins t).serves e = true := by simp [RescuerDigitalTwin.serves_eq, hscene]
  obtain ⟨i, hi, hw⟩ := leaveScene_spec h hscene
  have hfinished : (leaveScene w t e).finished = w.finished ++ [⟨(w.twins t).rescuer, e⟩] := by
    rw [hw]
  refine h.unbind (t := t) (e := e) (i := i)
    { sendRescuerDigitalTwinBackToBase (w.twins t) with emergency := none }
    { w.emergencies e with
      rescuersNotDoneYet := (w.emergencies e).rescuersNotDoneYet - 1
      rescuerTwins := (w.emergencies e).rescuerTwins.set i none }
    true hserves hi (by rw [hw]) (by rw [hw]) rfl rfl rfl rfl ?_ ?_ ?_ ?_ ?_ ?_ ?_ ?_ ?_ ?_ ?_
  · intro stay hstay
    rw [hfinished, List.mem_append, List.mem_singleton] at hstay
    rcases hstay with hstay | rfl
    · exact h.stayed stay hstay
    · exact (h.serving t e hserves).2.1
  · intro e' ρ
    rw [World.finishedStays, hfinished, List.countP_append, List.countP_singleton]
    by_cases he : e' = e
    · subst he; cases ρ (w.twins t).rescuer <;> simp [World.finishedStays]
    · simp [World.finishedStays, he, Ne.symm he]
  · exact ⟨rfl, .inr (by rw [sendBack_of_onScene hstatus]; simp)⟩
  · simp [sendBack_of_onScene hstatus]
  · simp [sendBack_of_onScene hstatus]
  · intro e' he'
    funext ρ
    simp [World.missing, hw, he']
  · intro ρ
    simp [World.missing, hw]
  · rfl
  · simp
  · exact fun _ => hscene
  · refine ⟨(h.status e).1, fun hcompleted => ?_⟩
    -- a completed emergency has nobody on its scene
    have hdone := (h.status e).2 hcompleted
    have hcount := h.notDone e
    have hlength := h.length_slots e
    have hmem := List.length_pos_of_mem
      (List.reduceOption_mem_iff.mpr (List.mem_of_getElem? hi))
    omega

/-! ## One update of a twin -/

/-- The timer of a twin on the scene goes down. -/
def tickStay (w : World) (t : TwinId) : World :=
  w.setTwin t { w.twins t with timeLeftBeforeLeaving := (w.twins t).timeLeftBeforeLeaving - 1 }

theorem tickStay_sameLinks (w : World) (t : TwinId) : SameLinks w (tickStay w t) :=
  .setTwin rfl rfl rfl rfl

/-- The world in which the twin starts to walk in this tick. -/
inductive WalkStart (w : World) (t : TwinId) : World → Prop
  | travelling (h : (w.twins t).status = .enRouteToScene ∨ (w.twins t).status = .returningToBase) :
      WalkStart w t w
  | leaving (e : EmergencyId) (h : (w.twins t).isOnSceneOf e = true) :
      WalkStart w t (leaveScene (tickStay w t) t e)

theorem isOnSceneOf_tickStay (w : World) (t : TwinId) (e : EmergencyId) :
    ((tickStay w t).twins t).isOnSceneOf e = (w.twins t).isOnSceneOf e := by
  simp [tickStay, RescuerDigitalTwin.isOnSceneOf]

/-- The outcome of a walk is never that the twin stays or that a pointer is `NULL`. -/
theorem walkTwin_cases (size : MapSize) (w : World) (t : TwinId) :
    (walkOneTick (w.twins t) = none ∧ walkTwin size w t = .diverges) ∨
      ∃ twin arrived, walkOneTick (w.twins t) = some (twin, arrived) ∧
        walkTwin size w t = .walked (w.setTwin t twin) (outOfMap size twin) arrived := by
  unfold walkTwin
  split
  · rename_i hnone
    exact .inl ⟨hnone, rfl⟩
  · rename_i twin arrived hstep
    exact .inr ⟨twin, arrived, hstep, rfl⟩

/-- What one call of `update_rescuer_digital_twin_state_logging_blocked` can do. -/
inductive TwinStep (size : MapSize) (w : World) (t : TwinId) : TwinUpdate → Prop
  | idle (h : (w.twins t).status = .idle) : TwinStep size w t (.stays w)
  | stays (h : (w.twins t).status = .onScene) (hleft : 1 < (w.twins t).timeLeftBeforeLeaving) :
      TwinStep size w t (.stays (tickStay w t))
  | diverges : TwinStep size w t .diverges
  | walked {w₁ : World} {twin : RescuerDigitalTwin} {arrived : Bool} (hstart : WalkStart w t w₁)
      (hwalk : walkOneTick (w₁.twins t) = some (twin, arrived)) :
      TwinStep size w t (.walked (w₁.setTwin t twin) (outOfMap size twin) arrived)

theorem twinStep_of_walk (size : MapSize) {w₁ : World} (hstart : WalkStart w t w₁) :
    TwinStep size w t (walkTwin size w₁ t) := by
  rcases walkTwin_cases size w₁ t with ⟨-, h⟩ | ⟨twin, arrived, hwalk, h⟩
  · rw [h]; exact .diverges
  · rw [h]; exact .walked hstart hwalk

/-- A twin on a scene has an emergency, so that no `NULL` is dereferenced. -/
theorem update_cases (h : WellLinked cfg n w) (size : MapSize) (t : TwinId) :
    TwinStep size w t (updateRescuerDigitalTwinState size w t) := by
  unfold updateRescuerDigitalTwinState
  split
  · rename_i hstatus
    exact .idle hstatus
  · rename_i hstatus
    obtain ⟨e, he⟩ := h.exists_serves (t := t) (by simp [hstatus]) (by simp [hstatus])
    have hemergency := (RescuerDigitalTwin.serves_iff.mp he).1
    dsimp only
    split
    · exact .stays hstatus (by omega)
    · split
      · rename_i hnone
        simp [hemergency] at hnone
      · rename_i e' he'
        refine twinStep_of_walk size (.leaving e' ?_)
        exact RescuerDigitalTwin.isOnSceneOf_iff.mpr ⟨hstatus, by simpa using he'⟩
  · rename_i hidle hscene
    refine twinStep_of_walk size (.travelling ?_)
    cases hstatus : (w.twins t).status with
    | idle => exact absurd hstatus hidle
    | onScene => exact absurd hstatus hscene
    | enRouteToScene => exact .inl rfl
    | returningToBase => exact .inr rfl

/-- What a tick of walking changes: the position, the error of the trajectory
and the flag `is_travelling`. -/
theorem walkOneTick_spec {twin twin' : RescuerDigitalTwin} {arrived : Bool}
    (h : walkOneTick twin = some (twin', arrived)) :
    ∃ step, computeBresenhamStep twin.x twin.y twin.trajectory twin.rescuer.speed = some step ∧
      arrived = step.arrived ∧
      twin' = { twin with
        isTravelling := true
        x := twin.x + step.xStep
        y := twin.y + step.yStep
        trajectory := step.trajectory } := by
  simp only [walkOneTick, Option.map_eq_some_iff, Prod.mk.injEq] at h
  obtain ⟨step, hstep, htwin, harrived⟩ := h
  exact ⟨step, hstep, harrived.symm, htwin.symm⟩

theorem walkOneTick_sameLinks {twin : RescuerDigitalTwin} {arrived : Bool}
    (h : walkOneTick (w.twins t) = some (twin, arrived)) : SameLinks w (w.setTwin t twin) := by
  obtain ⟨step, -, -, rfl⟩ := walkOneTick_spec h
  exact .setTwin rfl rfl rfl rfl

theorem tickStay_linked (h : WellLinked cfg n w) : WellLinked cfg n (tickStay w t) := by
  exact h.congr_status (tickStay_sameLinks w t) fun _ => rfl

theorem walkStart_linked (h : WellLinked cfg n w) (hstart : WalkStart w t w') :
    WellLinked cfg n w' := by
  cases hstart with
  | travelling => exact h
  | leaving e hscene =>
      exact leaveScene_linked (tickStay_linked h) (by rwa [isOnSceneOf_tickStay])

theorem WalkStart.status (h : WellLinked cfg n w) (hstart : WalkStart w t w') (e' : EmergencyId) :
    (w'.emergencies e').status = (w.emergencies e').status := by
  cases hstart with
  | travelling => rfl
  | leaving e hscene =>
      obtain ⟨i, -, hw⟩ := leaveScene_spec (tickStay_linked h) ((isOnSceneOf_tickStay w t e).trans
        hscene)
      rw [hw]
      by_cases he : e' = e
      · subst he; simp [tickStay]
      · simp [tickStay, he]

theorem WalkStart.active (h : WellLinked cfg n w) (hstart : WalkStart w t w') :
    w'.active = w.active := by
  cases hstart with
  | travelling => rfl
  | leaving e hscene =>
      obtain ⟨i, -, hw⟩ := leaveScene_spec (tickStay_linked h) ((isOnSceneOf_tickStay w t e).trans
        hscene)
      rw [hw]
      rfl

theorem walked_linked {twin : RescuerDigitalTwin} {arrived : Bool} (h : WellLinked cfg n w)
    (hwalk : walkOneTick (w.twins t) = some (twin, arrived)) :
    WellLinked cfg n (w.setTwin t twin) := by
  exact h.congr_status (walkOneTick_sameLinks hwalk) fun _ => rfl

/-! ## Arrivals -/

/-- The world after the arrival of a twin on the scene of `e`. -/
def arriveOnScene (w : World) (t : TwinId) (e : EmergencyId) : World :=
  (w.setTwin t { w.twins t with
    isTravelling := false
    timeLeftBeforeLeaving := (w.twins t).timeToManage
    status := .onScene }).setEmergency e { w.emergencies e with
      rescuersNotArrivedYet := (w.emergencies e).rescuersNotArrivedYet - 1 }

/-- What an arrival does. -/
inductive ArrivalStep (w : World) (t : TwinId) : Arrival → Prop
  | onScene (e : EmergencyId) (h : (w.twins t).isEnRouteTo e = true) :
      ArrivalStep w t (.arrived (arriveOnScene w t e))
  | atBase (h : (w.twins t).status = .returningToBase) :
      ArrivalStep w t (.arrived (w.setTwin t
        { w.twins t with isTravelling := false, status := .idle }))
  | fatal (h : (w.twins t).status = .idle ∨ (w.twins t).status = .onScene) :
      ArrivalStep w t (.fatal (w.setTwin t { w.twins t with isTravelling := false }))

theorem arrival_cases (h : WellLinked cfg n w) (t : TwinId) :
    ArrivalStep w t (arriveRescuerDigitalTwin w t) := by
  unfold arriveRescuerDigitalTwin
  dsimp only
  split
  · rename_i hstatus
    obtain ⟨e, he⟩ := h.exists_serves (t := t) (by simp [hstatus]) (by simp [hstatus])
    have hemergency := (RescuerDigitalTwin.serves_iff.mp he).1
    split
    · rename_i hnone
      simp [hnone] at hemergency
    · rename_i e' he'
      exact .onScene e' (RescuerDigitalTwin.isEnRouteTo_iff.mpr ⟨hstatus, he'⟩)
  · rename_i hstatus
    exact .atBase hstatus
  · rename_i hroute hreturning
    refine .fatal ?_
    cases hstatus : (w.twins t).status with
    | idle => exact .inl rfl
    | onScene => exact .inr rfl
    | enRouteToScene => exact absurd hstatus hroute
    | returningToBase => exact absurd hstatus hreturning

theorem arriveOnScene_status (w : World) (t : TwinId) (e e' : EmergencyId) :
    ((arriveOnScene w t e).emergencies e').status = (w.emergencies e').status := by
  by_cases he : e' = e
  · subst he; simp [arriveOnScene]
  · simp [arriveOnScene, he]

theorem arriveOnScene_linked (h : WellLinked cfg n w) (hroute : (w.twins t).isEnRouteTo e = true) :
    WellLinked cfg n (arriveOnScene w t e) := by
  have hemergency := (RescuerDigitalTwin.isEnRouteTo_iff.mp hroute).2
  have hmissing : (arriveOnScene w t e).missing = w.missing := by
    funext e' ρ
    by_cases he : e' = e
    · subst he; simp [World.missing, arriveOnScene]
    · simp [World.missing, arriveOnScene, he]
  have : Linked cfg n (arriveOnScene w t e) w.missing := h.arrive hroute rfl rfl rfl
    (by simp [RescuerDigitalTwin.isOnSceneOf, hemergency]) rfl rfl
  rwa [← hmissing] at this

theorem atBase_linked (h : WellLinked cfg n w)
    (hreturning : (w.twins t).status = .returningToBase) :
    WellLinked cfg n (w.setTwin t { w.twins t with isTravelling := false, status := .idle }) := by
  have hrest := h.isAtRest_of_returning hreturning
  have same : SameLinks w
      (w.setTwin t { w.twins t with isTravelling := false, status := .idle }) :=
    .setTwin_atRest hrest ⟨hrest.1, .inl rfl⟩ rfl rfl
  exact h.congr_status same fun _ => rfl

theorem fatal_linked (h : WellLinked cfg n w) :
    WellLinked cfg n (w.setTwin t { w.twins t with isTravelling := false }) := by
  have same : SameLinks w (w.setTwin t { w.twins t with isTravelling := false }) :=
    .setTwin rfl rfl rfl rfl
  exact h.congr_status same fun _ => rfl

end EmergencyDispatch
