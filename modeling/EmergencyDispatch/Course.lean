import EmergencyDispatch.Walking
import EmergencyDispatch.WorldEffects

/-!
# Where the twins are and where they go

A twin that is sent somewhere gets a new trajectory, unless it already stands
there: then it keeps the trajectory it has, which may lead elsewhere or never
have been written.  If no search dispatches a rescuer in that situation, every
twin heads for, or stands on, the cell its status names: its base, or the place
of its emergency.

The walk of a twin and its arrival are two steps of the updater, so that the
invariant says of a twin whose arrival is pending that it stands on its target
(`Navigation`).
-/

namespace EmergencyDispatch

open State TransitionSystem

variable {cfg : Config} {s s' : State} {a : Action} {t u : TwinId} {e : EmergencyId}
  {w w' : World} {twin : RescuerDigitalTwin} {x y : ℤ}

namespace RescuerDigitalTwin

/-- The twin stands on the cell `(x, y)`. -/
def StandsAt (t : RescuerDigitalTwin) (x y : ℤ) : Prop := t.x = x ∧ t.y = y

/-- A trajectory was written, and its target is `(x, y)`. -/
def AimedAt (t : RescuerDigitalTwin) (x y : ℤ) : Prop :=
  t.trajectoryInitialised = true ∧ t.trajectory.xTarget = x ∧ t.trajectory.yTarget = y

/-- The twin is on the line that leads to `(x, y)`. -/
def Heading (t : RescuerDigitalTwin) (x y : ℤ) : Prop :=
  t.AimedAt x y ∧ OnCourse t.trajectory t.x t.y

/-- The twin stands on the target of its trajectory. -/
def OnTarget (t : RescuerDigitalTwin) : Prop :=
  t.StandsAt t.trajectory.xTarget t.trajectory.yTarget

instance (t : RescuerDigitalTwin) (x y : ℤ) : Decidable (t.StandsAt x y) :=
  inferInstanceAs (Decidable (_ ∧ _))

instance (t : RescuerDigitalTwin) (x y : ℤ) : Decidable (t.AimedAt x y) :=
  inferInstanceAs (Decidable (_ ∧ _))

theorem AimedAt.standsAt (h : twin.AimedAt x y) (htarget : twin.OnTarget) : twin.StandsAt x y :=
  ⟨htarget.1.trans h.2.1, htarget.2.trans h.2.2⟩

theorem AimedAt.onTarget (h : twin.AimedAt x y) (hstands : twin.StandsAt x y) : twin.OnTarget :=
  ⟨hstands.1.trans h.2.1.symm, hstands.2.trans h.2.2.symm⟩

/-- A twin that stands where it is aimed at is on course. -/
theorem AimedAt.heading (h : twin.AimedAt x y) (hstands : twin.StandsAt x y) : twin.Heading x y :=
  ⟨h, .inl (h.onTarget hstands)⟩

end RescuerDigitalTwin

/-- A new destination, for a twin that does not stand on it with another trajectory. -/
theorem heading_changeDestination (twin : RescuerDigitalTwin)
    (h : twin.StandsAt x y → twin.AimedAt x y) :
    (changeRescuerDigitalTwinDestinationBlocked twin x y).Heading x y := by
  unfold changeRescuerDigitalTwinDestinationBlocked
  split
  · rename_i hstands
    exact (h hstands).heading hstands
  · exact ⟨⟨rfl, rfl, rfl⟩, onCourse_changeBresenhamTrajectory _ _ _ _⟩

/-- A tick of walking leaves the twin on course, and on the target if it has arrived. -/
theorem heading_walkOneTick {twin' : RescuerDigitalTwin} {arrived : Bool}
    (h : twin.Heading x y) (hspeed : 0 ≤ twin.rescuer.speed)
    (hwalk : walkOneTick twin = some (twin', arrived)) :
    twin'.Heading x y ∧ (arrived = true → twin'.OnTarget) := by
  obtain ⟨step, hstep, rfl, rfl⟩ := walkOneTick_spec hwalk
  obtain ⟨step', hstep', hwalked⟩ := computeBresenhamStep_spec h.2 hspeed
  obtain rfl : step = step' := Option.some_injective _ (hstep.symm.trans hstep')
  have hx : step.trajectory.xTarget = twin.trajectory.xTarget := by rw [hwalked.target]
  have hy : step.trajectory.yTarget = twin.trajectory.yTarget := by rw [hwalked.target]
  refine ⟨⟨⟨h.1.1, hx.trans h.1.2.1, hy.trans h.1.2.2⟩, hwalked.onCourse⟩, fun harrived => ?_⟩
  have hstands := hwalked.arrived harrived
  exact ⟨hstands.1.trans hx.symm, hstands.2.trans hy.symm⟩

/-! ## Twins in the world -/

/-- The twin is where its status says, or on its way there. -/
structure Placed (w : World) (t : RescuerDigitalTwin) : Prop where
  speed : 0 ≤ t.rescuer.speed
  idle : t.status = .idle → t.StandsAt t.rescuer.x t.rescuer.y
  returning : t.status = .returningToBase → t.Heading t.rescuer.x t.rescuer.y
  enRoute : t.status = .enRouteToScene → ∀ e, t.emergency = some e →
    t.Heading (w.emergencies e).x (w.emergencies e).y
  onScene : t.status = .onScene → ∀ e, t.emergency = some e →
    t.AimedAt (w.emergencies e).x (w.emergencies e).y ∧
      t.StandsAt (w.emergencies e).x (w.emergencies e).y

theorem Placed.congr (h : Placed w twin)
    (hplace : ∀ e, twin.emergency = some e →
      (w'.emergencies e).x = (w.emergencies e).x ∧ (w'.emergencies e).y = (w.emergencies e).y) :
    Placed w' twin where
  speed := h.speed
  idle := h.idle
  returning := h.returning
  enRoute hstatus e he := by
    rw [(hplace e he).1, (hplace e he).2]
    exact h.enRoute hstatus e he
  onScene hstatus e he := by
    rw [(hplace e he).1, (hplace e he).2]
    exact h.onScene hstatus e he

def WellPlaced (w : World) : Prop := ∀ t, Placed w (w.twins t)

theorem WellPlaced.setEmergency (h : WellPlaced w) {em : Emergency}
    (hx : em.x = (w.emergencies e).x) (hy : em.y = (w.emergencies e).y) :
    WellPlaced (w.setEmergency e em) := by
  refine fun t => (h t).congr fun e' _ => ?_
  by_cases he : e' = e
  · subst he; simp [hx, hy]
  · simp [he]

theorem WellPlaced.setTwin (h : WellPlaced w) (htwin : Placed w twin) :
    WellPlaced (w.setTwin t twin) := by
  intro u
  by_cases hu : u = t
  · subst hu
    rw [World.setTwin_twins_self]
    exact htwin.congr fun _ _ => ⟨rfl, rfl⟩
  · rw [World.setTwin_twins_of_ne _ _ _ hu]
    exact (h u).congr fun _ _ => ⟨rfl, rfl⟩

theorem WellPlaced.of_eq (h : WellPlaced w) (htwins : w'.twins = w.twins)
    (hemergencies : w'.emergencies = w.emergencies) : WellPlaced w' := by
  intro t
  rw [htwins]
  exact (h t).congr fun e _ => by rw [hemergencies]; exact ⟨rfl, rfl⟩

theorem WellPlaced.of_setEmergency (h : WellPlaced w) {em : Emergency}
    (htwins : w'.twins = w.twins)
    (hemergencies : w'.emergencies = Function.update w.emergencies e em)
    (hx : em.x = (w.emergencies e).x) (hy : em.y = (w.emergencies e).y) : WellPlaced w' :=
  (h.setEmergency hx hy).of_eq htwins hemergencies

/-! ## The updater -/

theorem tickStay_wellPlaced (h : WellPlaced w) (t : TwinId) : WellPlaced (tickStay w t) :=
  h.setTwin ⟨(h t).speed, (h t).idle, (h t).returning, (h t).enRoute, (h t).onScene⟩

/-- Only the twin that leaves changes, and it is on its way home. -/
theorem leaveScene_twins {n : EmergencyId} (hl : WellLinked cfg n w)
    (hscene : (w.twins t).isOnSceneOf e = true) :
    ((leaveScene w t e).twins t).status = .returningToBase ∧
      ∀ u ≠ t, (leaveScene w t e).twins u = w.twins u := by
  obtain ⟨hstatus, -⟩ := RescuerDigitalTwin.isOnSceneOf_iff.mp hscene
  obtain ⟨i, -, hw⟩ := leaveScene_spec hl hscene
  rw [hw, sendBack_of_onScene hstatus]
  exact ⟨by simp, fun u hu => by simp [hu]⟩

/-- A twin that leaves a scene is on course for its base: if it stands there, it
has been aimed at it. -/
theorem leaveScene_wellPlaced {n : EmergencyId} (hl : WellLinked cfg n w) (h : WellPlaced w)
    (hscene : (w.twins t).isOnSceneOf e = true) : WellPlaced (leaveScene w t e) := by
  obtain ⟨hstatus, hemergency⟩ := RescuerDigitalTwin.isOnSceneOf_iff.mp hscene
  obtain ⟨i, -, hw⟩ := leaveScene_spec hl hscene
  obtain ⟨haimed, hstands⟩ := (h t).onScene hstatus e hemergency
  rw [hw, sendBack_of_onScene hstatus]
  have hbase : (w.twins t).StandsAt (w.twins t).rescuer.x (w.twins t).rescuer.y →
      (w.twins t).AimedAt (w.twins t).rescuer.x (w.twins t).rescuer.y := fun hat =>
    ⟨haimed.1, haimed.2.1.trans (hstands.1.symm.trans hat.1),
      haimed.2.2.trans (hstands.2.symm.trans hat.2)⟩
  have hheading := heading_changeDestination { w.twins t with
    status := .returningToBase
    timeToManage := INVALID_TIME
    timeLeftBeforeLeaving := INVALID_TIME } hbase
  refine WellPlaced.of_eq (w := (w.setEmergency e { w.emergencies e with
    rescuersNotDoneYet := (w.emergencies e).rescuersNotDoneYet - 1
    rescuerTwins := (w.emergencies e).rescuerTwins.set i none }).setTwin t
      { changeRescuerDigitalTwinDestinationBlocked { w.twins t with
          status := .returningToBase
          timeToManage := INVALID_TIME
          timeLeftBeforeLeaving := INVALID_TIME } (w.twins t).rescuer.x (w.twins t).rescuer.y with
        emergency := none })
    (WellPlaced.setTwin (WellPlaced.setEmergency h ?_ ?_) ?_) rfl rfl
  · rfl
  · rfl
  exact
    { speed := by simpa using (h t).speed
      idle := by simp
      returning := fun _ => by
        simp only [changeDestination_rescuer]
        exact hheading
      enRoute := by simp
      onScene := by simp }

/-- The twin that starts to walk in this tick is travelling, and the others are
left alone. -/
theorem WalkStart.twins {n : EmergencyId} (hl : WellLinked cfg n w) (hstart : WalkStart w t w') :
    ((w'.twins t).status = .enRouteToScene ∨ (w'.twins t).status = .returningToBase) ∧
      ∀ u ≠ t, w'.twins u = w.twins u := by
  cases hstart with
  | travelling hstatus => exact ⟨hstatus, fun _ _ => rfl⟩
  | leaving e hscene =>
      obtain ⟨hstatus, hother⟩ := leaveScene_twins (tickStay_linked hl)
        ((isOnSceneOf_tickStay w t e).trans hscene)
      refine ⟨.inr hstatus, fun u hu => (hother u hu).trans ?_⟩
      simp [tickStay, hu]

theorem WalkStart.wellPlaced {n : EmergencyId} (hl : WellLinked cfg n w) (h : WellPlaced w)
    (hstart : WalkStart w t w') : WellPlaced w' := by
  cases hstart with
  | travelling => exact h
  | leaving e hscene =>
      exact leaveScene_wellPlaced (tickStay_linked hl) (tickStay_wellPlaced h t)
        ((isOnSceneOf_tickStay w t e).trans hscene)

theorem Linked.exists_emergency {n : EmergencyId}
    {owed : EmergencyId → (RescuerType → Bool) → ℕ} (hl : Linked cfg n w owed)
    (hroute : (w.twins t).status = .enRouteToScene) : ∃ e, (w.twins t).emergency = some e := by
  obtain ⟨e, he⟩ := hl.exists_serves (t := t) (by simp [hroute]) (by simp [hroute])
  exact ⟨e, (RescuerDigitalTwin.serves_iff.mp he).1⟩

/-- The walk of a twin on course; a twin that arrives stands on its target. -/
theorem walked_wellPlaced {arrived : Bool} (h : WellPlaced w)
    (hstatus : (w.twins t).status = .enRouteToScene ∨ (w.twins t).status = .returningToBase)
    (hbound : (w.twins t).status = .enRouteToScene → ∃ e, (w.twins t).emergency = some e)
    (hwalk : walkOneTick (w.twins t) = some (twin, arrived)) :
    WellPlaced (w.setTwin t twin) ∧ (arrived = true → twin.OnTarget) := by
  obtain ⟨step, -, -, htwin⟩ := walkOneTick_spec hwalk
  have hspeed := (h t).speed
  rcases hstatus with hroute | hreturning
  · obtain ⟨e, he⟩ := hbound hroute
    obtain ⟨hheading, harrived⟩ :=
      heading_walkOneTick ((h t).enRoute hroute e he) hspeed hwalk
    refine ⟨h.setTwin ?_, harrived⟩
    subst htwin
    refine ⟨hspeed, ?_, ?_, fun _ e' he' => ?_, ?_⟩
    · simp [hroute]
    · simp [hroute]
    · obtain rfl : e' = e := Option.some_injective _ (he'.symm.trans he)
      exact hheading
    · simp [hroute]
  · obtain ⟨hheading, harrived⟩ :=
      heading_walkOneTick ((h t).returning hreturning) hspeed hwalk
    refine ⟨h.setTwin ?_, harrived⟩
    subst htwin
    refine ⟨hspeed, ?_, fun _ => hheading, ?_, ?_⟩ <;> simp [hreturning]

theorem arriveOnScene_wellPlaced (h : WellPlaced w) (hroute : (w.twins t).isEnRouteTo e = true)
    (htarget : (w.twins t).OnTarget) : WellPlaced (arriveOnScene w t e) := by
  obtain ⟨hstatus, hemergency⟩ := RescuerDigitalTwin.isEnRouteTo_iff.mp hroute
  have haimed := ((h t).enRoute hstatus e hemergency).1
  have htwin : Placed w { w.twins t with
      isTravelling := false
      timeLeftBeforeLeaving := (w.twins t).timeToManage
      status := .onScene } := by
    refine ⟨(h t).speed, by simp, by simp, by simp, fun _ e' he' => ?_⟩
    obtain rfl : e' = e := Option.some_injective _ (he'.symm.trans hemergency)
    exact ⟨haimed, haimed.standsAt htarget⟩
  unfold arriveOnScene
  exact WellPlaced.setEmergency (h.setTwin htwin) rfl rfl

theorem arriveAtBase_wellPlaced (h : WellPlaced w)
    (hreturning : (w.twins t).status = .returningToBase) (htarget : (w.twins t).OnTarget) :
    WellPlaced (w.setTwin t { w.twins t with isTravelling := false, status := .idle }) :=
  h.setTwin
    { speed := (h t).speed
      idle := fun _ => ((h t).returning hreturning).1.standsAt htarget
      returning := by simp
      enRoute := by simp
      onScene := by simp }

/-! ## Searches -/

/-- A dispatch binds the twin in a world in which nothing has moved. -/
theorem DispatchStep.eq_bindWorld {k : ℕ} (h : DispatchStep e k t w w') :
    ∃ w₀ request, w' = bindWorld w₀ t e k request ∧ w₀.twins = w.twins ∧
      ∀ e', (w₀.emergencies e').x = (w.emergencies e').x ∧
        (w₀.emergencies e').y = (w.emergencies e').y := by
  cases h with
  | atRest request hrest => exact ⟨w, request, rfl, rfl, fun _ => ⟨rfl, rfl⟩⟩
  | preempting request old j missing =>
      refine ⟨preemptWorld w t old j missing, request, rfl, rfl, fun e' => ?_⟩
      by_cases he : e' = old
      · subst he; simp [preemptWorld, preempted]
      · simp [preemptWorld, he]

/-- What holds before a run of dispatches, and of each candidate, and is kept by
each dispatch, holds after the run. -/
theorem DispatchRun.keeps {I : World → Prop} {C : World → TwinId → Prop}
    {candidates : List TwinId}
    (hstep : ∀ {w w' k t}, DispatchStep e k t w w' → I w → C w t → I w' ∧ ∀ u, C w u → C w' u)
    (h : DispatchRun e candidates w w') (hw : I w) (hcandidates : ∀ t ∈ candidates, C w t) :
    I w' := by
  induction h with
  | nil w => exact hw
  | cons hdispatch hrun ih =>
      obtain ⟨hw', hkept⟩ := hstep hdispatch hw (hcandidates _ (by simp))
      exact ih hw' fun u hu => hkept u (hcandidates u (by simp [hu]))

/-- A candidate that stands on the cell of the emergency has been aimed at it. -/
def CourseSet (e : EmergencyId) (w : World) (t : TwinId) : Prop :=
  (w.twins t).StandsAt (w.emergencies e).x (w.emergencies e).y →
    (w.twins t).AimedAt (w.emergencies e).x (w.emergencies e).y

/-- Binding a twin moves nothing, and sets its course. -/
theorem bindWorld_wellPlaced (i : ℕ) (request : RescuerRequest) (h : WellPlaced w)
    (hcourse : CourseSet e w t) :
    WellPlaced (bindWorld w t e i request) ∧
      ∀ u, CourseSet e w u → CourseSet e (bindWorld w t e i request) u := by
  have hheading : (departing (w.twins t) e (w.emergencies e) request).Heading
      (w.emergencies e).x (w.emergencies e).y := heading_changeDestination _ hcourse
  refine ⟨WellPlaced.setTwin (WellPlaced.setEmergency h ?_ ?_) ?_, fun u hu => ?_⟩
  · rfl
  · rfl
  · refine ⟨by simpa using (h t).speed, by simp, by simp, fun _ e' he' => ?_, by simp⟩
    obtain rfl : e = e' := by simpa using he'
    simpa using hheading
  · by_cases hut : u = t
    · subst hut
      intro _
      simpa [bindWorld] using hheading.1
    · simpa [CourseSet, bindWorld, hut] using hu

theorem DispatchStep.wellPlaced {k : ℕ} (h : DispatchStep e k t w w') (hw : WellPlaced w)
    (hcourse : CourseSet e w t) :
    WellPlaced w' ∧ ∀ u, CourseSet e w u → CourseSet e w' u := by
  obtain ⟨w₀, request, rfl, htwins, hplace⟩ := h.eq_bindWorld
  have hsame : ∀ u, CourseSet e w u → CourseSet e w₀ u := by
    intro u hu
    rwa [CourseSet, htwins, (hplace e).1, (hplace e).2]
  have hplaced : WellPlaced w₀ := fun u => by
    rw [htwins]
    exact (hw u).congr fun e' _ => hplace e'
  obtain ⟨hbound, hkept⟩ := bindWorld_wellPlaced k request hplaced
    (hsame t hcourse)
  exact ⟨hbound, fun u hu => hkept u (hsame u hu)⟩

/-- No search dispatches a rescuer that stands on the cell of the emergency and
whose trajectory does not lead there. -/
def KeepsCourse (cfg : Config) (s : State) : Action → Prop
  | .worker i =>
      match s.worker i with
      | .find e => EnoughRescuers cfg.priorityLookupTable s.world e →
          ∀ t ∈ (selectCandidates cfg.priorityLookupTable s.world e).candidates,
            (s.world.twins t).StandsAt (s.world.emergencies e).x (s.world.emergencies e).y →
            (s.world.twins t).AimedAt (s.world.emergencies e).x (s.world.emergencies e).y
      | _ => True
  | _ => True

instance (cfg : Config) (s : State) (a : Action) : Decidable (KeepsCourse cfg s a) := by
  unfold KeepsCourse
  rcases a
  case worker i => dsimp only; generalize s.worker i = pc; rcases pc <;> infer_instance
  all_goals infer_instance

/-! ## Steps -/

/-- Where the twins are, in every state; the updater treats each twin once. -/
structure Navigation (s : State) : Prop where
  placed : WellPlaced s.world
  arriving : ∀ t, s.updater.arriving t → (s.world.twins t).OnTarget
  subjects : s.updater.subjects.Nodup

theorem mem_subjects_of_arriving {pc : UpdaterPc} (h : pc.arriving t) : t ∈ pc.subjects := by
  cases pc with
  | updating todo => exact List.mem_filterMap.mpr ⟨.arrive t, h, rfl⟩
  | _ => exact h.elim

/-- While the updater holds the system no worker searches. -/
theorem not_arriving_of_search {i : Worker} (hpc : s.worker i = .find e)
    (hstep : State.step cfg s (.worker i) = some s') : ¬s.updater.arriving t := by
  have hfree : s.systemFree = true := by
    unfold State.step State.stepWorker at hstep
    by_contra hfree
    simp [hpc, hfree] at hstep
  intro harriving
  cases hu : s.updater with
  | updating todo => simp [systemFree, hu] at hfree
  | _ => rw [hu] at harriving; exact harriving

/-- The rest of the updater's section, once its first twin has been treated. -/
theorem subjects_cons {op : UpdateOp} {rest : List UpdateOp} (hop : op.subject = some t)
    (hpc : s.updater = .updating (op :: rest)) (h : Navigation s) :
    (t :: (UpdaterPc.updating rest).subjects).Nodup ∧
      ∀ u, (UpdaterPc.updating rest).arriving u → u ≠ t ∧ (s.world.twins u).OnTarget := by
  have hsubjects := h.subjects
  rw [hpc, UpdaterPc.subjects, List.filterMap_cons_some hop] at hsubjects
  refine ⟨hsubjects, fun u hu => ⟨?_, h.arriving u ?_⟩⟩
  · rintro rfl
    have hmem : u ∈ (UpdaterPc.updating rest).subjects := mem_subjects_of_arriving hu
    exact (List.nodup_cons.mp hsubjects).1 hmem
  · rw [hpc]
    exact List.mem_cons_of_mem op hu

/-- What the updater has to do after a twin has walked. -/
def afterWalk (t : TwinId) (outside arrived : Bool) (rest : List UpdateOp) : List UpdateOp :=
  (if outside then [.shutdown .request] else []) ++ (if arrived then [.arrive t] else []) ++ rest

theorem subjects_walked (outside arrived : Bool) {rest : List UpdateOp}
    (h : (t :: (UpdaterPc.updating rest).subjects).Nodup) :
    (UpdaterPc.updating (afterWalk t outside arrived rest)).subjects.Nodup := by
  have hrest := (List.nodup_cons.mp h).2
  cases outside <;> cases arrived
  · exact hrest
  · exact h
  · exact hrest
  · exact h

theorem arriving_walked {outside arrived : Bool} {rest : List UpdateOp}
    (h : (UpdaterPc.updating (afterWalk t outside arrived rest)).arriving u) :
    (u = t ∧ arrived = true) ∨ (UpdaterPc.updating rest).arriving u := by
  simp only [UpdaterPc.arriving, afterWalk, List.mem_append] at h
  rcases h with (h | h) | h
  · split at h <;> simp at h
  · split at h
    · rename_i harrived
      exact .inl ⟨by simpa using h, harrived⟩
    · simp at h
  · exact .inr h

/-- The twins do not change, and neither does the updater. -/
theorem Navigation.congr (h : Navigation s) (htwins : s'.world.twins = s.world.twins)
    (hplaced : WellPlaced s'.world) (hupdater : s'.updater = s.updater) : Navigation s' where
  placed := hplaced
  arriving t ht := by
    rw [htwins]
    exact h.arriving t (hupdater ▸ ht)
  subjects := hupdater ▸ h.subjects

/-- The updater has treated a twin, and goes on with the others. -/
theorem Navigation.treated {op : UpdateOp} {rest : List UpdateOp} (h : Navigation s)
    (hop : op.subject = some t) (hpc : s.updater = .updating (op :: rest))
    (hplaced : WellPlaced w)
    (hothers : ∀ u ≠ t, (s.world.twins u).OnTarget → (w.twins u).OnTarget) :
    Navigation { s with world := w, updater := .updating rest } := by
  obtain ⟨hcons, hrest⟩ := subjects_cons hop hpc h
  refine ⟨hplaced, fun u hu => ?_, (List.nodup_cons.mp hcons).2⟩
  obtain ⟨hne, htarget⟩ := hrest u hu
  exact hothers u hne htarget

theorem search_navigation {i : Worker} {found : Bool} {worker : Worker → WorkerPc}
    (hinv : Invariant cfg s) (hguard : KeepsCourse cfg s (.worker i)) (h : Navigation s)
    (hstep : State.step cfg s (.worker i) = some s') (hpc : s.worker i = .find e)
    (hfind : findRescuersLoggingBlocking cfg.priorityLookupTable s.world e = .ok (w, found)) :
    Navigation { s with world := { w with signals := [] }, worker := worker } := by
  have hnone := fun t => not_arriving_of_search (t := t) hpc hstep
  refine ⟨WellPlaced.of_eq (w := w) ?_ rfl rfl, fun t ht => absurd ht (hnone t), h.subjects⟩
  cases hinv.findStep hpc hfind with
  | nothingMissing => exact h.placed
  | notEnough => exact h.placed
  | dispatched hmissing henough hnotDone hrun =>
      simp only [KeepsCourse, hpc] at hguard
      have hplaced := DispatchRun.keeps DispatchStep.wellPlaced hrun h.placed (hguard henough)
      exact hplaced.of_setEmergency rfl rfl rfl rfl

theorem stays_navigation {rest : List UpdateOp} (hl : WellLinked cfg s.nextId s.world)
    (h : Navigation s) (hpc : s.updater = .updating (.twin t :: rest))
    (hupdate : updateRescuerDigitalTwinState cfg.size s.world t = .stays w) :
    Navigation { s with world := w, updater := .updating rest } := by
  have hcases := update_cases hl cfg.size t
  rw [hupdate] at hcases
  cases hcases with
  | idle => exact h.treated rfl hpc h.placed fun u _ htarget => htarget
  | stays =>
      refine h.treated rfl hpc (tickStay_wellPlaced h.placed t) fun u hu htarget => ?_
      simpa [tickStay, hu] using htarget

/-- A twin that has arrived is on its target. -/
theorem walked_navigation {rest : List UpdateOp} {outside arrived : Bool}
    (hl : WellLinked cfg s.nextId s.world) (h : Navigation s)
    (hpc : s.updater = .updating (.twin t :: rest))
    (hupdate : updateRescuerDigitalTwinState cfg.size s.world t = .walked w outside arrived) :
    Navigation { s with world := w, updater := .updating (afterWalk t outside arrived rest) } := by
  obtain ⟨hcons, hrest⟩ := subjects_cons rfl hpc h
  have hcases := update_cases hl cfg.size t
  rw [hupdate] at hcases
  cases hcases with
  | walked hstart hwalk =>
      obtain ⟨hstatus, hothers⟩ := hstart.twins hl
      have hbound := fun hroute => (walkStart_linked hl hstart).exists_emergency (t := t) hroute
      obtain ⟨hplaced, harrived⟩ := walked_wellPlaced (hstart.wellPlaced hl h.placed) hstatus
        hbound hwalk
      refine ⟨hplaced, fun u hu => ?_, subjects_walked _ _ hcons⟩
      rcases arriving_walked hu with ⟨rfl, harr⟩ | hu
      · simpa using harrived harr
      · obtain ⟨hne, htarget⟩ := hrest u hu
        simpa [hne, hothers u hne] using htarget

theorem arrived_navigation {rest : List UpdateOp} (hl : WellLinked cfg s.nextId s.world)
    (h : Navigation s) (hpc : s.updater = .updating (.arrive t :: rest))
    (harrive : arriveRescuerDigitalTwin s.world t = .arrived w) :
    Navigation { s with world := w, updater := .updating rest } := by
  have htarget : (s.world.twins t).OnTarget := h.arriving t (by simp [hpc, UpdaterPc.arriving])
  have hcases := arrival_cases hl t
  rw [harrive] at hcases
  cases hcases with
  | onScene e hroute =>
      refine h.treated rfl hpc (arriveOnScene_wellPlaced h.placed hroute htarget)
        fun u hu hold => ?_
      simpa [arriveOnScene, hu] using hold
  | atBase hreturning =>
      refine h.treated rfl hpc (arriveAtBase_wellPlaced h.placed hreturning htarget)
        fun u hu hold => ?_
      simpa [hu] using hold

theorem fatal_navigation {rest : List UpdateOp} (hl : WellLinked cfg s.nextId s.world)
    (h : Navigation s) (hpc : s.updater = .updating (.arrive t :: rest))
    (harrive : arriveRescuerDigitalTwin s.world t = .fatal w) :
    Navigation { s with world := w, updater := .updating (.shutdown .request :: rest) } := by
  have hcases := arrival_cases hl t
  rw [harrive] at hcases
  cases hcases with
  | fatal =>
      have hstopped : Placed s.world { s.world.twins t with isTravelling := false } :=
        ⟨(h.placed t).speed, (h.placed t).idle, (h.placed t).returning, (h.placed t).enRoute,
          (h.placed t).onScene⟩
      have hplaced : WellPlaced (s.world.setTwin t { s.world.twins t with
        isTravelling := false }) := h.placed.setTwin hstopped
      have hrest := h.treated rfl hpc hplaced fun u hu hold => by simpa [hu] using hold
      -- the request to shut down is about no twin
      refine ⟨hrest.placed, fun u hu => hrest.arriving u ?_, ?_⟩
      · simpa [UpdaterPc.arriving] using hu
      · simpa [UpdaterPc.subjects, UpdateOp.subject, List.filterMap_cons] using hrest.subjects

theorem navigation_step (hinv : Invariant cfg s) (hguard : KeepsCourse cfg s a)
    (h : Navigation s) (hstep : State.step cfg s a = some s') : Navigation s' := by
  have hl := hinv.links
  cases (step_effect hstep).2 with
  | quiet hq =>
      refine ⟨hq.world ▸ h.placed, fun t ht => ?_, hq.subjects h.subjects⟩
      rw [hq.world]
      exact h.arriving t (hq.arriving t ht)
  | move i pc hmove => exact h.congr rfl h.placed rfl
  | pop i e queue hpc hpop => exact h.congr rfl h.placed rfl
  | openSlot i e hpc => exact h.congr rfl (h.placed.of_setEmergency rfl rfl rfl rfl) rfl
  | search i e w found worker hpc hfind hwoken =>
      exact search_navigation hinv hguard h hstep hpc hfind
  | store i e reason level hpc => exact h.congr rfl (h.placed.of_setEmergency rfl rfl rfl rfl) rfl
  | closeSlot i leaving hpc => exact h.congr rfl (h.placed.of_eq rfl rfl) rfl
  | stays t rest w hpc hupdate => exact stays_navigation hl h hpc hupdate
  | walked t rest w outside arrived hpc hupdate => exact walked_navigation hl h hpc hupdate
  | arrived t rest w hpc harrive => exact arrived_navigation hl h hpc harrive
  | fatal t rest w hpc harrive => exact fatal_navigation hl h hpc harrive
  | slot i e rest worker hpc hactive hwoken =>
      obtain ⟨-, -, -, -, -, -, hx, hy⟩ :=
        updateActiveEmergencyState_spec cfg.priorityLookupTable (s.world.emergencies e)
      refine ⟨h.placed.of_setEmergency rfl rfl hx hy, fun u hu => h.arriving u ?_, ?_⟩
      · rw [hpc]
        exact List.mem_cons_of_mem _ hu
      · have hsubjects := h.subjects
        rwa [hpc] at hsubjects
  | mapWaiting hpc =>
      refine ⟨fun t => (h.placed t).congr fun e _ => ?_, fun t ht => ht.elim, List.nodup_nil⟩
      dsimp only
      split <;> exact ⟨rfl, rfl⟩
  | extract e queue pred pc hpc hextract hnext =>
      rcases hnext with rfl | rfl <;>
        exact ⟨h.placed, fun t ht => ht.elim, List.nodup_nil⟩
  | expire e level hpc =>
      exact ⟨h.placed.of_setEmergency rfl rfl rfl rfl, fun t ht => ht.elim, List.nodup_nil⟩
  | promote e level worker hpc hwoken =>
      exact ⟨h.placed.of_setEmergency rfl rfl rfl rfl, fun t ht => ht.elim, List.nodup_nil⟩
  | receive request emergency mq hpc hemergency =>
      refine h.congr rfl (fun t => (h.placed t).congr fun e he => ?_) rfl
      -- nobody is bound to a number that was not given yet
      have hlt := (hl.serving t e (hl.serves_of_emergency he)).2.1
      simp [Nat.ne_of_lt hlt]
  | receiverPush e level worker hpc hwoken => exact h.congr rfl h.placed rfl

theorem Config.rescuerOf_speed (cfg : Config) (t : TwinId) : 0 ≤ (cfg.rescuerOf t).speed := by
  unfold rescuerOf
  cases hfind : cfg.rescuers.find? fun r => r.twins.contains t with
  | none => exact le_rfl
  | some r =>
      have hspeed := (cfg.speeds r (List.mem_of_find?_eq_some hfind)).1
      exact le_trans (by decide) hspeed

theorem initial_navigation (cfg : Config) : Navigation (initialState cfg) where
  placed t :=
    { speed := cfg.rescuerOf_speed t
      idle := fun _ => ⟨rfl, rfl⟩
      returning := (nomatch ·)
      enRoute := (nomatch ·)
      onScene := (nomatch ·) }
  arriving _ ht := ht.elim
  subjects := List.nodup_nil

theorem navigation_of_reachable
    (hreach : ReachableWith (State.step cfg) (KeepsCourse cfg) (initialState cfg) s) :
    Navigation s :=
  hreach.invariant Navigation (initial_navigation cfg) fun _ _ _ hs h hguard hstep =>
    navigation_step (reachable_invariant hs.reachable) hguard h hstep

/-- **Every twin heads for, or stands on, the cell its status names.**  This
holds in every run in which no search dispatches a rescuer that stands on the
cell of the emergency and whose trajectory does not lead there. -/
theorem twins_head_and_stand
    (hreach : ReachableWith (State.step cfg) (KeepsCourse cfg) (initialState cfg) s)
    (t : TwinId) :
    ((s.world.twins t).status = .enRouteToScene → ∃ e, (s.world.twins t).emergency = some e ∧
        (s.world.twins t).AimedAt (s.world.emergencies e).x (s.world.emergencies e).y) ∧
      ((s.world.twins t).status = .returningToBase →
        (s.world.twins t).AimedAt (s.world.twins t).rescuer.x (s.world.twins t).rescuer.y) ∧
      ((s.world.twins t).status = .onScene → ∃ e, (s.world.twins t).emergency = some e ∧
        (s.world.twins t).StandsAt (s.world.emergencies e).x (s.world.emergencies e).y) ∧
      ((s.world.twins t).status = .idle →
        (s.world.twins t).StandsAt (s.world.twins t).rescuer.x (s.world.twins t).rescuer.y) := by
  have hl := (reachable_invariant hreach.reachable).links
  have hplaced := (navigation_of_reachable hreach).placed t
  refine ⟨fun hroute => ?_, fun hreturning => (hplaced.returning hreturning).1, fun hscene => ?_,
    hplaced.idle⟩
  · obtain ⟨e, he⟩ := hl.exists_emergency hroute
    exact ⟨e, he, (hplaced.enRoute hroute e he).1⟩
  · obtain ⟨e, hserves⟩ := hl.exists_serves (t := t) (by simp [hscene]) (by simp [hscene])
    have he := (RescuerDigitalTwin.serves_iff.mp hserves).1
    exact ⟨e, he, (hplaced.onScene hscene e he).2⟩

/-- The rescuers of an emergency after one tick stand on its scene. -/
theorem twins_head_and_stand_onScene :
    let s := stateAfterWith (KeepsCourse exampleServer) exampleServer
      (threadsStart ++ requestArrives "e 3 4 0" ++ workerSteps 0 6 ++ clockTicks 22)
    (s.world.twins 1).status = .onScene ∧ ∃ e, (s.world.twins 1).emergency = some e ∧
      (s.world.twins 1).StandsAt (s.world.emergencies e).x (s.world.emergencies e).y :=
  ⟨by decide +kernel,
    (twins_head_and_stand (reachableWith_stateAfterWith _ _ _) 1).2.2.1 (by decide +kernel)⟩

/-- An emergency on the base of the rescuer that is sent to it: nothing was ever
written into the trajectory, which leads wherever the memory says. -/
theorem twin_sent_without_trajectory :
    let s := stateAfter exampleServer (threadsStart ++ requestArrives "g 0 0 0" ++ workerSteps 0 5)
    Reachable exampleServer s ∧ s.systemFree = true ∧
      (s.world.twins 0).status = .enRouteToScene ∧ (s.world.twins 0).emergency = some 3 ∧
      (s.world.emergencies 3).x = 0 ∧ (s.world.emergencies 3).y = 0 ∧
      (s.world.twins 0).trajectoryInitialised = false ∧
      (s.world.twins 0).trajectory.xTarget = 7 ∧ (s.world.twins 0).trajectory.yTarget = 7 :=
  ⟨reachable_stateAfter _ _, by decide +kernel, by decide +kernel, by decide +kernel,
    by decide +kernel, by decide +kernel, by decide +kernel, by decide +kernel,
    by decide +kernel⟩

end EmergencyDispatch
