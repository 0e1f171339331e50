import EmergencyDispatch.Course
import EmergencyDispatch.Strides

/-!
# The mission of a twin

A twin that is sent to an emergency on another cell goes there, stays for the time its
request grants, and goes home.  What it is doing is told by the number of updates it
has had since it was sent (`OnMission`):

```text
n < arrival                   on the way, n * speed cells nearer
arrival ≤ n < departure       on the scene
departure ≤ n < homecoming    on the way back, (n - departure + 1) * speed cells nearer
homecoming ≤ n                idle at the base
```

The update in which the twin leaves the scene also walks.  An update changes the twin,
and of the world besides it only the emergency of the mission: the arrival takes one
from the rescuers that have not arrived, the departure takes one from those that have
not finished and empties the slot (`OwnWork`).
-/

namespace EmergencyDispatch

open State

/-! ## Walking for some ticks -/

/-- How many ticks a walk takes: the distance divided by the speed, rounded up. -/
def ticksToWalk (distance speed : ℤ) : ℤ := -(-distance / speed)

theorem ticksToWalk_le_iff {distance speed n : ℤ} (h : 0 < speed) :
    ticksToWalk distance speed ≤ n ↔ distance ≤ n * speed := by
  rw [ticksToWalk, neg_le, Int.le_ediv_iff_mul_le h, neg_mul]
  omega

theorem lt_ticksToWalk_iff {distance speed n : ℤ} (h : 0 < speed) :
    n < ticksToWalk distance speed ↔ n * speed < distance := by
  rw [← not_le, ticksToWalk_le_iff h, not_le]

theorem walkOneTick_heading {twin : RescuerDigitalTwin} {x y : ℤ} (h : twin.Heading x y)
    (hspeed : 0 ≤ twin.rescuer.speed) :
    ∃ twin' arrived, walkOneTick twin = some (twin', arrived) ∧ twin'.Heading x y ∧
      MANHATTAN twin'.x twin'.y x y = MANHATTAN twin.x twin.y x y -
        min twin.rescuer.speed (MANHATTAN twin.x twin.y x y) ∧
      (arrived = true ↔ MANHATTAN twin.x twin.y x y ≤ twin.rescuer.speed) ∧
      ∃ x' y' trajectory, twin' = { twin with
        isTravelling := true
        x := x'
        y := y'
        trajectory := trajectory } := by
  obtain ⟨step, hstep, hwalked⟩ := computeBresenhamStep_spec h.2 hspeed
  obtain ⟨hcells, harrived⟩ := computeBresenhamStep_cells h.2 hspeed hstep
  have hnearer := MANHATTAN_between hwalked.betweenX hwalked.betweenY
  have hwalk : walkOneTick twin = some ({ twin with
      isTravelling := true
      x := twin.x + step.xStep
      y := twin.y + step.yStep
      trajectory := step.trajectory }, step.arrived) := by
    rw [walkOneTick, hstep, Option.map_some]
  rw [h.1.2.1, h.1.2.2] at hcells hnearer harrived
  refine ⟨_, _, hwalk, (heading_walkOneTick h hspeed hwalk).1, ?_, ?_, _, _, _, rfl⟩
  · dsimp only
    omega
  · rw [harrived, ← MANHATTAN_eq_zero_iff]
    omega

/-! ## Missions -/

/-- The way of a twin to an emergency at `(x, y)` that is `distance` cells away, and
home; `stay` is its `time_to_manage`. -/
structure Mission where
  twin : TwinId
  emergency : EmergencyId
  rescuer : RescuerType
  distance : ℤ
  x : ℤ
  y : ℤ
  stay : ℤ
  speed_pos : 0 < rescuer.speed
  distance_pos : 0 < distance

namespace Mission

variable (m : Mission)

/-- The update in which the twin arrives on the scene. -/
def arrival : ℤ := ticksToWalk m.distance m.rescuer.speed

/-- The update in which it leaves the scene. -/
def departure : ℤ := m.arrival + max 1 m.stay

/-- The cells between the scene and the base. -/
def wayBack : ℤ := MANHATTAN m.x m.y m.rescuer.x m.rescuer.y

/-- The update in which it is back at its base; the departure has been the first one
of the way back. -/
def homecoming : ℤ := m.departure + max 1 (ticksToWalk m.wayBack m.rescuer.speed) - 1

theorem lt_arrival_iff (n : ℤ) : n < m.arrival ↔ n * m.rescuer.speed < m.distance :=
  lt_ticksToWalk_iff m.speed_pos

theorem arrival_pos : 0 < m.arrival := by
  rw [lt_arrival_iff, zero_mul]
  exact m.distance_pos

/-- Between the departure and the homecoming cells of the way back are left. -/
theorem lt_homecoming_iff {n : ℤ} (h : m.departure ≤ n) :
    n < m.homecoming ↔ (n - m.departure + 1) * m.rescuer.speed < m.wayBack := by
  rw [← lt_ticksToWalk_iff m.speed_pos, homecoming]
  omega

end Mission

/-- What has been seen of a mission so far: whether the twin was on the scene after
some step, and by how much its updates have lowered the two counters of the
emergency. -/
structure MissionLog where
  onScene : Bool
  arrivals : ℤ
  departures : ℤ
  deriving DecidableEq

/-- What the twin is doing after `n` updates, and what has been seen of it. -/
inductive OnMission (m : Mission) (n : ℤ) (twin : RescuerDigitalTwin) : MissionLog → Prop
  | enRoute (hn : n < m.arrival) (hstatus : twin.status = .enRouteToScene)
      (hemergency : twin.emergency = some m.emergency) (htime : twin.timeToManage = m.stay)
      (hheading : twin.Heading m.x m.y)
      (hleft : MANHATTAN twin.x twin.y m.x m.y = m.distance - n * m.rescuer.speed) :
      OnMission m n twin ⟨false, 0, 0⟩
  | onScene (harrival : m.arrival ≤ n) (hn : n < m.departure) (hstatus : twin.status = .onScene)
      (hemergency : twin.emergency = some m.emergency)
      (htime : twin.timeLeftBeforeLeaving = m.stay - (n - m.arrival))
      (haimed : twin.AimedAt m.x m.y) (hstands : twin.StandsAt m.x m.y) :
      OnMission m n twin ⟨true, 1, 0⟩
  | returning (hdeparture : m.departure ≤ n) (hn : n < m.homecoming)
      (hstatus : twin.status = .returningToBase) (hemergency : twin.emergency = none)
      (hheading : twin.Heading m.rescuer.x m.rescuer.y)
      (hleft : MANHATTAN twin.x twin.y m.rescuer.x m.rescuer.y =
        m.wayBack - (n - m.departure + 1) * m.rescuer.speed) :
      OnMission m n twin ⟨true, 1, 1⟩
  | home (hn : m.homecoming ≤ n) (hstatus : twin.status = .idle)
      (hemergency : twin.emergency = none) (hstands : twin.StandsAt m.rescuer.x m.rescuer.y) :
      OnMission m n twin ⟨true, 1, 1⟩

/-- The twin has walked in its `n`-th update, and its arrival is to be treated. -/
inductive Arriving (m : Mission) (n : ℤ) (twin : RescuerDigitalTwin) : MissionLog → Prop
  | onScene (hn : n = m.arrival) (hstatus : twin.status = .enRouteToScene)
      (hemergency : twin.emergency = some m.emergency) (htime : twin.timeToManage = m.stay)
      (haimed : twin.AimedAt m.x m.y) (hstands : twin.StandsAt m.x m.y) :
      Arriving m n twin ⟨false, 0, 0⟩
  | home (hn : n = m.homecoming) (hstatus : twin.status = .returningToBase)
      (hemergency : twin.emergency = none) (hstands : twin.StandsAt m.rescuer.x m.rescuer.y) :
      Arriving m n twin ⟨true, 1, 1⟩

/-- The log after an update of the twin. -/
def MissionLog.add (m : Mission) (w w' : World) (log : MissionLog) : MissionLog where
  onScene := log.onScene || (w'.twins m.twin).status == .onScene
  arrivals := log.arrivals + ((w.emergencies m.emergency).rescuersNotArrivedYet -
    (w'.emergencies m.emergency).rescuersNotArrivedYet)
  departures := log.departures + ((w.emergencies m.emergency).rescuersNotDoneYet -
    (w'.emergencies m.emergency).rescuersNotDoneYet)

/-- What an update of the twin may change: the twin, and of the emergency the two
counters and the slot the twin has. -/
structure OwnWork (m : Mission) (w w' : World) : Prop where
  twins : ∀ u ≠ m.twin, w'.twins u = w.twins u
  emergencies : ∀ e ≠ m.emergency, w'.emergencies e = w.emergencies e
  orders : ∃ notArrived notDone slots,
    w'.emergencies m.emergency = { w.emergencies m.emergency with
      rescuersNotArrivedYet := notArrived
      rescuersNotDoneYet := notDone
      rescuerTwins := slots } ∧
    (slots = (w.emergencies m.emergency).rescuerTwins ∨
      ∃ j : ℕ, (w.emergencies m.emergency).rescuerTwins[j]? = some (some m.twin) ∧
        slots = (w.emergencies m.emergency).rescuerTwins.set j none)
  active : w'.active = w.active
  signals : w'.signals = w.signals

namespace OwnWork

variable {m : Mission} {w : World}

theorem refl (m : Mission) (w : World) : OwnWork m w w :=
  ⟨fun _ _ => rfl, fun _ _ => rfl, ⟨_, _, _, rfl, .inl rfl⟩, rfl, rfl⟩

theorem setTwin (m : Mission) (w : World) (twin : RescuerDigitalTwin) :
    OwnWork m w (w.setTwin m.twin twin) :=
  ⟨fun u hu => by simp [hu], fun _ _ => rfl, ⟨_, _, _, rfl, .inl rfl⟩, rfl, rfl⟩

end OwnWork

/-! ## One update of the twin -/

section update

variable {cfg : Config} {N : EmergencyId} {m : Mission} {n : ℤ} {w w' : World}
  {twin : RescuerDigitalTwin} {log : MissionLog}

theorem MissionLog.add_eq (h : (w'.emergencies m.emergency).rescuersNotArrivedYet =
      (w.emergencies m.emergency).rescuersNotArrivedYet ∧
    (w'.emergencies m.emergency).rescuersNotDoneYet =
      (w.emergencies m.emergency).rescuersNotDoneYet)
    (hstatus : (w'.twins m.twin).status = .onScene → log.onScene = true) :
    log.add m w w' = log := by
  obtain ⟨onScene, arrivals, departures⟩ := log
  simp only [MissionLog.add, h.1, h.2, sub_self, add_zero, MissionLog.mk.injEq, and_true]
  cases onScene with
  | true => rfl
  | false => simpa using hstatus

theorem MissionLog.add_setTwin (m : Mission) (w : World) (twin : RescuerDigitalTwin)
    (h : twin.status = .onScene → log.onScene = true) :
    log.add m w (w.setTwin m.twin twin) = log :=
  MissionLog.add_eq ⟨rfl, rfl⟩ (by simpa using h)

/-- What a walk leads to: the arrival is still to be treated, or the mission goes on. -/
def AfterWalk (m : Mission) (n : ℤ) (arrived : Bool) (twin : RescuerDigitalTwin)
    (log : MissionLog) : Prop :=
  if arrived = true then Arriving m n twin log else OnMission m n twin log

/-- Whether a walk ends is decided by what was left of the way. -/
theorem AfterWalk.of_left {arrived : Bool} {x y left : ℤ}
    (harrived : arrived = true ↔ left ≤ m.rescuer.speed)
    (hleft : MANHATTAN twin.x twin.y x y = left - min m.rescuer.speed left)
    (hthere : left ≤ m.rescuer.speed → twin.x = x ∧ twin.y = y → Arriving m n twin log)
    (hfurther : m.rescuer.speed < left →
      MANHATTAN twin.x twin.y x y = left - m.rescuer.speed → OnMission m n twin log) :
    AfterWalk m n arrived twin log := by
  unfold AfterWalk
  split
  · rename_i h
    have hnear := harrived.mp h
    rw [min_eq_right hnear, sub_self] at hleft
    exact hthere hnear (MANHATTAN_eq_zero_iff.mp hleft)
  · rename_i h
    have hfar := not_le.mp fun hle => h (harrived.mpr hle)
    rw [min_eq_left hfar.le] at hleft
    exact hfurther hfar hleft

theorem walk_toScene (hn : n < m.arrival) (hstatus : twin.status = .enRouteToScene)
    (hemergency : twin.emergency = some m.emergency) (htime : twin.timeToManage = m.stay)
    (hheading : twin.Heading m.x m.y) (hrescuer : twin.rescuer = m.rescuer)
    (hleft : MANHATTAN twin.x twin.y m.x m.y = m.distance - n * m.rescuer.speed) :
    ∃ twin' arrived, walkOneTick twin = some (twin', arrived) ∧
      twin'.status = .enRouteToScene ∧ AfterWalk m (n + 1) arrived twin' ⟨false, 0, 0⟩ := by
  have hspeed : 0 ≤ twin.rescuer.speed := hrescuer ▸ m.speed_pos.le
  obtain ⟨twin', arrived, hwalk, hheading', hleft', harrived, x', y', trajectory, htwin⟩ :=
    walkOneTick_heading hheading hspeed
  rw [hrescuer, hleft] at hleft' harrived
  have hstatus' : twin'.status = .enRouteToScene := by rw [htwin]; exact hstatus
  have hemergency' : twin'.emergency = some m.emergency := by rw [htwin]; exact hemergency
  have htime' : twin'.timeToManage = m.stay := by rw [htwin]; exact htime
  have hfar := (m.lt_arrival_iff n).mp hn
  have hnext := m.lt_arrival_iff (n + 1)
  rw [add_mul, one_mul] at hnext
  refine ⟨twin', arrived, hwalk, hstatus', .of_left harrived hleft' ?_ ?_⟩
  · intro hnear hstands
    exact .onScene (by omega) hstatus' hemergency' htime' hheading'.1 hstands
  · intro hfurther hdistance
    refine .enRoute (by omega) hstatus' hemergency' htime' hheading' ?_
    rw [hdistance, add_mul, one_mul, sub_sub]

theorem walk_home (hdeparture : m.departure ≤ n) (hn : n ≤ m.homecoming)
    (hstatus : twin.status = .returningToBase) (hemergency : twin.emergency = none)
    (hheading : twin.Heading m.rescuer.x m.rescuer.y) (hrescuer : twin.rescuer = m.rescuer)
    (hleft : MANHATTAN twin.x twin.y m.rescuer.x m.rescuer.y =
      m.wayBack - (n - m.departure) * m.rescuer.speed) :
    ∃ twin' arrived, walkOneTick twin = some (twin', arrived) ∧
      twin'.status = .returningToBase ∧ AfterWalk m n arrived twin' ⟨true, 1, 1⟩ := by
  have hspeed : 0 ≤ twin.rescuer.speed := hrescuer ▸ m.speed_pos.le
  obtain ⟨twin', arrived, hwalk, hheading', hleft', harrived, x', y', trajectory, htwin⟩ :=
    walkOneTick_heading hheading hspeed
  rw [hrescuer] at hleft' harrived
  have hstatus' : twin'.status = .returningToBase := by rw [htwin]; exact hstatus
  have hemergency' : twin'.emergency = none := by rw [htwin]; exact hemergency
  have hnext := m.lt_homecoming_iff hdeparture
  rw [add_mul, one_mul] at hnext
  refine ⟨twin', arrived, hwalk, hstatus', .of_left harrived hleft' ?_ ?_⟩
  · intro hnear hstands
    exact .home (by omega) hstatus' hemergency' hstands
  · intro hfurther hdistance
    refine .returning hdeparture (by omega) hstatus' hemergency' hheading' ?_
    rw [hdistance, hleft, add_mul, one_mul, sub_sub]

/-- What one call of `update_rescuer_digital_twin_state_logging_blocked` makes of the
mission, the `n`-th since the twin was sent. -/
inductive Updated (m : Mission) (n : ℤ) (w : World) (log : MissionLog) : TwinUpdate → Prop
  | stays {w' : World} (hwork : OwnWork m w w')
      (hmission : OnMission m n (w'.twins m.twin) (log.add m w w')) :
      Updated m n w log (.stays w')
  | walked {w' : World} (outside : Bool) {arrived : Bool} (hwork : OwnWork m w w')
      (hmission : AfterWalk m n arrived (w'.twins m.twin) (log.add m w w')) :
      Updated m n w log (.walked w' outside arrived)

/-- A walk that starts from a world with the same counters. -/
theorem updated_of_walk {arrived : Bool} (size : MapSize)
    (hwalk : walkOneTick (w.twins m.twin) = some (twin, arrived)) (hstatus : twin.status ≠ .onScene)
    (hafter : AfterWalk m n arrived twin log) :
    Updated m n w log (walkTwin size w m.twin) := by
  have hlog : log.add m w (w.setTwin m.twin twin) = log :=
    MissionLog.add_setTwin m w twin fun h => absurd h hstatus
  simp only [walkTwin, hwalk]
  exact .walked _ (.setTwin m w twin) (by simpa [hlog] using hafter)

/-- The twin turns round: it is as far from its base as the scene is. -/
theorem turn_back (twin : RescuerDigitalTwin) (hstatus : twin.status = .onScene)
    (haimed : twin.AimedAt m.x m.y) (hstands : twin.StandsAt m.x m.y)
    (hrescuer : twin.rescuer = m.rescuer) :
    (sendRescuerDigitalTwinBackToBase twin).status = .returningToBase ∧
      (sendRescuerDigitalTwinBackToBase twin).rescuer = m.rescuer ∧
      (sendRescuerDigitalTwinBackToBase twin).StandsAt m.x m.y ∧
      (sendRescuerDigitalTwinBackToBase twin).Heading m.rescuer.x m.rescuer.y := by
  rw [sendBack_of_onScene hstatus, hrescuer]
  refine ⟨by simp, by simp, ?_, heading_changeDestination _ fun hbase => ?_⟩
  · simpa [RescuerDigitalTwin.StandsAt] using hstands
  -- a scene on the cell of the base: the twin has been aimed at it
  · have hx : m.x = m.rescuer.x := hstands.1.symm.trans hbase.1
    have hy : m.y = m.rescuer.y := hstands.2.symm.trans hbase.2
    rw [← hx, ← hy]
    exact haimed

theorem updated_of_leaving (hl : WellLinked cfg N w) (size : MapSize)
    (hstatus : (w.twins m.twin).status = .onScene)
    (hemergency : (w.twins m.twin).emergency = some m.emergency)
    (haimed : (w.twins m.twin).AimedAt m.x m.y) (hstands : (w.twins m.twin).StandsAt m.x m.y)
    (hrescuer : (w.twins m.twin).rescuer = m.rescuer) :
    Updated m m.departure w ⟨true, 1, 0⟩
      (walkTwin size (leaveScene (tickStay w m.twin) m.twin m.emergency) m.twin) := by
  have hscene : ((tickStay w m.twin).twins m.twin).isOnSceneOf m.emergency = true := by
    rw [isOnSceneOf_tickStay]
    exact RescuerDigitalTwin.isOnSceneOf_iff.mpr ⟨hstatus, hemergency⟩
  obtain ⟨j, hj, hw₁⟩ := leaveScene_spec (tickStay_linked hl) hscene
  generalize leaveScene (tickStay w m.twin) m.twin m.emergency = w₁ at hw₁ ⊢
  have hstay : (tickStay w m.twin).twins m.twin = { w.twins m.twin with
      timeLeftBeforeLeaving := (w.twins m.twin).timeLeftBeforeLeaving - 1 } :=
    World.setTwin_twins_self _ _ _
  obtain ⟨hstatus₁, hrescuer₁, hstands₁, hheading₁⟩ :=
    turn_back (m := m) ((tickStay w m.twin).twins m.twin) (hstay ▸ hstatus)
      (hstay ▸ haimed) (hstay ▸ hstands) (hstay ▸ hrescuer)
  have htwin : w₁.twins m.twin =
      { sendRescuerDigitalTwinBackToBase ((tickStay w m.twin).twins m.twin) with
        emergency := none } := by
    simp [hw₁]
  have hleft : MANHATTAN (w₁.twins m.twin).x (w₁.twins m.twin).y m.rescuer.x m.rescuer.y =
      m.wayBack - (m.departure - m.departure) * m.rescuer.speed := by
    rw [htwin]
    dsimp only
    rw [hstands₁.1, hstands₁.2, sub_self, zero_mul, sub_zero, Mission.wayBack]
  have hle : m.departure ≤ m.homecoming := by
    rw [Mission.homecoming]
    omega
  -- it turns back and walks its first stretch home in the same update
  obtain ⟨twin, arrived, hwalk, hstatus', hafter⟩ :=
    walk_home le_rfl hle (by rw [htwin]; exact hstatus₁) (by rw [htwin])
      (by rw [htwin]; exact hheading₁) (by rw [htwin]; exact hrescuer₁) hleft
  simp only [walkTwin, hwalk]
  have hlog : MissionLog.add m w (w₁.setTwin m.twin twin) ⟨true, 1, 0⟩ = ⟨true, 1, 1⟩ := by
    simp [MissionLog.add, hw₁, tickStay]
  refine .walked _ ⟨fun u hu => ?_, fun e he => ?_, ?_, ?_, ?_⟩ (by simpa [hlog] using hafter)
  · simp [hw₁, hu, tickStay]
  · simp [hw₁, he, tickStay]
  · refine ⟨(w.emergencies m.emergency).rescuersNotArrivedYet,
      (w.emergencies m.emergency).rescuersNotDoneYet - 1,
      (w.emergencies m.emergency).rescuerTwins.set j none, by simp [hw₁, tickStay],
      .inr ⟨j, by simpa [tickStay] using hj, rfl⟩⟩
  · simp [hw₁, tickStay]
  · simp [hw₁, tickStay]

theorem update_onScene {t : TwinId} {e : EmergencyId} (size : MapSize)
    (hstatus : (w.twins t).status = .onScene) (hemergency : (w.twins t).emergency = some e) :
    updateRescuerDigitalTwinState size w t =
      if 1 < (w.twins t).timeLeftBeforeLeaving then .stays (tickStay w t)
      else walkTwin size (leaveScene (tickStay w t) t e) t := by
  unfold updateRescuerDigitalTwinState
  split
  · rename_i hidle
    simp [hstatus] at hidle
  · dsimp only
    by_cases hleft : 1 < (w.twins t).timeLeftBeforeLeaving
    · rw [if_pos (by omega), if_pos hleft]
      rfl
    · rw [if_neg (by omega), if_neg hleft]
      split
      · rename_i hnone
        simp [hemergency] at hnone
      · rename_i e' he'
        obtain rfl : e = e' := by simpa [hemergency] using he'
        rfl
  · rename_i hscene
    exact absurd hstatus hscene

/-- **One update** of a twin on a mission. -/
theorem OnMission.update (h : OnMission m n (w.twins m.twin) log) (hl : WellLinked cfg N w)
    (hrescuer : (w.twins m.twin).rescuer = m.rescuer) (size : MapSize) :
    Updated m (n + 1) w log (updateRescuerDigitalTwinState size w m.twin) := by
  cases h with
  | enRoute hn hstatus hemergency htime hheading hleft =>
      obtain ⟨twin, arrived, hwalk, hstatus', hafter⟩ :=
        walk_toScene hn hstatus hemergency htime hheading hrescuer hleft
      simp only [updateRescuerDigitalTwinState, hstatus]
      exact updated_of_walk size hwalk (by simp [hstatus']) hafter
  | onScene harrival hn hstatus hemergency htime haimed hstands =>
      rw [update_onScene size hstatus hemergency]
      split
      -- the stay goes on, or this is the last tick of it
      · have hleft : n + 1 < m.departure := by
          rw [Mission.departure]
          omega
        refine .stays (.setTwin m w _) ?_
        rw [tickStay, MissionLog.add_setTwin m w _ fun _ => rfl, World.setTwin_twins_self]
        refine .onScene (by omega) hleft hstatus hemergency ?_ haimed hstands
        rw [htime]
        ring
      · have hlast : n + 1 = m.departure := by
          rw [Mission.departure] at hn ⊢
          omega
        rw [hlast]
        exact updated_of_leaving hl size hstatus hemergency haimed hstands hrescuer
  | returning hdeparture hn hstatus hemergency hheading hleft =>
      obtain ⟨twin, arrived, hwalk, hstatus', hafter⟩ :=
        walk_home (n := n + 1) (by omega) (by omega) hstatus hemergency hheading hrescuer
          (by rw [hleft]; ring)
      simp only [updateRescuerDigitalTwinState, hstatus]
      exact updated_of_walk size hwalk (by simp [hstatus']) hafter
  | home hn hstatus hemergency hstands =>
      simp only [updateRescuerDigitalTwinState, hstatus]
      refine .stays (.refl m w) ?_
      rw [MissionLog.add_eq ⟨rfl, rfl⟩ fun _ => rfl]
      exact .home (by omega) hstatus hemergency hstands

/-- **The treatment of an arrival.** -/
theorem Arriving.arrive (h : Arriving m n (w.twins m.twin) log) :
    ∃ w', arriveRescuerDigitalTwin w m.twin = .arrived w' ∧ OwnWork m w w' ∧
      OnMission m n (w'.twins m.twin) (log.add m w w') := by
  cases h with
  | onScene hn hstatus hemergency htime haimed hstands =>
      have hlast : n < m.departure := by
        rw [Mission.departure]
        omega
      refine ⟨arriveOnScene w m.twin m.emergency, ?_,
        ⟨fun u hu => ?_, fun e he => ?_, ?_, rfl, rfl⟩, ?_⟩
      · simp only [arriveRescuerDigitalTwin, hstatus, hemergency]
        simp [arriveOnScene, World.setTwin, World.setEmergency, hemergency]
      · simp [arriveOnScene, hu]
      · simp [arriveOnScene, he]
      · exact ⟨(w.emergencies m.emergency).rescuersNotArrivedYet - 1,
          (w.emergencies m.emergency).rescuersNotDoneYet,
          (w.emergencies m.emergency).rescuerTwins, by simp [arriveOnScene], .inl rfl⟩
      · have hlog : MissionLog.add m w (arriveOnScene w m.twin m.emergency) ⟨false, 0, 0⟩ =
            ⟨true, 1, 0⟩ := by
          simp [MissionLog.add, arriveOnScene]
        have htwin : (arriveOnScene w m.twin m.emergency).twins m.twin = { w.twins m.twin with
            isTravelling := false
            timeLeftBeforeLeaving := (w.twins m.twin).timeToManage
            status := .onScene } := by
          simp [arriveOnScene]
        rw [hlog, htwin]
        refine .onScene hn.ge hlast rfl hemergency ?_ haimed hstands
        rw [htime, hn, sub_self, sub_zero]
  | home hn hstatus hemergency hstands =>
      refine ⟨w.setTwin m.twin { w.twins m.twin with isTravelling := false, status := .idle },
        by simp only [arriveRescuerDigitalTwin, hstatus], .setTwin m w _, ?_⟩
      rw [MissionLog.add_setTwin m w _ fun _ => rfl, World.setTwin_twins_self]
      exact .home hn.ge rfl hemergency hstands

end update

end EmergencyDispatch
