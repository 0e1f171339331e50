import EmergencyDispatch.Parsers.EmergencyRequest
import EmergencyDispatch.Priorities

/-!
# The life of a rescuer digital twin

`server_helpers.c` (destination, release of a slot) and the part of
`thread_updater.c` that the updater runs for every twin at every tick, with the
system locked.
-/

namespace EmergencyDispatch

/-- `environment_t` without the name of the queue. -/
structure MapSize where
  width : ℤ
  height : ℤ
  deriving DecidableEq

/-- `change_rescuer_digital_twin_destination_blocked`: a twin that stands on the
new destination keeps the trajectory it has. -/
def changeRescuerDigitalTwinDestinationBlocked (t : RescuerDigitalTwin) (newX newY : ℤ) :
    RescuerDigitalTwin :=
  if t.x = newX ∧ t.y = newY then { t with hasArrived := true }
  else
    { t with
      hasArrived := false
      timeLeftBeforeLeaving := INVALID_TIME
      trajectory := changeBresenhamTrajectory t.x t.y newX newY
      trajectoryInitialised := true }

/-- `get_twin_index_by_id`: the first slot that holds the twin. -/
def getTwinIndexById (t : TwinId) (slots : List (Option TwinId)) : Option ℕ :=
  slots.findIdx? fun slot => slot == some t

/-- `remove_twin_from_its_emergency`: the slot becomes `NULL`, the twin keeps
its pointer. -/
def removeTwinFromItsEmergency (w : World) (t : TwinId) : World :=
  match (w.twins t).emergency with
  | none => w
  | some e =>
      match getTwinIndexById t (w.emergencies e).rescuerTwins with
      | none => w
      | some i =>
          w.setEmergency e { w.emergencies e with
            rescuerTwins := (w.emergencies e).rescuerTwins.set i none }

/-- `send_rescuer_digital_twin_back_to_base_logging_blocked`. -/
def sendRescuerDigitalTwinBackToBase (t : RescuerDigitalTwin) : RescuerDigitalTwin :=
  match t.status with
  | .idle => t
  | .returningToBase => t
  | _ =>
      changeRescuerDigitalTwinDestinationBlocked
        { t with
          status := .returningToBase
          timeToManage := INVALID_TIME
          timeLeftBeforeLeaving := INVALID_TIME }
        t.rescuer.x t.rescuer.y

/-- The step of `update_rescuer_digital_twin_state_logging_blocked`: the twin
walks one tick along its trajectory.  The flag says whether the walker reports
that it has arrived; `none` when the walker never returns. -/
def walkOneTick (t : RescuerDigitalTwin) : Option (RescuerDigitalTwin × Bool) :=
  (computeBresenhamStep t.x t.y t.trajectory t.rescuer.speed).map fun step =>
    ({ t with
      isTravelling := true
      x := t.x + step.xStep
      y := t.y + step.yStep
      trajectory := step.trajectory }, step.arrived)

/-- The test that ends in "uscito dalla mappa". -/
def outOfMap (size : MapSize) (t : RescuerDigitalTwin) : Bool :=
  t.x < MIN_X_COORDINATE_ABSOLUTE_VALUE || size.width ≤ t.x ||
    t.y < MIN_Y_COORDINATE_ABSOLUTE_VALUE || size.height ≤ t.y

/-- What one call of `update_rescuer_digital_twin_state_logging_blocked` does
before it looks at the arrival. -/
inductive TwinUpdate
  /-- The twin does not walk in this tick. -/
  | stays (w : World)
  /-- The twin has walked; `outside` is the fatal test, `arrived` the answer of
  the walker. -/
  | walked (w : World) (outside arrived : Bool)
  /-- The walker loops for ever. -/
  | diverges
  /-- A `NULL` emergency is dereferenced. -/
  | faults

/-- The walk of a twin inside the world. -/
def walkTwin (size : MapSize) (w : World) (t : TwinId) : TwinUpdate :=
  match walkOneTick (w.twins t) with
  | none => .diverges
  | some (twin, arrived) => .walked (w.setTwin t twin) (outOfMap size twin) arrived

/-- The end of a stay: the twin leaves its slot and is sent back to base. -/
def leaveScene (w : World) (t : TwinId) (e : EmergencyId) : World :=
  let w := w.setEmergency e { w.emergencies e with
    rescuersNotDoneYet := (w.emergencies e).rescuersNotDoneYet - 1 }
  let w := removeTwinFromItsEmergency w t
  let w := w.setTwin t
    { sendRescuerDigitalTwinBackToBase (w.twins t) with emergency := none }
  { w with finished := w.finished ++ [⟨(w.twins t).rescuer, e⟩] }

/-- `update_rescuer_digital_twin_state_logging_blocked`, up to the test of
`we_have_arrived`. -/
def updateRescuerDigitalTwinState (size : MapSize) (w : World) (t : TwinId) : TwinUpdate :=
  match (w.twins t).status with
  | .idle => .stays w
  | .onScene =>
      let left := (w.twins t).timeLeftBeforeLeaving - 1
      let w := w.setTwin t { w.twins t with timeLeftBeforeLeaving := left }
      if 0 < left then .stays w
      else
        match (w.twins t).emergency with
        | none => .faults
        | some e => walkTwin size (leaveScene w t e) t
  | _ => walkTwin size w t

/-- What the arrival of a twin does. -/
inductive Arrival
  | arrived (w : World)
  /-- The status is neither of the two that walk: "spostamento rescuer dt". -/
  | fatal (w : World)
  /-- A `NULL` emergency is dereferenced. -/
  | faults

/-- The end of `update_rescuer_digital_twin_state_logging_blocked`, for a twin
that has arrived. -/
def arriveRescuerDigitalTwin (w : World) (t : TwinId) : Arrival :=
  let twin := { w.twins t with isTravelling := false }
  match twin.status with
  | .enRouteToScene =>
      match twin.emergency with
      | none => .faults
      | some e =>
          let w := w.setTwin t { twin with
            timeLeftBeforeLeaving := twin.timeToManage
            status := .onScene }
          .arrived (w.setEmergency e { w.emergencies e with
            rescuersNotArrivedYet := (w.emergencies e).rescuersNotArrivedYet - 1 })
  | .returningToBase => .arrived (w.setTwin t { twin with status := .idle })
  | _ => .fatal (w.setTwin t twin)

end EmergencyDispatch
