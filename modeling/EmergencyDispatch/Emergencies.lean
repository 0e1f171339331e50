import EmergencyDispatch.Search

/-!
# The life of an emergency

`mallocate_emergency` of the receiver, and what the updater does at every tick
to the emergencies: those in the slots of the workers, with the system locked,
and those waiting in `emergency_queue`.
-/

namespace EmergencyDispatch

variable (table : List PriorityRule)

/-- `mallocate_emergency`, `tick` being the current tick count; `none` when the
name of the request is the name of no type, whose `NULL` would be dereferenced. -/
def mallocateEmergency (types : List EmergencyType) (request : EmergencyRequest) (tick : ℕ) :
    Option Emergency :=
  (getEmergencyTypeByName request.emergencyName types).map fun type =>
    { type := type
      priority := type.priority
      status := .waiting
      x := request.x
      y := request.y
      tickTime := tick
      rescuerCount := totalCount type.rescuers
      rescuersMissing := type.rescuers
      rescuerTwins := List.replicate (totalCount type.rescuers) none
      rescuersNotArrivedYet := totalCount type.rescuers
      rescuersNotDoneYet := totalCount type.rescuers
      timeoutTimer := priorityToTimeoutTimer table type.priority
      promotionTimer := priorityToPromotionTimer table type.priority
      howManyTimesWasPaused := 0
      howManyTimesWasPromoted := 0 }

/-- `promote_emergency_logging_blocked`. -/
def promoteEmergency (e : Emergency) : Emergency :=
  let priority := getNextPriority table e.priority
  { e with
    priority := priority
    timeoutTimer := priorityToTimeoutTimer table priority
    promotionTimer := priorityToPromotionTimer table priority
    howManyTimesWasPromoted := e.howManyTimesWasPromoted + 1 }

/-- `update_active_emergency_state_logging_blocked`; the flag says whether it
signals the condition variable of the emergency. -/
def updateActiveEmergencyState (e : Emergency) : Emergency × Bool :=
  if e.promotionTimer ≠ NO_PROMOTION then
    let e' := { e with promotionTimer := e.promotionTimer - 1 }
    if e.promotionTimer ≤ 0 then (promoteEmergency table e', false) else (e', false)
  else if e.status = .paused then ({ e with timeoutTimer := e.timeoutTimer - 1 }, false)
  else if e.rescuersNotDoneYet ≤ 0 then ({ e with status := .completed }, true)
  else if e.rescuersNotArrivedYet ≤ 0 ∧ e.status = .assigned then
    ({ e with status := .inProgress }, false)
  else (e, false)

/-- `update_waiting_emergency_state`. -/
def updateWaitingEmergencyState (e : Emergency) : Emergency :=
  { e with
    promotionTimer :=
      if e.promotionTimer ≠ NO_PROMOTION then e.promotionTimer - 1 else e.promotionTimer
    timeoutTimer := if e.timeoutTimer ≠ NO_TIMEOUT then e.timeoutTimer - 1 else e.timeoutTimer }

/-- `emergency_has_expired`. -/
def emergencyHasExpired (e : Emergency) : Bool :=
  e.timeoutTimer != NO_TIMEOUT && e.timeoutTimer ≤ 0

/-- `emergency_is_to_promote`. -/
def emergencyIsToPromote (e : Emergency) : Bool :=
  e.promotionTimer != NO_PROMOTION && e.promotionTimer ≤ 0

end EmergencyDispatch
