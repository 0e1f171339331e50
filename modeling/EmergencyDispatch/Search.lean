import EmergencyDispatch.Twins

/-!
# The search of rescuers (`thread_worker.c`)

`find_rescuers_logging_blocking` and what it calls, run by a worker with the
system locked: the choice of the best twin, the selection of the candidates,
the preemption of the emergencies they are taken from and the dispatch.
-/

namespace EmergencyDispatch

variable (table : List PriorityRule)

/-- `estimated_arrival_time`, with the integer division of C. -/
def estimatedArrivalTime (e : Emergency) (t : RescuerDigitalTwin) : ℤ :=
  (MANHATTAN e.x e.y t.x t.y).tdiv t.rescuer.speed

/-- `is_preemptable_or_available`. -/
def isPreemptableOrAvailable (w : World) (t : RescuerDigitalTwin) (priority : ℤ) : Bool :=
  match t.status with
  | .idle => true
  | .returningToBase => false
  | _ =>
      match t.emergency with
      | none => true
      | some old => comparePriorities table (w.emergencies old).priority priority < 0

/-- `compare_twins`: positive when `a` is preferable to `b`. -/
def compareTwins (w : World) (e : Emergency) (a b : RescuerDigitalTwin) : ℤ :=
  if (a.status == .idle) != (b.status == .idle) then
    if a.status == .idle then 1 else -1
  else
    let comp : ℤ :=
      match a.emergency, b.emergency with
      | some ea, some eb =>
          comparePriorities table (w.emergencies ea).priority (w.emergencies eb).priority
      | _, _ => 0
    if comp ≠ 0 then if comp < 0 then 1 else -1
    else
      let ta := estimatedArrivalTime e a
      let tb := estimatedArrivalTime e b
      if ta ≠ tb then tb - ta
      else if a.status = .enRouteToScene ∧ b.status = .onScene then 1
      else if b.status = .enRouteToScene ∧ a.status = .onScene then -1
      else 0

/-- The twin can be taken for `e`, whether or not it is already a candidate: the
tests of `find_best_twin_blocked` on the status, the emergency and the distance. -/
def eligible (w : World) (e : EmergencyId) (t : RescuerDigitalTwin) : Bool :=
  isPreemptableOrAvailable table w t (w.emergencies e).priority &&
  (t.emergency != some e) &&
  !((w.emergencies e).timeoutTimer != NO_TIMEOUT &&
    estimatedArrivalTime (w.emergencies e) t > (w.emergencies e).timeoutTimer)

/-- One pass of the loop of `find_best_twin_blocked`. -/
def betterTwin (w : World) (e : EmergencyId) (bestSoFar : Option TwinId) (t : TwinId) :
    Option TwinId :=
  if (w.twins t).isACandidate then bestSoFar
  else if !eligible table w e (w.twins t) then bestSoFar
  else
    match bestSoFar with
    | none => some t
    | some best =>
        if compareTwins table w (w.emergencies e) (w.twins best) (w.twins t) < 0 then some t
        else some best

/-- `find_best_twin_blocked`. -/
def findBestTwinBlocked (w : World) (e : EmergencyId) (r : RescuerType) : Option TwinId :=
  r.twins.foldl (betterTwin table w e) none

/-- Write `is_a_candidate`. -/
def setCandidate (value : Bool) (w : World) (t : TwinId) : World :=
  w.setTwin t { w.twins t with isACandidate := value }

/-- The variables of the selection loops: the world with its marks, the array
`candidates` and the flag `found`. -/
structure Selection where
  world : World
  candidates : List TwinId
  found : Bool

/-- The inner loop of the selection: `count` twins of type `r`. -/
def selectUnits (e : EmergencyId) (r : RescuerType) : ℕ → World → List TwinId → Selection
  | 0, w, candidates => ⟨w, candidates, true⟩
  | count + 1, w, candidates =>
      match findBestTwinBlocked table w e r with
      | none => ⟨w, candidates, false⟩
      | some t => selectUnits e r count (setCandidate true w t) (candidates ++ [t])

/-- The outer loop of the selection, over the missing requests. -/
def selectRequests (e : EmergencyId) : List RescuerRequest → World → List TwinId → Selection
  | [], w, candidates => ⟨w, candidates, true⟩
  | request :: requests, w, candidates =>
      let units := selectUnits table e request.type request.requiredCount w candidates
      if units.found then selectRequests e requests units.world units.candidates
      else units

/-- The selection of `find_rescuers_logging_blocking`, with the marks taken away
again by the loop that follows it. -/
def selectCandidates (w : World) (e : EmergencyId) : Selection :=
  let selection := selectRequests table e (w.emergencies e).rescuersMissing w []
  { selection with world := selection.candidates.foldl (setCandidate false) selection.world }

/-- The sum of the counts of a list of requests. -/
def totalCount (requests : List RescuerRequest) : ℕ := (requests.map (·.requiredCount)).sum

/-- Add one to the count of the first request of that rescuer type, by name;
`none` when there is no such request. -/
def incrementRequest (name : CString) : List RescuerRequest → Option (List RescuerRequest)
  | [] => none
  | request :: requests =>
      if request.type.rescuerTypeName == name then
        some ({ request with requiredCount := request.requiredCount + 1 } :: requests)
      else (incrementRequest name requests).map (request :: ·)

/-- `preempt_if_needed_blocked`: the twin is taken from its old emergency, which
is paused. -/
def preemptIfNeededBlocked (w : World) (t : TwinId) : Except Fault World :=
  match (w.twins t).status, (w.twins t).emergency with
  | .idle, _ => .ok w
  | _, none => .ok w
  | status, some old =>
      match incrementRequest (w.twins t).rescuer.rescuerTypeName
          (w.emergencies old).rescuersMissing with
      | none => .error .nullPointer
      | some missing =>
          let w := w.setEmergency old { w.emergencies old with rescuersMissing := missing }
          let w :=
            if status = .onScene then
              w.setEmergency old { w.emergencies old with
                rescuersNotArrivedYet := (w.emergencies old).rescuersNotArrivedYet + 1 }
            else w
          let w := removeTwinFromItsEmergency w t
          if (w.emergencies old).status ≠ .paused then
            .ok { w.setEmergency old { w.emergencies old with
                howManyTimesWasPaused := (w.emergencies old).howManyTimesWasPaused + 1
                status := .paused } with
              signals := w.signals ++ [old] }
          else .ok w

/-- `send_rescuer_digital_twin_to_scene_logging_blocked`. -/
def sendRescuerDigitalTwinToScene (w : World) (t : TwinId) (e : EmergencyId) :
    Except Fault World :=
  let twin := w.twins t
  let request :=
    getRescuerRequestByName twin.rescuer.rescuerTypeName (w.emergencies e).type.rescuers
  let depart : Except Fault World :=
    match request with
    | none => .error .nullPointer
    | some request =>
        .ok (w.setTwin t (changeRescuerDigitalTwinDestinationBlocked
          { twin with
            status := .enRouteToScene
            emergency := some e
            timeToManage := request.timeToManage
            timeLeftBeforeLeaving := request.timeToManage }
          (w.emergencies e).x (w.emergencies e).y))
  match twin.status, twin.emergency with
  | .onScene, none => .error .nullPointer
  | .enRouteToScene, none => .error .nullPointer
  -- already bound to this scene: nothing to do
  | .onScene, some old => if old = e then .ok w else depart
  | .enRouteToScene, some old => if old = e then .ok w else depart
  | _, _ => depart

/-- The body of the assignment loop for an empty slot `i` and the candidate `t`. -/
def dispatchTwin (w : World) (e : EmergencyId) (i : ℕ) (t : TwinId) : Except Fault World := do
  let w ← preemptIfNeededBlocked w t
  let w := w.setEmergency e { w.emergencies e with
    rescuerTwins := (w.emergencies e).rescuerTwins.set i (some t) }
  sendRescuerDigitalTwinToScene w t e

/-- The assignment loop over the slots; the second list is what is left of
`candidates` from the index `k` on. -/
def assignCandidates (e : EmergencyId) : List ℕ → List TwinId → World → Except Fault World
  | [], _, w => .ok w
  | i :: slots, candidates, w =>
      match (w.emergencies e).rescuerTwins[i]? with
      | some none =>
          match candidates with
          | [] => .error .candidatesOutOfRange
          | t :: candidates => do
              let w ← dispatchTwin w e i t
              assignCandidates e slots candidates w
      | _ => assignCandidates e slots candidates w

/-- The loop that ends a successful search: nothing is missing any more. -/
def clearMissing (w : World) (e : EmergencyId) : World :=
  w.setEmergency e { w.emergencies e with
    rescuersMissing := (w.emergencies e).rescuersMissing.map fun request =>
      { request with requiredCount := 0 } }

/-- `find_rescuers_logging_blocking`: the world it leaves and its answer. -/
def findRescuersLoggingBlocking (w : World) (e : EmergencyId) : Except Fault (World × Bool) :=
  if totalCount (w.emergencies e).rescuersMissing = 0 then .ok (w, true)
  else
    let selection := selectCandidates table w e
    if selection.found then do
      let w ← assignCandidates e (List.range (w.emergencies e).rescuerCount)
        selection.candidates selection.world
      .ok (clearMissing w e, true)
    else .ok (selection.world, false)

end EmergencyDispatch
