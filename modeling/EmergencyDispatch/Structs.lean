import EmergencyDispatch.Bresenham
import Mathlib.Data.List.Nodup
import Mathlib.Logic.Function.Basic

/-!
# The data of the server (`structs.h`)

A C string is the list of its characters up to the terminator.  Rescuer types
and emergency types never change after parsing, so the pointers to them are
replaced by the structures themselves.  Twins and emergencies do change and
point to each other: a twin is named by its `id`, unique because
`rescuer_digital_twins_total_count` numbers the twins as they are allocated,
and an emergency by its `id`, unique because `ctx->emergencies->count++` numbers
the accepted requests; `World` maps the names to the structures.
-/

namespace EmergencyDispatch

/-- A C string without its terminator. -/
abbrev CString := List Char

/-- The name of a rescuer digital twin: its field `id`. -/
abbrev TwinId := ℕ

/-- The name of an emergency: its field `id`. -/
abbrev EmergencyId := ℕ

/-- The timer value that stands for "this priority has no timeout". -/
def NO_TIMEOUT : ℤ := -10

/-- The timer value that stands for "this priority has no promotion". -/
def NO_PROMOTION : ℤ := -10

def INVALID_TIME : ℤ := -1

def MIN_RESCUER_SPEED : ℤ := 1

def MAX_RESCUER_SPEED : ℤ := 100

def WORKER_THREADS_NUMBER : ℕ := 10

instance : NeZero WORKER_THREADS_NUMBER := ⟨by decide⟩

/-- A worker thread, named by the index of its slot. -/
abbrev Worker := Fin WORKER_THREADS_NUMBER

/-- `priority_rule_t`: one row of the table of priorities. -/
structure PriorityRule where
  number : ℤ
  timeBeforePromotion : ℤ
  timeBeforeTimeout : ℤ
  deriving DecidableEq

/-- `rescuer_status_t`. -/
inductive RescuerStatus
  | idle
  | enRouteToScene
  | onScene
  | returningToBase
  deriving DecidableEq

/-- `emergency_status_t`. -/
inductive EmergencyStatus
  | waiting
  | assigned
  | askingForRescuers
  | waitingForRescuers
  | inProgress
  | paused
  | completed
  | canceled
  | timeout
  deriving DecidableEq, Inhabited

/-- `rescuer_type_t`: its base is at `(x, y)` and `twins` are the units it has. -/
structure RescuerType where
  rescuerTypeName : CString
  amount : ℕ
  speed : ℤ
  x : ℤ
  y : ℤ
  twins : List TwinId
  deriving DecidableEq, Inhabited

/-- `rescuer_request_t`. -/
structure RescuerRequest where
  type : RescuerType
  requiredCount : ℕ
  timeToManage : ℤ
  deriving DecidableEq

/-- `emergency_type_t`; `rescuers_req_number` is the length of `rescuers`. -/
structure EmergencyType where
  priority : ℤ
  emergencyDesc : CString
  rescuers : List RescuerRequest
  deriving DecidableEq, Inhabited

/-- `struct rescuer_digital_twin`.  The trajectory is allocated without being
initialised: `trajectoryInitialised` records whether a destination was ever
written into it, and no code reads that field. -/
structure RescuerDigitalTwin where
  x : ℤ
  y : ℤ
  rescuer : RescuerType
  status : RescuerStatus
  trajectory : BresenhamTrajectory
  trajectoryInitialised : Bool
  emergency : Option EmergencyId
  isTravelling : Bool
  hasArrived : Bool
  timeToManage : ℤ
  timeLeftBeforeLeaving : ℤ
  isACandidate : Bool

/-- `struct emergency`; a slot of `rescuerTwins` is `none` for `NULL`. -/
structure Emergency where
  type : EmergencyType
  priority : ℤ
  status : EmergencyStatus
  x : ℤ
  y : ℤ
  tickTime : ℕ
  rescuerCount : ℕ
  rescuersMissing : List RescuerRequest
  rescuerTwins : List (Option TwinId)
  rescuersNotArrivedYet : ℤ
  rescuersNotDoneYet : ℤ
  timeoutTimer : ℤ
  promotionTimer : ℤ
  howManyTimesWasPaused : ℕ
  howManyTimesWasPromoted : ℕ
  deriving Inhabited

/-- A finished stay: a twin of type `rescuer` that stayed on the scene of
`emergency` until its time was over. -/
structure Stay where
  rescuer : RescuerType
  emergency : EmergencyId
  deriving DecidableEq

/-- What the two mutexes of `lock_system` protect: the twins, the emergencies
and the slots of `active_emergencies`.  `finished` is the history of the stays
that ended, which no code reads; `signals` are the emergencies whose condition
variable the current section has signalled. -/
structure World where
  twins : TwinId → RescuerDigitalTwin
  emergencies : EmergencyId → Emergency
  active : Worker → Option EmergencyId
  finished : List Stay
  signals : List EmergencyId

/-- What makes the program undefined. -/
inductive Fault
  /-- `candidates[k]` is read with `k >= missing_count`. -/
  | candidatesOutOfRange
  /-- A `NULL` pointer is dereferenced. -/
  | nullPointer
  deriving DecidableEq

namespace RescuerDigitalTwin

/-- The twin is bound to `e`, on its way to the scene or on it. -/
def serves (t : RescuerDigitalTwin) (e : EmergencyId) : Bool :=
  t.emergency == some e && (t.status == .enRouteToScene || t.status == .onScene)

theorem serves_iff {t : RescuerDigitalTwin} {e : EmergencyId} :
    t.serves e = true ↔
      t.emergency = some e ∧ (t.status = .enRouteToScene ∨ t.status = .onScene) := by
  simp [serves]

end RescuerDigitalTwin

namespace World

/-- Overwrite a twin. -/
def setTwin (w : World) (t : TwinId) (twin : RescuerDigitalTwin) : World :=
  { w with twins := Function.update w.twins t twin }

/-- Overwrite an emergency. -/
def setEmergency (w : World) (e : EmergencyId) (emergency : Emergency) : World :=
  { w with emergencies := Function.update w.emergencies e emergency }

/-- Overwrite the slot of a worker. -/
def setActive (w : World) (i : Worker) (slot : Option EmergencyId) : World :=
  { w with active := Function.update w.active i slot }

variable (w : World) (t : TwinId) (twin : RescuerDigitalTwin) (e : EmergencyId)
  (emergency : Emergency) (i : Worker) (slot : Option EmergencyId)

@[simp] theorem setTwin_twins_self : (w.setTwin t twin).twins t = twin := by simp [setTwin]

@[simp] theorem setTwin_twins_of_ne {u : TwinId} (h : u ≠ t) :
    (w.setTwin t twin).twins u = w.twins u := by simp [setTwin, h]

@[simp] theorem setTwin_emergencies : (w.setTwin t twin).emergencies = w.emergencies := rfl

@[simp] theorem setTwin_active : (w.setTwin t twin).active = w.active := rfl

@[simp] theorem setTwin_finished : (w.setTwin t twin).finished = w.finished := rfl

@[simp] theorem setTwin_signals : (w.setTwin t twin).signals = w.signals := rfl

@[simp] theorem setEmergency_self : (w.setEmergency e emergency).emergencies e = emergency := by
  simp [setEmergency]

@[simp] theorem setEmergency_of_ne {u : EmergencyId} (h : u ≠ e) :
    (w.setEmergency e emergency).emergencies u = w.emergencies u := by simp [setEmergency, h]

@[simp] theorem setEmergency_twins : (w.setEmergency e emergency).twins = w.twins := rfl

@[simp] theorem setEmergency_active : (w.setEmergency e emergency).active = w.active := rfl

@[simp] theorem setEmergency_finished :
    (w.setEmergency e emergency).finished = w.finished := rfl

@[simp] theorem setEmergency_signals :
    (w.setEmergency e emergency).signals = w.signals := rfl

@[simp] theorem setActive_twins : (w.setActive i slot).twins = w.twins := rfl

@[simp] theorem setActive_emergencies : (w.setActive i slot).emergencies = w.emergencies := rfl

@[simp] theorem setActive_finished : (w.setActive i slot).finished = w.finished := rfl

@[simp] theorem setActive_self : (w.setActive i slot).active i = slot := by simp [setActive]

@[simp] theorem setActive_of_ne {j : Worker} (h : j ≠ i) :
    (w.setActive i slot).active j = w.active j := by simp [setActive, h]

end World

end EmergencyDispatch
