import EmergencyDispatch.Emergencies
import EmergencyDispatch.PriorityQueue
import EmergencyDispatch.Library.TransitionSystem

/-!
# The threads of the server

The server as a transition system: the clock, the updater, the receiver, the
workers, the main thread that shuts everything down, and the clients.  One step
of a thread is one section protected by mutexes, one read or write of
`server_must_stop`, or one read of a status outside any section; what a thread
does between two such steps is its own affair.

The updater's section is the exception: while it holds the system it goes
through its list of operations one step at a time (`UpdateOp`), because the
fatal branch in the middle of it calls `request_shutdown_from_thread`, which
asks for the mutex of the emergencies again.  `State.systemFree` says that the
updater is not inside that section; every other section that needs the
emergencies waits for it.
-/

namespace EmergencyDispatch

/-! ## Configuration -/

/-- What the parsers leave in the context, with what they guarantee about it:
rescuer types have different names and legal speeds, twins have different ids,
and the requests of an emergency type are for rescuer types that exist.  `mallocated` is the
indeterminate content of the trajectories as `malloc` returns them. -/
structure Config where
  size : MapSize
  rescuers : List RescuerType
  emergencies : List EmergencyType
  priorityLookupTable : List PriorityRule
  mallocated : TwinId → BresenhamTrajectory
  names_nodup : (rescuers.map (·.rescuerTypeName)).Nodup
  speeds : ∀ r ∈ rescuers, MIN_RESCUER_SPEED ≤ r.speed ∧ r.speed ≤ MAX_RESCUER_SPEED
  twins_nodup : (rescuers.flatMap (·.twins)).Nodup
  requests_mem : ∀ type ∈ emergencies, ∀ request ∈ type.rescuers, request.type ∈ rescuers
  priorityLookupTable_ne_nil : priorityLookupTable ≠ []

/-- All twins, in the order in which the updater visits them. -/
def Config.twinIds (cfg : Config) : List TwinId := cfg.rescuers.flatMap (·.twins)

/-- The rescuer type that owns a twin. -/
def Config.rescuerOf (cfg : Config) (t : TwinId) : RescuerType :=
  (cfg.rescuers.find? fun r => r.twins.contains t).getD default

/-- `mallocate_rescuer_digital_twin`, the trajectory being whatever the memory held. -/
def mallocateRescuerDigitalTwin (r : RescuerType) (mallocated : BresenhamTrajectory) :
    RescuerDigitalTwin where
  x := r.x
  y := r.y
  rescuer := r
  status := .idle
  trajectory := mallocated
  trajectoryInitialised := false
  emergency := none
  isTravelling := false
  hasArrived := false
  timeToManage := INVALID_TIME
  timeLeftBeforeLeaving := INVALID_TIME
  isACandidate := false

/-! ## Program counters -/

/-- Why a worker calls `change_status_store_close_logging_blocking`. -/
inductive StoreReason
  /-- Line 63: the search has failed. -/
  | searchFailed
  /-- Line 79, with the status read for the argument. -/
  | completed (news : EmergencyStatus)
  /-- Line 80, with the status read for the argument. -/
  | canceled (news : EmergencyStatus)
  /-- Line 86: the server is stopping. -/
  | stopping
  deriving DecidableEq

/-- Where a worker is in `thread_worker`. -/
inductive WorkerPc
  /-- Line 54: about to read `server_must_stop`. -/
  | loop
  /-- In `pq_pop`. -/
  | pop
  /-- Blocked in `pq_pop` on `not_empty`. -/
  | popWait
  /-- In `open_slot`. -/
  | popped (e : EmergencyId)
  /-- Line 61: about to read `server_must_stop`. -/
  | inner (e : EmergencyId)
  /-- In `find_rescuers_logging_blocking`. -/
  | find (e : EmergencyId)
  /-- Lines 68 to 74: about to take the mutex and test the predicate. -/
  | wait (e : EmergencyId)
  /-- Blocked on `e->cond`. -/
  | blocked (e : EmergencyId)
  /-- Line 77: about to read `server_must_stop`. -/
  | woken (e : EmergencyId)
  /-- Line 78. -/
  | testPaused (e : EmergencyId)
  /-- Line 79. -/
  | testCompleted (e : EmergencyId)
  /-- Line 80. -/
  | testCanceled (e : EmergencyId)
  /-- In `change_status_store_close_logging_blocking`. -/
  | store (e : EmergencyId) (reason : StoreReason)
  /-- Line 85: about to read `server_must_stop`. -/
  | ended (e : EmergencyId)
  /-- In `close_slot`; the flag says whether the thread exits after it. -/
  | closing (leaving : Bool)
  | exited
  deriving DecidableEq

/-- What `request_shutdown_from_thread` and the main thread do to stop the server. -/
inductive ShutdownOp
  /-- `log_error_and_exit(request_shutdown_from_thread, ..)`: `atomic_exchange(&exited, true)`. -/
  | request
  /-- `atomic_store(&ctx->server_must_stop, true)`. -/
  | raise
  /-- `pq_close(ctx->emergency_queue)`. -/
  | close
  /-- `cnd_broadcast(&ctx->clock->updated)`. -/
  | updated
  /-- Lock the emergencies, wake the worker of each slot, unlock. -/
  | wake
  /-- `mq_send` of `MQ_STOP_MESSAGE`. -/
  | send
  deriving DecidableEq

/-- What the updater still has to do in its section. -/
inductive UpdateOp
  /-- `update_rescuer_digital_twin_state_logging_blocked`. -/
  | twin (t : TwinId)
  /-- The end of that function, after its fatal test. -/
  | arrive (t : TwinId)
  /-- `update_active_emergency_state_logging_blocked` on a slot. -/
  | slot (i : Worker)
  /-- The fatal branches, run with the system locked. -/
  | shutdown (op : ShutdownOp)
  deriving DecidableEq

/-- Where the updater is in `thread_updater`. -/
inductive UpdaterPc
  /-- Line 14: about to read `server_must_stop`. -/
  | loop
  /-- Lines 15 to 23: about to take the mutex of the clock. -/
  | takeTick
  /-- Blocked on `updated`. -/
  | tickWait
  /-- Line 25: about to read the tick count. -/
  | readCount
  /-- Line 28: about to lock the system. -/
  | begin (cycle : ℕ)
  /-- Between `lock_system` and `unlock_system`. -/
  | updating (todo : List UpdateOp)
  /-- In a walk that never ends, with the system locked. -/
  | diverged
  /-- In `update_waiting_emergencies_states`. -/
  | mapWaiting
  /-- In the `pq_extract_first` of `remove_expired_waiting_emergencies_logging`. -/
  | expire
  | expired (e : EmergencyId)
  /-- In the `pq_extract_first` of `promote_needing_waiting_emergencies`. -/
  | promote
  | promoted (e : EmergencyId)
  | exited
  deriving DecidableEq

/-- Where the receiver is in `thread_reciever`. -/
inductive ReceiverPc
  | loop
  | receive
  | push (e : EmergencyId)
  | exited
  deriving DecidableEq

/-- Where the clock is in `thread_clock`. -/
inductive ClockPc
  | loop
  | tick
  | lastTick
  | exited
  deriving DecidableEq

/-- Where the main thread is, from `start_threads` on. -/
inductive MainPc
  | start
  | sigwait
  | shutdown (todo : List ShutdownOp)
  | join
  | closeServer
  | closed
  deriving DecidableEq

/-- The emergency of the round a worker is in. -/
def WorkerPc.emergency : WorkerPc → Option EmergencyId
  | .popped e | .inner e | .find e | .wait e | .blocked e | .woken e | .testPaused e
  | .testCompleted e | .testCanceled e | .store e _ | .ended e => some e
  | _ => none

/-- The status written by the store. -/
def StoreReason.news : StoreReason → EmergencyStatus
  | .searchFailed => .timeout
  | .completed news | .canceled news => news
  | .stopping => .canceled

/-- Where the worker goes on after the store. -/
def StoreReason.next (e : EmergencyId) : StoreReason → WorkerPc
  | .searchFailed | .canceled _ => .ended e
  | .completed _ => .testCanceled e
  | .stopping => .closing true

/-- Whether the store goes to `completed_emergencies`; otherwise it goes to
`canceled_emergencies`. -/
def StoreReason.toCompleted : StoreReason → Bool
  | .completed _ => true
  | _ => false

/-! ## States -/

/-- `MQ_STOP_MESSAGE`. -/
def MQ_STOP_MESSAGE : CString := ['-', 's', 't', 'o', 'p']

/-- `mq_maxmsg` of the queue of requests. -/
def MQ_MAXMSG : ℕ := 10

/-- The state of the server.  `popped` and `updates` are histories, which no
code reads: the emergencies each worker has popped and the numbers of the
updates performed, oldest first. -/
structure State where
  world : World
  emergencyQueue : Pq
  completedEmergencies : Pq
  canceledEmergencies : Pq
  nextId : EmergencyId
  count : ℕ
  validCount : ℕ
  tick : Bool
  tickCountSinceStart : ℕ
  serverMustStop : Bool
  exited : Bool
  mq : List CString
  /-- How many threads `start_threads` has created: clock, updater, receiver, workers. -/
  started : ℕ
  clock : ClockPc
  updater : UpdaterPc
  receiver : ReceiverPc
  worker : Worker → WorkerPc
  main : MainPc
  popped : List (Worker × EmergencyId)
  updates : List ℕ
  fault : Option Fault

/-- A step of the server: who runs, and what the environment chooses.  `woken`
is the worker that `cnd_signal(&q->not_empty)` wakes, if any is blocked there. -/
inductive Action
  | clock
  | updater (woken : Option Worker)
  | receiver (woken : Option Worker)
  | worker (i : Worker)
  /-- The main thread; in `start_threads` the flag is the success of `thrd_create`. -/
  | main (ok : Bool)
  /-- A client sends a message. -/
  | client (message : CString)
  /-- A spurious wake-up of a worker. -/
  | wakeWorker (i : Worker)
  /-- A spurious wake-up of the updater. -/
  | wakeUpdater

/-- The world before the first request. -/
def initialWorld (cfg : Config) : World where
  twins t := mallocateRescuerDigitalTwin (cfg.rescuerOf t) (cfg.mallocated t)
  emergencies _ := default
  active _ := none
  finished := []
  signals := []

/-- The state in which `main` calls `start_threads`. -/
def initialState (cfg : Config) : State where
  world := initialWorld cfg
  emergencyQueue := Pq.create cfg.priorityLookupTable.length
  completedEmergencies := Pq.create cfg.priorityLookupTable.length
  canceledEmergencies := Pq.create cfg.priorityLookupTable.length
  nextId := cfg.emergencies.length
  count := 0
  validCount := 0
  tick := false
  tickCountSinceStart := 0
  serverMustStop := false
  exited := false
  mq := []
  started := 0
  clock := .loop
  updater := .loop
  receiver := .loop
  worker _ := .loop
  main := .start
  popped := []
  updates := []
  fault := none

namespace State

/-- The updater does not hold the system. -/
def systemFree (s : State) : Bool :=
  match s.updater with
  | .updating _ | .diverged => false
  | _ => true

/-- Move a worker to another point of its program. -/
def setWorker (s : State) (i : Worker) (pc : WorkerPc) : State :=
  { s with worker := Function.update s.worker i pc }

/-- The program stops being defined. -/
def crash (s : State) (fault : Fault) : State := { s with fault := some fault }

/-- The level at which an emergency is pushed. -/
def levelOf (cfg : Config) (s : State) (e : EmergencyId) : ℤ :=
  priorityToLevel cfg.priorityLookupTable (s.world.emergencies e).priority

/-- A worker blocked in `pq_pop` that is woken. -/
def wakePop : WorkerPc → WorkerPc
  | .popWait => .pop
  | pc => pc

/-- A worker blocked on the condition variable of one of these emergencies that is woken. -/
def wakeBlocked (woken : EmergencyId → Bool) : WorkerPc → WorkerPc
  | .blocked e => if woken e then .wait e else .blocked e
  | pc => pc

/-- An updater blocked on `updated` that is woken. -/
def wakeTick : UpdaterPc → UpdaterPc
  | .tickWait => .takeTick
  | pc => pc

/-- Deliver the signals of the section that ends.  Only the worker of an
emergency waits on its condition variable, so a signal is a broadcast. -/
def deliverSignals (s : State) : State :=
  { s with
    worker := fun i => wakeBlocked (fun e => s.world.signals.contains e) (s.worker i)
    world := { s.world with signals := [] } }

/-- `pq_push` on `emergency_queue`, with the worker its signal wakes; a closed
queue drops the item and signals nobody. -/
def pushEmergency (cfg : Config) (s : State) (e : EmergencyId) (woken : Option Worker) :
    Option State :=
  if s.emergencyQueue.closed then some s
  else
    let s := { s with emergencyQueue := s.emergencyQueue.push e (s.levelOf cfg e) }
    match woken with
    | some i => if s.worker i = .popWait then some (s.setWorker i .pop) else none
    | none => if ∃ i, s.worker i = .popWait then none else some s

/-- `change_status_store_close_logging_blocking`. -/
def changeStatusStoreClose (cfg : Config) (s : State) (i : Worker) (e : EmergencyId)
    (reason : StoreReason) : State :=
  let w := s.world.setEmergency e { s.world.emergencies e with status := reason.news }
  let s := { s with world := w.setActive i none }
  if reason.toCompleted then
    { s with completedEmergencies := s.completedEmergencies.push e (s.levelOf cfg e) }
  else { s with canceledEmergencies := s.canceledEmergencies.push e (s.levelOf cfg e) }

/-- `open_slot`. -/
def openSlot (s : State) (i : Worker) (e : EmergencyId) : State :=
  { s with
    world := (s.world.setActive i (some e)).setEmergency e
      { s.world.emergencies e with status := .assigned } }

/-! ## Steps -/

/-- The operations of `request_shutdown_from_thread`, once it is the first one called. -/
def requestShutdownFromThread : List ShutdownOp := [.raise, .close, .updated, .wake, .send]

/-- One operation of a shutdown, and what it adds to the operations to do.  The
`wake` operation needs the mutex of the emergencies and `mq_send` blocks while
the queue is full. -/
def shutdownOp (s : State) : ShutdownOp → Option (State × List ShutdownOp)
  | .request =>
      if s.exited then some (s, [])
      else some ({ s with exited := true }, requestShutdownFromThread)
  | .raise => some ({ s with serverMustStop := true }, [])
  | .close =>
      some ({ s with
        emergencyQueue := s.emergencyQueue.close
        worker := fun i => wakePop (s.worker i) }, [])
  | .updated => some ({ s with updater := wakeTick s.updater }, [])
  | .wake =>
      if s.systemFree then
        some ({ s with
          worker := fun i =>
            wakeBlocked (fun e => decide (∃ j, s.world.active j = some e)) (s.worker i) }, [])
      else none
  | .send =>
      if s.mq.length < MQ_MAXMSG then some ({ s with mq := s.mq ++ [MQ_STOP_MESSAGE] }, [])
      else none

/-- A step of worker `i` in `thread_worker`. -/
def stepWorker (cfg : Config) (s : State) (i : Worker) : Option State :=
  match s.worker i with
  | .loop => some (s.setWorker i (if s.serverMustStop then .exited else .pop))
  | .pop =>
      match s.emergencyQueue.pop with
      | some (e, queue) =>
          some ({ s with
            emergencyQueue := queue
            popped := s.popped ++ [(i, e)] }.setWorker i (.popped e))
      -- an empty queue: `pq_pop` returns when it is closed and waits when it is not
      | none => some (s.setWorker i (if s.emergencyQueue.closed then .exited else .popWait))
  -- whoever signals the queue moves the worker on
  | .popWait => none
  | .popped e => if s.systemFree then some ((s.openSlot i e).setWorker i (.inner e)) else none
  | .inner e => some (s.setWorker i (if s.serverMustStop then .ended e else .find e))
  | .find e =>
      if s.systemFree then
        -- one section: the search, the dispatch and the signals to the paused emergencies
        match findRescuersLoggingBlocking cfg.priorityLookupTable s.world e with
        | .error fault => some (s.crash fault)
        | .ok (w, found) =>
            some ({ s with world := w }.deliverSignals.setWorker i
              (if found then .wait e else .store e .searchFailed))
      else none
  | .wait e =>
      if s.systemFree then
        -- the condition of the loop around `cnd_wait`, tested again after each wake-up
        if (s.world.emergencies e).status ≠ .paused ∧ (s.world.emergencies e).status ≠ .completed ∧
            s.serverMustStop = false then
          some (s.setWorker i (.blocked e))
        else some (s.setWorker i (.woken e))
      else none
  | .blocked _ => none
  -- from here on the tests read the status without the locks, one at a time
  | .woken e => some (s.setWorker i (if s.serverMustStop then .ended e else .testPaused e))
  | .testPaused e =>
      some (s.setWorker i
        (if (s.world.emergencies e).status = .paused then .inner e else .testCompleted e))
  | .testCompleted e =>
      some (s.setWorker i
        (if (s.world.emergencies e).status = .completed then
          .store e (.completed (s.world.emergencies e).status)
        else .testCanceled e))
  | .testCanceled e =>
      some (s.setWorker i
        (if (s.world.emergencies e).status = .canceled then
          .store e (.canceled (s.world.emergencies e).status)
        else .ended e))
  | .store e reason =>
      if s.systemFree then
        some ((s.changeStatusStoreClose cfg i e reason).setWorker i (reason.next e))
      else none
  | .ended e =>
      some (s.setWorker i (if s.serverMustStop then .store e .stopping else .closing false))
  | .closing leaving =>
      if s.systemFree then
        some ({ s with world := s.world.setActive i none }.setWorker i
          (if leaving then .exited else .loop))
      else none
  | .exited => none

/-- The operations of the updater's section. -/
def updateOps (cfg : Config) : List UpdateOp :=
  cfg.twinIds.map .twin ++ (List.finRange WORKER_THREADS_NUMBER).map .slot

/-- One operation of the updater's section; `rest` is what follows it. -/
def stepUpdate (cfg : Config) (s : State) (rest : List UpdateOp) : UpdateOp → Option State
  | .twin t =>
      match updateRescuerDigitalTwinState cfg.size s.world t with
      | .stays w => some { s with world := w, updater := .updating rest }
      -- a twin off the map asks for the shutdown, and its arrival is still handled
      | .walked w outside arrived =>
          some { s with
            world := w
            updater := .updating ((if outside then [.shutdown .request] else []) ++
              (if arrived then [.arrive t] else []) ++ rest) }
      | .diverges => some { s with updater := .diverged }
      | .faults => some (s.crash .nullPointer)
  | .arrive t =>
      match arriveRescuerDigitalTwin s.world t with
      | .arrived w => some { s with world := w, updater := .updating rest }
      | .fatal w => some { s with world := w, updater := .updating (.shutdown .request :: rest) }
      | .faults => some (s.crash .nullPointer)
  | .slot i =>
      match s.world.active i with
      | none => some { s with updater := .updating rest }
      | some e =>
          let (emergency, signals) :=
            updateActiveEmergencyState cfg.priorityLookupTable (s.world.emergencies e)
          some { s with
            world := { s.world.setEmergency e emergency with
              signals := if signals then [e] else [] }
            updater := .updating rest }.deliverSignals
  | .shutdown op =>
      (s.shutdownOp op).map fun (s, more) =>
        { s with updater := .updating (more.map .shutdown ++ rest) }

/-- A step of `thread_updater`. -/
def stepUpdater (cfg : Config) (s : State) (woken : Option Worker) : Option State :=
  match s.updater with
  | .loop => some { s with updater := if s.serverMustStop then .exited else .takeTick }
  | .takeTick =>
      if s.tick = false ∧ s.serverMustStop = false then some { s with updater := .tickWait }
      else if s.serverMustStop then some { s with updater := .exited }
      else some { s with tick := false, updater := .readCount }
  | .tickWait => none
  | .readCount => some { s with updater := .begin s.tickCountSinceStart }
  | .begin cycle =>
      some { s with updates := s.updates ++ [cycle], updater := .updating (updateOps cfg) }
  | .updating [] => some { s with updater := .mapWaiting }
  | .updating (op :: rest) => s.stepUpdate cfg rest op
  | .diverged => none
  | .mapWaiting =>
      some { s with
        world := { s.world with
          emergencies := fun e =>
            if e ∈ s.emergencyQueue.contents then
              updateWaitingEmergencyState (s.world.emergencies e)
            else s.world.emergencies e }
        updater := .expire }
  | .expire =>
      match s.emergencyQueue.extractFirst fun e => emergencyHasExpired (s.world.emergencies e) with
      | some (e, queue) => some { s with emergencyQueue := queue, updater := .expired e }
      | none => some { s with updater := .promote }
  | .expired e =>
      let s := { s with
        world := s.world.setEmergency e { s.world.emergencies e with status := .timeout } }
      some { s with
        canceledEmergencies := s.canceledEmergencies.push e (s.levelOf cfg e)
        updater := .expire }
  | .promote =>
      match s.emergencyQueue.extractFirst
          fun e => emergencyIsToPromote (s.world.emergencies e) with
      | some (e, queue) => some { s with emergencyQueue := queue, updater := .promoted e }
      | none => some { s with updater := .loop }
  | .promoted e =>
      { s with
        world := s.world.setEmergency e
          (promoteEmergency cfg.priorityLookupTable (s.world.emergencies e))
        updater := .promote }.pushEmergency cfg e woken
  | .exited => none

/-- A step of `thread_reciever`. -/
def stepReceiver (cfg : Config) (s : State) (woken : Option Worker) : Option State :=
  match s.receiver with
  | .loop => some { s with receiver := if s.serverMustStop then .exited else .receive }
  | .receive =>
      match s.mq with
      | [] => none
      | message :: mq =>
          let s := { s with mq := mq }
          if message = MQ_STOP_MESSAGE then some { s with receiver := .exited }
          else
            let s := { s with count := s.count + 1 }
            match parseEmergencyRequest message cfg.emergencies cfg.size.height cfg.size.width with
            | none => some { s with receiver := .loop }
            | some request =>
                match mallocateEmergency cfg.priorityLookupTable cfg.emergencies request
                    s.tickCountSinceStart with
                | none => some (s.crash .nullPointer)
                | some emergency =>
                    some { s with
                      validCount := s.validCount + 1
                      world := s.world.setEmergency s.nextId emergency
                      nextId := s.nextId + 1
                      receiver := .push s.nextId }
  | .push e => { s with receiver := .loop }.pushEmergency cfg e woken
  | .exited => none

/-- The section of `tick` in `thread_clock`, then the broadcast on `updated`. -/
def doTick (s : State) : State :=
  { s with
    tick := true
    tickCountSinceStart := s.tickCountSinceStart + 1
    updater := wakeTick s.updater }

/-- A step of `thread_clock`. -/
def stepClock (s : State) : Option State :=
  match s.clock with
  | .loop => some { s with clock := if s.serverMustStop then .lastTick else .tick }
  | .tick => some { s.doTick with clock := .loop }
  | .lastTick => some { s.doTick with clock := .exited }
  | .exited => none

/-- The threads that were created have ended. -/
def allExited (s : State) : Bool :=
  (s.started < 1 || s.clock == .exited) && (s.started < 2 || s.updater == .exited) &&
    (s.started < 3 || s.receiver == .exited) &&
    (List.finRange WORKER_THREADS_NUMBER).all fun i =>
      s.started < 4 + i.val || s.worker i == .exited

/-- A step of the main thread, from `start_threads` on. -/
def stepMain (s : State) (ok : Bool) : Option State :=
  match s.main with
  | .start =>
      if ok then
        some { s with
          started := s.started + 1
          main := if s.started + 1 = 3 + WORKER_THREADS_NUMBER then .sigwait else .start }
      else some { s with main := .shutdown [.request] }
  | .sigwait => some { s with main := .shutdown [.raise, .send, .close, .updated, .wake] }
  | .shutdown [] => some { s with main := .join }
  | .shutdown (op :: rest) =>
      (s.shutdownOp op).map fun (s, more) => { s with main := .shutdown (more ++ rest) }
  | .join => if s.allExited then some { s with main := .closeServer } else none
  | .closeServer =>
      (s.shutdownOp .wake).map fun (s, _) => { s with main := .closed }
  | .closed => none

/-- A spurious wake-up of a worker. -/
def stepWakeWorker (s : State) (i : Worker) : Option State :=
  match s.worker i with
  | .popWait => some (s.setWorker i .pop)
  | .blocked e => some (s.setWorker i (.wait e))
  | _ => none

/-- A step of the server.  A thread runs once it has been created, and nothing
runs after a fault. -/
def step (cfg : Config) (s : State) (action : Action) : Option State :=
  if s.fault.isSome then none
  else
    match action with
    | .clock => if 1 ≤ s.started then s.stepClock else none
    | .updater woken => if 2 ≤ s.started then s.stepUpdater cfg woken else none
    | .receiver woken => if 3 ≤ s.started then s.stepReceiver cfg woken else none
    | .worker i => if 4 + i.val ≤ s.started then s.stepWorker cfg i else none
    | .main ok => s.stepMain ok
    | .client message =>
        if s.mq.length < MQ_MAXMSG then some { s with mq := s.mq ++ [message] } else none
    | .wakeWorker i => s.stepWakeWorker i
    | .wakeUpdater =>
        if s.updater = .tickWait then some { s with updater := .takeTick } else none

end State

/-- The states some run of the server reaches. -/
abbrev Reachable (cfg : Config) : State → Prop :=
  TransitionSystem.Reachable (State.step cfg) (initialState cfg)

/-! ## Computed runs -/

/-- The state after a list of actions from `s` that all meet `guard`; `s` itself
when one of them does not or is impossible. -/
def continueWith (guard : State → Action → Prop) [∀ s a, Decidable (guard s a)] (cfg : Config)
    (s : State) (actions : List Action) : State :=
  (TransitionSystem.runWith (State.step cfg) guard s actions).getD s

/-- The state after a list of actions from the start. -/
abbrev stateAfterWith (guard : State → Action → Prop) [∀ s a, Decidable (guard s a)]
    (cfg : Config) (actions : List Action) : State :=
  continueWith guard cfg (initialState cfg) actions

abbrev stateAfter (cfg : Config) (actions : List Action) : State :=
  stateAfterWith (fun _ _ => True) cfg actions

theorem reachableWith_continueWith (guard : State → Action → Prop)
    [∀ s a, Decidable (guard s a)] (cfg : Config) (s : State) (actions : List Action) :
    TransitionSystem.ReachableWith (State.step cfg) guard s (continueWith guard cfg s actions) := by
  unfold continueWith
  cases hrun : TransitionSystem.runWith (State.step cfg) guard s actions with
  | none => exact .initial
  | some s' => exact TransitionSystem.reachableWith_of_runWith .initial hrun

theorem reachableWith_stateAfterWith (guard : State → Action → Prop)
    [∀ s a, Decidable (guard s a)] (cfg : Config) (actions : List Action) :
    TransitionSystem.ReachableWith (State.step cfg) guard (initialState cfg)
      (stateAfterWith guard cfg actions) :=
  reachableWith_continueWith guard cfg _ actions

theorem reachable_stateAfter (cfg : Config) (actions : List Action) :
    Reachable cfg (stateAfter cfg actions) :=
  reachableWith_stateAfterWith _ cfg actions

/-- The state after one action, `s` itself when it is impossible. -/
def nextState (cfg : Config) (s : State) (a : Action) : State := (State.step cfg s a).getD s

theorem step_nextState {cfg : Config} {s : State} {a : Action}
    (h : (State.step cfg s a).isSome = true) : State.step cfg s a = some (nextState cfg s a) := by
  obtain ⟨s', hs'⟩ := Option.isSome_iff_exists.mp h
  rw [nextState, hs', Option.getD_some]

/-- All threads are created. -/
def threadsStart : List Action := List.replicate (3 + WORKER_THREADS_NUMBER) (.main true)

/-- A client sends a request; the receiver accepts it and pushes the emergency. -/
def requestArrives (message : String) : List Action :=
  [.client message.toList, .receiver none, .receiver none, .receiver none]

/-- Worker `i` makes `n` steps. -/
def workerSteps (i : Worker) (n : ℕ) : List Action := List.replicate n (.worker i)

/-- The clock ticks and the updater makes `n` steps. -/
def clockTicks (n : ℕ) : List Action := .clock :: .clock :: List.replicate n (.updater none)

section exampleServer

/-- Two rescuers, one of each type, with their base in the corner of the map. -/
def exampleRescuerA : RescuerType := ⟨['A'], 1, 20, 0, 0, [0]⟩

def exampleRescuerB : RescuerType := ⟨['B'], 1, 20, 0, 0, [1]⟩

/-- A server with the table of priorities of the repository and three types of
emergencies, which get the numbers from `3` on: `e` needs both rescuers, `f` and
`g` need one of them and come first. -/
def exampleServer : Config where
  size := ⟨20, 20⟩
  rescuers := [exampleRescuerA, exampleRescuerB]
  emergencies :=
    [⟨1, ['e'], [⟨exampleRescuerA, 1, 1⟩, ⟨exampleRescuerB, 1, 5⟩]⟩,
      ⟨2, ['f'], [⟨exampleRescuerB, 1, 1⟩]⟩, ⟨2, ['g'], [⟨exampleRescuerA, 1, 1⟩]⟩]
  priorityLookupTable := defaultPriorityLookupTable
  mallocated _ := ⟨7, 7, 0, 0, 0, 0, 0⟩
  names_nodup := by decide
  speeds := by decide
  twins_nodup := by decide
  requests_mem := by decide
  priorityLookupTable_ne_nil := defaultPriorityLookupTable_ne_nil

/-- A run in which the emergency `g` takes a rescuer from the emergency `e`. -/
def rescuerTaken : List Action :=
  threadsStart ++ requestArrives "e 3 4 0" ++ workerSteps 0 6 ++ requestArrives "g 5 4 0" ++
    workerSteps 1 6

end exampleServer

end EmergencyDispatch
