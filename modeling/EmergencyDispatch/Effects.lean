import EmergencyDispatch.Threads

/-!
# What a step can do

Every step of the server is one of a few effects on the emergencies, the twins
and the queues (`Effect`); the steps that have none of these effects are
`Quiet`.  All invariants are derived from `step_effect`, by cases on the effect,
and not from the definition of `step`.
-/

namespace EmergencyDispatch

open State

/-! ## Quiet steps -/

/-- A worker is left alone or woken. -/
inductive Woken : WorkerPc → WorkerPc → Prop
  | same (pc : WorkerPc) : Woken pc pc
  | pop : Woken .popWait .pop
  | blocked (e : EmergencyId) : Woken (.blocked e) (.wait e)

/-- The emergency in the hands of the receiver. -/
def ReceiverPc.emergency : ReceiverPc → Option EmergencyId
  | .push e => some e
  | _ => none

/-- The emergency in the hands of the updater. -/
def UpdaterPc.emergency : UpdaterPc → Option EmergencyId
  | .expired e | .promoted e => some e
  | _ => none

/-- The updater has still to treat the arrival of `t`. -/
def UpdaterPc.arriving (t : TwinId) : UpdaterPc → Prop
  | .updating todo => .arrive t ∈ todo
  | _ => False

/-- The twin an operation of the updater is about. -/
def UpdateOp.subject : UpdateOp → Option TwinId
  | .twin t | .arrive t => some t
  | _ => none

/-- The twins the updater has still to treat. -/
def UpdaterPc.subjects : UpdaterPc → List TwinId
  | .updating todo => todo.filterMap UpdateOp.subject
  | _ => []

theorem Woken.emergency {pc pc' : WorkerPc} (h : Woken pc pc') : pc'.emergency = pc.emergency := by
  cases h <;> rfl

/-- The step changes only program counters, clocks, flags and the queue of
requests; and no thread takes or gives up an emergency. -/
structure Quiet (s s' : State) : Prop where
  world : s'.world = s.world
  lists : s'.emergencyQueue.lists = s.emergencyQueue.lists
  completed : s'.completedEmergencies = s.completedEmergencies
  canceled : s'.canceledEmergencies = s.canceledEmergencies
  nextId : s'.nextId = s.nextId
  popped : s'.popped = s.popped
  serverMustStop : s.serverMustStop = true → s'.serverMustStop = true
  worker : ∀ i, Woken (s.worker i) (s'.worker i)
  receiver : s'.receiver.emergency = s.receiver.emergency
  updater : s'.updater.emergency = s.updater.emergency
  arriving : ∀ t, s'.updater.arriving t → s.updater.arriving t
  subjects : s.updater.subjects.Nodup → s'.updater.subjects.Nodup
  closed : s'.emergencyQueue.closed = s.emergencyQueue.closed ∨
    s'.emergencyQueue.closed = true ∧ ∀ i, s'.worker i ≠ .popWait

/-! ## Effects -/

/-- The moves of a worker that change nothing but its program counter. -/
inductive LocalMove (s : State) : WorkerPc → WorkerPc → Prop
  | leave (h : s.serverMustStop = true) : LocalMove s .loop .exited
  | again (h : s.serverMustStop = false) : LocalMove s .loop .pop
  | closed (hempty : s.emergencyQueue.pop = none) (h : s.emergencyQueue.closed = true) :
      LocalMove s .pop .exited
  | empty (hempty : s.emergencyQueue.pop = none) (h : s.emergencyQueue.closed = false) :
      LocalMove s .pop .popWait
  | interrupted (e : EmergencyId) (h : s.serverMustStop = true) : LocalMove s (.inner e) (.ended e)
  | search (e : EmergencyId) (h : s.serverMustStop = false) : LocalMove s (.inner e) (.find e)
  | block (e : EmergencyId) (h : (s.world.emergencies e).status ≠ .paused ∧
      (s.world.emergencies e).status ≠ .completed ∧ s.serverMustStop = false) :
      LocalMove s (.wait e) (.blocked e)
  | wake (e : EmergencyId) (h : (s.world.emergencies e).status = .paused ∨
      (s.world.emergencies e).status = .completed ∨ s.serverMustStop = true) :
      LocalMove s (.wait e) (.woken e)
  | stopped (e : EmergencyId) (h : s.serverMustStop = true) : LocalMove s (.woken e) (.ended e)
  | test (e : EmergencyId) (h : s.serverMustStop = false) : LocalMove s (.woken e) (.testPaused e)
  | resume (e : EmergencyId) (h : (s.world.emergencies e).status = .paused) :
      LocalMove s (.testPaused e) (.inner e)
  | notPaused (e : EmergencyId) (h : (s.world.emergencies e).status ≠ .paused) :
      LocalMove s (.testPaused e) (.testCompleted e)
  | complete (e : EmergencyId) (h : (s.world.emergencies e).status = .completed) :
      LocalMove s (.testCompleted e) (.store e (.completed (s.world.emergencies e).status))
  | notCompleted (e : EmergencyId) (h : (s.world.emergencies e).status ≠ .completed) :
      LocalMove s (.testCompleted e) (.testCanceled e)
  | cancel (e : EmergencyId) (h : (s.world.emergencies e).status = .canceled) :
      LocalMove s (.testCanceled e) (.store e (.canceled (s.world.emergencies e).status))
  | notCanceled (e : EmergencyId) (h : (s.world.emergencies e).status ≠ .canceled) :
      LocalMove s (.testCanceled e) (.ended e)
  | stopping (e : EmergencyId) (h : s.serverMustStop = true) :
      LocalMove s (.ended e) (.store e .stopping)
  | finish (e : EmergencyId) (h : s.serverMustStop = false) :
      LocalMove s (.ended e) (.closing false)

/-- The world after `change_status_store_close_logging_blocking`. -/
def storeWorld (w : World) (i : Worker) (e : EmergencyId) (reason : StoreReason) : World :=
  (w.setEmergency e { w.emergencies e with status := reason.news }).setActive i none

/-- As long as workers wait on an open queue, the signal of a push wakes one of them. -/
def PushSignals (s : State) (worker : Worker → WorkerPc) : Prop :=
  (∃ i, worker i = .popWait) →
    s.emergencyQueue.closed = true ∨ ∃ i, s.worker i = .popWait ∧ worker i = .pop

/-- What a step does. -/
inductive Effect (cfg : Config) (s : State) : Action → State → Prop
  | quiet {a : Action} {s' : State} (h : Quiet s s') : Effect cfg s a s'
  | move (i : Worker) (pc : WorkerPc) (h : LocalMove s (s.worker i) pc) :
      Effect cfg s (.worker i) (s.setWorker i pc)
  | pop (i : Worker) (e : EmergencyId) (queue : Pq) (hpc : s.worker i = .pop)
      (hpop : s.emergencyQueue.pop = some (e, queue)) :
      Effect cfg s (.worker i) { s with
        emergencyQueue := queue
        popped := s.popped ++ [(i, e)]
        worker := Function.update s.worker i (.popped e) }
  | openSlot (i : Worker) (e : EmergencyId) (hpc : s.worker i = .popped e) :
      Effect cfg s (.worker i) ((s.openSlot i e).setWorker i (.inner e))
  | search (i : Worker) (e : EmergencyId) (w : World) (found : Bool) (worker : Worker → WorkerPc)
      (hpc : s.worker i = .find e)
      (hfind : findRescuersLoggingBlocking cfg.priorityLookupTable s.world e = .ok (w, found))
      (hwoken : ∀ j, Woken (s.worker j) (worker j))
      (hsignals : ∀ j e', worker j = .blocked e' → e' ∉ w.signals) :
      Effect cfg s (.worker i) { s with
        world := { w with signals := [] }
        worker := Function.update worker i (if found then .wait e else .store e .searchFailed) }
  | store (i : Worker) (e : EmergencyId) (reason : StoreReason) (level : ℤ)
      (hpc : s.worker i = .store e reason) :
      Effect cfg s (.worker i) { s with
        world := storeWorld s.world i e reason
        completedEmergencies :=
          if reason.toCompleted then s.completedEmergencies.push e level
          else s.completedEmergencies
        canceledEmergencies :=
          if reason.toCompleted then s.canceledEmergencies
          else s.canceledEmergencies.push e level
        worker := Function.update s.worker i (reason.next e) }
  | closeSlot (i : Worker) (leaving : Bool) (hpc : s.worker i = .closing leaving) :
      Effect cfg s (.worker i) ({ s with world := s.world.setActive i none }.setWorker i
        (if leaving then .exited else .loop))
  | stays {woken : Option Worker} (t : TwinId) (rest : List UpdateOp) (w : World)
      (hpc : s.updater = .updating (.twin t :: rest))
      (hupdate : updateRescuerDigitalTwinState cfg.size s.world t = .stays w) :
      Effect cfg s (.updater woken) { s with world := w, updater := .updating rest }
  | walked {woken : Option Worker} (t : TwinId) (rest : List UpdateOp) (w : World)
      (outside arrived : Bool)
      (hpc : s.updater = .updating (.twin t :: rest))
      (hupdate : updateRescuerDigitalTwinState cfg.size s.world t = .walked w outside arrived) :
      Effect cfg s (.updater woken) { s with
        world := w
        updater := .updating ((if outside then [.shutdown .request] else []) ++
          (if arrived then [.arrive t] else []) ++ rest) }
  | arrived {woken : Option Worker} (t : TwinId) (rest : List UpdateOp) (w : World)
      (hpc : s.updater = .updating (.arrive t :: rest))
      (harrive : arriveRescuerDigitalTwin s.world t = .arrived w) :
      Effect cfg s (.updater woken) { s with world := w, updater := .updating rest }
  | fatal {woken : Option Worker} (t : TwinId) (rest : List UpdateOp) (w : World)
      (hpc : s.updater = .updating (.arrive t :: rest))
      (harrive : arriveRescuerDigitalTwin s.world t = .fatal w) :
      Effect cfg s (.updater woken)
        { s with world := w, updater := .updating (.shutdown .request :: rest) }
  | slot {woken : Option Worker} (i : Worker) (e : EmergencyId) (rest : List UpdateOp)
      (worker : Worker → WorkerPc) (hpc : s.updater = .updating (.slot i :: rest))
      (hactive : s.world.active i = some e) (hwoken : ∀ j, Woken (s.worker j) (worker j))
      (hsignals : (updateActiveEmergencyState cfg.priorityLookupTable
        (s.world.emergencies e)).2 = true → ∀ j, worker j ≠ .blocked e) :
      Effect cfg s (.updater woken) { s with
        world := { s.world.setEmergency e (updateActiveEmergencyState cfg.priorityLookupTable
          (s.world.emergencies e)).1 with signals := [] }
        worker := worker
        updater := .updating rest }
  | mapWaiting {woken : Option Worker} (hpc : s.updater = .mapWaiting) :
      Effect cfg s (.updater woken) { s with
        world := { s.world with
          emergencies := fun e =>
            if e ∈ s.emergencyQueue.contents then
              updateWaitingEmergencyState (s.world.emergencies e)
            else s.world.emergencies e }
        updater := .expire }
  | extract {woken : Option Worker} (e : EmergencyId) (queue : Pq) (pred : EmergencyId → Bool)
      (pc : UpdaterPc) (hpc : s.updater.emergency = none)
      (hextract : s.emergencyQueue.extractFirst pred = some (e, queue))
      (hnext : pc = .expired e ∨ pc = .promoted e) :
      Effect cfg s (.updater woken) { s with emergencyQueue := queue, updater := pc }
  | expire {woken : Option Worker} (e : EmergencyId) (level : ℤ) (hpc : s.updater = .expired e) :
      Effect cfg s (.updater woken) { s with
        world := s.world.setEmergency e { s.world.emergencies e with status := .timeout }
        canceledEmergencies := s.canceledEmergencies.push e level
        updater := .expire }
  | promote {woken : Option Worker} (e : EmergencyId) (level : ℤ) (worker : Worker → WorkerPc)
      (hpc : s.updater = .promoted e) (hwoken : ∀ j, Woken (s.worker j) (worker j))
      (hlevel : level = priorityToLevel cfg.priorityLookupTable
        (promoteEmergency cfg.priorityLookupTable (s.world.emergencies e)).priority)
      (hsignal : PushSignals s worker) :
      Effect cfg s (.updater woken) { s with
        world := s.world.setEmergency e
          (promoteEmergency cfg.priorityLookupTable (s.world.emergencies e))
        emergencyQueue := s.emergencyQueue.push e level
        worker := worker
        updater := .promote }
  | receive {woken : Option Worker} (request : EmergencyRequest) (emergency : Emergency)
      (mq : List CString)
      (hpc : s.receiver.emergency = none)
      (hemergency : mallocateEmergency cfg.priorityLookupTable cfg.emergencies request
        s.tickCountSinceStart = some emergency) (message : CString)
      (hreceive : s.receiver = .receive) (hmq : s.mq = message :: mq)
      (hparse : parseEmergencyRequest message cfg.emergencies cfg.size.height cfg.size.width =
        some request) :
      Effect cfg s (.receiver woken) { s with
        mq := mq
        count := s.count + 1
        validCount := s.validCount + 1
        world := s.world.setEmergency s.nextId emergency
        nextId := s.nextId + 1
        receiver := .push s.nextId }
  | receiverPush {woken : Option Worker} (e : EmergencyId) (level : ℤ) (worker : Worker → WorkerPc)
      (hpc : s.receiver = .push e) (hwoken : ∀ j, Woken (s.worker j) (worker j))
      (hlevel : level = s.levelOf cfg e) (hsignal : PushSignals s worker) :
      Effect cfg s (.receiver woken) { s with
        emergencyQueue := s.emergencyQueue.push e level
        worker := worker
        receiver := .loop }

variable {cfg : Config} {s s' : State}

/-! ## Every step has an effect -/

namespace Quiet

theorem refl (s : State) : Quiet s s :=
  ⟨rfl, rfl, rfl, rfl, rfl, rfl, id, fun _ => .same _, rfl, rfl, fun _ => id, id, .inl rfl⟩

end Quiet

theorem woken_wakePop (pc : WorkerPc) : Woken pc (wakePop pc) := by
  cases pc <;> first | exact .pop | exact .same _

theorem wakePop_ne_popWait (pc : WorkerPc) : wakePop pc ≠ .popWait := by
  cases pc <;> simp [wakePop]

theorem wakeBlocked_eq_blocked {p : EmergencyId → Bool} {pc : WorkerPc} {e : EmergencyId}
    (h : wakeBlocked p pc = .blocked e) : pc = .blocked e ∧ p e = false := by
  cases pc with
  | blocked e' =>
      simp only [wakeBlocked] at h
      split at h
      · cases h
      · rename_i hp
        obtain rfl := WorkerPc.blocked.inj h
        exact ⟨rfl, by simpa using hp⟩
  | _ => cases h

theorem woken_wakeBlocked (p : EmergencyId → Bool) (pc : WorkerPc) :
    Woken pc (wakeBlocked p pc) := by
  cases pc with
  | blocked e =>
      simp only [wakeBlocked]
      split
      · exact .blocked e
      · exact .same _
  | _ => exact .same _

theorem shutdownOp_quiet {op : ShutdownOp} {more : List ShutdownOp}
    (h : s.shutdownOp op = some (s', more)) : Quiet s s' := by
  cases op with
  | request =>
      simp only [shutdownOp] at h
      split at h <;> simp only [Option.some.injEq, Prod.mk.injEq] at h <;> obtain ⟨rfl, -⟩ := h
      · exact .refl s
      · exact { Quiet.refl s with }
  | raise =>
      simp only [shutdownOp, Option.some.injEq, Prod.mk.injEq] at h
      obtain ⟨rfl, -⟩ := h
      exact { Quiet.refl s with serverMustStop := fun _ => rfl }
  | close =>
      simp only [shutdownOp, Option.some.injEq, Prod.mk.injEq] at h
      obtain ⟨rfl, -⟩ := h
      exact { Quiet.refl s with
        worker := fun i => woken_wakePop _
        closed := .inr ⟨rfl, fun i => wakePop_ne_popWait _⟩ }
  | updated =>
      simp only [shutdownOp, Option.some.injEq, Prod.mk.injEq] at h
      obtain ⟨rfl, -⟩ := h
      refine { Quiet.refl s with updater := ?_, arriving := fun t => ?_, subjects := ?_ } <;>
        cases s.updater <;>
        simp [wakeTick, UpdaterPc.emergency, UpdaterPc.arriving, UpdaterPc.subjects]
  | wake =>
      simp only [shutdownOp] at h
      split at h <;> simp only [Option.some.injEq, Prod.mk.injEq, reduceCtorEq] at h
      obtain ⟨rfl, -⟩ := h
      exact { Quiet.refl s with
        worker := fun i => woken_wakeBlocked _ _
        closed := .inl rfl }
  | send =>
      simp only [shutdownOp] at h
      split at h <;> simp only [Option.some.injEq, Prod.mk.injEq, reduceCtorEq] at h
      obtain ⟨rfl, -⟩ := h
      exact { Quiet.refl s with }

/-- A push on `emergency_queue` adds the item and wakes at most one worker. -/
theorem pushEmergency_eq {e : EmergencyId} {woken : Option Worker}
    (h : s.pushEmergency cfg e woken = some s') : ∃ worker : Worker → WorkerPc,
    (∀ i, Woken (s.worker i) (worker i)) ∧ PushSignals s worker ∧
      s' = { s with
        emergencyQueue := s.emergencyQueue.push e (s.levelOf cfg e)
        worker := worker } := by
  unfold pushEmergency at h
  split at h
  · rename_i hclosed
    obtain rfl := Option.some.inj h
    exact ⟨s.worker, fun _ => .same _, fun _ => .inl hclosed, by rw [Pq.push_of_closed hclosed]⟩
  · dsimp only at h
    split at h
    · rename_i i
      split at h
      · rename_i hwait
        obtain rfl := Option.some.inj h
        refine ⟨Function.update s.worker i .pop, fun j => ?_,
          fun _ => .inr ⟨i, hwait, Function.update_self ..⟩, rfl⟩
        by_cases hj : j = i
        · subst hj
          rw [Function.update_self, hwait]
          exact .pop
        · rw [Function.update_of_ne hj]
          exact .same _
      · simp at h
    · split at h
      · simp at h
      · rename_i hnobody
        obtain rfl := Option.some.inj h
        exact ⟨s.worker, fun _ => .same _, fun hwait => absurd hwait hnobody, rfl⟩

/-- A store writes the status, empties the slot and pushes on one of the two queues. -/
theorem changeStatusStoreClose_eq (cfg : Config) (s : State) (i : Worker) (e : EmergencyId)
    (reason : StoreReason) : ∃ level, s.changeStatusStoreClose cfg i e reason = { s with
      world := storeWorld s.world i e reason
      completedEmergencies :=
        if reason.toCompleted then s.completedEmergencies.push e level
        else s.completedEmergencies
      canceledEmergencies :=
        if reason.toCompleted then s.canceledEmergencies
        else s.canceledEmergencies.push e level } := by
  cases reason <;> exact ⟨_, rfl⟩

theorem effect_of_move {i : Worker} {pc pc' : WorkerPc} (hpc : s.worker i = pc)
    (hmove : LocalMove s pc pc') (h : some (s.setWorker i pc') = some s') :
    Effect cfg s (.worker i) s' := by
  obtain rfl := Option.some.inj h
  exact .move i pc' (hpc ▸ hmove)

/-- A read of `server_must_stop` decides between two moves. -/
theorem localMove_of_stop {pc pc₁ pc₂ : WorkerPc}
    (h₁ : s.serverMustStop = true → LocalMove s pc pc₁)
    (h₂ : s.serverMustStop = false → LocalMove s pc pc₂) :
    LocalMove s pc (if s.serverMustStop then pc₁ else pc₂) := by
  split
  · exact h₁ ‹_›
  · exact h₂ (Bool.eq_false_of_not_eq_true ‹_›)

/-- A read of the status of an emergency decides between two moves. -/
theorem localMove_of_status {e : EmergencyId} {status : EmergencyStatus} {pc pc₁ pc₂ : WorkerPc}
    (h₁ : (s.world.emergencies e).status = status → LocalMove s pc pc₁)
    (h₂ : (s.world.emergencies e).status ≠ status → LocalMove s pc pc₂) :
    LocalMove s pc (if (s.world.emergencies e).status = status then pc₁ else pc₂) := by
  split
  · exact h₁ ‹_›
  · exact h₂ ‹_›

theorem stepWorker_effect {i : Worker} (h : s.stepWorker cfg i = some s') :
    Effect cfg s (.worker i) s' := by
  cases hpc : s.worker i with
  | loop =>
      simp only [stepWorker, hpc] at h
      exact effect_of_move hpc (localMove_of_stop .leave .again) h
  | pop =>
      simp only [stepWorker, hpc] at h
      split at h
      · rename_i e queue hpop
        obtain rfl := Option.some.inj h
        exact .pop i e queue hpc hpop
      · rename_i hempty
        refine effect_of_move hpc ?_ h
        split
        · exact .closed hempty ‹_›
        · exact .empty hempty (Bool.eq_false_of_not_eq_true ‹_›)
  | popped e =>
      simp only [stepWorker, hpc] at h
      split at h
      · obtain rfl := Option.some.inj h
        exact .openSlot i e hpc
      · simp at h
  | inner e =>
      simp only [stepWorker, hpc] at h
      exact effect_of_move hpc (localMove_of_stop (.interrupted e) (.search e)) h
  | find e =>
      simp only [stepWorker, hpc] at h
      split at h
      · split at h
        · obtain rfl := Option.some.inj h
          exact .quiet { Quiet.refl s with }
        · rename_i w found hfind
          obtain rfl := Option.some.inj h
          refine .search i e w found _ hpc hfind (fun j => woken_wakeBlocked _ _) ?_
          intro j e' hblocked
          simpa using (wakeBlocked_eq_blocked hblocked).2
      · simp at h
  | wait e =>
      simp only [stepWorker, hpc] at h
      split at h
      · split at h
        -- the wait goes on unless the emergency is paused, completed or the server stops
        · exact effect_of_move hpc (.block e ‹_›) h
        · rename_i hwake
          refine effect_of_move hpc (.wake e ?_) h
          by_cases hpaused : (s.world.emergencies e).status = .paused
          · exact .inl hpaused
          · by_cases hcompleted : (s.world.emergencies e).status = .completed
            · exact .inr (.inl hcompleted)
            · exact .inr (.inr (by simpa [hpaused, hcompleted] using hwake))
      · simp at h
  | woken e =>
      simp only [stepWorker, hpc] at h
      exact effect_of_move hpc (localMove_of_stop (.stopped e) (.test e)) h
  | testPaused e =>
      simp only [stepWorker, hpc] at h
      exact effect_of_move hpc (localMove_of_status (.resume e) (.notPaused e)) h
  | testCompleted e =>
      simp only [stepWorker, hpc] at h
      exact effect_of_move hpc (localMove_of_status (.complete e) (.notCompleted e)) h
  | testCanceled e =>
      simp only [stepWorker, hpc] at h
      exact effect_of_move hpc (localMove_of_status (.cancel e) (.notCanceled e)) h
  | store e reason =>
      simp only [stepWorker, hpc] at h
      split at h
      · obtain rfl := Option.some.inj h
        obtain ⟨level, heq⟩ := changeStatusStoreClose_eq cfg s i e reason
        rw [heq]
        exact .store i e reason level hpc
      · simp at h
  | ended e =>
      simp only [stepWorker, hpc] at h
      exact effect_of_move hpc (localMove_of_stop (.stopping e) (.finish e)) h
  | closing leaving =>
      simp only [stepWorker, hpc] at h
      split at h
      · obtain rfl := Option.some.inj h
        exact .closeSlot i leaving hpc
      · simp at h
  | _ => simp [stepWorker, hpc] at h

/-! ### The updater -/

/-- A move of the updater that takes no emergency and starts no arrival. -/
theorem quiet_updater {pc : UpdaterPc} {updates : List ℕ} {tick : Bool}
    (hemergency : pc.emergency = s.updater.emergency)
    (htwins : (∀ t, pc.arriving t → s.updater.arriving t) ∧
      (s.updater.subjects.Nodup → pc.subjects.Nodup)) :
    Quiet s { s with updater := pc, updates := updates, tick := tick } :=
  { Quiet.refl s with updater := hemergency, arriving := htwins.1, subjects := htwins.2 }

theorem arriving_updateOps (cfg : Config) (t : TwinId) :
    ¬(UpdaterPc.updating (updateOps cfg)).arriving t := by
  simp [UpdaterPc.arriving, updateOps]

theorem filterMap_subject_shutdown (ops : List ShutdownOp) :
    ops.filterMap (UpdateOp.subject ∘ UpdateOp.shutdown) = [] := by
  simp [Function.comp_def, UpdateOp.subject]

theorem subjects_updateOps (cfg : Config) :
    (UpdaterPc.updating (updateOps cfg)).subjects = cfg.twinIds := by
  simp [UpdaterPc.subjects, updateOps, UpdateOp.subject, List.filterMap_append,
    List.filterMap_map, Function.comp_def]

theorem stepUpdate_effect {op : UpdateOp} {rest : List UpdateOp} {woken : Option Worker}
    (hpc : s.updater = .updating (op :: rest)) (h : s.stepUpdate cfg rest op = some s') :
    Effect cfg s (.updater woken) s' := by
  cases op with
  | twin t =>
      simp only [stepUpdate] at h
      split at h <;> obtain rfl := Option.some.inj h
      · rename_i w hupdate
        exact .stays t rest w hpc hupdate
      · rename_i w outside arrived hupdate
        exact .walked t rest w outside arrived hpc hupdate
      · exact .quiet (quiet_updater (by simp [UpdaterPc.emergency, hpc])
          (by simp [UpdaterPc.arriving, UpdaterPc.subjects]))
      · exact .quiet { Quiet.refl s with }
  | arrive t =>
      simp only [stepUpdate] at h
      split at h <;> obtain rfl := Option.some.inj h
      · rename_i w harrive
        exact .arrived t rest w hpc harrive
      · rename_i w harrive
        exact .fatal t rest w hpc harrive
      · exact .quiet { Quiet.refl s with }
  | slot i =>
      simp only [stepUpdate] at h
      split at h <;> obtain rfl := Option.some.inj h
      · exact .quiet (quiet_updater (by simp [UpdaterPc.emergency, hpc])
          (by simp [UpdaterPc.arriving, UpdaterPc.subjects, UpdateOp.subject, List.filterMap_cons,
            hpc]))
      · rename_i e hactive
        refine .slot i e rest _ hpc hactive (fun j => woken_wakeBlocked _ _) ?_
        intro hsignals j hblocked
        simpa [hsignals] using (wakeBlocked_eq_blocked hblocked).2
  | shutdown op =>
      simp only [stepUpdate, Option.map_eq_some_iff, Prod.exists] at h
      obtain ⟨s₁, more, hop, rfl⟩ := h
      have hquiet := shutdownOp_quiet hop
      refine .quiet { hquiet with
        updater := by simp [UpdaterPc.emergency, hpc]
        arriving := fun t ht => ?_
        subjects := fun hnodup => ?_ }
      · rw [hpc]
        simpa [UpdaterPc.arriving] using ht
      · rw [hpc] at hnodup
        simpa [UpdaterPc.subjects, UpdateOp.subject, List.filterMap_append, List.filterMap_cons,
          filterMap_subject_shutdown] using hnodup

theorem stepUpdater_effect {woken : Option Worker} (h : s.stepUpdater cfg woken = some s') :
    Effect cfg s (.updater woken) s' := by
  cases hpc : s.updater with
  | loop =>
      simp only [stepUpdater, hpc] at h
      obtain rfl := Option.some.inj h
      refine .quiet (quiet_updater ?_ ?_) <;> split <;>
        simp [UpdaterPc.emergency, UpdaterPc.arriving, UpdaterPc.subjects, hpc]
  | takeTick =>
      simp only [stepUpdater, hpc] at h
      split at h
      · obtain rfl := Option.some.inj h
        exact .quiet (quiet_updater (by simp [UpdaterPc.emergency, hpc])
          (by simp [UpdaterPc.arriving, UpdaterPc.subjects]))
      · split at h <;> obtain rfl := Option.some.inj h <;>
          exact .quiet (quiet_updater (by simp [UpdaterPc.emergency, hpc])
            (by simp [UpdaterPc.arriving, UpdaterPc.subjects]))
  | readCount =>
      simp only [stepUpdater, hpc] at h
      obtain rfl := Option.some.inj h
      exact .quiet (quiet_updater (by simp [UpdaterPc.emergency, hpc])
        (by simp [UpdaterPc.arriving, UpdaterPc.subjects]))
  | begin cycle =>
      simp only [stepUpdater, hpc] at h
      obtain rfl := Option.some.inj h
      exact .quiet (quiet_updater (by simp [UpdaterPc.emergency, hpc])
        ⟨fun t ht => absurd ht (arriving_updateOps cfg t), fun _ => by
          rw [subjects_updateOps]
          exact cfg.twins_nodup⟩)
  | updating todo =>
      cases todo with
      | nil =>
          simp only [stepUpdater, hpc] at h
          obtain rfl := Option.some.inj h
          exact .quiet (quiet_updater (by simp [UpdaterPc.emergency, hpc])
            (by simp [UpdaterPc.arriving, UpdaterPc.subjects]))
      | cons op rest =>
          simp only [stepUpdater, hpc] at h
          exact stepUpdate_effect hpc h
  | mapWaiting =>
      simp only [stepUpdater, hpc] at h
      obtain rfl := Option.some.inj h
      exact .mapWaiting hpc
  | expire =>
      simp only [stepUpdater, hpc] at h
      split at h <;> obtain rfl := Option.some.inj h
      · rename_i e queue hextract
        exact .extract e queue _ _ (by simp [UpdaterPc.emergency, hpc]) hextract (.inl rfl)
      · exact .quiet (quiet_updater (by simp [UpdaterPc.emergency, hpc])
          (by simp [UpdaterPc.arriving, UpdaterPc.subjects]))
  | expired e =>
      simp only [stepUpdater, hpc] at h
      obtain rfl := Option.some.inj h
      exact .expire e _ hpc
  | promote =>
      simp only [stepUpdater, hpc] at h
      split at h <;> obtain rfl := Option.some.inj h
      · rename_i e queue hextract
        exact .extract e queue _ _ (by simp [UpdaterPc.emergency, hpc]) hextract (.inr rfl)
      · exact .quiet (quiet_updater (by simp [UpdaterPc.emergency, hpc])
          (by simp [UpdaterPc.arriving, UpdaterPc.subjects]))
  | promoted e =>
      simp only [stepUpdater, hpc] at h
      obtain ⟨worker, hwoken, hsignal, rfl⟩ := pushEmergency_eq h
      exact .promote e _ worker hpc hwoken (by simp [levelOf]) hsignal
  | _ => simp [stepUpdater, hpc] at h

/-! ### The other threads -/

theorem stepReceiver_effect {woken : Option Worker} (h : s.stepReceiver cfg woken = some s') :
    Effect cfg s (.receiver woken) s' := by
  cases hpc : s.receiver with
  | loop =>
      simp only [stepReceiver, hpc] at h
      obtain rfl := Option.some.inj h
      refine .quiet { Quiet.refl s with receiver := ?_ }
      split <;> simp [ReceiverPc.emergency, hpc]
  | receive =>
      have hnone : s.receiver.emergency = none := by simp [ReceiverPc.emergency, hpc]
      simp only [stepReceiver, hpc] at h
      split at h
      · simp at h
      · rename_i message mq hmq
        split at h
        · obtain rfl := Option.some.inj h
          exact .quiet { Quiet.refl s with receiver := by simp [ReceiverPc.emergency, hpc] }
        · split at h
          · obtain rfl := Option.some.inj h
            exact .quiet { Quiet.refl s with receiver := by simp [ReceiverPc.emergency, hpc] }
          · split at h <;> obtain rfl := Option.some.inj h
            · exact .quiet { Quiet.refl s with
                receiver := by simp [ReceiverPc.emergency, crash, hpc] }
            · rename_i request hparse _ emergency hemergency
              exact .receive request emergency mq hnone hemergency message hpc hmq hparse
  | push e =>
      simp only [stepReceiver, hpc] at h
      obtain ⟨worker, hwoken, hsignal, rfl⟩ := pushEmergency_eq h
      exact .receiverPush e _ worker hpc hwoken rfl hsignal
  | exited => simp [stepReceiver, hpc] at h

theorem emergency_wakeTick (pc : UpdaterPc) : (wakeTick pc).emergency = pc.emergency := by
  cases pc <;> rfl

theorem arriving_wakeTick {pc : UpdaterPc} {t : TwinId} (h : (wakeTick pc).arriving t) :
    pc.arriving t := by
  cases pc <;> exact h

theorem subjects_wakeTick (pc : UpdaterPc) : (wakeTick pc).subjects = pc.subjects := by
  cases pc <;> rfl

theorem stepClock_quiet (h : s.stepClock = some s') : Quiet s s' := by
  cases hpc : s.clock <;> simp only [stepClock, hpc, reduceCtorEq, Option.some.injEq] at h <;>
    subst h
  · exact { Quiet.refl s with }
  · exact { Quiet.refl s with
      updater := emergency_wakeTick _
      arriving := fun t => arriving_wakeTick
      subjects := fun h => (subjects_wakeTick _).symm ▸ h }
  · exact { Quiet.refl s with
      updater := emergency_wakeTick _
      arriving := fun t => arriving_wakeTick
      subjects := fun h => (subjects_wakeTick _).symm ▸ h }

theorem stepMain_quiet {ok : Bool} (h : s.stepMain ok = some s') : Quiet s s' := by
  cases hpc : s.main with
  | start =>
      simp only [stepMain, hpc] at h
      split at h <;> obtain rfl := Option.some.inj h <;> exact { Quiet.refl s with }
  | shutdown todo =>
      cases todo with
      | nil =>
          simp only [stepMain, hpc] at h
          obtain rfl := Option.some.inj h
          exact { Quiet.refl s with }
      | cons op rest =>
          simp only [stepMain, hpc, Option.map_eq_some_iff, Prod.exists] at h
          obtain ⟨s₁, more, hop, rfl⟩ := h
          exact { shutdownOp_quiet hop with }
  | join =>
      simp only [stepMain, hpc] at h
      split at h <;> simp only [Option.some.injEq, reduceCtorEq] at h
      subst h
      exact { Quiet.refl s with }
  | closeServer =>
      simp only [stepMain, hpc, Option.map_eq_some_iff, Prod.exists] at h
      obtain ⟨s₁, more, hop, rfl⟩ := h
      exact { shutdownOp_quiet hop with }
  | sigwait =>
      simp only [stepMain, hpc] at h
      obtain rfl := Option.some.inj h
      exact { Quiet.refl s with }
  | closed => simp [stepMain, hpc] at h

theorem setWorker_quiet {i : Worker} {pc : WorkerPc} (h : Woken (s.worker i) pc) :
    Quiet s (s.setWorker i pc) := by
  refine { Quiet.refl s with worker := fun j => ?_, closed := .inl rfl }
  by_cases hj : j = i
  · subst hj; simpa [setWorker] using h
  · simpa [setWorker, hj] using Woken.same _

theorem stepWakeWorker_quiet {i : Worker} (h : s.stepWakeWorker i = some s') : Quiet s s' := by
  cases hpc : s.worker i <;> simp only [stepWakeWorker, hpc, reduceCtorEq] at h <;>
    obtain rfl := Option.some.inj h
  · exact setWorker_quiet (hpc ▸ .pop)
  · exact setWorker_quiet (hpc ▸ .blocked _)

/-- The step of the thread that an action lets run. -/
inductive ThreadStep (cfg : Config) (s : State) : Action → State → Prop
  | clock {s' : State} (hstarted : 1 ≤ s.started) (h : s.stepClock = some s') :
      ThreadStep cfg s .clock s'
  | updater {s' : State} (woken : Option Worker) (hstarted : 2 ≤ s.started)
      (h : s.stepUpdater cfg woken = some s') : ThreadStep cfg s (.updater woken) s'
  | receiver {s' : State} (woken : Option Worker) (hstarted : 3 ≤ s.started)
      (h : s.stepReceiver cfg woken = some s') : ThreadStep cfg s (.receiver woken) s'
  | worker {s' : State} (i : Worker) (hstarted : 4 + i.val ≤ s.started)
      (h : s.stepWorker cfg i = some s') : ThreadStep cfg s (.worker i) s'
  | main {s' : State} (ok : Bool) (h : s.stepMain ok = some s') : ThreadStep cfg s (.main ok) s'
  | client (message : CString) (h : s.mq.length < MQ_MAXMSG) :
      ThreadStep cfg s (.client message) { s with mq := s.mq ++ [message] }
  | wakeWorker {s' : State} (i : Worker) (h : s.stepWakeWorker i = some s') :
      ThreadStep cfg s (.wakeWorker i) s'
  | wakeUpdater (hpc : s.updater = .tickWait) :
      ThreadStep cfg s .wakeUpdater { s with updater := .takeTick }

/-- A step is the step of a thread that has been created, before any fault. -/
theorem step_thread {a : Action} (h : State.step cfg s a = some s') :
    s.fault = none ∧ ThreadStep cfg s a s' := by
  unfold State.step at h
  split at h
  · simp at h
  rename_i hfault
  refine ⟨by simpa using hfault, ?_⟩
  cases a <;> simp only [Option.ite_none_right_eq_some] at h
  case clock => exact .clock h.1 h.2
  case updater woken => exact .updater woken h.1 h.2
  case receiver woken => exact .receiver woken h.1 h.2
  case worker i => exact .worker i h.1 h.2
  case main ok => exact .main ok h
  case client message =>
    obtain ⟨hlength, h⟩ := h
    obtain rfl := Option.some.inj h
    exact .client message hlength
  case wakeWorker i => exact .wakeWorker i h
  case wakeUpdater =>
    obtain ⟨hpc, h⟩ := h
    obtain rfl := Option.some.inj h
    exact .wakeUpdater hpc

/-- **Step lemma.**  Every step has one of the effects, and nothing steps after a fault. -/
theorem step_effect {a : Action} (h : State.step cfg s a = some s') :
    s.fault = none ∧ Effect cfg s a s' := by
  obtain ⟨hfault, hthread⟩ := step_thread h
  refine ⟨hfault, ?_⟩
  cases hthread with
  | clock _ h => exact .quiet (stepClock_quiet h)
  | updater woken _ h => exact stepUpdater_effect h
  | receiver woken _ h => exact stepReceiver_effect h
  | worker i _ h => exact stepWorker_effect h
  | main ok h => exact .quiet (stepMain_quiet h)
  | client message _ => exact .quiet { Quiet.refl s with }
  | wakeWorker i h => exact .quiet (stepWakeWorker_quiet h)
  | wakeUpdater hpc =>
      exact .quiet (quiet_updater (by simp [UpdaterPc.emergency, hpc])
        (by simp [UpdaterPc.arriving, UpdaterPc.subjects]))

theorem Effect.serverMustStop {a : Action} (h : Effect cfg s a s')
    (hstop : s.serverMustStop = true) : s'.serverMustStop = true := by
  cases h with
  | quiet hq => exact hq.serverMustStop hstop
  | _ => exact hstop

end EmergencyDispatch
