import EmergencyDispatch.Effects
import EmergencyDispatch.Library.OrderedLocking

/-!
# The mutexes of the server

The sections of the server, one for each step of `State.step`, with the mutexes
that `lock_emergencies`, `lock_system`, `lock_server_clock` and the functions of
the queues take and release.  The order is: the clock, the rescuers, the active
emergencies, the queues.

The updater keeps the rescuers and the active emergencies from `lock_system` to
`unlock_system`.  The one section that breaks the order is in there:
`request_shutdown_from_thread`, called by a fatal branch of the update, asks for
the active emergencies in `wake_everyone_now` (`fatal_update_deadlocks`).  In the
runs that take no such branch all mutexes are taken in order.
-/

namespace EmergencyDispatch

open OrderedLocking

/-! ## Mutexes, threads and sections -/

inductive Mutex
  | clock
  | rescuers
  | activeEmergencies
  | emergencyQueue
  | completedEmergencies
  | canceledEmergencies
  deriving DecidableEq

/-- The order in which the server takes its mutexes. -/
def Mutex.rank : Mutex → ℕ
  | .clock => 0
  | .rescuers => 1
  | .activeEmergencies => 2
  | .emergencyQueue | .completedEmergencies | .canceledEmergencies => 3

inductive Thread
  | clock
  | updater
  | receiver
  | worker (i : Worker)
  | main
  deriving DecidableEq

/-- The thread that makes a step; clients and spurious wake-ups are the environment. -/
def Action.thread : Action → Option Thread
  | .clock => some .clock
  | .updater _ => some .updater
  | .receiver _ => some .receiver
  | .worker i => some (.worker i)
  | .main _ => some .main
  | .client _ | .wakeWorker _ | .wakeUpdater => none

/-- `lock_system`, in the order of the source. -/
def lockSystem : List Mutex := [.rescuers, .activeEmergencies]

/-- The same mutexes, the last one taken first. -/
def systemMutexes : List Mutex := lockSystem.reverse

def ClockPc.section : ClockPc → Option (Section Mutex)
  | .loop => some .free
  | .tick | .lastTick => some (.locking [.clock])
  | .exited => none

def ShutdownOp.section : ShutdownOp → Section Mutex
  | .close => .locking [.emergencyQueue]
  | .wake => .locking [.activeEmergencies]
  | .request | .raise | .updated | .send => .free

def UpdaterPc.section : UpdaterPc → Option (Section Mutex)
  | .loop | .readCount => some .free
  | .takeTick => some (.locking [.clock])
  | .begin _ => some ⟨lockSystem.map .acquire, []⟩
  | .updating [] => some ⟨[], systemMutexes.map .release⟩
  | .updating (.shutdown op :: _) => some op.section
  | .updating (_ :: _) => some .free
  | .mapWaiting | .expire | .promote | .promoted _ => some (.locking [.emergencyQueue])
  | .expired _ => some (.locking [.canceledEmergencies])
  | .tickWait | .diverged | .exited => none

def ReceiverPc.section : ReceiverPc → Option (Section Mutex)
  | .loop | .receive => some .free
  | .push _ => some (.locking [.emergencyQueue])
  | .exited => none

/-- The queue of the store. -/
def StoreReason.queue (reason : StoreReason) : Mutex :=
  if reason.toCompleted then .completedEmergencies else .canceledEmergencies

def WorkerPc.section : WorkerPc → Option (Section Mutex)
  | .loop | .inner _ | .woken _ | .testPaused _ | .testCompleted _ | .testCanceled _ | .ended _ =>
      some .free
  | .pop => some (.locking [.emergencyQueue])
  | .popped _ | .wait _ | .closing _ => some (.locking [.activeEmergencies])
  | .find _ => some (.locking lockSystem)
  | .store _ reason => some (.locking [.activeEmergencies, reason.queue])
  | .popWait | .blocked _ | .exited => none

/-- The queues that `close_server` goes through with `pq_map`: the positions are written to two
files, then the emergencies are counted. -/
def mappedQueues : List Mutex :=
  [.completedEmergencies, .canceledEmergencies, .completedEmergencies, .canceledEmergencies,
    .canceledEmergencies, .canceledEmergencies, .emergencyQueue]

def MainPc.section : MainPc → Option (Section Mutex)
  | .start | .sigwait | .shutdown [] | .join => some .free
  | .shutdown (op :: _) => some op.section
  | .closeServer => some
      ⟨mappedQueues.flatMap (fun queue => [.acquire queue, .release queue]) ++
          [.acquire .activeEmergencies],
        [.release .activeEmergencies]⟩
  | .closed => none

/-- The section a thread enters next; none before it is created and while it is
blocked on a condition variable. -/
def State.plan (s : State) : Thread → Option (Section Mutex)
  | .clock => if 1 ≤ s.started then s.clock.section else none
  | .updater => if 2 ≤ s.started then s.updater.section else none
  | .receiver => if 3 ≤ s.started then s.receiver.section else none
  | .worker i => if 4 + i.val ≤ s.started then (s.worker i).section else none
  | .main => s.main.section

/-- What the updater keeps between two sections, the last one taken first. -/
def UpdaterPc.held : UpdaterPc → List Mutex
  | .updating _ | .diverged => systemMutexes
  | _ => []

/-- What a thread keeps between two sections: only the updater keeps something. -/
def State.held (s : State) : Thread → List Mutex
  | .updater => s.updater.held
  | _ => []

/-- The server with its mutexes. -/
def server (cfg : Config) : Program State Action Thread Mutex where
  step := State.step cfg
  thread := Action.thread
  plan := State.plan

/-- A fatal branch of the update calls `request_shutdown_from_thread`, and no
thread has called it before. -/
def requestsFromUpdate (s : State) : Action → Bool
  | .updater _ =>
      match s.updater with
      | .updating (.shutdown .request :: _) => !s.exited
      | _ => false
  | _ => false

/-- No fatal branch of an update is the first to request the shutdown. -/
def NoFatalUpdate (s : State) (a : Action) : Prop := requestsFromUpdate s a = false

instance : ∀ s a, Decidable (NoFatalUpdate s a) := fun s a =>
  inferInstanceAs (Decidable (requestsFromUpdate s a = false))

/-! ## What a step does to the other threads -/

section frame

open State

variable {cfg : Config} {s s' : State} {mover : Option Thread}

/-- The threads other than the one that moves stay where they are or are woken,
and no thread is ended from outside. -/
structure Frame (s s' : State) (mover : Option Thread) : Prop where
  started : s.started ≤ s'.started
  created : mover ≠ some .main → s'.started = s.started
  accepted : mover ≠ some .receiver → s'.nextId = s.nextId ∧ s'.validCount = s.validCount
  clock : mover ≠ some .clock → s'.clock = s.clock
  updater : mover ≠ some .updater → s'.updater = s.updater ∨ s'.updater = wakeTick s.updater
  receiver : mover ≠ some .receiver → s'.receiver = s.receiver
  worker : ∀ i, mover ≠ some (.worker i) → Woken (s.worker i) (s'.worker i)
  main : mover ≠ some .main → s'.main = s.main
  ticks : mover ≠ some .clock → mover ≠ some .updater → s'.tick = s.tick ∧
    s'.tickCountSinceStart = s.tickCountSinceStart ∧ s'.updates = s.updates

theorem Frame.refl (s : State) (mover : Option Thread) : Frame s s mover where
  started := le_rfl
  created _ := rfl
  accepted _ := ⟨rfl, rfl⟩
  clock _ := rfl
  updater _ := .inl rfl
  receiver _ := rfl
  worker _ _ := .same _
  main _ := rfl
  ticks _ _ := ⟨rfl, rfl, rfl⟩

theorem Frame.of_none (h : Frame s s' none) (mover : Option Thread) : Frame s s' mover where
  started := h.started
  created _ := h.created (by simp)
  accepted _ := h.accepted (by simp)
  clock _ := h.clock (by simp)
  updater _ := h.updater (by simp)
  receiver _ := h.receiver (by simp)
  worker i _ := h.worker i (by simp)
  main _ := h.main (by simp)
  ticks _ _ := h.ticks (by simp) (by simp)

theorem Frame.setWorker {i : Worker} (h : Frame s s' (some (.worker i))) (pc : WorkerPc) :
    Frame s (s'.setWorker i pc) (some (.worker i)) :=
  { h with
    worker := fun j hj => by
      have hji : j ≠ i := by simpa [eq_comm] using hj
      simpa [State.setWorker, hji] using h.worker j hj }

theorem shutdownOp_frame {op : ShutdownOp} {more : List ShutdownOp}
    (h : s.shutdownOp op = some (s', more)) : Frame s s' none := by
  cases op <;> simp only [shutdownOp] at h
  case request =>
    split at h <;> obtain ⟨rfl, -⟩ := Prod.mk.inj (Option.some.inj h)
    · exact .refl s _
    · exact { Frame.refl s none with }
  case raise =>
    obtain ⟨rfl, -⟩ := Prod.mk.inj (Option.some.inj h)
    exact { Frame.refl s none with }
  case close =>
    obtain ⟨rfl, -⟩ := Prod.mk.inj (Option.some.inj h)
    exact { Frame.refl s none with worker := fun i _ => woken_wakePop _ }
  case updated =>
    obtain ⟨rfl, -⟩ := Prod.mk.inj (Option.some.inj h)
    exact { Frame.refl s none with updater := fun _ => .inr rfl }
  case wake =>
    split at h
    · obtain ⟨rfl, -⟩ := Prod.mk.inj (Option.some.inj h)
      exact { Frame.refl s none with worker := fun i _ => woken_wakeBlocked _ _ }
    · simp at h
  case send =>
    split at h
    · obtain ⟨rfl, -⟩ := Prod.mk.inj (Option.some.inj h)
      exact { Frame.refl s none with }
    · simp at h

theorem stepWorker_frame {i : Worker} (h : s.stepWorker cfg i = some s') :
    Frame s s' (some (.worker i)) := by
  have hsame := Frame.refl s (some (.worker i))
  cases hpc : s.worker i <;> simp only [stepWorker, hpc, reduceCtorEq] at h
  case pop =>
    split at h <;> obtain rfl := Option.some.inj h <;> refine .setWorker ?_ _
    · exact { hsame with }
    · exact hsame
  case find e =>
    split at h
    · split at h <;> obtain rfl := Option.some.inj h
      · exact { hsame with }
      · refine .setWorker ?_ _
        exact { hsame with worker := fun j _ => woken_wakeBlocked _ _ }
    · simp at h
  case store e reason =>
    split at h
    · obtain rfl := Option.some.inj h
      obtain ⟨level, heq⟩ := changeStatusStoreClose_eq cfg s i e reason
      rw [heq]
      refine .setWorker ?_ _
      exact { hsame with }
    · simp at h
  case popped e =>
    split at h
    · obtain rfl := Option.some.inj h
      refine .setWorker ?_ _
      exact { hsame with }
    · simp at h
  case wait e =>
    split at h
    · split at h <;> obtain rfl := Option.some.inj h <;> exact hsame.setWorker _
    · simp at h
  case closing leaving =>
    split at h
    · obtain rfl := Option.some.inj h
      refine .setWorker ?_ _
      exact { hsame with }
    · simp at h
  all_goals
    obtain rfl := Option.some.inj h
    exact hsame.setWorker _

theorem stepUpdate_frame {op : UpdateOp} {rest : List UpdateOp}
    (h : s.stepUpdate cfg rest op = some s') : Frame s s' (some .updater) := by
  have hsame := Frame.refl s (some .updater)
  cases op with
  | twin t =>
      simp only [stepUpdate] at h
      split at h <;> obtain rfl := Option.some.inj h <;>
        exact { hsame with updater := fun hmover => absurd rfl hmover }
  | arrive t =>
      simp only [stepUpdate] at h
      split at h <;> obtain rfl := Option.some.inj h <;>
        exact { hsame with updater := fun hmover => absurd rfl hmover }
  | slot i =>
      simp only [stepUpdate] at h
      split at h <;> obtain rfl := Option.some.inj h
      · exact { hsame with updater := fun hmover => absurd rfl hmover }
      · exact { hsame with
          updater := fun hmover => absurd rfl hmover
          worker := fun j _ => woken_wakeBlocked _ _ }
  | shutdown op =>
      simp only [stepUpdate, Option.map_eq_some_iff, Prod.exists] at h
      obtain ⟨s₁, more, hop, rfl⟩ := h
      exact { (shutdownOp_frame hop).of_none (some .updater) with
        updater := fun hmover => absurd rfl hmover }

theorem pushEmergency_frame {e : EmergencyId} {woken : Option Worker}
    (h : s.pushEmergency cfg e woken = some s') : Frame s s' none := by
  obtain ⟨worker, hwoken, -, rfl⟩ := pushEmergency_eq h
  exact { Frame.refl s none with worker := fun i _ => hwoken i }

theorem stepUpdater_frame {woken : Option Worker} (h : s.stepUpdater cfg woken = some s') :
    Frame s s' (some .updater) := by
  have hsame (pc : UpdaterPc) : Frame s { s with updater := pc } (some .updater) :=
    { Frame.refl s (some .updater) with updater := fun hmover => absurd rfl hmover }
  cases hpc : s.updater with
  | updating todo =>
      cases todo with
      | nil =>
          simp only [stepUpdater, hpc] at h
          obtain rfl := Option.some.inj h
          exact hsame _
      | cons op rest =>
          simp only [stepUpdater, hpc] at h
          exact stepUpdate_frame h
  | takeTick =>
      simp only [stepUpdater, hpc] at h
      split at h
      · obtain rfl := Option.some.inj h
        exact hsame _
      · split at h <;> obtain rfl := Option.some.inj h
        · exact hsame _
        · exact { hsame .readCount with ticks := fun _ hmover => absurd rfl hmover }
  | expire | promote =>
      simp only [stepUpdater, hpc] at h
      split at h <;> obtain rfl := Option.some.inj h
      · rename_i e queue _
        exact { hsame _ with }
      · exact hsame _
  | promoted e =>
      simp only [stepUpdater, hpc] at h
      exact { (pushEmergency_frame h).of_none (some .updater) with
        updater := fun hmover => absurd rfl hmover }
  | tickWait | diverged | exited => simp [stepUpdater, hpc] at h
  | begin cycle =>
      simp only [stepUpdater, hpc] at h
      obtain rfl := Option.some.inj h
      exact { hsame _ with ticks := fun _ hmover => absurd rfl hmover }
  | loop | readCount | mapWaiting | expired e =>
      simp only [stepUpdater, hpc] at h
      obtain rfl := Option.some.inj h
      exact { hsame _ with }

theorem stepReceiver_frame {woken : Option Worker} (h : s.stepReceiver cfg woken = some s') :
    Frame s s' (some .receiver) := by
  have hsame (pc : ReceiverPc) : Frame s { s with receiver := pc } (some .receiver) :=
    { Frame.refl s (some .receiver) with receiver := fun hmover => absurd rfl hmover }
  cases hpc : s.receiver with
  | loop =>
      simp only [stepReceiver, hpc] at h
      obtain rfl := Option.some.inj h
      exact hsame _
  | receive =>
      simp only [stepReceiver, hpc] at h
      split at h
      · simp at h
      · split at h
        · obtain rfl := Option.some.inj h
          exact { hsame _ with }
        · split at h
          · obtain rfl := Option.some.inj h
            exact { hsame _ with }
          · split at h <;> obtain rfl := Option.some.inj h
            · exact { Frame.refl s (some .receiver) with
                receiver := fun hmover => absurd rfl hmover }
            · exact { hsame _ with accepted := fun hmover => absurd rfl hmover }
  | push e =>
      simp only [stepReceiver, hpc] at h
      exact { (pushEmergency_frame h).of_none (some .receiver) with
        receiver := fun hmover => absurd rfl hmover }
  | exited => simp [stepReceiver, hpc] at h

theorem stepClock_frame (h : s.stepClock = some s') : Frame s s' (some .clock) := by
  have hsame (pc : ClockPc) : Frame s { s with clock := pc } (some .clock) :=
    { Frame.refl s (some .clock) with clock := fun hmover => absurd rfl hmover }
  cases hpc : s.clock <;> simp only [stepClock, hpc, reduceCtorEq] at h <;>
    obtain rfl := Option.some.inj h
  · exact hsame _
  · exact { hsame .loop with
      updater := fun _ => .inr rfl
      ticks := fun hmover => absurd rfl hmover }
  · exact { hsame .exited with
      updater := fun _ => .inr rfl
      ticks := fun hmover => absurd rfl hmover }

theorem stepMain_frame {ok : Bool} (h : s.stepMain ok = some s') :
    Frame s s' (some .main) := by
  have hsame (pc : MainPc) : Frame s { s with main := pc } (some .main) :=
    { Frame.refl s (some .main) with main := fun hmover => absurd rfl hmover }
  cases hpc : s.main with
  | start =>
      simp only [stepMain, hpc] at h
      split at h <;> obtain rfl := Option.some.inj h
      · exact { hsame _ with
          started := Nat.le_succ _
          created := fun hmover => absurd rfl hmover }
      · exact hsame _
  | shutdown todo =>
      cases todo with
      | nil =>
          simp only [stepMain, hpc] at h
          obtain rfl := Option.some.inj h
          exact hsame _
      | cons op rest =>
          simp only [stepMain, hpc, Option.map_eq_some_iff, Prod.exists] at h
          obtain ⟨s₁, more, hop, rfl⟩ := h
          exact { (shutdownOp_frame hop).of_none (some .main) with
            main := fun hmover => absurd rfl hmover }
  | sigwait =>
      simp only [stepMain, hpc] at h
      obtain rfl := Option.some.inj h
      exact hsame _
  | join =>
      simp only [stepMain, hpc] at h
      split at h
      · obtain rfl := Option.some.inj h
        exact hsame _
      · simp at h
  | closeServer =>
      simp only [stepMain, hpc, Option.map_eq_some_iff, Prod.exists] at h
      obtain ⟨s₁, more, hop, rfl⟩ := h
      exact { (shutdownOp_frame hop).of_none (some .main) with
        main := fun hmover => absurd rfl hmover }
  | closed => simp [stepMain, hpc] at h

theorem stepWakeWorker_frame {i : Worker} (h : s.stepWakeWorker i = some s') :
    Frame s s' none := by
  have hwoken := (stepWakeWorker_quiet h).worker
  cases hpc : s.worker i <;> simp only [stepWakeWorker, hpc, reduceCtorEq] at h <;>
    obtain rfl := Option.some.inj h <;>
    exact { Frame.refl s none with worker := fun j _ => hwoken j }

theorem step_updater {a : Action} (h : State.step cfg s a = some s')
    (ha : a.thread = some .updater) :
    ∃ woken, a = .updater woken ∧ s.stepUpdater cfg woken = some s' := by
  cases (step_thread h).2 <;> simp only [Action.thread, Option.some.injEq, reduceCtorEq] at ha
  case updater woken _ h => exact ⟨woken, rfl, h⟩

theorem step_receiver {a : Action} (h : State.step cfg s a = some s')
    (ha : a.thread = some .receiver) :
    ∃ woken, a = .receiver woken ∧ s.stepReceiver cfg woken = some s' := by
  cases (step_thread h).2 <;> simp only [Action.thread, Option.some.injEq, reduceCtorEq] at ha
  case receiver woken _ h => exact ⟨woken, rfl, h⟩

theorem step_main {a : Action} (h : State.step cfg s a = some s') (ha : a.thread = some .main) :
    ∃ ok, a = .main ok ∧ s.stepMain ok = some s' := by
  cases (step_thread h).2 <;> simp only [Action.thread, Option.some.injEq, reduceCtorEq] at ha
  case main ok h => exact ⟨ok, rfl, h⟩

/-- **Frame lemma.**  A step moves its own thread only. -/
theorem step_frame {a : Action} (h : State.step cfg s a = some s') : Frame s s' a.thread := by
  cases (step_thread h).2 with
  | clock _ h => exact stepClock_frame h
  | updater woken _ h => exact stepUpdater_frame h
  | receiver woken _ h => exact stepReceiver_frame h
  | worker i _ h => exact stepWorker_frame h
  | main ok h => exact stepMain_frame h
  | client message _ => exact { Frame.refl s none with }
  | wakeWorker i h => exact stepWakeWorker_frame h
  | wakeUpdater hpc =>
      exact { Frame.refl s none with updater := fun _ => .inr (by simp [wakeTick, hpc]) }

theorem thread_of_moved {a : Action} (hstep : State.step cfg s a = some s')
    (hmoved : s'.updater ≠ s.updater) (hawake : s.updater ≠ .tickWait) :
    a.thread = some .updater := by
  by_contra ha
  rcases (step_frame hstep).updater ha with hsame | hwoken
  · exact hmoved hsame
  · refine hmoved (hwoken.trans ?_)
    cases hpc : s.updater with
    | tickWait => exact absurd hpc hawake
    | _ => rfl

theorem stepReceiver_accepted {woken : Option Worker}
    (h : s.stepReceiver cfg woken = some s') :
    (s'.nextId = s.nextId ∧ s'.validCount = s.validCount) ∨
      (s'.nextId = s.nextId + 1 ∧ s'.validCount = s.validCount + 1 ∧
        s'.receiver = .push s.nextId) := by
  cases hpc : s.receiver with
  | loop =>
      simp only [stepReceiver, hpc] at h
      obtain rfl := Option.some.inj h
      exact .inl ⟨rfl, rfl⟩
  | receive =>
      simp only [stepReceiver, hpc] at h
      split at h
      · simp at h
      · split at h
        · obtain rfl := Option.some.inj h
          exact .inl ⟨rfl, rfl⟩
        · split at h
          · obtain rfl := Option.some.inj h
            exact .inl ⟨rfl, rfl⟩
          · split at h <;> obtain rfl := Option.some.inj h
            · exact .inl ⟨rfl, rfl⟩
            · exact .inr ⟨rfl, rfl, rfl⟩
  | push e =>
      simp only [stepReceiver, hpc] at h
      obtain ⟨worker, -, -, rfl⟩ := pushEmergency_eq h
      exact .inl ⟨rfl, rfl⟩
  | exited => simp [stepReceiver, hpc] at h

theorem step_accepted {a : Action} (h : State.step cfg s a = some s') :
    (s'.nextId = s.nextId ∧ s'.validCount = s.validCount) ∨
      (s'.nextId = s.nextId + 1 ∧ s'.validCount = s.validCount + 1 ∧
        s'.receiver = .push s.nextId) := by
  by_cases ha : a.thread = some .receiver
  · obtain ⟨woken, rfl, hreceiver⟩ := step_receiver h ha
    exact stepReceiver_accepted hreceiver
  · exact .inl ((step_frame h).accepted ha)

theorem Woken.section {pc pc' : WorkerPc} (h : Woken pc pc') {sec : Section Mutex}
    (hsec : pc.section = some sec) : pc'.section = some sec := by
  cases h with
  | same => exact hsec
  | pop | blocked => simp [WorkerPc.section] at hsec

theorem Frame.plan {t : Thread} (h : Frame s s' mover) (ht : mover ≠ some t)
    {sec : Section Mutex} (hplan : s.plan t = some sec) : s'.plan t = some sec := by
  have hstarted := h.started
  cases t <;> simp only [State.plan, Option.ite_none_right_eq_some] at hplan ⊢
  case clock =>
    rw [h.clock ht]
    exact ⟨hplan.1.trans hstarted, hplan.2⟩
  case updater =>
    refine ⟨hplan.1.trans hstarted, ?_⟩
    rcases h.updater ht with heq | heq <;> rw [heq]
    · exact hplan.2
    · cases hpc : s.updater <;> simp_all [wakeTick, UpdaterPc.section]
  case receiver =>
    rw [h.receiver ht]
    exact ⟨hplan.1.trans hstarted, hplan.2⟩
  case worker i =>
    refine ⟨hplan.1.trans hstarted, ?_⟩
    exact (h.worker i ht).section hplan.2
  case main =>
    rw [h.main ht]
    exact hplan

theorem Frame.held {t : Thread} (h : Frame s s' mover) (ht : mover ≠ some t) :
    s'.held t = s.held t := by
  cases t <;> try rfl
  rcases h.updater ht with heq | heq <;> simp only [State.held, heq]
  cases s.updater <;> rfl

end frame

/-! ## What a step does to its own thread -/

section own

open State

variable {cfg : Config} {s s' : State}

/-- The section of a program counter leads from what its thread keeps to what it keeps next. -/
def SectionTo (sec : Option (Section Mutex)) (held held' : List Mutex) : Prop :=
  ∃ enter leave, sec = some ⟨enter, leave⟩ ∧
    follow Mutex.rank held (enter ++ leave) = some held'

theorem SectionTo.follow {sec : Section Mutex} {planned : Option (Section Mutex)}
    {held held' : List Mutex} (h : SectionTo planned held held') (hplan : planned = some sec) :
    OrderedLocking.follow Mutex.rank held (sec.enter ++ sec.leave) = some held' := by
  obtain ⟨enter, leave, heq, hfollow⟩ := h
  obtain rfl := Option.some.inj (hplan.symm.trans heq)
  exact hfollow

theorem ShutdownOp.section_balanced (op : ShutdownOp) :
    SectionTo (some op.section) [] [] := by
  cases op <;> exact ⟨_, _, rfl, rfl⟩

theorem ClockPc.section_balanced {pc : ClockPc} (h : pc.section.isSome) :
    SectionTo pc.section [] [] := by
  cases pc <;> first | exact ⟨_, _, rfl, rfl⟩ | simp [ClockPc.section] at h

theorem ReceiverPc.section_balanced {pc : ReceiverPc} (h : pc.section.isSome) :
    SectionTo pc.section [] [] := by
  cases pc <;> first | exact ⟨_, _, rfl, rfl⟩ | simp [ReceiverPc.section] at h

theorem WorkerPc.section_balanced {pc : WorkerPc} (h : pc.section.isSome) :
    SectionTo pc.section [] [] := by
  cases pc with
  | store e reason => cases reason <;> exact ⟨_, _, rfl, rfl⟩
  | _ => first | exact ⟨_, _, rfl, rfl⟩ | simp [WorkerPc.section] at h

theorem MainPc.section_balanced {pc : MainPc} (h : pc.section.isSome) :
    SectionTo pc.section [] [] := by
  cases pc with
  | shutdown todo =>
      cases todo with
      | nil => exact ⟨_, _, rfl, rfl⟩
      | cons op rest => exact op.section_balanced
  | _ => first | exact ⟨_, _, rfl, rfl⟩ | simp [MainPc.section] at h

/-- The only part of a shutdown that an update still has to do is to request it. -/
def UpdaterPc.Harmless : UpdaterPc → Prop
  | .updating todo => ∀ op, .shutdown op ∈ todo → op = .request
  | _ => True

/-- Outside `lock_system` and `unlock_system` the sections of the updater are
balanced; inside, an operation of a harmless update needs no mutex. -/
theorem UpdaterPc.section_enter {pc : UpdaterPc} (hharmless : pc.Harmless)
    {sec : Section Mutex} (h : pc.section = some sec) :
    ∃ inner, follow Mutex.rank pc.held sec.enter = some inner := by
  cases pc with
  | updating todo =>
      rcases todo with - | ⟨op, rest⟩
      · obtain rfl := Option.some.inj h
        exact ⟨_, rfl⟩
      · cases op with
        | shutdown op =>
            obtain rfl := hharmless op List.mem_cons_self
            obtain rfl := Option.some.inj h
            exact ⟨_, rfl⟩
        | _ =>
            obtain rfl := Option.some.inj h
            exact ⟨_, rfl⟩
  | tickWait | diverged | exited => simp [UpdaterPc.section] at h
  | _ =>
      obtain rfl := Option.some.inj h
      exact ⟨_, rfl⟩

theorem harmless_updateOps (cfg : Config) : (UpdaterPc.updating (updateOps cfg)).Harmless := by
  simp [UpdaterPc.Harmless, updateOps]

/-- An operation of an update keeps the system locked; `wake` cannot be done. -/
theorem stepUpdate_own {op : UpdateOp} {rest : List UpdateOp}
    (hpc : s.updater = .updating (op :: rest)) (h : s.stepUpdate cfg rest op = some s') :
    SectionTo s.updater.section s.updater.held s'.updater.held := by
  cases op with
  | twin t =>
      have hsection : SectionTo s.updater.section s.updater.held systemMutexes := by
        rw [hpc]
        exact ⟨_, _, rfl, rfl⟩
      simp only [stepUpdate] at h
      split at h <;> obtain rfl := Option.some.inj h
      · exact hsection
      · exact hsection
      · exact hsection
      · change SectionTo s.updater.section s.updater.held s.updater.held
        rw [hpc]
        exact ⟨_, _, rfl, rfl⟩
  | arrive t =>
      have hsection : SectionTo s.updater.section s.updater.held systemMutexes := by
        rw [hpc]
        exact ⟨_, _, rfl, rfl⟩
      simp only [stepUpdate] at h
      split at h <;> obtain rfl := Option.some.inj h
      · exact hsection
      · exact hsection
      · change SectionTo s.updater.section s.updater.held s.updater.held
        rw [hpc]
        exact ⟨_, _, rfl, rfl⟩
  | slot i =>
      rw [hpc]
      simp only [stepUpdate] at h
      split at h <;> obtain rfl := Option.some.inj h <;> exact ⟨_, _, rfl, rfl⟩
  | shutdown op =>
      simp only [stepUpdate, Option.map_eq_some_iff, Prod.exists] at h
      obtain ⟨s₁, more, hop, rfl⟩ := h
      rw [hpc]
      cases op with
      | wake => simp [shutdownOp, systemFree, hpc] at hop
      | _ => exact ⟨_, _, rfl, rfl⟩

theorem stepUpdater_own {woken : Option Worker} (h : s.stepUpdater cfg woken = some s') :
    SectionTo s.updater.section s.updater.held s'.updater.held := by
  cases hpc : s.updater with
  | updating todo =>
      cases todo with
      | nil =>
          simp only [stepUpdater, hpc] at h
          obtain rfl := Option.some.inj h
          exact ⟨_, _, rfl, rfl⟩
      | cons op rest =>
          simp only [stepUpdater, hpc] at h
          rw [← hpc]
          exact stepUpdate_own hpc h
  | loop =>
      simp only [stepUpdater, hpc] at h
      obtain rfl := Option.some.inj h
      dsimp only
      split <;> exact ⟨_, _, rfl, rfl⟩
  | takeTick =>
      simp only [stepUpdater, hpc] at h
      split at h
      · obtain rfl := Option.some.inj h
        exact ⟨_, _, rfl, rfl⟩
      · split at h <;> obtain rfl := Option.some.inj h <;> exact ⟨_, _, rfl, rfl⟩
  | expire | promote =>
      simp only [stepUpdater, hpc] at h
      split at h <;> obtain rfl := Option.some.inj h <;> exact ⟨_, _, rfl, rfl⟩
  | promoted e =>
      simp only [stepUpdater, hpc] at h
      obtain ⟨worker, -, -, rfl⟩ := pushEmergency_eq h
      exact ⟨_, _, rfl, rfl⟩
  | tickWait | diverged | exited => simp [stepUpdater, hpc] at h
  | readCount | begin cycle | mapWaiting | expired e =>
      simp only [stepUpdater, hpc] at h
      obtain rfl := Option.some.inj h
      exact ⟨_, _, rfl, rfl⟩

/-- What an operation of an update adds to it is at most a request of the shutdown. -/
theorem stepUpdate_harmless {op : UpdateOp} {rest : List UpdateOp} {woken : Option Worker}
    (hpc : s.updater = .updating (op :: rest)) (hharmless : s.updater.Harmless)
    (hguard : NoFatalUpdate s (.updater woken)) (h : s.stepUpdate cfg rest op = some s') :
    s'.updater.Harmless := by
  have hsame := hharmless
  rw [hpc] at hharmless
  have hrest : ∀ op, .shutdown op ∈ rest → op = .request :=
    fun op hop => hharmless op (List.mem_cons_of_mem _ hop)
  cases op with
  | twin t =>
      simp only [stepUpdate] at h
      split at h <;> obtain rfl := Option.some.inj h
      · exact hrest
      · intro op hop
        simp only [List.mem_append, List.mem_ite_nil_right, List.mem_singleton] at hop
        rcases hop with (⟨-, hop⟩ | ⟨-, hop⟩) | hop
        · exact UpdateOp.shutdown.inj hop
        · cases hop
        · exact hrest op hop
      · trivial
      · exact hsame
  | arrive t =>
      simp only [stepUpdate] at h
      split at h <;> obtain rfl := Option.some.inj h
      · exact hrest
      · intro op hop
        rcases List.mem_cons.mp hop with hop | hop
        · exact UpdateOp.shutdown.inj hop
        · exact hrest op hop
      · exact hsame
  | slot i =>
      simp only [stepUpdate] at h
      split at h <;> obtain rfl := Option.some.inj h <;> exact hrest
  | shutdown op =>
      -- the request returns at once, since another thread has made it before
      obtain rfl := hharmless op List.mem_cons_self
      have hexited : s.exited = true := by
        simpa [NoFatalUpdate, requestsFromUpdate, hpc] using hguard
      simp only [stepUpdate, shutdownOp, hexited, if_true, Option.map_some, Option.some.injEq] at h
      subst h
      exact hrest

theorem stepUpdater_harmless {woken : Option Worker} (hharmless : s.updater.Harmless)
    (hguard : NoFatalUpdate s (.updater woken)) (h : s.stepUpdater cfg woken = some s') :
    s'.updater.Harmless := by
  cases hpc : s.updater with
  | updating todo =>
      cases todo with
      | nil =>
          simp only [stepUpdater, hpc] at h
          obtain rfl := Option.some.inj h
          trivial
      | cons op rest =>
          simp only [stepUpdater, hpc] at h
          exact stepUpdate_harmless hpc hharmless hguard h
  | loop =>
      simp only [stepUpdater, hpc] at h
      obtain rfl := Option.some.inj h
      dsimp only
      split <;> trivial
  | takeTick =>
      simp only [stepUpdater, hpc] at h
      split at h
      · obtain rfl := Option.some.inj h
        trivial
      · split at h <;> obtain rfl := Option.some.inj h <;> trivial
  | begin cycle =>
      simp only [stepUpdater, hpc] at h
      obtain rfl := Option.some.inj h
      exact harmless_updateOps cfg
  | expire | promote =>
      simp only [stepUpdater, hpc] at h
      split at h <;> obtain rfl := Option.some.inj h <;> trivial
  | promoted e =>
      simp only [stepUpdater, hpc] at h
      obtain ⟨worker, -, -, rfl⟩ := pushEmergency_eq h
      trivial
  | tickWait | diverged | exited => simp [stepUpdater, hpc] at h
  | readCount | mapWaiting | expired e =>
      simp only [stepUpdater, hpc] at h
      obtain rfl := Option.some.inj h
      trivial

theorem plan_balanced {t : Thread} (ht : t ≠ .updater) {sec : Section Mutex}
    (hplan : s.plan t = some sec) : SectionTo (s.plan t) [] [] := by
  cases t with
  | updater => exact absurd rfl ht
  | clock =>
      simp only [State.plan, Option.ite_none_right_eq_some] at hplan ⊢
      rw [if_pos hplan.1]
      exact ClockPc.section_balanced (by simp [hplan.2])
  | receiver =>
      simp only [State.plan, Option.ite_none_right_eq_some] at hplan ⊢
      rw [if_pos hplan.1]
      exact ReceiverPc.section_balanced (by simp [hplan.2])
  | worker i =>
      simp only [State.plan, Option.ite_none_right_eq_some] at hplan ⊢
      rw [if_pos hplan.1]
      exact WorkerPc.section_balanced (by simp [hplan.2])
  | main =>
      exact MainPc.section_balanced (by simpa [State.plan] using Option.isSome_of_eq_some hplan)

/-- A step leads its thread through its section. -/
theorem step_own {a : Action} (h : State.step cfg s a = some s') {t : Thread}
    (hthread : a.thread = some t) {sec : Section Mutex} (hplan : s.plan t = some sec) :
    follow Mutex.rank (s.held t) (sec.enter ++ sec.leave) = some (s'.held t) := by
  cases t with
  | updater =>
      obtain ⟨woken, rfl, hupdater⟩ := step_updater h hthread
      simp only [State.plan, Option.ite_none_right_eq_some] at hplan
      exact (stepUpdater_own hupdater).follow hplan.2
  | _ => exact (plan_balanced (by simp) hplan).follow hplan

theorem harmless_step {a : Action} (hharmless : s.updater.Harmless) (hguard : NoFatalUpdate s a)
    (h : State.step cfg s a = some s') : s'.updater.Harmless := by
  by_cases hthread : a.thread = some .updater
  · obtain ⟨woken, rfl, hupdater⟩ := step_updater h hthread
    exact stepUpdater_harmless hharmless hguard hupdater
  · rcases (step_frame h).updater hthread with heq | heq <;> rw [heq]
    · exact hharmless
    · cases hpc : s.updater <;> rw [hpc] at hharmless <;> exact hharmless

/-! ### The mutexes of a step are free -/

/-- The section takes no mutex that the updater keeps, or the updater keeps none. -/
def Possible (s : State) (planned : Option (Section Mutex)) : Prop :=
  ∃ sec, planned = some sec ∧
    (s.systemFree = true ∨ ∀ m ∈ systemMutexes, .acquire m ∉ sec.enter ++ sec.leave)

theorem possible_free : Possible s (some .free) :=
  ⟨_, rfl, .inr (by decide)⟩

theorem shutdownOp_possible {op : ShutdownOp} {more : List ShutdownOp}
    (h : s.shutdownOp op = some (s', more)) : Possible s (some op.section) := by
  cases op with
  | wake =>
      simp only [shutdownOp] at h
      split at h
      · exact ⟨_, rfl, .inl ‹_›⟩
      · simp at h
  | _ => exact ⟨_, rfl, .inr (by decide)⟩

theorem stepWorker_possible {i : Worker} (h : s.stepWorker cfg i = some s') :
    Possible s (s.worker i).section := by
  cases hpc : s.worker i <;> simp only [stepWorker, hpc, reduceCtorEq] at h
  case pop => exact ⟨_, rfl, .inr (by decide)⟩
  case popped | find | wait | store | closing =>
    split at h
    · exact ⟨_, rfl, .inl ‹_›⟩
    · simp at h
  all_goals exact possible_free

theorem stepMain_possible {ok : Bool} (h : s.stepMain ok = some s') :
    Possible s s.main.section := by
  cases hpc : s.main with
  | shutdown todo =>
      cases todo with
      | nil => exact possible_free
      | cons op rest =>
          simp only [stepMain, hpc, Option.map_eq_some_iff, Prod.exists] at h
          obtain ⟨s₁, more, hop, -⟩ := h
          exact shutdownOp_possible hop
  | closeServer =>
      simp only [stepMain, hpc, Option.map_eq_some_iff, Prod.exists] at h
      obtain ⟨s₁, more, hop, -⟩ := h
      simp only [shutdownOp] at hop
      split at hop
      · exact ⟨_, rfl, .inl ‹_›⟩
      · simp at hop
  | closed => simp [stepMain, hpc] at h
  | _ => exact possible_free

theorem stepReceiver_possible {woken : Option Worker} (h : s.stepReceiver cfg woken = some s') :
    Possible s s.receiver.section := by
  cases hpc : s.receiver with
  | push e => exact ⟨_, rfl, .inr (by decide)⟩
  | exited => simp [stepReceiver, hpc] at h
  | _ => exact possible_free

theorem stepClock_possible (h : s.stepClock = some s') : Possible s s.clock.section := by
  cases hpc : s.clock with
  | loop => exact possible_free
  | exited => simp [stepClock, hpc] at h
  | _ => exact ⟨_, rfl, .inr (by decide)⟩

theorem stepUpdater_planned {woken : Option Worker} (h : s.stepUpdater cfg woken = some s') :
    ∃ sec, s.updater.section = some sec := by
  cases hpc : s.updater with
  | updating todo =>
      rcases todo with - | ⟨op, rest⟩
      · exact ⟨_, rfl⟩
      · cases op <;> exact ⟨_, rfl⟩
  | tickWait | diverged | exited => simp [stepUpdater, hpc] at h
  | _ => exact ⟨_, rfl⟩

/-- A thread other than the updater steps only where its mutexes are free. -/
theorem step_possible {a : Action} (h : State.step cfg s a = some s') {t : Thread}
    (hthread : a.thread = some t) (ht : t ≠ .updater) : Possible s (s.plan t) := by
  cases (step_thread h).2 <;>
    simp only [Action.thread, Option.some.injEq, reduceCtorEq] at hthread <;> subst hthread
  case clock hstarted h => simpa only [State.plan, if_pos hstarted] using stepClock_possible h
  case updater => exact absurd rfl ht
  case receiver woken hstarted h =>
    simpa only [State.plan, if_pos hstarted] using stepReceiver_possible h
  case worker i hstarted h => simpa only [State.plan, if_pos hstarted] using stepWorker_possible h
  case main h => exact stepMain_possible h

theorem held_of_ne {t : Thread} (ht : t ≠ .updater) : s.held t = [] := by
  cases t <;> first | rfl | exact absurd rfl ht

theorem held_updater_of_systemFree (h : s.systemFree = true) : s.held .updater = [] := by
  cases hpc : s.updater <;> simp_all [State.held, UpdaterPc.held, systemFree]

theorem held_updater (s : State) : ∀ m ∈ s.held .updater, m ∈ systemMutexes := by
  cases hpc : s.updater <;> simp [State.held, UpdaterPc.held, hpc]

theorem server_unhindered (cfg : Config) : Unhindered (server cfg) State.held := by
  intro s s' a t h hthread
  by_cases ht : t = .updater
  · subst ht
    cases a <;> simp only [server, Action.thread, Option.some.injEq, reduceCtorEq] at hthread
    simp only [server, State.step] at h
    split at h
    · simp at h
    · split at h
      · rename_i hstarted
        obtain ⟨sec, hsec⟩ := stepUpdater_planned h
        refine ⟨sec, by simpa [server, State.plan, hstarted] using hsec, fun m _ u hu => ?_⟩
        simp [held_of_ne hu]
      · simp at h
  · obtain ⟨sec, hplan, hfree⟩ := step_possible h hthread ht
    refine ⟨sec, hplan, fun m hm u _ => ?_⟩
    by_cases hu : u = .updater
    · subst hu
      rcases hfree with hfree | hfree
      · simp [held_updater_of_systemFree hfree]
      · exact fun hkept => hfree m (held_updater s m hkept) hm
    · simp [held_of_ne hu]

end own

/-! ## Runs -/

section runs

open State TransitionSystem

variable {cfg : Config} {s s' : State}

theorem harmless_of_reachable
    (h : ReachableWith (State.step cfg) NoFatalUpdate (initialState cfg) s) :
    s.updater.Harmless :=
  h.invariant (fun s => s.updater.Harmless) trivial fun _ _ _ _ hharmless hguard hstep =>
    harmless_step hharmless hguard hstep

theorem server_balanced (cfg : Config) : Balanced (server cfg) Mutex.rank State.held where
  own hstep hthread hplan := step_own hstep hthread hplan
  frame hstep hthread :=
    ⟨(step_frame hstep).held hthread, fun _ => (step_frame hstep).plan hthread⟩

theorem held_initialState (cfg : Config) (t : Thread) : (initialState cfg).held t = [] := by
  cases t <;> rfl

theorem server_disciplined (cfg : Config) :
    Disciplined (server cfg) Mutex.rank State.held NoFatalUpdate (initialState cfg) where
  toBalanced := server_balanced cfg
  held_init := held_initialState cfg
  enter {s t sec} hreach hplan := by
    by_cases ht : t = .updater
    · subst ht
      simp only [server, State.plan, Option.ite_none_right_eq_some] at hplan
      exact UpdaterPc.section_enter (harmless_of_reachable hreach) hplan.2
    · have hfollow := (plan_balanced ht hplan).follow hplan
      rw [follow_append] at hfollow
      obtain ⟨inner, henter, -⟩ := Option.bind_eq_some_iff.mp hfollow
      exact ⟨inner, by rwa [held_of_ne ht]⟩

/-- The runs of the server with its mutexes, taken and released one at a time. -/
abbrev LockReachable (cfg : Config) (guard : State → Action → Prop) :
    Locked State Thread Mutex → Prop :=
  (server cfg).LockReachable guard (initialState cfg)

/-- Every run of the server is a run with its mutexes. -/
theorem exists_locked {guard : State → Action → Prop}
    (h : ReachableWith (State.step cfg) guard (initialState cfg) s) :
    ∃ L, LockReachable cfg guard L ∧ L.base = s ∧ Idle State.held L :=
  (server_balanced cfg).exists_idle (held_initialState cfg) (server_unhindered cfg) h

theorem rank_le (m : Mutex) : m.rank ≤ 3 := by
  cases m <;> decide

/-- In the runs in which no fatal branch of an update is the first to request the
shutdown, no thread asks for a mutex that it holds, all mutexes are taken in one
order, and no set of threads is deadlocked. -/
theorem lock_discipline {L : Locked State Thread Mutex} (h : LockReachable cfg NoFatalUpdate L) :
    (∀ t m, L.Wants t m → L.owner m ≠ some t) ∧
      (∀ t m m', L.Wants t m → L.owner m' = some t → m'.rank < m.rank) ∧
      ∀ S, ¬L.Deadlocked S := by
  have hordered := (server_disciplined cfg).ordered h
  exact ⟨fun t m => hordered.owner_ne, hordered, Locked.not_deadlocked_of_ordered rank_le hordered⟩

/-- A worker waits for the active emergencies while an update has them. -/
theorem lock_discipline_update : ∃ L, LockReachable exampleServer NoFatalUpdate L ∧
    L.Wants (.worker 0) .activeEmergencies ∧ L.owner .activeEmergencies = some .updater ∧
    ∀ S, ¬L.Deadlocked S := by
  obtain ⟨L, hL, hbase, hidle⟩ := exists_locked (reachableWith_stateAfterWith NoFatalUpdate
    exampleServer (threadsStart ++ clockTicks 4 ++ requestArrives "f 5 4 0" ++ workerSteps 0 2))
  have hplan : (server exampleServer).plan L.base (.worker 0) =
      some (.locking [.activeEmergencies]) := by
    rw [hbase]
    decide +kernel
  have hheld : .activeEmergencies ∈ L.base.held .updater := by
    rw [hbase]
    decide +kernel
  have hbegin := lockReachable_next hL (.begin (.worker 0) _ (hidle.control _) hplan) trivial
  exact ⟨_, hbegin, by simp [Locked.Wants, Section.locking],
    ((hidle.holds .updater).mem _).mp hheld, (lock_discipline hbegin).2.2⟩

/-- A fatal branch of an update that gets to `wake_everyone_now` waits for a
mutex that the updater itself holds. -/
theorem fatal_update_deadlocks (hreach : Reachable cfg s) (rest : List UpdateOp)
    (hstarted : 2 ≤ s.started) (hpc : s.updater = .updating (.shutdown .wake :: rest)) :
    ∃ L, LockReachable cfg (fun _ _ => True) L ∧ L.base = s ∧
      L.Wants .updater .activeEmergencies ∧ L.owner .activeEmergencies = some .updater := by
  obtain ⟨L, hL, rfl, hidle⟩ := exists_locked hreach
  have hplan : (server cfg).plan L.base .updater = some (.locking [.activeEmergencies]) := by
    simp [server, State.plan, hstarted, hpc, UpdaterPc.section, ShutdownOp.section]
  have hheld : .activeEmergencies ∈ L.base.held .updater := by
    simp [State.held, hpc, UpdaterPc.held, systemMutexes, lockSystem]
  exact ⟨_, lockReachable_next hL (.begin .updater _ (hidle.control _) hplan) trivial, rfl,
    by simp [Locked.Wants, Section.locking], ((hidle.holds .updater).mem _).mp hheld⟩

/-- The rescuer of an accepted request leaves the map, and the updater asks for
the active emergencies that it has locked. -/
theorem updater_deadlocks_itself : ∃ L, LockReachable exampleServer (fun _ _ => True) L ∧
    L.Wants .updater .activeEmergencies ∧ L.owner .activeEmergencies = some .updater ∧
    L.Deadlocked {.updater} := by
  obtain ⟨L, hL, -, hwants, howner⟩ := fatal_update_deadlocks
    (reachable_stateAfter exampleServer
      (threadsStart ++ requestArrives "f 20 0 0" ++ workerSteps 0 6 ++ clockTicks 10))
    (.shutdown .send :: .arrive 1 :: (List.finRange WORKER_THREADS_NUMBER).map .slot)
    (by decide +kernel) (by decide +kernel)
  refine ⟨L, hL, hwants, howner, ⟨_, rfl⟩, ?_⟩
  rintro t rfl
  exact ⟨.activeEmergencies, hwants, .updater, rfl, howner⟩

end runs

end EmergencyDispatch
