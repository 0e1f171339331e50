import EmergencyDispatch.WakeUps
import EmergencyDispatch.Library.Variant
import Mathlib.Algebra.BigOperators.Group.Finset.Basic
import Mathlib.Algebra.Order.BigOperators.Group.Finset

/-!
# The steps of a shutdown

Once `server_must_stop` is set and `emergency_queue` is closed no thread starts a
new round: each of them has a bounded number of steps left (`State.stepsLeft`),
whatever the clients send and however often a condition variable wakes somebody
for nothing.  What a worker or the updater could do again and again, it does only
as long as the server need not stop or the queue gives it more.  A step is a
whole section: that the walk inside a section ends is not said here.
-/

namespace EmergencyDispatch

open State TransitionSystem

variable {cfg : Config} {s s' : State} {a : Action} {i : Worker} {e : EmergencyId}

/-! ## The steps that are left -/

/-- How many steps a worker has left when the server must stop and the queue is closed. -/
def WorkerPc.stepsLeft : WorkerPc → ℕ
  | .exited => 0
  | .loop | .closing true => 1
  | .closing false | .store _ .stopping => 2
  | .ended _ => 3
  | .inner _ | .woken _ | .store _ .searchFailed | .store _ (.canceled _) => 4
  | .popped _ | .wait _ | .blocked _ | .testCanceled _ => 5
  | .pop | .popWait | .find _ | .store _ (.completed _) => 6
  | .testCompleted _ => 7
  | .testPaused _ => 8

def ReceiverPc.stepsLeft : ReceiverPc → ℕ
  | .exited => 0
  | .loop => 1
  | .push _ => 2
  | .receive => 3

def ClockPc.stepsLeft : ClockPc → ℕ
  | .exited => 0
  | .lastTick => 1
  | .loop => 2
  | .tick => 3

/-- The first request of a shutdown adds its five operations. -/
def ShutdownOp.stepsLeft : ShutdownOp → ℕ
  | .request => 6
  | .raise | .close | .updated | .wake | .send => 1

/-- A twin may leave the map and arrive, and both may end in a request of the shutdown. -/
def UpdateOp.stepsLeft : UpdateOp → ℕ
  | .twin _ => 14
  | .arrive _ => 7
  | .slot _ => 1
  | .shutdown op => op.stepsLeft

/-- How many steps the updater has left when `waiting` emergencies are in the queue. -/
def UpdaterPc.stepsLeft (cfg : Config) (waiting : ℕ) : UpdaterPc → ℕ
  | .exited | .diverged => 0
  | .loop | .takeTick | .tickWait => 1
  | .promote => 2 * waiting + 2
  | .promoted _ => 2 * waiting + 3
  | .expire => 4 * waiting + 3
  | .expired _ => 4 * waiting + 4
  | .mapWaiting => 4 * waiting + 4
  | .updating todo => 4 * waiting + 5 + (todo.map UpdateOp.stepsLeft).sum
  | .begin _ => 4 * waiting + 6 + ((updateOps cfg).map UpdateOp.stepsLeft).sum
  | .readCount => 4 * waiting + 7 + ((updateOps cfg).map UpdateOp.stepsLeft).sum

/-- How many steps the main thread has left when `started` threads have been created. -/
def MainPc.stepsLeft (started : ℕ) : MainPc → ℕ
  | .closed => 0
  | .closeServer => 1
  | .join => 2
  | .shutdown todo => 3 + (todo.map ShutdownOp.stepsLeft).sum
  | .sigwait => 9
  | .start => 10 + (3 + WORKER_THREADS_NUMBER - started)

/-- The step that makes the program undefined is still possible. -/
def State.faultLeft (s : State) : ℕ := if s.fault.isSome then 0 else 1

/-- How many steps the threads have left. -/
def State.stepsLeft (cfg : Config) (s : State) : ℕ :=
  s.faultLeft + s.clock.stepsLeft + s.updater.stepsLeft cfg s.emergencyQueue.contents.length +
    s.receiver.stepsLeft + s.main.stepsLeft s.started + ∑ i, (s.worker i).stepsLeft

theorem Woken.stepsLeft {pc pc' : WorkerPc} (h : Woken pc pc') : pc'.stepsLeft = pc.stepsLeft := by
  cases h <;> rfl

theorem stepsLeft_wakeTick (cfg : Config) (waiting : ℕ) (pc : UpdaterPc) :
    (wakeTick pc).stepsLeft cfg waiting = pc.stepsLeft cfg waiting := by
  cases pc <;> rfl

theorem UpdaterPc.stepsLeft_mono (cfg : Config) (pc : UpdaterPc) {waiting waiting' : ℕ}
    (h : waiting' ≤ waiting) : pc.stepsLeft cfg waiting' ≤ pc.stepsLeft cfg waiting := by
  cases pc <;> simp only [UpdaterPc.stepsLeft] <;> omega

theorem length_contents_of_closed (heffect : Effect cfg s a s')
    (hclosed : s.emergencyQueue.closed = true) :
    s'.emergencyQueue.contents.length ≤ s.emergencyQueue.contents.length := by
  cases heffect with
  | quiet hq => rw [Pq.contents, Pq.contents, hq.lists]
  | pop i e queue hpc hpop =>
      have hlength := (Pq.pop_spec hpop).1.length_eq
      simp only [List.length_cons] at hlength
      show queue.contents.length ≤ _
      omega
  | extract e queue pred pc hpc hextract =>
      have hlength := (Pq.extractFirst_spec hextract).2.1.length_eq
      simp only [List.length_cons] at hlength
      show queue.contents.length ≤ _
      omega
  | promote e level worker | receiverPush e level worker =>
      show (s.emergencyQueue.push e level).contents.length ≤ _
      rw [Pq.push_of_closed hclosed]
  | _ => exact le_rfl

/-! ## The threads use up their steps -/

theorem stepClock_stepsLeft (hstop : s.serverMustStop = true) (h : s.stepClock = some s') :
    s'.clock.stepsLeft < s.clock.stepsLeft := by
  cases hpc : s.clock <;> simp only [stepClock, hpc, hstop, if_true, reduceCtorEq] at h <;>
    obtain rfl := Option.some.inj h <;> simp [ClockPc.stepsLeft]

theorem faultLeft_of_none (hfault : s.fault = none) : s.faultLeft = 1 := by
  simp [faultLeft, hfault]

theorem stepReceiver_stepsLeft {woken : Option Worker} (hfault : s.fault = none)
    (hstop : s.serverMustStop = true) (h : s.stepReceiver cfg woken = some s') :
    s'.faultLeft + s'.receiver.stepsLeft < 1 + s.receiver.stepsLeft := by
  cases hpc : s.receiver with
  | loop =>
      simp only [stepReceiver, hpc, hstop, if_true] at h
      obtain rfl := Option.some.inj h
      simp [faultLeft, hfault, ReceiverPc.stepsLeft]
  | receive =>
      simp only [stepReceiver, hpc] at h
      split at h
      · simp at h
      · split at h
        · obtain rfl := Option.some.inj h
          simp [faultLeft, hfault, ReceiverPc.stepsLeft]
        · split at h
          · obtain rfl := Option.some.inj h
            simp [faultLeft, hfault, ReceiverPc.stepsLeft]
          · split at h <;> obtain rfl := Option.some.inj h
            · simp [faultLeft, ReceiverPc.stepsLeft, crash]
            · simp [faultLeft, hfault, ReceiverPc.stepsLeft]
  | push e =>
      simp only [stepReceiver, hpc] at h
      obtain ⟨worker, -, -, rfl⟩ := pushEmergency_eq h
      simp [faultLeft, hfault, ReceiverPc.stepsLeft]
  | exited => simp [stepReceiver, hpc] at h

/-- A worker moves on towards its end, unless the step makes the program undefined. -/
theorem stepWorker_stepsLeft (hfault : s.fault = none) (hstop : s.serverMustStop = true)
    (hclosed : s.emergencyQueue.closed = true) (h : s.stepWorker cfg i = some s') :
    s'.faultLeft + (s'.worker i).stepsLeft < 1 + (s.worker i).stepsLeft := by
  -- most steps of a worker change its program counter only
  have hmove : ∀ pc, pc.stepsLeft < (s.worker i).stepsLeft →
      some (s.setWorker i pc) = some s' →
      s'.faultLeft + (s'.worker i).stepsLeft < 1 + (s.worker i).stepsLeft := by
    intro pc hlt heq
    obtain rfl := Option.some.inj heq
    have hpc : (s.setWorker i pc).worker i = pc := by simp [setWorker]
    rw [hpc, faultLeft_of_none (s := s.setWorker i pc) hfault]
    omega
  cases hpc : s.worker i with
  | loop | inner e | woken e | ended e =>
      simp only [stepWorker, hpc, hstop, if_true] at h
      rw [hpc] at hmove
      exact hmove _ (by simp [WorkerPc.stepsLeft]) h
  | pop =>
      simp only [stepWorker, hpc] at h
      split at h
      · obtain rfl := Option.some.inj h
        simp [faultLeft, hfault, setWorker, WorkerPc.stepsLeft]
      · rw [hclosed, if_pos rfl] at h
        rw [hpc] at hmove
        exact hmove _ (by simp [WorkerPc.stepsLeft]) h
  -- these wait, or have ended
  | popWait | blocked e | exited => simp [stepWorker, hpc] at h
  | popped e =>
      simp only [stepWorker, hpc] at h
      split at h
      · obtain rfl := Option.some.inj h
        simp [faultLeft, hfault, setWorker, openSlot, WorkerPc.stepsLeft]
      · simp at h
  | find e =>
      simp only [stepWorker, hpc] at h
      split at h
      · split at h
        · obtain rfl := Option.some.inj h
          simp [faultLeft, crash, hpc]
        · rename_i found _
          obtain rfl := Option.some.inj h
          cases found <;>
            simp [faultLeft, hfault, deliverSignals, setWorker, WorkerPc.stepsLeft]
      · simp at h
  | wait e =>
      simp only [stepWorker, hpc, hstop] at h
      split at h
      · rw [if_neg (by simp)] at h
        rw [hpc] at hmove
        exact hmove _ (by simp [WorkerPc.stepsLeft]) h
      · simp at h
  | testPaused e | testCompleted e | testCanceled e =>
      simp only [stepWorker, hpc] at h
      rw [hpc] at hmove
      split at h <;> exact hmove _ (by simp [WorkerPc.stepsLeft]) h
  | store e reason =>
      simp only [stepWorker, hpc] at h
      split at h
      · obtain rfl := Option.some.inj h
        cases reason <;>
          simp [faultLeft, hfault, setWorker, changeStatusStoreClose, StoreReason.toCompleted,
            StoreReason.next, WorkerPc.stepsLeft]
      · simp at h
  | closing leaving =>
      simp only [stepWorker, hpc] at h
      split at h
      · obtain rfl := Option.some.inj h
        cases leaving <;> simp [faultLeft, hfault, setWorker, WorkerPc.stepsLeft]
      · simp at h

/-- What the main thread does when the signal has come. -/
def signalOps : List ShutdownOp := [.raise, .send, .close, .updated, .wake]

/-- The steps of the main thread. -/
inductive MainMove (s : State) : State → Prop
  | created (hpc : s.main = .start) : MainMove s { s with
      started := s.started + 1
      main := if s.started + 1 = 3 + WORKER_THREADS_NUMBER then .sigwait else .start }
  | failed (hpc : s.main = .start) : MainMove s { s with main := .shutdown [.request] }
  | signalled (hpc : s.main = .sigwait) : MainMove s { s with main := .shutdown signalOps }
  | shutdownDone (hpc : s.main = .shutdown []) : MainMove s { s with main := .join }
  | shutdown (op : ShutdownOp) (rest more : List ShutdownOp) (s₁ : State)
      (hpc : s.main = .shutdown (op :: rest)) (hop : s.shutdownOp op = some (s₁, more)) :
      MainMove s { s₁ with main := .shutdown (more ++ rest) }
  | joined (hpc : s.main = .join) (hexited : s.allExited = true) :
      MainMove s { s with main := .closeServer }
  | closed (s₁ : State) (more : List ShutdownOp) (hpc : s.main = .closeServer)
      (hop : s.shutdownOp .wake = some (s₁, more)) : MainMove s { s₁ with main := .closed }

theorem stepMain_cases {ok : Bool} (h : s.stepMain ok = some s') : MainMove s s' := by
  cases hpc : s.main with
  | start =>
      simp only [stepMain, hpc] at h
      split at h <;> obtain rfl := Option.some.inj h
      · exact .created hpc
      · exact .failed hpc
  | sigwait =>
      simp only [stepMain, hpc] at h
      obtain rfl := Option.some.inj h
      exact .signalled hpc
  | shutdown todo =>
      rcases todo with - | ⟨op, rest⟩
      · simp only [stepMain, hpc] at h
        obtain rfl := Option.some.inj h
        exact .shutdownDone hpc
      · simp only [stepMain, hpc, Option.map_eq_some_iff, Prod.exists] at h
        obtain ⟨s₁, more, hop, rfl⟩ := h
        exact .shutdown op rest more s₁ hpc hop
  | join =>
      simp only [stepMain, hpc] at h
      split at h
      · obtain rfl := Option.some.inj h
        exact .joined hpc ‹_›
      · simp at h
  | closeServer =>
      simp only [stepMain, hpc, Option.map_eq_some_iff, Prod.exists] at h
      obtain ⟨s₁, more, hop, rfl⟩ := h
      exact .closed s₁ more hpc hop
  | closed => simp [stepMain, hpc] at h

/-- What an operation of a shutdown adds to the operations to do is less than itself. -/
theorem shutdownOp_stepsLeft {op : ShutdownOp} {more : List ShutdownOp}
    (h : s.shutdownOp op = some (s', more)) :
    s'.fault = s.fault ∧ s'.started = s.started ∧
      (more.map ShutdownOp.stepsLeft).sum < op.stepsLeft := by
  cases op <;> simp only [shutdownOp] at h
  case request | wake | send =>
    split at h <;> simp only [Option.some.injEq, Prod.mk.injEq, reduceCtorEq] at h
    all_goals
      obtain ⟨rfl, rfl⟩ := h
      exact ⟨rfl, rfl, by decide⟩
  case raise | close | updated =>
    obtain ⟨rfl, rfl⟩ := Prod.mk.inj (Option.some.inj h)
    exact ⟨rfl, rfl, Nat.zero_lt_one⟩

theorem stepMain_stepsLeft {ok : Bool} (hstart : s.main = .start → s.started < 3 +
    WORKER_THREADS_NUMBER) (h : s.stepMain ok = some s') :
    s'.fault = s.fault ∧ s'.main.stepsLeft s'.started < s.main.stepsLeft s.started := by
  cases stepMain_cases h with
  | created hpc =>
      have hlt := hstart hpc
      refine ⟨rfl, ?_⟩
      rw [hpc]
      dsimp only
      split <;> simp only [MainPc.stepsLeft] <;> omega
  | failed hpc =>
      refine ⟨rfl, ?_⟩
      rw [hpc]
      show 9 < 10 + _
      omega
  | shutdown op rest more s₁ hpc hop =>
      obtain ⟨hfault, -, hlt⟩ := shutdownOp_stepsLeft hop
      refine ⟨hfault, ?_⟩
      rw [hpc]
      simp only [MainPc.stepsLeft, List.map_append, List.sum_append, List.map_cons, List.sum_cons]
      omega
  | closed s₁ more hpc hop =>
      exact ⟨(shutdownOp_stepsLeft hop).1, by simp [hpc, MainPc.stepsLeft]⟩
  | signalled hpc | shutdownDone hpc | joined hpc =>
      exact ⟨rfl, by simp [hpc, MainPc.stepsLeft, signalOps, ShutdownOp.stepsLeft]⟩

theorem stepUpdate_stepsLeft {op : UpdateOp} {rest : List UpdateOp} {waiting : ℕ}
    (hfault : s.fault = none) (hpc : s.updater = .updating (op :: rest))
    (h : s.stepUpdate cfg rest op = some s') :
    s'.faultLeft + s'.updater.stepsLeft cfg waiting < 1 + s.updater.stepsLeft cfg waiting := by
  rw [hpc]
  cases op with
  | twin t =>
      simp only [stepUpdate] at h
      split at h <;> obtain rfl := Option.some.inj h
      · simp [faultLeft, hfault, UpdaterPc.stepsLeft, UpdateOp.stepsLeft]
      · rename_i w outside arrived _
        cases outside <;> cases arrived <;>
          simp only [faultLeft, hfault, UpdaterPc.stepsLeft, UpdateOp.stepsLeft,
            ShutdownOp.stepsLeft, List.map_append, List.map_cons, List.map_nil, List.sum_append,
            List.sum_cons, List.sum_nil, Option.isSome_none, Bool.false_eq_true, if_false,
            if_true] <;> omega
      · simp only [faultLeft, hfault, UpdaterPc.stepsLeft, Option.isSome_none,
          Bool.false_eq_true, if_false]
        omega
      · simp [faultLeft, crash, hpc, UpdaterPc.stepsLeft]
  | arrive t =>
      simp only [stepUpdate] at h
      split at h <;> obtain rfl := Option.some.inj h
      · simp [faultLeft, hfault, UpdaterPc.stepsLeft, UpdateOp.stepsLeft]
      · simp only [faultLeft, hfault, UpdaterPc.stepsLeft, UpdateOp.stepsLeft,
          ShutdownOp.stepsLeft, List.map_cons, List.sum_cons, Option.isSome_none,
          Bool.false_eq_true, if_false]
        omega
      · simp [faultLeft, crash, hpc, UpdaterPc.stepsLeft]
  | slot i =>
      simp only [stepUpdate] at h
      split at h <;> obtain rfl := Option.some.inj h <;>
        simp [faultLeft, hfault, deliverSignals, UpdaterPc.stepsLeft, UpdateOp.stepsLeft]
  | shutdown op =>
      simp only [stepUpdate, Option.map_eq_some_iff, Prod.exists] at h
      obtain ⟨s₁, more, hop, rfl⟩ := h
      obtain ⟨hfault', -, hlt⟩ := shutdownOp_stepsLeft hop
      have hmore : (more.map (UpdateOp.stepsLeft ∘ UpdateOp.shutdown)).sum =
          (more.map ShutdownOp.stepsLeft).sum := rfl
      simp only [faultLeft, hfault', hfault, UpdaterPc.stepsLeft, UpdateOp.stepsLeft,
        List.map_append, List.map_map, hmore, List.map_cons, List.sum_append, List.sum_cons,
        Option.isSome_none, Bool.false_eq_true, if_false]
      omega

theorem stepUpdater_stepsLeft {woken : Option Worker} (hfault : s.fault = none)
    (hstop : s.serverMustStop = true) (hclosed : s.emergencyQueue.closed = true)
    (h : s.stepUpdater cfg woken = some s') :
    s'.faultLeft + s'.updater.stepsLeft cfg s'.emergencyQueue.contents.length <
      1 + s.updater.stepsLeft cfg s.emergencyQueue.contents.length := by
  have hlength := length_contents_of_closed (stepUpdater_effect h) hclosed
  cases hpc : s.updater with
  | updating todo =>
      rcases todo with - | ⟨op, rest⟩
      · simp only [stepUpdater, hpc] at h
        obtain rfl := Option.some.inj h
        simp [faultLeft, hfault, UpdaterPc.stepsLeft]
      · simp only [stepUpdater, hpc] at h
        calc s'.faultLeft + s'.updater.stepsLeft cfg s'.emergencyQueue.contents.length
            ≤ s'.faultLeft + s'.updater.stepsLeft cfg s.emergencyQueue.contents.length :=
              Nat.add_le_add_left (UpdaterPc.stepsLeft_mono cfg _ hlength) _
          _ < 1 + (UpdaterPc.updating (op :: rest)).stepsLeft cfg
                s.emergencyQueue.contents.length := hpc ▸ stepUpdate_stepsLeft hfault hpc h
  | takeTick =>
      simp only [stepUpdater, hpc, hstop] at h
      rw [if_neg (by simp), if_pos trivial] at h
      obtain rfl := Option.some.inj h
      simp [faultLeft, hfault, UpdaterPc.stepsLeft]
  | expire | promote =>
      simp only [stepUpdater, hpc] at h
      split at h <;> obtain rfl := Option.some.inj h
      -- the queue has one emergency less, and each of them stands for two steps
      · rename_i e queue hextract
        have hlt := (Pq.extractFirst_spec hextract).2.1.length_eq
        simp only [List.length_cons] at hlt
        simp only [faultLeft, hfault, UpdaterPc.stepsLeft, Option.isSome_none,
          Bool.false_eq_true, if_false]
        omega
      · simp only [faultLeft, hfault, UpdaterPc.stepsLeft, Option.isSome_none,
          Bool.false_eq_true, if_false]
        omega
  | promoted e =>
      simp only [stepUpdater, hpc] at h
      obtain ⟨worker, -, -, hs'⟩ := pushEmergency_eq h
      have hupdater : s'.updater = .promote := by rw [hs']
      have hfault' : s'.fault = none := by rw [hs']; exact hfault
      rw [hupdater, faultLeft_of_none hfault']
      simp only [UpdaterPc.stepsLeft]
      omega
  | loop =>
      simp only [stepUpdater, hpc, hstop, if_true] at h
      obtain rfl := Option.some.inj h
      simp [faultLeft, hfault, UpdaterPc.stepsLeft]
  | readCount | begin cycle | mapWaiting | expired e =>
      simp only [stepUpdater, hpc] at h
      obtain rfl := Option.some.inj h
      simp [faultLeft, hfault, UpdaterPc.stepsLeft]
  | tickWait | diverged | exited => simp [stepUpdater, hpc] at h

/-! ## A shutdown has a bounded number of steps -/

/-- The server must stop and takes no more emergencies. -/
structure Stopping (s : State) : Prop where
  stop : s.serverMustStop = true
  closed : s.emergencyQueue.closed = true

theorem Stopping.step (h : Stopping s) (hstep : State.step cfg s a = some s') : Stopping s' where
  stop := (step_effect hstep).2.serverMustStop h.stop
  closed := by
    rcases effect_closed (step_effect hstep).2 with hsame | ⟨hclosed, -⟩
    · exact hsame.trans h.closed
    · exact hclosed

theorem started_lt_of_reachable (hreach : Reachable cfg s) :
    s.main = .start → s.started < 3 + WORKER_THREADS_NUMBER := by
  refine hreach.invariant
    (fun s => s.main = .start → s.started < 3 + WORKER_THREADS_NUMBER) (fun _ => ?_) ?_
  · show 0 < 3 + WORKER_THREADS_NUMBER
    decide
  · intro s a s' _ ih _ hstep hstart
    by_cases hthread : a.thread = some .main
    · obtain ⟨ok, rfl, hmain⟩ := step_main hstep hthread
      cases stepMain_cases hmain with
      | created hpc =>
          have hlt := ih hpc
          dsimp only at hstart ⊢
          split at hstart
          · cases hstart
          · omega
      | _ => cases hstart
    · rw [(step_frame hstep).created hthread]
      exact ih ((step_frame hstep).main hthread ▸ hstart)

section lowers

variable (hstep : State.step cfg s a = some s')

include hstep

theorem worker_stepsLeft (ha : a.thread ≠ some (.worker i)) :
    (s'.worker i).stepsLeft = (s.worker i).stepsLeft :=
  ((step_frame hstep).worker i ha).stepsLeft

theorem updater_stepsLeft (h : Stopping s) (ha : a.thread ≠ some .updater) :
    s'.updater.stepsLeft cfg s'.emergencyQueue.contents.length ≤
      s.updater.stepsLeft cfg s.emergencyQueue.contents.length := by
  have hlength := length_contents_of_closed (step_effect hstep).2 h.closed
  have hsame : ∀ waiting, s'.updater.stepsLeft cfg waiting = s.updater.stepsLeft cfg waiting := by
    intro waiting
    rcases (step_frame hstep).updater ha with heq | heq <;> rw [heq]
    exact stepsLeft_wakeTick cfg waiting _
  rw [hsame]
  exact UpdaterPc.stepsLeft_mono cfg _ hlength

theorem main_stepsLeft (ha : a.thread ≠ some .main) :
    s'.main.stepsLeft s'.started = s.main.stepsLeft s.started := by
  rw [(step_frame hstep).main ha, (step_frame hstep).created ha]

/-- A step of a thread uses up one of the steps that are left, the others give no new ones. -/
theorem step_stepsLeft (hstart : s.main = .start → s.started < 3 + WORKER_THREADS_NUMBER)
    (h : Stopping s) : s'.stepsLeft cfg ≤ s.stepsLeft cfg ∧
      (a.thread.isSome = true → s'.stepsLeft cfg < s.stepsLeft cfg) := by
  have hframe := step_frame hstep
  obtain ⟨hfault, hthread⟩ := step_thread hstep
  have hleft : s.faultLeft = 1 := faultLeft_of_none hfault
  have hworkers : (∀ i, a.thread ≠ some (.worker i)) →
      ∑ i, (s'.worker i).stepsLeft = ∑ i, (s.worker i).stepsLeft := by
    intro ha
    exact Finset.sum_congr rfl fun i _ => worker_stepsLeft hstep (ha i)
  have hupdater := updater_stepsLeft hstep h
  have hmain := main_stepsLeft hstep
  unfold State.stepsLeft
  rw [hleft]
  -- only the thread of the action moves: the other summands stay as they are
  cases hthread with
  | clock hstarted hown =>
      have hlt := stepClock_stepsLeft h.stop hown
      have hfault' : s'.fault = s.fault := by
        cases hpc : s.clock <;> simp only [stepClock, hpc, reduceCtorEq] at hown <;>
          obtain rfl := Option.some.inj hown <;> rfl
      have hfaultLeft : s'.faultLeft = 1 := faultLeft_of_none (hfault'.trans hfault)
      have hu := hupdater (by simp [Action.thread])
      rw [hmain (by simp [Action.thread]), hworkers (by simp [Action.thread]), hfaultLeft,
        hframe.receiver (by simp [Action.thread])]
      omega
  | updater woken hstarted hown =>
      have hlt := stepUpdater_stepsLeft hfault h.stop h.closed hown
      rw [hmain (by simp [Action.thread]), hworkers (by simp [Action.thread]),
        hframe.receiver (by simp [Action.thread]), hframe.clock (by simp [Action.thread])]
      omega
  | receiver woken hstarted hown =>
      have hlt := stepReceiver_stepsLeft hfault h.stop hown
      have hu := hupdater (by simp [Action.thread])
      rw [hmain (by simp [Action.thread]), hworkers (by simp [Action.thread]),
        hframe.clock (by simp [Action.thread])]
      omega
  | worker i hstarted hown =>
      have hlt := stepWorker_stepsLeft hfault h.stop h.closed hown
      have hu := hupdater (by simp [Action.thread])
      have hothers : ∑ j ∈ Finset.univ.erase i, (s'.worker j).stepsLeft =
          ∑ j ∈ Finset.univ.erase i, (s.worker j).stepsLeft := by
        refine Finset.sum_congr rfl fun j hj => worker_stepsLeft hstep ?_
        have hji := Finset.ne_of_mem_erase hj
        simpa [Action.thread] using hji.symm
      rw [hmain (by simp [Action.thread]), hframe.clock (by simp [Action.thread]),
        hframe.receiver (by simp [Action.thread]),
        ← Finset.add_sum_erase _ (fun j => (s'.worker j).stepsLeft) (Finset.mem_univ i),
        ← Finset.add_sum_erase _ (fun j => (s.worker j).stepsLeft) (Finset.mem_univ i), hothers]
      omega
  | main ok hown =>
      obtain ⟨hfault', hlt⟩ := stepMain_stepsLeft hstart hown
      have hfaultLeft : s'.faultLeft = 1 := faultLeft_of_none (hfault'.trans hfault)
      have hu := hupdater (by simp [Action.thread])
      rw [hworkers (by simp [Action.thread]), hframe.clock (by simp [Action.thread]),
        hframe.receiver (by simp [Action.thread]), hfaultLeft]
      omega
  -- messages and wake-ups without a cause are no steps of a thread
  | client message hroom => exact ⟨by simp [faultLeft, hfault], by simp [Action.thread]⟩
  | wakeWorker i hown =>
      have hfault' : s'.fault = s.fault := by
        cases hpc : s.worker i <;> simp only [stepWakeWorker, hpc, reduceCtorEq] at hown <;>
          obtain rfl := Option.some.inj hown <;> rfl
      have hfaultLeft : s'.faultLeft = 1 := faultLeft_of_none (hfault'.trans hfault)
      have hu := hupdater (by simp [Action.thread])
      rw [hmain (by simp [Action.thread]), hworkers (by simp [Action.thread]),
        hframe.clock (by simp [Action.thread]), hframe.receiver (by simp [Action.thread]),
        hfaultLeft]
      exact ⟨by omega, by simp [Action.thread]⟩
  | wakeUpdater hpc =>
      have hu := hupdater (by simp [Action.thread])
      refine ⟨?_, by simp [Action.thread]⟩
      have hfaultLeft : State.faultLeft { s with updater := .takeTick } = 1 :=
        faultLeft_of_none hfault
      rw [hfaultLeft]
      dsimp only at hu ⊢
      omega

end lowers

/-- The steps left are a variant of the steps of the threads. -/
theorem stopping_variant (cfg : Config) : Variant (State.step cfg)
    (fun s => Reachable cfg s ∧ Stopping s) (fun a => a.thread.isSome) (State.stepsLeft cfg) where
  keeps _ _ _ hs hstep := ⟨hs.1.next trivial hstep, hs.2.step hstep⟩
  never_raises _ _ _ hs hstep := (step_stepsLeft hstep (started_lt_of_reachable hs.1) hs.2).1
  lowers _ _ _ hs hstep := (step_stepsLeft hstep (started_lt_of_reachable hs.1) hs.2).2

/-- **A shutdown is bounded.**  Once the server must stop and its queue is closed, a run makes at
most `stepsLeft` steps of the threads, whatever the clients and the spurious wake-ups do.  A walk
that never ends is one of these steps, and the last one of the updater. -/
theorem stopping_bounded (hreach : Reachable cfg s) (hstopping : Stopping s)
    {actions : List Action} (hrun : run (State.step cfg) s actions = some s') :
    actions.countP (fun a => a.thread.isSome) + s'.stepsLeft cfg ≤ s.stepsLeft cfg :=
  (stopping_variant cfg).countP_add_le ⟨hreach, hstopping⟩ hrun

/-- The signal comes, and the main thread closes the queue. -/
def signalComes : List Action := threadsStart ++ List.replicate 4 (.main true)

theorem stopping_bounded_signal :
    let s := stateAfter exampleServer signalComes
    s.stepsLeft exampleServer = 20 ∧ ∃ s', run (State.step exampleServer) s
      [.clock, .receiver none, .client ['e'], .worker 0] = some s' ∧
        3 + s'.stepsLeft exampleServer ≤ s.stepsLeft exampleServer := by
  intro s
  have hstopping : Stopping s := ⟨by decide +kernel, by decide +kernel⟩
  have hsome : (run (State.step exampleServer) s
      [.clock, .receiver none, .client ['e'], .worker 0]).isSome = true := by decide +kernel
  obtain ⟨s', hrun⟩ := Option.isSome_iff_exists.mp hsome
  have hbound := stopping_bounded (reachable_stateAfter _ _) hstopping hrun
  exact ⟨by decide +kernel, s', hrun, hbound⟩

end EmergencyDispatch
