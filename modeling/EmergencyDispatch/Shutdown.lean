import EmergencyDispatch.MessageQueue

/-!
# The end of a shutdown

The steps of a shutdown come to an end (`stopping_bounded`), in a state in which
no thread can move.  In such a state the server has closed, with three
exceptions: a walk that never ends, an update that waits for the mutex it holds,
and a main thread that sends the stop message to a full queue after the receiver
has left.  The second needs a fatal update; the third comes about when the
receiver sees `server_must_stop` before the stop message is sent.  The log is not
part of this state: `log_event` returns as long as the logger runs, and that ends
before `log_close` only by a `FATAL_ERROR`, so `closed_iff_not_hung` is about the
runs without one.
-/

namespace EmergencyDispatch

open State TransitionSystem

variable {cfg : Config} {s s' : State} {a : Action} {i : Worker} {e : EmergencyId}

/-! ## Who can go on -/

/-- An operation of a shutdown waits for the mutex of the emergencies or for room in the queue
of requests. -/
theorem shutdownOp_eq_none {op : ShutdownOp} (h : s.shutdownOp op = none) :
    op = .wake ∧ s.systemFree = false ∨ op = .send ∧ MQ_MAXMSG ≤ s.mq.length := by
  cases op <;> simp only [shutdownOp, reduceCtorEq] at h
  case request => split at h <;> simp at h
  case wake =>
    split at h
    · simp at h
    · rename_i hheld
      exact .inl ⟨rfl, by simpa using hheld⟩
  case send =>
    split at h
    · simp at h
    · exact .inr ⟨rfl, by omega⟩

/-- Some worker is woken by the push, if any waits. -/
theorem exists_pushEmergency (cfg : Config) (s : State) (e : EmergencyId) :
    ∃ woken, (s.pushEmergency cfg e woken).isSome = true := by
  by_cases hclosed : s.emergencyQueue.closed = true
  · exact ⟨none, by simp [pushEmergency, hclosed]⟩
  · by_cases hwaits : ∃ i, s.worker i = .popWait
    · obtain ⟨i, hi⟩ := hwaits
      exact ⟨some i, by simp [pushEmergency, hclosed, hi]⟩
    · exact ⟨none, by simp [pushEmergency, hclosed, hwaits]⟩

theorem stepClock_isSome (h : s.clock ≠ .exited) : s.stepClock.isSome = true := by
  cases hpc : s.clock <;> simp_all [stepClock]

/-- The receiver waits for messages only. -/
theorem exists_stepReceiver (cfg : Config) (hexited : s.receiver ≠ .exited)
    (hmq : s.receiver = .receive → s.mq ≠ []) :
    ∃ woken, (s.stepReceiver cfg woken).isSome = true := by
  cases hpc : s.receiver with
  | loop => exact ⟨none, by simp [stepReceiver, hpc]⟩
  | receive =>
      obtain ⟨message, mq, hcons⟩ := List.exists_cons_of_ne_nil (hmq hpc)
      refine ⟨none, ?_⟩
      simp only [stepReceiver, hpc, hcons]
      split
      · rfl
      · split
        · rfl
        · split <;> rfl
  | push e =>
      obtain ⟨woken, hsome⟩ := exists_pushEmergency cfg { s with receiver := .loop } e
      exact ⟨woken, by simpa [stepReceiver, hpc] using hsome⟩
  | exited => exact absurd hpc hexited

/-- While nobody holds the system a worker waits on a condition variable only. -/
theorem stepWorker_isSome (cfg : Config) (hfree : s.systemFree = true)
    (hexited : s.worker i ≠ .exited) (hwait : s.worker i ≠ .popWait)
    (hblocked : ∀ e, s.worker i ≠ .blocked e) : (s.stepWorker cfg i).isSome = true := by
  cases hpc : s.worker i with
  | pop =>
      simp only [stepWorker, hpc]
      split <;> rfl
  | find e =>
      simp only [stepWorker, hpc, hfree, if_true]
      split <;> rfl
  | wait e =>
      simp only [stepWorker, hpc, hfree, if_true]
      split <;> rfl
  | popWait => exact absurd hpc hwait
  | blocked e => exact absurd hpc (hblocked e)
  | exited => exact absurd hpc hexited
  | _ => simp [stepWorker, hpc, hfree]

/-- An update goes on, unless it asks for the mutex that it holds. -/
theorem stepUpdate_isSome (cfg : Config) {op : UpdateOp} {rest : List UpdateOp}
    (hwake : op ≠ .shutdown .wake) (hsend : op ≠ .shutdown .send) :
    (s.stepUpdate cfg rest op).isSome = true := by
  cases op with
  | twin t | arrive t | slot i =>
      simp only [stepUpdate]
      split <;> rfl
  | shutdown op =>
      simp only [stepUpdate, Option.isSome_map]
      cases hop : s.shutdownOp op with
      | some => rfl
      | none =>
          rcases shutdownOp_eq_none hop with ⟨rfl, -⟩ | ⟨rfl, -⟩
          · exact absurd rfl hwake
          · exact absurd rfl hsend

/-- The updater waits for a tick only, outside an update. -/
theorem exists_stepUpdater (cfg : Config) (hupdating : ∀ todo, s.updater ≠ .updating todo)
    (hexited : s.updater ≠ .exited) (hwait : s.updater ≠ .tickWait)
    (hdiverged : s.updater ≠ .diverged) :
    ∃ woken, (s.stepUpdater cfg woken).isSome = true := by
  cases hpc : s.updater with
  | promoted e =>
      obtain ⟨woken, hsome⟩ := exists_pushEmergency cfg { s with
        world := s.world.setEmergency e
          (promoteEmergency cfg.priorityLookupTable (s.world.emergencies e))
        updater := .promote } e
      exact ⟨woken, by simpa only [stepUpdater, hpc] using hsome⟩
  | takeTick =>
      refine ⟨none, ?_⟩
      simp only [stepUpdater, hpc]
      split
      · rfl
      · split <;> rfl
  | expire | promote =>
      refine ⟨none, ?_⟩
      simp only [stepUpdater, hpc]
      split <;> rfl
  | updating todo => exact absurd hpc (hupdating todo)
  | tickWait => exact absurd hpc hwait
  | diverged => exact absurd hpc hdiverged
  | exited => exact absurd hpc hexited
  | _ => exact ⟨none, by simp [stepUpdater, hpc]⟩

/-! ## What the main thread has done -/

/-- The main thread has been through an operation of its shutdown. -/
def MainPc.hasDone (op : ShutdownOp) : MainPc → Prop
  | .start | .sigwait => False
  | .shutdown todo => .request ∉ todo ∧ op ∉ todo
  | .join | .closeServer | .closed => True

/-- What is left of a shutdown, requested or after the signal. -/
def InOrder (todo : List ShutdownOp) : Prop :=
  todo = [.request] ∨ todo <:+ signalOps ∨ todo <:+ requestShutdownFromThread

/-- The threads are woken after the flag is raised. -/
theorem InOrder.raised {todo : List ShutdownOp} (h : InOrder todo) (hrequest : .request ∉ todo)
    (hupdated : .updated ∉ todo) : .raise ∉ todo := by
  have hall : ∀ todo ∈ signalOps.tails ++ requestShutdownFromThread.tails,
      ShutdownOp.updated ∉ todo → ShutdownOp.raise ∉ todo := by
    decide
  rcases h with rfl | hsuffix | hsuffix
  · exact absurd List.mem_cons_self hrequest
  · exact hall todo (List.mem_append_left _ ((List.mem_tails _ _).mpr hsuffix)) hupdated
  · exact hall todo (List.mem_append_right _ ((List.mem_tails _ _).mpr hsuffix)) hupdated

theorem InOrder.rest {op : ShutdownOp} {rest : List ShutdownOp} (h : InOrder (op :: rest))
    (hop : op ≠ .request) : InOrder rest := by
  rcases h with heq | hsuffix | hsuffix
  · exact absurd (List.cons.inj heq).1 hop
  · exact .inr (.inl ((List.suffix_cons op rest).trans hsuffix))
  · exact .inr (.inr ((List.suffix_cons op rest).trans hsuffix))

/-- A request of the shutdown by the main thread is the first one, so it adds its operations. -/
theorem WakingPhase.request (h : WakingPhase s) {rest more : List ShutdownOp} {s₁ : State}
    (hpc : s.main = .shutdown (.request :: rest))
    (hop : s.shutdownOp .request = some (s₁, more)) :
    rest = [] ∧ more = requestShutdownFromThread := by
  have hrest : rest = [] := by
    rcases h.order _ hpc with heq | ⟨hnot, -⟩
    · exact (List.cons.inj heq).2
    · exact absurd List.mem_cons_self hnot
  subst hrest
  simp only [shutdownOp, h.first (.inr hpc), Bool.false_eq_true, if_false] at hop
  exact ⟨rfl, (Prod.mk.inj (Option.some.inj hop)).2.symm⟩

/-- The main thread has been through an operation before the step, or the step is this
operation. -/
theorem hasDone_step (h : WakingPhase s) (hstep : State.step cfg s a = some s') {op : ShutdownOp}
    (hop : op ≠ .request) (hdone : s'.main.hasDone op) : s.main.hasDone op ∨
      ∃ s₁, s.shutdownOp op = some (s₁, []) ∧ s' = { s₁ with main := s'.main } := by
  by_cases hthread : a.thread = some .main
  · obtain ⟨ok, rfl, hmain⟩ := step_main hstep hthread
    cases stepMain_cases hmain with
    | created hpc =>
        dsimp only at hdone
        split at hdone <;> cases hdone
    | failed hpc => exact absurd List.mem_cons_self hdone.1
    | signalled hpc =>
        refine absurd ?_ hdone.2
        cases op <;> first | exact absurd rfl hop | decide
    | shutdown op' rest more s₁ hpc hop' =>
        by_cases hrequest : op' = .request
        · subst hrequest
          obtain ⟨rfl, rfl⟩ := h.request hpc hop'
          refine absurd ?_ hdone.2
          cases op <;> first | exact absurd rfl hop | decide
        · obtain ⟨-, rfl⟩ := shutdownOp_exited hop' hrequest
          by_cases hsame : op' = op
          · subst hsame
            exact .inr ⟨s₁, hop', rfl⟩
          · refine .inl ?_
            rw [hpc]
            refine ⟨fun hin => ?_, fun hin => ?_⟩ <;> rcases List.mem_cons.mp hin with heq | hin
            · exact hrequest heq.symm
            · exact hdone.1 hin
            · exact hsame heq.symm
            · exact hdone.2 hin
    | shutdownDone hpc =>
        rw [hpc]
        exact .inl ⟨List.not_mem_nil, List.not_mem_nil⟩
    | joined hpc | closed s₁ more hpc =>
        rw [hpc]
        exact .inl trivial
  · rw [(step_frame hstep).main hthread] at hdone
    exact .inl hdone

/-- The updater comes to wait for a tick only while the server need not stop. -/
theorem step_tickWait (hstep : State.step cfg s a = some s') (hwait : s'.updater = .tickWait) :
    s.updater = .tickWait ∨ s.serverMustStop = false := by
  by_cases hthread : a.thread = some .updater
  · obtain ⟨woken, rfl, hown⟩ := step_updater hstep hthread
    cases hpc : s.updater with
    | updating todo =>
        rcases todo with - | ⟨op, rest⟩ <;> simp only [stepUpdater, hpc] at hown
        · obtain rfl := Option.some.inj hown
          cases hwait
        · cases op with
          | twin t | arrive t | slot i =>
              simp only [stepUpdate] at hown
              split at hown <;> obtain rfl := Option.some.inj hown <;>
                simp [crash, deliverSignals, hpc] at hwait
          | shutdown op =>
              simp only [stepUpdate, Option.map_eq_some_iff, Prod.exists] at hown
              obtain ⟨s₁, more, -, rfl⟩ := hown
              cases hwait
    -- the only way into the wait, and it reads the flag first
    | takeTick =>
        simp only [stepUpdater, hpc] at hown
        split at hown
        · rename_i hmay
          exact .inr hmay.2
        · split at hown <;> obtain rfl := Option.some.inj hown <;> cases hwait
    | expire | promote =>
        simp only [stepUpdater, hpc] at hown
        split at hown <;> obtain rfl := Option.some.inj hown <;> cases hwait
    | promoted e =>
        simp only [stepUpdater, hpc] at hown
        obtain ⟨worker, -, -, rfl⟩ := pushEmergency_eq hown
        cases hwait
    | loop =>
        simp only [stepUpdater, hpc] at hown
        obtain rfl := Option.some.inj hown
        dsimp only at hwait
        split at hwait <;> cases hwait
    | readCount | begin cycle | mapWaiting | expired e =>
        simp only [stepUpdater, hpc] at hown
        obtain rfl := Option.some.inj hown
        cases hwait
    | tickWait => exact .inl rfl
    | diverged | exited => simp [stepUpdater, hpc] at hown
  -- another thread can only wake the updater
  · rcases (step_frame hstep).updater hthread with heq | heq
    · exact .inl (heq ▸ hwait)
    · rw [heq] at hwait
      cases hpc : s.updater <;> simp [wakeTick, hpc] at hwait

/-! ## The stop message -/

/-- The stop message ends the receiver or waits for it. -/
def StopDelivered (s : State) : Prop :=
  s.receiver = .exited ∨ MQ_STOP_MESSAGE ∈ s.mq

theorem StopDelivered.step (h : StopDelivered s) (hstep : State.step cfg s a = some s') :
    StopDelivered s' := by
  rcases h with hexited | hmem
  · left
    rw [(step_frame hstep).receiver fun ha => (step_running hstep).2 ha |>.2 hexited, hexited]
  · cases step_mqMove hstep with
    | same h => exact .inr (h ▸ hmem)
    | sent message h => exact .inr (h ▸ List.mem_append_left _ hmem)
    | received message _ hpc h handled =>
        rw [h] at hmem
        rcases List.mem_cons.mp hmem with rfl | hrest
        · cases handled with
          | stop _ hpc' => exact .inl hpc'
          | rejected hmessage | accepted hmessage => exact absurd rfl hmessage
        · exact .inr hrest

/-! ## Runs without a fatal update -/

/-- What the main thread has done in its shutdown has its effect. -/
structure ShutdownPhase (s : State) : Prop where
  waking : WakingPhase s
  awake : Awake s
  order : ∀ todo, s.main = .shutdown todo → InOrder todo
  closed : s.main.hasDone .close → s.emergencyQueue.closed = true
  updated : s.main.hasDone .updated → s.updater ≠ .tickWait
  sent : s.main.hasDone .send → StopDelivered s

/-- The flag is raised before the updater is woken. -/
theorem ShutdownPhase.raised (h : ShutdownPhase s) (hdone : s.main.hasDone .updated) :
    s.serverMustStop = true := by
  refine h.waking.raised ?_
  cases hpc : s.main with
  | shutdown todo =>
      rw [hpc] at hdone
      exact ⟨hdone.1, (h.order todo hpc).raised hdone.1 hdone.2⟩
  | start | sigwait => rw [hpc] at hdone; cases hdone
  | join | closeServer | closed => trivial

theorem inOrder_step (h : ShutdownPhase s) (hstep : State.step cfg s a = some s')
    {todo : List ShutdownOp} (hpc' : s'.main = .shutdown todo) : InOrder todo := by
  by_cases hthread : a.thread = some .main
  · obtain ⟨ok, rfl, hmain⟩ := step_main hstep hthread
    cases stepMain_cases hmain with
    | created hpc =>
        dsimp only at hpc'
        split at hpc' <;> cases hpc'
    | failed hpc => exact .inl (MainPc.shutdown.inj hpc').symm
    | signalled hpc =>
        obtain rfl := MainPc.shutdown.inj hpc'
        exact .inr (.inl (List.suffix_refl _))
    | shutdown op rest more s₁ hpc hop =>
        obtain rfl := MainPc.shutdown.inj hpc'
        by_cases hrequest : op = .request
        · subst hrequest
          obtain ⟨rfl, rfl⟩ := h.waking.request hpc hop
          exact .inr (.inr (List.suffix_refl _))
        · obtain ⟨-, rfl⟩ := shutdownOp_exited hop hrequest
          exact (h.order _ hpc).rest hrequest
    | shutdownDone hpc | joined hpc | closed s₁ more hpc => cases hpc'
  · exact h.order todo ((step_frame hstep).main hthread ▸ hpc')

theorem ShutdownPhase.step (h : ShutdownPhase s) (hinv : Invariant cfg s)
    (hguard : NoFatalUpdate s a) (hstep : State.step cfg s a = some s') : ShutdownPhase s' where
  waking := h.waking.step hinv hguard hstep
  awake := h.awake.step hinv (step_effect hstep).2
  order _ := inOrder_step h hstep
  closed hdone := by
    rcases hasDone_step h.waking hstep (by decide) hdone with hbefore | ⟨s₁, hop, hs'⟩
    · rcases effect_closed (step_effect hstep).2 with hsame | ⟨hclosed, -⟩
      · exact hsame.trans (h.closed hbefore)
      · exact hclosed
    · obtain ⟨rfl, -⟩ := Prod.mk.inj (Option.some.inj hop)
      rw [hs']
      rfl
  updated hdone := by
    intro hwait
    rcases hasDone_step h.waking hstep (by decide) hdone with hbefore | ⟨s₁, hop, hs'⟩
    · rcases step_tickWait hstep hwait with hwait' | hstop
      · exact h.updated hbefore hwait'
      · rw [h.raised hbefore] at hstop
        cases hstop
    · obtain ⟨rfl, -⟩ := Prod.mk.inj (Option.some.inj hop)
      rw [hs'] at hwait
      cases hpc : s.updater <;> simp [wakeTick, hpc] at hwait
  sent hdone := by
    rcases hasDone_step h.waking hstep (by decide) hdone with hbefore | ⟨s₁, hop, hs'⟩
    · exact (h.sent hbefore).step hstep
    · rcases (shutdownOp_mq hop).1 with hsame | ⟨-, hsent⟩
      · simp only [shutdownOp] at hop
        split at hop
        · obtain ⟨rfl, -⟩ := Prod.mk.inj (Option.some.inj hop)
          simp at hsame
        · simp at hop
      · refine .inr ?_
        rw [hs']
        show MQ_STOP_MESSAGE ∈ s₁.mq
        rw [hsent]
        exact List.mem_append_right _ List.mem_cons_self

theorem shutdownPhase_of_reachable
    (hreach : ReachableWith (State.step cfg) NoFatalUpdate (initialState cfg) s) :
    ShutdownPhase s := by
  refine hreach.invariant ShutdownPhase ?_ ?_
  · refine ⟨⟨fun _ => rfl, ?_, False.elim, False.elim⟩, ⟨?_, ?_⟩, ?_, False.elim, False.elim,
      False.elim⟩
    · intro todo htodo
      cases htodo
    · intro i e hblocked
      cases hblocked
    · intro _ i hwait
      cases hwait
    · intro todo htodo
      cases htodo
  · intro s a s' hs h hguard hstep
    exact h.step (reachable_invariant hs.reachable) hguard hstep

/-! ## A fatal update -/

/-- The updater has requested the shutdown in an update, and will wait for the mutex it holds. -/
def Caught (s : State) : Prop :=
  2 ≤ s.started ∧ ∃ (before : List ShutdownOp) (rest : List UpdateOp),
    (∀ op ∈ before, op ∈ [ShutdownOp.raise, .close, .updated]) ∧
      s.updater = .updating (before.map .shutdown ++ .shutdown .wake :: rest)

theorem Caught.step (h : Caught s) (hstep : State.step cfg s a = some s') : Caught s' := by
  obtain ⟨hstarted, before, rest, hbefore, hpc⟩ := h
  refine ⟨hstarted.trans (step_frame hstep).started, ?_⟩
  by_cases hthread : a.thread = some .updater
  · obtain ⟨woken, rfl, hown⟩ := step_updater hstep hthread
    rcases before with - | ⟨op, before⟩
    · -- the updater cannot lock the emergencies
      simp [stepUpdater, hpc, stepUpdate, shutdownOp, systemFree] at hown
    · simp only [stepUpdater, hpc, List.map_cons, List.cons_append, stepUpdate,
        Option.map_eq_some_iff, Prod.exists] at hown
      obtain ⟨s₁, more, hop, rfl⟩ := hown
      have hne : op ≠ .request := by
        rintro rfl
        simpa using hbefore _ List.mem_cons_self
      obtain ⟨-, rfl⟩ := shutdownOp_exited hop hne
      exact ⟨before, rest, fun op hop => hbefore op (List.mem_cons_of_mem _ hop), rfl⟩
  · refine ⟨before, rest, hbefore, ?_⟩
    rcases (step_frame hstep).updater hthread with heq | heq <;> rw [heq, hpc]
    rfl

/-- A run has no fatal update, or the updater is caught in one. -/
theorem noFatal_or_caught (hreach : Reachable cfg s) :
    ReachableWith (State.step cfg) NoFatalUpdate (initialState cfg) s ∨ Caught s := by
  induction hreach with
  | initial => exact .inl .initial
  | @next s s' a hs _ hstep ih =>
      rcases ih with hrun | hcaught
      · by_cases hguard : NoFatalUpdate s a
        · exact .inl (hrun.next hguard hstep)
        · refine .inr ?_
          have hrequests : requestsFromUpdate s a = true := by
            simpa [NoFatalUpdate] using hguard
          cases (step_thread hstep).2 with
          | updater woken hstarted hown =>
              simp only [requestsFromUpdate] at hrequests
              split at hrequests
              · rename_i rest hpc
                have hexited : s.exited = false := by simpa using hrequests
                simp only [stepUpdater, hpc, stepUpdate, shutdownOp, hexited, Bool.false_eq_true,
                  if_false, Option.map_some] at hown
                obtain rfl := Option.some.inj hown
                exact ⟨hstarted, [.raise, .close, .updated], .shutdown .send :: rest, by simp, rfl⟩
              · cases hrequests
          | _ => cases hrequests
      · exact .inr (hcaught.step hstep)

/-! ## States in which nobody can go on -/

/-- No thread of the server can make a step. -/
def Stuck (cfg : Config) (s : State) : Prop :=
  ∀ a : Action, a.thread.isSome = true → State.step cfg s a = none

/-- The server will never close: a walk never ends, the updater waits for the mutex it holds, or
the main thread waits for room in a queue that nobody reads. -/
def Hung (s : State) : Prop :=
  s.updater = .diverged ∨ (∃ rest, s.updater = .updating (.shutdown .wake :: rest)) ∨
    MQ_MAXMSG ≤ s.mq.length ∧ (s.started < 3 ∨ s.receiver = .exited) ∧
      ∃ rest, s.main = .shutdown (.send :: rest)

namespace Stuck

theorem clock (h : Stuck cfg s) (hfault : s.fault = none) (hstarted : 1 ≤ s.started) :
    s.clock = .exited := by
  by_contra hexited
  have hnone := h .clock rfl
  rw [State.step, hfault, if_neg (by simp)] at hnone
  simp only [hstarted, if_true] at hnone
  have hsome := stepClock_isSome hexited
  rw [hnone] at hsome
  cases hsome

theorem receiver (h : Stuck cfg s) (hfault : s.fault = none) (hstarted : 3 ≤ s.started) :
    s.receiver = .exited ∨ s.receiver = .receive ∧ s.mq = [] := by
  by_contra hnot
  obtain ⟨hexited, hmq⟩ := not_or.mp hnot
  obtain ⟨woken, hsome⟩ := exists_stepReceiver cfg hexited fun hpc hnil => hmq ⟨hpc, hnil⟩
  have hnone := h (.receiver woken) rfl
  rw [State.step, hfault, if_neg (by simp)] at hnone
  simp only [hstarted, if_true] at hnone
  rw [hnone] at hsome
  cases hsome

theorem worker (h : Stuck cfg s) (hfault : s.fault = none) (hfree : s.systemFree = true)
    (hstarted : 4 + i.val ≤ s.started) :
    s.worker i = .exited ∨ s.worker i = .popWait ∨ ∃ e, s.worker i = .blocked e := by
  by_contra hnot
  simp only [not_or, not_exists] at hnot
  have hsome := stepWorker_isSome cfg hfree hnot.1 hnot.2.1 hnot.2.2
  have hnone := h (.worker i) rfl
  rw [State.step, hfault, if_neg (by simp)] at hnone
  simp only [hstarted, if_true] at hnone
  rw [hnone] at hsome
  cases hsome

theorem stepUpdater (h : Stuck cfg s) (hfault : s.fault = none) (hstarted : 2 ≤ s.started)
    (woken : Option Worker) : s.stepUpdater cfg woken = none := by
  have hnone := h (.updater woken) rfl
  rw [State.step, hfault, if_neg (by simp)] at hnone
  simpa only [hstarted, if_true] using hnone

theorem stepMain (h : Stuck cfg s) (hfault : s.fault = none) (ok : Bool) :
    s.stepMain ok = none := by
  have hnone := h (.main ok) rfl
  rwa [State.step, hfault, if_neg (by simp)] at hnone

/-- An updater that is not caught in an update has ended or waits for a tick. -/
theorem updater (h : Stuck cfg s) (hfault : s.fault = none) (hstarted : 2 ≤ s.started)
    (hharmless : s.updater.Harmless) :
    s.updater = .exited ∨ s.updater = .tickWait ∨ s.updater = .diverged := by
  by_contra hnot
  simp only [not_or] at hnot
  by_cases hupdating : ∃ todo, s.updater = .updating todo
  · obtain ⟨todo, hpc⟩ := hupdating
    have hnone := h.stepUpdater hfault hstarted none
    rcases todo with - | ⟨op, rest⟩
    · simp [State.stepUpdater, hpc] at hnone
    · rw [hpc] at hharmless
      have hop : ∀ o, op = .shutdown o → o = .request := fun o ho =>
        hharmless o (ho ▸ List.mem_cons_self)
      have hsome : (s.stepUpdate cfg rest op).isSome = true := by
        refine stepUpdate_isSome cfg ?_ ?_ <;> rintro rfl <;> cases hop _ rfl
      simp only [State.stepUpdater, hpc] at hnone
      rw [hnone] at hsome
      cases hsome
  · have hnever : ∀ todo, s.updater ≠ .updating todo := not_exists.mp hupdating
    obtain ⟨woken, hsome⟩ := exists_stepUpdater cfg hnever hnot.1 hnot.2.1 hnot.2.2
    rw [h.stepUpdater hfault hstarted woken] at hsome
    cases hsome

theorem allExited (h : Stuck cfg s) (hfault : s.fault = none) (hphase : ShutdownPhase s)
    (hfree : s.systemFree = true) (hupdater : 2 ≤ s.started → s.updater = .exited ∨
      s.updater = .tickWait) (hpc : s.main = .join) : s.allExited = true := by
  have hdone : ∀ op, s.main.hasDone op := fun op => by rw [hpc]; trivial
  simp only [State.allExited, Bool.and_eq_true, Bool.or_eq_true, decide_eq_true_eq, beq_iff_eq,
    List.all_eq_true]
  refine ⟨⟨⟨?_, ?_⟩, ?_⟩, fun i _ => ?_⟩
  · exact (Nat.lt_or_ge s.started 1).imp id (h.clock hfault)
  · refine (Nat.lt_or_ge s.started 2).imp id fun hstarted => ?_
    exact (hupdater hstarted).resolve_right (hphase.updated (hdone _))
  · refine (Nat.lt_or_ge s.started 3).imp id fun hstarted => ?_
    rcases h.receiver hfault hstarted with hexited | ⟨hreceive, hmq⟩
    · exact hexited
    · rcases hphase.sent (hdone _) with hexited | hmem
      · exact hexited
      · rw [hmq] at hmem
        cases hmem
  · refine (Nat.lt_or_ge s.started (4 + i.val)).imp id fun hstarted => ?_
    rcases h.worker hfault hfree hstarted with hexited | hwait | ⟨e, hblocked⟩
    · exact hexited
    · exact absurd hwait (hphase.awake.closed (hphase.closed (hdone _)) i)
    · refine absurd hblocked (hphase.waking.woken ?_ i e)
      rw [hpc]
      trivial

end Stuck

theorem closed_or_hung (hreach : Reachable cfg s) (hfault : s.fault = none)
    (hstuck : Stuck cfg s) : s.main = .closed ∨ Hung s := by
  rcases noFatal_or_caught hreach with hrun | hcaught
  -- the updater has not shut the server down: whoever is stuck is in the shutdown of main
  · have hphase := shutdownPhase_of_reachable hrun
    by_cases hdiverged : s.updater = .diverged
    · exact .inr (.inl hdiverged)
    have hupdater : 2 ≤ s.started → s.updater = .exited ∨ s.updater = .tickWait := by
      intro hstarted
      rcases hstuck.updater hfault hstarted (harmless_of_reachable hrun) with h | h | h
      · exact .inl h
      · exact .inr h
      · exact absurd h hdiverged
    have hfree : s.systemFree = true := by
      rcases Nat.lt_or_ge s.started 2 with hlt | hstarted
      · rw [State.systemFree, (joined_of_reachable hreach).updater_idle hlt]
      · rcases hupdater hstarted with h | h <;> rw [State.systemFree, h]
    have hmain := hstuck.stepMain hfault false
    cases hpc : s.main with
    | start | sigwait => simp [State.stepMain, hpc] at hmain
    | closed => exact .inl rfl
    | shutdown todo =>
        rcases todo with - | ⟨op, rest⟩
        · simp [State.stepMain, hpc] at hmain
        · simp only [State.stepMain, hpc, Option.map_eq_none_iff] at hmain
          -- an operation of the shutdown waits for the system, or for room in the message queue
          rcases shutdownOp_eq_none hmain with ⟨-, hheld⟩ | ⟨rfl, hfull⟩
          · rw [hfree] at hheld
            cases hheld
          · refine .inr (.inr (.inr ⟨hfull, ?_, rest, hpc⟩))
            refine (Nat.lt_or_ge s.started 3).imp id fun hstarted => ?_
            rcases hstuck.receiver hfault hstarted with hexited | ⟨-, hmq⟩
            · exact hexited
            · rw [hmq] at hfull
              cases hfull
    | join =>
        have hexited := hstuck.allExited hfault hphase hfree hupdater hpc
        simp [State.stepMain, hpc, hexited] at hmain
    | closeServer => simp [State.stepMain, hpc, State.shutdownOp, hfree] at hmain
  -- an updater that shuts the server down itself stops only where it locks the system again
  · obtain ⟨hstarted, before, rest, hbefore, hpc⟩ := hcaught
    rcases before with - | ⟨op, before⟩
    · exact .inr (.inr (.inl ⟨rest, hpc⟩))
    · have hnone := hstuck.stepUpdater hfault hstarted none
      have hop := hbefore op List.mem_cons_self
      have hsome : (s.stepUpdate cfg (before.map .shutdown ++ .shutdown .wake :: rest)
          (.shutdown op)).isSome = true := by
        refine stepUpdate_isSome cfg ?_ ?_ <;> rintro ⟨⟩ <;> simp at hop
      simp only [State.stepUpdater, hpc, List.map_cons, List.cons_append] at hnone
      rw [hnone] at hsome
      cases hsome

theorem Hung.not_closed (h : Hung s) (hreach : Reachable cfg s) : s.main ≠ .closed := by
  intro hclosed
  have hover := (joined_of_reachable hreach).updater_over (.inr hclosed)
  have hnot : ∀ todo, s.updater ≠ .updating todo := by
    intro todo hpc
    rcases hover with hlt | hexited
    · rw [(joined_of_reachable hreach).updater_idle hlt] at hpc
      cases hpc
    · rw [hexited] at hpc
      cases hpc
  rcases h with hdiverged | ⟨rest, hpc⟩ | ⟨-, -, rest, hpc⟩
  · rcases hover with hlt | hexited
    · rw [(joined_of_reachable hreach).updater_idle hlt] at hdiverged
      cases hdiverged
    · rw [hexited] at hdiverged
      cases hdiverged
  · exact hnot _ hpc
  · rw [hclosed] at hpc
    cases hpc

/-! ## Runs without a fatal error -/

/-- No thread logs a `FATAL_ERROR`: every thread is created, and no update is fatal.  With a fatal
error the logger ends, and from then on `log_event` itself may wait for ever. -/
def NoFatalError (s : State) : Action → Prop
  | .main ok => s.main = .start → ok = true
  | a => NoFatalUpdate s a

instance (s : State) (a : Action) : Decidable (NoFatalError s a) := by
  unfold NoFatalError
  split <;> infer_instance

theorem NoFatalError.noFatalUpdate (h : NoFatalError s a) : NoFatalUpdate s a := by
  cases a with
  | main ok => rfl
  | _ => exact h

/-- The main thread waits for room for the stop message, and the receiver has left. -/
def StopMessageWaits (s : State) : Prop :=
  MQ_MAXMSG ≤ s.mq.length ∧ s.receiver = .exited ∧ ∃ rest, s.main = .shutdown (.send :: rest)

/-- Without a fatal error the main thread goes on when all threads are there. -/
theorem started_of_noFatalError
    (hreach : ReachableWith (State.step cfg) NoFatalError (initialState cfg) s) :
    s.main = .start ∨ s.started = 3 + WORKER_THREADS_NUMBER := by
  refine hreach.invariant (fun s => s.main = .start ∨ s.started = 3 + WORKER_THREADS_NUMBER)
    (.inl rfl) ?_
  intro s a s' _ ih hguard hstep
  by_cases hthread : a.thread = some .main
  · obtain ⟨ok, rfl, hmain⟩ := step_main hstep hthread
    cases stepMain_cases hmain with
    | created hpc =>
        dsimp only
        split
        · exact .inr ‹_›
        · exact .inl rfl
    | failed hpc =>
        obtain rfl : ok = true := hguard hpc
        simp [stepMain, hpc] at hmain
    | signalled hpc | shutdownDone hpc | joined hpc =>
        exact .inr (ih.resolve_left (by rw [hpc]; simp))
    | shutdown op rest more s₁ hpc hop | closed s₁ more hpc hop =>
        refine .inr ?_
        rw [(shutdownOp_stepsLeft hop).2.1]
        exact ih.resolve_left (by rw [hpc]; simp)
  · have hframe := step_frame hstep
    rwa [hframe.main hthread, hframe.created hthread]

theorem hung_iff_of_noFatalError
    (hreach : ReachableWith (State.step cfg) NoFatalError (initialState cfg) s) :
    Hung s ↔ s.updater = .diverged ∨ StopMessageWaits s := by
  have hupdate := hreach.mono fun _ _ => NoFatalError.noFatalUpdate
  constructor
  · rintro (hdiverged | ⟨rest, hpc⟩ | ⟨hfull, hreceiver, rest, hpc⟩)
    · exact .inl hdiverged
    · -- only a fatal update gets there
      have hharmless := harmless_of_reachable hupdate
      rw [hpc] at hharmless
      cases hharmless _ List.mem_cons_self
    · have hstarted := (started_of_noFatalError hreach).resolve_left (by rw [hpc]; simp)
      refine .inr ⟨hfull, hreceiver.resolve_left ?_, rest, hpc⟩
      omega
  · rintro (hdiverged | ⟨hfull, hexited, rest, hpc⟩)
    · exact .inl hdiverged
    · exact .inr (.inr ⟨hfull, .inr hexited, rest, hpc⟩)

/-- **The end of a run.**  In every run without a fatal error, in a state in which no thread can
go on the server has closed, unless a walk never ends or the stop message waits for ever. -/
theorem closed_iff_not_hung
    (hreach : ReachableWith (State.step cfg) NoFatalError (initialState cfg) s)
    (hfault : s.fault = none) (hstuck : Stuck cfg s) :
    s.main = .closed ↔ ¬(s.updater = .diverged ∨ StopMessageWaits s) := by
  rw [← hung_iff_of_noFatalError hreach]
  exact ⟨fun hclosed hhung => hhung.not_closed hreach.reachable hclosed,
    (closed_or_hung hreach.reachable hfault hstuck).resolve_right⟩

/-- The server closes after a signal. -/
def serverCloses : List Action :=
  threadsStart ++ List.replicate 7 (.main true) ++
    [.clock, .clock, .updater none, .receiver none] ++
    (List.finRange WORKER_THREADS_NUMBER).map .worker ++ [.main true, .main true]

theorem closed_iff_not_hung_signal :
    let s := stateAfterWith NoFatalError exampleServer serverCloses
    Stuck exampleServer s ∧ ¬(s.updater = .diverged ∨ StopMessageWaits s) := by
  intro s
  have hreach : ReachableWith (State.step exampleServer) NoFatalError
      (initialState exampleServer) s := reachableWith_stateAfterWith _ _ _
  have hfault : s.fault = none := by decide +kernel
  have hclosed : s.main = .closed := by decide +kernel
  have hclock : s.clock = .exited := by decide +kernel
  have hupdater : s.updater = .exited := by decide +kernel
  have hreceiver : s.receiver = .exited := by decide +kernel
  have hworker : ∀ i, s.worker i = .exited := by decide +kernel
  have hstuck : Stuck exampleServer s := by
    intro a ha
    cases a <;>
      simp [Action.thread, State.step, hfault, stepClock, hclock, stepUpdater, hupdater,
        stepReceiver, hreceiver, stepWorker, hworker, stepMain, hclosed] at ha ⊢
  exact ⟨hstuck, (closed_iff_not_hung hreach hfault hstuck).mp hclosed⟩

/-- What hangs goes on hanging. -/
theorem Hung.step (h : Hung s) (hstep : State.step cfg s a = some s') : Hung s' := by
  have hframe := step_frame hstep
  -- the updater has no step, and nobody else moves it
  have hupdater : (∀ woken, s.stepUpdater cfg woken = none) → wakeTick s.updater = s.updater →
      s'.updater = s.updater := by
    intro hnone hawake
    by_cases hthread : a.thread = some .updater
    · obtain ⟨woken, rfl, hown⟩ := step_updater hstep hthread
      rw [hnone woken] at hown
      cases hown
    · rcases hframe.updater hthread with heq | heq
      · exact heq
      · exact heq.trans hawake
  rcases h with hdiverged | ⟨rest, hpc⟩ | ⟨hfull, hreceiver, rest, hpc⟩
  · refine .inl ((hupdater (fun woken => ?_) ?_).trans hdiverged)
    · simp [stepUpdater, hdiverged]
    · rw [hdiverged]
      rfl
  · refine .inr (.inl ⟨rest, (hupdater (fun woken => ?_) ?_).trans hpc⟩)
    · simp [stepUpdater, hpc, stepUpdate, shutdownOp, systemFree]
    · rw [hpc]
      rfl
  · have hmain : a.thread ≠ some .main := by
      intro hthread
      obtain ⟨ok, rfl, hown⟩ := step_main hstep hthread
      have hnone : s.shutdownOp .send = none := by
        simp only [shutdownOp]
        exact if_neg (Nat.not_lt.mpr hfull)
      simp [stepMain, hpc, hnone] at hown
    have hidle : a.thread ≠ some .receiver := by
      intro hthread
      obtain ⟨hstarted, hexited⟩ := (step_running hstep).2 hthread
      rcases hreceiver with hlt | heq
      · omega
      · exact hexited heq
    refine .inr (.inr ⟨?_, ?_, rest, (hframe.main hmain).trans hpc⟩)
    · cases step_mqMove hstep with
      | same h => rwa [h]
      | sent message h =>
          rw [h, List.length_append]
          omega
      | received message hthread => exact absurd hthread hidle
    · rw [hframe.created hmain, hframe.receiver hidle]
      exact hreceiver

/-- **A server that hangs never closes**, whatever the threads, the clients and the spurious
wake-ups do. -/
theorem hung_forever (hreach : Reachable cfg s) (hhung : Hung s)
    (hrun : TransitionSystem.Reachable (State.step cfg) s s') : Hung s' ∧ s'.main ≠ .closed := by
  have hstill : Hung s' := by
    refine hrun.invariant Hung hhung ?_
    intro s a s' _ hs _ hstep
    exact hs.step hstep
  exact ⟨hstill, hstill.not_closed (hreach.trans hrun)⟩

/-- The queue of requests is full when the signal comes, and the receiver leaves before the stop
message. -/
def stopMessageWaits : List Action :=
  threadsStart ++ List.replicate 10 (.client ['e']) ++
    [.main true, .main true, .receiver none]

theorem hung_forever_stopMessage :
    let s := stateAfter exampleServer stopMessageWaits
    Hung s ∧ ∀ s', TransitionSystem.Reachable (State.step exampleServer) s s' →
      s'.main ≠ .closed := by
  intro s
  have hhung : Hung s := by
    have hfull : MQ_MAXMSG ≤ s.mq.length := by decide +kernel
    have hexited : s.receiver = .exited := by decide +kernel
    have hpc : s.main = .shutdown [.send, .close, .updated, .wake] := by decide +kernel
    exact .inr (.inr ⟨hfull, .inr hexited, _, hpc⟩)
  exact ⟨hhung, fun s' hrun => (hung_forever (reachable_stateAfter _ _) hhung hrun).2⟩

end EmergencyDispatch
