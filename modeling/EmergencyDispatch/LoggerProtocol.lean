import EmergencyDispatch.Logger

/-!
# The logger stops only when logging ends

When the first terminating message of the server is the `LOGGING_ENDED` of
`log_close`, and few messages follow it, the logger stops on that message only.
It then has written everything that was sent before, once and in the order of the
queue, and no thread waits for room that nobody will make.
-/

namespace EmergencyDispatch

open TransitionSystem LogState

/-! ## The condition -/

/-- The logger stops after this message. -/
def LogMessage.stops (m : LogMessage) : Bool :=
  m.eventType.isTerminating && m.role == .server

/-- What was sent after the first message that stops the logger. -/
def afterStop (sent : List LogMessage) : List LogMessage :=
  (sent.dropWhile fun m => !m.stops).tail

/-- Of the messages that stop the logger the first one comes from `log_close`, and
fewer than `MAX_LOG_QUEUE_MESSAGES` messages follow it. -/
def EndsInOrder (s : LogState) : LogAction → Prop
  | .step t =>
      match s.todo t with
      | .send m :: _ =>
          (m.stops = true → m.madeBy = .logClose ∨ ∃ m' ∈ s.sent, m'.stops = true) ∧
            (afterStop s.sent).length + 1 < MAX_LOG_QUEUE_MESSAGES
      | _ => True
  | _ => True

instance (s : LogState) (a : LogAction) : Decidable (EndsInOrder s a) := by
  unfold EndsInOrder
  split
  · split <;> infer_instance
  · infer_instance

theorem length_afterStop_append (sent : List LogMessage) (m : LogMessage) :
    (afterStop (sent ++ [m])).length ≤ (afterStop sent).length + 1 := by
  unfold afterStop
  induction sent with
  | nil => cases hm : m.stops <;> simp [hm]
  | cons x sent ih =>
      cases hx : x.stops with
      | true => simp [hx]
      | false => simpa [hx] using ih

/-- After the first message that stops the logger comes the rest. -/
theorem afterStop_append {before rest : List LogMessage} {m : LogMessage}
    (hbefore : ∀ m ∈ before, m.stops = false) (hm : m.stops = true) :
    afterStop (before ++ m :: rest) = rest := by
  unfold afterStop
  rw [List.dropWhile_append_of_pos fun x hx => by simp [hbefore x hx]]
  simp [hm]

/-! ## The invariant -/

/-- What `log_close` makes is the end of the logging. -/
def LogMessage.WellMade (m : LogMessage) : Prop :=
  m.madeBy = .logClose → m.eventType = .loggingEnded

/-- What a thread has still to do logs well made loggable messages. -/
def LogOp.WellMade (switches : LogSwitches) : LogOp → Prop
  | .event madeBy _ eventType _ => madeBy = .logClose → eventType = .loggingEnded
  | .send m => m.eventType.isToLog switches = true ∧ m.WellMade
  | .finish | .exit => True

/-- Before `exit` the thread waits for the logger. -/
def ExitsLast : List LogOp → Prop
  | [] => True
  | .finish :: _ => True
  | .exit :: _ => False
  | .event _ _ _ _ :: ops => ExitsLast ops
  | .send _ :: ops => ExitsLast ops

/-- The first message that stops the logger comes from `log_close`. -/
def StopsInOrder (sent : List LogMessage) : Prop :=
  ∀ m, sent.find? LogMessage.stops = some m → m.madeBy = .logClose

/-- The logger has written no message that stops it and runs, or the last line it
has written is the only one. -/
inductive Logging (s : LogState) : Prop
  | runs (hrunning : s.loggerRunning = true) (hlogger : s.logger ≠ .exited)
      (hfile : ∀ m ∈ s.file, m.stops = false)
  | stopped (hrunning : s.loggerRunning = false) (hlogger : s.logger ≠ .receive)
      (before : List LogMessage) (m : LogMessage) (hfile : s.file = before ++ [m])
      (hstops : m.stops = true) (hbefore : ∀ m ∈ before, m.stops = false)

/-- What holds in the runs that end in order. -/
structure LogInvariant (switches : LogSwitches) (s : LogState) : Prop where
  todo : ∀ t, ∀ op ∈ s.todo t, op.WellMade switches
  exits : ∀ t, t.role = .server → s.logger = .exited ∨ ExitsLast (s.todo t)
  sent : s.sent = s.file ++ s.queue
  made : ∀ m ∈ s.sent, m.eventType.isToLog switches = true ∧ m.WellMade
  inOrder : StopsInOrder s.sent
  logging : Logging s
  closed : s.serverOpened = false → s.logger = .exited
  finished : s.serverExited = true → s.logger = .exited
  few : (afterStop s.sent).length < MAX_LOG_QUEUE_MESSAGES

variable {switches : LogSwitches} {s s' : LogState} {a : LogAction} {t : LogThread}

theorem closeOps_wellMade (role : LogRole) : ∀ op ∈ closeOps role, op.WellMade switches := by
  intro op hop
  cases role <;> simp only [closeOps, List.mem_cons, List.not_mem_nil, or_false] at hop <;>
    rcases hop with rfl | rfl
  · exact fun _ => rfl
  · trivial
  · exact fun _ => rfl
  · trivial

theorem callOps_wellMade (role : LogRole) (c : LogCall) :
    ∀ op ∈ callOps role c, op.WellMade switches := by
  intro op hop
  cases c with
  | event id eventType message =>
      rw [List.mem_singleton.mp hop]
      intro hmade
      cases hmade
  | errorAndExit exitFunction message =>
      simp only [callOps, List.mem_cons] at hop
      rcases hop with rfl | hop
      · intro hmade
        cases hmade
      · split at hop
        · simp at hop
        · rcases List.mem_append.mp hop with hop | hop
          · exact closeOps_wellMade role op hop
          · rw [List.mem_singleton.mp hop]
            trivial
  | close => exact closeOps_wellMade role op hop

theorem callOps_exitsLast (role : LogRole) (c : LogCall) : ExitsLast (callOps role c) := by
  cases c with
  | event id eventType message => trivial
  | errorAndExit exitFunction message => cases exitFunction <;> cases role <;> trivial
  | close => cases role <;> trivial

/-- A thread that runs has a call to go on with only at the start, in `log_init`. -/
theorem initialTodo (t : LogThread) :
    ExitsLast (initialLogState.todo t) ∧ ∀ op ∈ initialLogState.todo t, op.WellMade switches := by
  by_cases ht : t = .server 0
  · subst ht
    refine ⟨trivial, fun op hop => ?_⟩
    rw [List.mem_singleton.mp hop]
    intro hmade
    cases hmade
  · have hnil : initialLogState.todo t = [] := if_neg ht
    rw [hnil]
    exact ⟨trivial, fun _ hop => absurd hop List.not_mem_nil⟩

theorem initial_logInvariant (switches : LogSwitches) : LogInvariant switches initialLogState where
  todo t := (initialTodo t).2
  exits t _ := .inr (@initialTodo switches t).1
  sent := rfl
  made _ hm := absurd hm List.not_mem_nil
  inOrder _ hm := nomatch hm
  logging := .runs rfl nofun fun _ hm => absurd hm List.not_mem_nil
  closed h := nomatch h
  finished h := nomatch h
  few := Nat.zero_lt_succ 9

/-! ## Steps -/

theorem Logging.of_eq (h : Logging s) (hrunning : s'.loggerRunning = s.loggerRunning)
    (hlogger : s'.logger = s.logger) (hfile : s'.file = s.file) : Logging s' := by
  cases h with
  | runs hr hl hf => exact .runs (hrunning ▸ hr) (hlogger ▸ hl) (hfile ▸ hf)
  | stopped hr hl before m hf hstops hbefore =>
      exact .stopped (hrunning ▸ hr) (hlogger ▸ hl) before m (hfile ▸ hf) hstops hbefore

namespace LogInvariant

theorem setTodo (h : LogInvariant switches s) (t : LogThread) {ops : List LogOp}
    (hops : ∀ op ∈ ops, op.WellMade switches)
    (hexits : t.role = .server → s.logger = .exited ∨ ExitsLast ops) :
    LogInvariant switches (s.setTodo t ops) :=
  { h with
    todo := by
      intro u op hop
      by_cases hu : u = t
      · subst hu
        exact hops op (by simpa [LogState.setTodo] using hop)
      · exact h.todo u op (by simpa [LogState.setTodo, hu] using hop)
    exits := by
      intro u hrole
      by_cases hu : u = t
      · subst hu
        simpa [LogState.setTodo] using hexits hrole
      · simpa [LogState.setTodo, hu] using h.exits u hrole
    logging := h.logging.of_eq rfl rfl rfl }

theorem setClient (h : LogInvariant switches s) (clientOpened : ℕ → Bool) :
    LogInvariant switches { s with clientOpened := clientOpened } :=
  { h with logging := h.logging.of_eq rfl rfl rfl }

theorem send (h : LogInvariant switches s) {m : LogMessage}
    (hmade : m.eventType.isToLog switches = true ∧ m.WellMade)
    (horder : m.stops = true → m.madeBy = .logClose ∨ ∃ m' ∈ s.sent, m'.stops = true)
    (hfew : (afterStop s.sent).length + 1 < MAX_LOG_QUEUE_MESSAGES) :
    LogInvariant switches { s with queue := s.queue ++ [m], sent := s.sent ++ [m] } :=
  { h with
    sent := by
      show s.sent ++ [m] = s.file ++ (s.queue ++ [m])
      rw [h.sent, List.append_assoc]
    made := by
      intro x hx
      rcases List.mem_append.mp hx with hold | hnew
      · exact h.made x hold
      · rwa [List.mem_singleton.mp hnew]
    inOrder := by
      intro x hx
      rw [List.find?_append] at hx
      -- the first message that stops the logger is an old one, or there was none before
      rcases Option.or_eq_some_iff.mp hx with hold | ⟨hnone, hnew⟩
      · exact h.inOrder x hold
      · obtain rfl := List.mem_singleton.mp (List.mem_of_find?_eq_some hnew)
        rcases horder (List.find?_some hnew) with hclose | ⟨m', hin, hstops⟩
        · exact hclose
        · exact absurd hstops (List.find?_eq_none.mp hnone m' hin)
    logging := h.logging.of_eq rfl rfl rfl
    few := lt_of_le_of_lt (length_afterStop_append s.sent m) hfew }

theorem stopped_of_exited (h : LogInvariant switches s) (hexited : s.logger = .exited) :
    s.loggerRunning = false := by
  cases h.logging with
  | runs _ hlogger _ => exact absurd hexited hlogger
  | stopped hrunning => exact hrunning

/-- The server closes the queue when the logger has exited. -/
theorem close (h : LogInvariant switches s) (hexited : s.logger = .exited) :
    LogInvariant switches { s with loggerRunning := false, serverOpened := false } :=
  { h with
    logging := h.logging.of_eq (h.stopped_of_exited hexited).symm rfl rfl
    closed := fun _ => hexited }

/-- A process ends: the server only after the logger. -/
theorem exitProcess (h : LogInvariant switches s) (t : LogThread)
    (hexited : t.role = .server → s.logger = .exited) :
    LogInvariant switches (s.exitProcess t) := by
  cases t with
  | server n =>
      exact { h with
        logging := h.logging.of_eq rfl rfl rfl
        finished := fun _ => hexited rfl }
  | client n => exact (h.setClient _).setTodo (.client n) (by simp) (fun _ => .inr trivial)

/-- What the server has opened it has not closed. -/
theorem exited_of_not_opened (h : LogInvariant switches s) {t : LogThread}
    (hopened : s.opened t = false) (hrole : t.role = .server) : s.logger = .exited := by
  cases t with
  | server n => exact h.closed hopened
  | client n => cases hrole

theorem finish (h : LogInvariant switches s) {t : LogThread} {rest : List LogOp}
    (hrest : ∀ op ∈ rest, op.WellMade switches) (hstep : s.finish rest t = some s') :
    LogInvariant switches s' := by
  cases t with
  | server n =>
      simp only [LogState.finish] at hstep
      split at hstep
      · rename_i hclosed
        obtain rfl := Option.some.inj hstep
        exact h.setTodo (.server n) hrest fun _ => .inl (h.closed hclosed)
      · split at hstep
        · rename_i hexited
          obtain rfl := Option.some.inj hstep
          exact (h.close hexited).setTodo (.server n) hrest fun _ => .inl hexited
        · simp at hstep
  | client n =>
      simp only [LogState.finish] at hstep
      obtain rfl := Option.some.inj hstep
      exact (h.setClient _).setTodo (.client n) hrest nofun

theorem stepThread (h : LogInvariant switches s) (hguard : EndsInOrder s (.step t))
    (hstep : s.stepThread switches t = some s') : LogInvariant switches s' := by
  have hall := h.todo t
  have hexits := h.exits t
  unfold LogState.stepThread at hstep
  unfold EndsInOrder at hguard
  cases htodo : s.todo t with
  | nil => simp [htodo] at hstep
  | cons op rest =>
      rw [htodo] at hall hexits
      have hop := hall op List.mem_cons_self
      have hrest := fun op' hop' => hall op' (List.mem_cons_of_mem op hop')
      cases op with
      | event madeBy id eventType message =>
          simp only [htodo] at hstep
          split at hstep <;> obtain rfl := Option.some.inj hstep
          -- a loggable event becomes a message to send, any other one is dropped
          · rename_i hlog
            simp only [Bool.and_eq_true] at hlog
            refine h.setTodo t (fun op' hop' => ?_) hexits
            rcases List.mem_cons.mp hop' with rfl | hin
            · exact ⟨hlog.1, hop⟩
            · exact hrest op' hin
          · exact h.setTodo t hrest hexits
      | send m =>
          simp only [htodo] at hstep hguard
          split at hstep
          · split at hstep
            · obtain rfl := Option.some.inj hstep
              exact (h.send hop hguard.1 hguard.2).setTodo t hrest hexits
            · simp at hstep
          -- the queue is closed: `mq_send` fails, and the process ends
          · rename_i hopened
            obtain rfl := Option.some.inj hstep
            exact h.exitProcess t (h.exited_of_not_opened (by simpa using hopened))
      | finish =>
          simp only [htodo] at hstep
          exact h.finish hrest hstep
      | exit =>
          simp only [htodo] at hstep
          obtain rfl := Option.some.inj hstep
          exact h.exitProcess t fun hrole => (hexits hrole).resolve_right id

theorem test (h : LogInvariant switches s) (hpc : s.logger = .test) : LogInvariant switches
    { s with logger := if s.loggerRunning then .receive else .exited } := by
  have hnot : s.logger ≠ .exited := by rw [hpc]; nofun
  refine { h with
    exits := fun t hrole => .inr ((h.exits t hrole).resolve_left hnot)
    logging := ?_
    closed := fun hclosed => absurd (h.closed hclosed) hnot
    finished := fun hfinished => absurd (h.finished hfinished) hnot }
  cases h.logging with
  | runs hrunning hlogger hfile =>
      rw [hrunning]
      exact .runs rfl nofun hfile
  | stopped hrunning hlogger before m hfile hstops hbefore =>
      rw [hrunning]
      exact .stopped rfl nofun before m hfile hstops hbefore

theorem receive (h : LogInvariant switches s) (hpc : s.logger = .receive) {m : LogMessage}
    {queue : List LogMessage} (hqueue : s.queue = m :: queue) : LogInvariant switches { s with
      queue := queue
      file := s.file ++ [m]
      loggerRunning := if m.stops then false else s.loggerRunning
      logger := .test } := by
  -- the message moves from the queue to the file, and nothing else changes order
  have hnot : s.logger ≠ .exited := by rw [hpc]; nofun
  have hsent : s.sent = s.file ++ m :: queue := by rw [h.sent, hqueue]
  refine { h with
    exits := fun t hrole => .inr ((h.exits t hrole).resolve_left hnot)
    sent := by rw [hsent]; simp
    logging := ?_
    closed := fun hclosed => absurd (h.closed hclosed) hnot
    finished := fun hfinished => absurd (h.finished hfinished) hnot }
  cases h.logging with
  | stopped _ hlogger => exact absurd hpc hlogger
  | runs hrunning _ hfile =>
      cases hstop : m.stops with
      | true => exact .stopped rfl nofun s.file m rfl hstop hfile
      | false =>
          refine .runs hrunning nofun fun x hx => ?_
          rcases List.mem_append.mp hx with hold | hnew
          · exact hfile x hold
          · rwa [List.mem_singleton.mp hnew]

theorem stepLogger (h : LogInvariant switches s) (hstep : s.stepLogger switches = some s') :
    LogInvariant switches s' := by
  unfold LogState.stepLogger at hstep
  cases hpc : s.logger with
  | exited => simp [hpc] at hstep
  | test =>
      simp only [hpc] at hstep
      obtain rfl := Option.some.inj hstep
      exact h.test hpc
  | receive =>
      simp only [hpc] at hstep
      split at hstep
      · simp at hstep
      · rename_i m queue hqueue
        have hloggable : m.eventType.isToLog switches = true :=
          (h.made m (by rw [h.sent, hqueue]; simp)).1
        rw [if_pos hloggable] at hstep
        obtain rfl := Option.some.inj hstep
        exact h.receive hpc hqueue

/-- **Step lemma.** -/
theorem step (h : LogInvariant switches s) (hguard : EndsInOrder s a)
    (hstep : s.step switches a = some s') : LogInvariant switches s' := by
  cases a with
  | init n =>
      simp only [LogState.step] at hstep
      split at hstep
      · obtain rfl := Option.some.inj hstep
        refine (h.setClient _).setTodo (.client n) (fun op hop => ?_) nofun
        rw [List.mem_singleton.mp hop]
        intro hmade
        cases hmade
      · simp at hstep
  | call t c =>
      simp only [LogState.step] at hstep
      split at hstep
      · obtain rfl := Option.some.inj hstep
        exact h.setTodo t (callOps_wellMade t.role c) fun _ => .inr (callOps_exitsLast t.role c)
      · simp at hstep
  | step t =>
      simp only [LogState.step] at hstep
      split at hstep
      · exact h.stepThread hguard hstep
      · simp at hstep
  | logger =>
      simp only [LogState.step] at hstep
      split at hstep
      · simp at hstep
      · exact h.stepLogger hstep

end LogInvariant

/-- The states reached by runs that meet a condition. -/
abbrev LogReachable (switches : LogSwitches) (guard : LogState → LogAction → Prop) :
    LogState → Prop :=
  ReachableWith (LogState.step switches) guard initialLogState

theorem logInvariant_of_reachable (hreach : LogReachable switches EndsInOrder s) :
    LogInvariant switches s :=
  hreach.invariant (LogInvariant switches) (initial_logInvariant switches)
    fun _ _ _ _ h hguard hstep => h.step hguard hstep

/-- Nobody receives any more. -/
def NoReader (s : LogState) : Prop :=
  s.loggerRunning = false ∨ s.logger = .exited ∨ s.serverExited = true

/-- **The logger protocol.**  In every run that ends in order, what was sent is
what the file holds followed by what the queue holds; when nobody receives any
more, the file ends with the `LOGGING_ENDED` of the server's `log_close` and holds
all that was sent before it; and then the queue is not full. -/
theorem logger_protocol (hreach : LogReachable switches EndsInOrder s) :
    s.sent = s.file ++ s.queue ∧
      (NoReader s → (∃ before m, s.file = before ++ [m] ∧ s.sent = before ++ m :: s.queue ∧
          m.role = .server ∧ m.eventType = .loggingEnded ∧ m.madeBy = .logClose) ∧
        s.queue.length < MAX_LOG_QUEUE_MESSAGES) := by
  have h := logInvariant_of_reachable hreach
  refine ⟨h.sent, fun hreader => ?_⟩
  have hrunning : s.loggerRunning = false := by
    rcases hreader with hstopped | hexited | hquit
    · exact hstopped
    · exact h.stopped_of_exited hexited
    · exact h.stopped_of_exited (h.finished hquit)
  cases h.logging with
  | runs hruns => simp [hruns] at hrunning
  | stopped _ _ before m hfile hstops hbefore =>
      have hsent : s.sent = before ++ m :: s.queue := by rw [h.sent, hfile]; simp
      have hfirst : s.sent.find? LogMessage.stops = some m := by
        rw [hsent, List.find?_append, List.find?_eq_none.mpr fun x hx => by simp [hbefore x hx]]
        simp [hstops]
      have hclose := h.inOrder m hfirst
      have hended := (h.made m (List.mem_of_find?_eq_some hfirst)).2 hclose
      have hrole : m.role = .server := by
        simp only [LogMessage.stops, Bool.and_eq_true, beq_iff_eq] at hstops
        exact hstops.2
      refine ⟨⟨before, m, hfile, hsent, hrole, hended, hclose⟩, ?_⟩
      have hfew := h.few
      rwa [hsent, afterStop_append hbefore hstops] at hfew

/-! ## A full queue without reader -/

/-- When the logger has exited and the queue is full, nothing is written and nothing
is sent any more. -/
theorem step_full (hexited : s.logger = .exited)
    (hfull : ¬s.queue.length < MAX_LOG_QUEUE_MESSAGES) (hstep : s.step switches a = some s') :
    s'.logger = .exited ∧ s'.queue = s.queue ∧ s'.file = s.file := by
  have hexit : ∀ t, (s.exitProcess t).logger = .exited ∧ (s.exitProcess t).queue = s.queue ∧
      (s.exitProcess t).file = s.file := by
    intro t
    cases t <;> exact ⟨hexited, rfl, rfl⟩
  cases a with
  | init n =>
      simp only [LogState.step] at hstep
      split at hstep
      · obtain rfl := Option.some.inj hstep
        exact ⟨hexited, rfl, rfl⟩
      · simp at hstep
  | call t c =>
      simp only [LogState.step] at hstep
      split at hstep
      · obtain rfl := Option.some.inj hstep
        exact ⟨hexited, rfl, rfl⟩
      · simp at hstep
  | logger => simp [LogState.step, stepLogger, hexited] at hstep
  | step t =>
      simp only [LogState.step, stepThread] at hstep
      split at hstep
      · split at hstep
        · simp at hstep
        · split at hstep <;> obtain rfl := Option.some.inj hstep <;>
            exact ⟨hexited, rfl, rfl⟩
        · split at hstep
          · simp at hstep
          · obtain rfl := Option.some.inj hstep
            exact hexit t
        · cases t with
          | server n =>
              simp only [LogState.finish] at hstep
              rw [if_pos hexited] at hstep
              split at hstep <;> obtain rfl := Option.some.inj hstep <;>
                exact ⟨hexited, rfl, rfl⟩
          | client n =>
              obtain rfl := Option.some.inj hstep
              exact ⟨hexited, rfl, rfl⟩
        · obtain rfl := Option.some.inj hstep
          exact hexit t
      · simp at hstep

theorem full_forever (hexited : s.logger = .exited)
    (hfull : ¬s.queue.length < MAX_LOG_QUEUE_MESSAGES)
    (hrun : Reachable (LogState.step switches) s s') :
    s'.logger = .exited ∧ s'.queue = s.queue ∧ s'.file = s.file := by
  refine hrun.invariant (fun s' => s'.logger = .exited ∧ s'.queue = s.queue ∧ s'.file = s.file)
    ⟨hexited, rfl, rfl⟩ ?_
  intro s₁ a s₂ _ ⟨hexited₁, hqueue₁, hfile₁⟩ _ hstep
  obtain ⟨hexited₂, hqueue₂, hfile₂⟩ := step_full hexited₁ (by rwa [hqueue₁]) hstep
  exact ⟨hexited₂, hqueue₂.trans hqueue₁, hfile₂.trans hfile₁⟩

/-! ## Runs -/

/-- The state after a list of actions from the start that all meet `guard`. -/
def logAfter (switches : LogSwitches) (guard : LogState → LogAction → Prop)
    [∀ s a, Decidable (guard s a)] (actions : List LogAction) : LogState :=
  (runWith (LogState.step switches) guard initialLogState actions).getD initialLogState

theorem reachable_logAfter (guard : LogState → LogAction → Prop) [∀ s a, Decidable (guard s a)]
    (actions : List LogAction) : LogReachable switches guard (logAfter switches guard actions) := by
  unfold logAfter
  cases hrun : runWith (LogState.step switches) guard initialLogState actions with
  | none => exact .initial
  | some s => exact reachableWith_of_runWith .initial hrun

/-- The macros without any of `LOG_DEBUGGING`, `LOG_VERBOSE` and `LOG_SHY`. -/
def defaultSwitches : LogSwitches := ⟨false, false, true, true⟩

/-- A thread of the server calls `log_event`, which sends the message. -/
def logs (n : ℕ) (eventType : LogEventType) : List LogAction :=
  [.call (.server n) (.event AUTOMATIC_LOG_ID eventType []), .step (.server n), .step (.server n)]

/-- The logger receives and writes a message. -/
def loggerWrites : List LogAction := [.logger, .logger]

/-- The server logs `LOGGING_STARTED`. -/
def loggingStarts : List LogAction := [.step (.server 0), .step (.server 0)] ++ loggerWrites

/-- An event, `log_close`, and one more event before the logger stops. -/
theorem logger_protocol_closed :
    let s := logAfter defaultSwitches EndsInOrder
      (loggingStarts ++ logs 1 .emergencyStatus ++
        [.call (.server 0) .close, .step (.server 0), .step (.server 0)] ++
        logs 2 .rescuerStatus ++ loggerWrites ++ loggerWrites ++ [.logger, .step (.server 0)])
    s.serverOpened = false ∧ s.file.length = 3 ∧ s.sent = s.file ++ s.queue ∧
      s.queue.length < MAX_LOG_QUEUE_MESSAGES := by
  intro s
  have hclosed : s.serverOpened = false := by decide +kernel
  have hexited : s.logger = .exited := by decide +kernel
  have hprotocol := logger_protocol (reachable_logAfter EndsInOrder _ : LogReachable _ _ s)
  exact ⟨hclosed, by decide +kernel, hprotocol.1, (hprotocol.2 (.inr (.inl hexited))).2⟩

/-- A fatal error: `log_error_and_exit` with an exit function stops the logger; ten
more events fill the queue before the exit function comes to call `log_close`. -/
def fatalErrorStopsLogger : List LogAction :=
  loggingStarts ++
    [.call (.server 1) (.errorAndExit true []), .step (.server 1), .step (.server 1)] ++
    loggerWrites ++ [.logger] ++
    (List.replicate MAX_LOG_QUEUE_MESSAGES (logs 2 .emergencyStatus)).flatten ++
    [.call (.server 1) .close, .step (.server 1)]

/-- The logger has exited on the `FATAL_ERROR`, the queue is full, and the
`LOGGING_ENDED` of `log_close` waits for room; the ten events that were sent before
it are never written. -/
theorem logger_stops_on_fatal_error :
    let s := logAfter defaultSwitches (fun _ _ => True) fatalErrorStopsLogger
    LogReachable defaultSwitches (fun _ _ => True) s ∧ s.logger = .exited ∧
      s.file.map (·.eventType) = [.loggingStarted, .fatalError] ∧
      s.queue = List.replicate MAX_LOG_QUEUE_MESSAGES
        ⟨.server, AUTOMATIC_LOG_ID, .emergencyStatus, [], .logEvent⟩ ∧
      (∃ m rest, s.todo (.server 1) = .send m :: rest ∧ m.eventType = .loggingEnded) ∧
      (s.step defaultSwitches (.step (.server 1))).isNone = true ∧
      ∀ s', Reachable (LogState.step defaultSwitches) s s' →
        s'.file = s.file ∧ s'.queue = s.queue := by
  intro s
  have hexited : s.logger = .exited := by decide +kernel
  have hfull : ¬s.queue.length < MAX_LOG_QUEUE_MESSAGES := by decide +kernel
  refine ⟨reachable_logAfter _ _, hexited, by decide +kernel, by decide +kernel,
    ⟨_, _, rfl, rfl⟩, by decide +kernel, fun s' hrun => ?_⟩
  obtain ⟨-, hqueue, hfile⟩ := full_forever hexited hfull hrun
  exact ⟨hfile, hqueue⟩

end EmergencyDispatch
