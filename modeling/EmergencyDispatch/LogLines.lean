import EmergencyDispatch.LogTexts
import EmergencyDispatch.Library.Fields

/-!
# The lines of the log read back

What matters for the lines is where the messages are: in the hand of a thread, in
the queue, or in the file.  `LedgerStep` says once what a step can do to them.

A line is never cut, since its fields have fixed lengths; and the fields of a line
of the server's syntax can be told apart, since neither a time stamp nor an id nor
the name of an event contains a `]`.  So the file says what was sent, in order.
-/

namespace EmergencyDispatch

open TransitionSystem Json Fields

/-! ## Where the messages are -/

/-- The message in an operation. -/
def LogTextOp.message : LogTextOp → Option LogTextMessage
  | .op _ => none
  | .send m => some m

/-- The messages, the counters of the server, and whether the queue is open. -/
structure LogLedger where
  inHand : LogThread → List LogTextMessage
  queue : List LogTextMessage
  file : List LogTextMessage
  sent : List LogTextMessage
  counters : LogEventType → ℕ
  serverOpened : Bool

def LogTextState.ledger (s : LogTextState) : LogLedger where
  inHand t := (s.todo t).filterMap LogTextOp.message
  queue := s.queue
  file := s.file
  sent := s.sent
  counters := s.counters .server
  serverOpened := s.serverOpened

/-- The fields of a message have the form in which `log_event` writes them. -/
structure LogTextMessage.WellMade (switches : LogSwitches) (m : LogTextMessage) : Prop where
  toLog : m.eventType.isToLog switches = true
  timestamp : ∃ seconds nanoseconds, m.timestamp = timestampText seconds nanoseconds
  threadName : ∃ name, m.threadName = snprintf MAX_THREAD_NAME_LENGTH name
  formattedMessage : ∃ message,
    m.formattedMessage = snprintf MAX_LOG_EVENT_FORMATTED_MESSAGE_LENGTH message

/-- What a step can do to the messages. -/
inductive LedgerStep (switches : LogSwitches) (l : LogLedger) : LogLedger → Prop
  | stay : LedgerStep switches l l
  /-- The server closes the queue. -/
  | close : LedgerStep switches l { l with serverOpened := false }
  /-- A thread of the server makes a message. -/
  | make (n : ℕ) (m : LogTextMessage) (hmade : m.WellMade switches) (hrole : m.role = .server) :
      LedgerStep switches l { l with
        inHand := Function.update l.inHand (.server n)
          ((assembleLogText serverLoggingConfig l.counters m).1 :: l.inHand (.server n))
        counters := (assembleLogText serverLoggingConfig l.counters m).2 }
  /-- It makes one for `stdout` only. -/
  | lose (m : LogTextMessage) (hclosed : l.serverOpened = false) : LedgerStep switches l
      { l with counters := (assembleLogText serverLoggingConfig l.counters m).2 }
  | makeClient (n : ℕ) (m : LogTextMessage) (hmade : m.WellMade switches)
      (hrole : m.role = .client) : LedgerStep switches l { l with
        inHand := Function.update l.inHand (.client n) (m :: l.inHand (.client n)) }
  | send (t : LogThread) (m : LogTextMessage) (rest : List LogTextMessage)
      (hhand : l.inHand t = m :: rest) : LedgerStep switches l { l with
        inHand := Function.update l.inHand t rest
        queue := l.queue ++ [m]
        sent := l.sent ++ [m] }
  /-- A client ends. -/
  | leave (n : ℕ) : LedgerStep switches l
      { l with inHand := Function.update l.inHand (.client n) [] }
  | write (m : LogTextMessage) (queue : List LogTextMessage) (hqueue : l.queue = m :: queue)
      (hrole : m.role = .server) :
      LedgerStep switches l { l with queue := queue, file := l.file ++ [m] }
  | writeClient (m : LogTextMessage) (queue : List LogTextMessage) (hqueue : l.queue = m :: queue)
      (hrole : m.role = .client) : LedgerStep switches l { l with
        queue := queue
        file := l.file ++ [(assembleLogText serverLoggingConfig l.counters m).1]
        counters := (assembleLogText serverLoggingConfig l.counters m).2 }
  | drop (m : LogTextMessage) (queue : List LogTextMessage) (hqueue : l.queue = m :: queue)
      (hlog : m.eventType.isToLog switches = false) :
      LedgerStep switches l { l with queue := queue }

variable {switches : LogSwitches} {s s' : LogTextState} {a : LogTextAction} {t : LogThread}
  {l l' : LogLedger} {m : LogTextMessage}

/-! ## What a step does to them -/

theorem ledger_setTodo (s : LogTextState) (t : LogThread) (ops : List LogTextOp) :
    (s.setTodo t ops).ledger = { s.ledger with
      inHand := Function.update s.ledger.inHand t (ops.filterMap LogTextOp.message) } := by
  have hhand : (s.setTodo t ops).ledger.inHand =
      Function.update s.ledger.inHand t (ops.filterMap LogTextOp.message) := by
    funext u
    by_cases hu : u = t
    · subst hu
      simp [LogTextState.ledger, LogTextState.setTodo]
    · simp [LogTextState.ledger, LogTextState.setTodo, hu]
  exact congrArg (fun inHand => { s.ledger with inHand := inHand }) hhand

theorem LedgerStep.setTodo {ops : List LogTextOp} (h : LedgerStep switches l s.ledger)
    (hops : ops.filterMap LogTextOp.message = s.ledger.inHand t) :
    LedgerStep switches l (s.setTodo t ops).ledger := by
  rw [ledger_setTodo, hops, Function.update_eq_self]
  exact h

theorem inHand_of_todo {op : LogTextOp} {rest : List LogTextOp} (h : s.todo t = op :: rest) :
    s.ledger.inHand t = op.message.toList ++ rest.filterMap LogTextOp.message := by
  show (s.todo t).filterMap LogTextOp.message = _
  rw [h, List.filterMap_cons]
  cases op.message <;> rfl

theorem filterMap_message_op (ops : List LogOp) :
    (ops.map LogTextOp.op).filterMap LogTextOp.message = [] := by
  induction ops with
  | nil => rfl
  | cons op ops ih => exact ih

theorem assembleIn_eq (s : LogTextState) (p : LogProcess) (m : LogTextMessage) :
    s.assembleIn p m = ((assembleLogText p.loggingConfig (s.counters p) m).1,
      { s with
        counters := Function.update s.counters p
          (assembleLogText p.loggingConfig (s.counters p) m).2 }) := rfl

theorem assembleLogText_fields (config : LoggingConfig) (counters : LogEventType → ℕ)
    (m : LogTextMessage) : (assembleLogText config counters m).1 = { m with
      text := lineText config (counters m.eventType) m
      number := if m.id = AUTOMATIC_LOG_ID then some (counters m.eventType) else none } := by
  unfold assembleLogText
  split <;> rfl

theorem makeMessage_wellMade (s : LogTextState) (t : LogThread) (seconds : ℤ) (nanoseconds : ℕ)
    (madeBy : LogFunction) (id : ℤ) {eventType : LogEventType} (message : CString)
    (hlog : eventType.isToLog switches = true) :
    (s.makeMessage t seconds nanoseconds madeBy id eventType message).WellMade switches :=
  ⟨hlog, ⟨seconds, nanoseconds, rfl⟩, ⟨_, rfl⟩, ⟨message, rfl⟩⟩

theorem LogTextMessage.WellMade.assembled (h : m.WellMade switches) (config : LoggingConfig)
    (counters : LogEventType → ℕ) : (assembleLogText config counters m).1.WellMade switches := by
  rw [assembleLogText_fields]
  exact ⟨h.toLog, h.timestamp, h.threadName, h.formattedMessage⟩

theorem exitProcess_ledger (s : LogTextState) (t : LogThread) :
    LedgerStep switches s.ledger (s.exitProcess t).ledger := by
  cases t with
  | server n => exact .stay
  | client n =>
      rw [LogTextState.exitProcess, ledger_setTodo]
      exact .leave n

theorem finish_ledger {rest : List LogTextOp} (hrest : rest.filterMap LogTextOp.message =
    s.ledger.inHand t) (h : s.finish rest t = some s') :
    LedgerStep switches s.ledger s'.ledger := by
  cases t with
  | client n =>
      obtain rfl := Option.some.inj h
      exact .setTodo .stay hrest
  | server n =>
      simp only [LogTextState.finish] at h
      split at h
      · obtain rfl := Option.some.inj h
        exact .setTodo .stay hrest
      · split at h
        · obtain rfl := Option.some.inj h
          exact .setTodo .close hrest
        · cases h

theorem stepThread_ledger {seconds : ℤ} {nanoseconds : ℕ}
    (h : s.stepThread switches t seconds nanoseconds = some s') :
    LedgerStep switches s.ledger s'.ledger := by
  unfold LogTextState.stepThread at h
  cases hops : s.todo t with
  | nil => simp [hops] at h
  | cons op rest =>
      have hhand := inHand_of_todo hops
      rw [hops] at h
      cases op with
      | send m =>
          simp only at h
          split at h
          · split at h
            · obtain rfl := Option.some.inj h
              rw [ledger_setTodo]
              exact .send t m _ hhand
            · cases h
          · obtain rfl := Option.some.inj h
            exact exitProcess_ledger s t
      | op o =>
          have hrest : rest.filterMap LogTextOp.message = s.ledger.inHand t := hhand.symm
          cases o with
          | send m => cases h
          | finish => exact finish_ledger hrest h
          | exit =>
              obtain rfl := Option.some.inj h
              exact exitProcess_ledger s t
          | event madeBy id eventType message =>
              simp only at h
              split at h
              · rename_i hlog
                have hmade := makeMessage_wellMade s t seconds nanoseconds madeBy id message hlog
                rw [assembleIn_eq] at h
                simp only at h
                cases t with
                -- in the server the message is sent, or it is lost with its number
                | server n =>
                    split at h
                    · obtain rfl := Option.some.inj h
                      rw [ledger_setTodo, List.filterMap_cons, LogTextOp.message, hrest]
                      simpa [LogTextState.ledger, LogThread.process, LogProcess.loggingConfig] using
                        LedgerStep.make (l := s.ledger) n _ hmade rfl
                    · rename_i hclosed
                      obtain rfl := Option.some.inj h
                      refine .setTodo ?_ hrest
                      simpa [LogTextState.ledger, LogThread.process, LogProcess.loggingConfig] using
                        @LedgerStep.lose switches s.ledger _
                          (Bool.eq_false_of_not_eq_true hclosed)
                | client n =>
                    split at h
                    · obtain rfl := Option.some.inj h
                      rw [ledger_setTodo, List.filterMap_cons, LogTextOp.message, hrest]
                      have hrole := congrArg LogTextMessage.role (assembleLogText_fields
                        clientLoggingConfig (s.counters (.client n)) (s.makeMessage (.client n)
                          seconds nanoseconds madeBy id eventType message))
                      simpa [LogTextState.ledger, LogThread.process, LogProcess.loggingConfig] using
                        LedgerStep.makeClient (l := s.ledger) n _
                          (hmade.assembled clientLoggingConfig (s.counters (.client n))) hrole
                    · obtain rfl := Option.some.inj h
                      refine .setTodo ?_ hrest
                      simpa [LogTextState.ledger, LogThread.process] using
                        @LedgerStep.stay switches s.ledger
              · obtain rfl := Option.some.inj h
                exact .setTodo .stay hrest

theorem stepLogger_ledger (h : s.stepLogger switches = some s') :
    LedgerStep switches s.ledger s'.ledger := by
  unfold LogTextState.stepLogger at h
  cases hpc : s.logger with
  | test =>
      simp only [hpc] at h
      obtain rfl := Option.some.inj h
      exact .stay
  | exited => simp [hpc] at h
  | receive =>
      cases hq : s.queue with
      | nil => simp [hpc, hq] at h
      | cons m queue =>
          simp only [hpc, hq, LogTextState.loggerWriteLine] at h
          split at h
          · cases hrole : m.role with
            | server =>
                rw [if_neg (not_not.mpr hrole)] at h
                obtain rfl := Option.some.inj h
                exact .write m queue hq hrole
            | client =>
                have hclient : m.role ≠ .server := by rw [hrole]; decide
                rw [if_pos hclient, assembleIn_eq] at h
                obtain rfl := Option.some.inj h
                simpa [LogTextState.ledger, LogProcess.loggingConfig] using
                  @LedgerStep.writeClient switches s.ledger m queue hq hrole
          · rename_i hlog
            obtain rfl := Option.some.inj h
            exact .drop m queue hq (Bool.eq_false_of_not_eq_true hlog)

/-- What a step of the logging does to the messages. -/
theorem step_ledger (h : s.step switches a = some s') :
    LedgerStep switches s.ledger s'.ledger := by
  cases a with
  | init n =>
      simp only [LogTextState.step] at h
      split at h
      · rename_i htodo
        obtain rfl := Option.some.inj h
        have hhand : s.ledger.inHand (.client n) = [] := by
          rw [List.isEmpty_iff] at htodo
          simp [LogTextState.ledger, htodo]
        refine .setTodo ?_ hhand.symm
        simpa [LogTextState.ledger] using @LedgerStep.stay switches s.ledger
      · cases h
  | call t c =>
      simp only [LogTextState.step] at h
      split at h
      · rename_i hcall
        obtain rfl := Option.some.inj h
        have hhand : s.ledger.inHand t = [] := by
          have htodo := List.isEmpty_iff.mp (Bool.and_eq_true_iff.mp hcall).2
          simp [LogTextState.ledger, htodo]
        exact .setTodo .stay ((filterMap_message_op _).trans hhand.symm)
      · cases h
  | register t name =>
      simp only [LogTextState.step] at h
      split at h
      · obtain rfl := Option.some.inj h
        exact .stay
      · cases h
  | step t seconds nanoseconds =>
      simp only [LogTextState.step] at h
      split at h
      · exact stepThread_ledger h
      · cases h
  | logger =>
      simp only [LogTextState.step] at h
      split at h
      · cases h
      · exact stepLogger_ledger h

/-! ## What holds of the messages -/

/-- The text is the line of the message, in the server's syntax. -/
def LogTextMessage.Composed (m : LogTextMessage) : Prop :=
  ∃ increments, m.text = lineText serverLoggingConfig increments m ∧
    m.number = if m.id = AUTOMATIC_LOG_ID then some increments else none

/-- The message without its text. -/
def LogTextMessage.content (m : LogTextMessage) : LogTextMessage :=
  { m with text := [], number := none }

/-- A message on its way. -/
structure LogTextMessage.Sound (switches : LogSwitches) (m : LogTextMessage) : Prop where
  made : m.WellMade switches
  composed : m.role = .server → m.Composed

/-- Every message is as `log_event` makes it, the lines of the file are composed by the
server, and they are of the messages sent, in order. -/
structure LogLedger.Sound (switches : LogSwitches) (l : LogLedger) : Prop where
  inHand : ∀ t, ∀ m ∈ l.inHand t, m.Sound switches ∧ m.role = t.role
  queue : ∀ m ∈ l.queue, m.Sound switches
  file : ∀ m ∈ l.file, m.WellMade switches ∧ m.Composed
  order : l.sent.map LogTextMessage.content = (l.file ++ l.queue).map LogTextMessage.content

theorem composed_assembled (counters : LogEventType → ℕ) (m : LogTextMessage) :
    (assembleLogText serverLoggingConfig counters m).1.Composed := by
  rw [assembleLogText_fields]
  exact ⟨counters m.eventType, rfl, rfl⟩

theorem content_assembled (config : LoggingConfig) (counters : LogEventType → ℕ)
    (m : LogTextMessage) : (assembleLogText config counters m).1.content = m.content := by
  rw [assembleLogText_fields]
  rfl

namespace LogLedger.Sound

theorem update (h : l.Sound switches) (t : LogThread) {messages : List LogTextMessage}
    (hmessages : ∀ m ∈ messages, m.Sound switches ∧ m.role = t.role) :
    ∀ u, ∀ m ∈ Function.update l.inHand t messages u, m.Sound switches ∧ m.role = u.role := by
  intro u m hm
  by_cases hu : u = t
  · subst hu
    exact hmessages m (by simpa using hm)
  · exact h.inHand u m (by simpa [hu] using hm)

theorem write (h : l.Sound switches) {queue : List LogTextMessage} {line : LogTextMessage}
    (hqueue : l.queue = m :: queue) (hmade : line.WellMade switches) (hline : line.Composed)
    (hcontent : line.content = m.content) (counters : LogEventType → ℕ) :
    Sound switches { l with queue := queue, file := l.file ++ [line], counters := counters } where
  inHand := h.inHand
  queue x hx := h.queue x (hqueue ▸ List.mem_cons_of_mem m hx)
  file x hx := by
    rcases List.mem_append.mp hx with hold | hnew
    · exact h.file x hold
    · rw [List.mem_singleton.mp hnew]
      exact ⟨hmade, hline⟩
  order := by
    have horder := h.order
    rw [hqueue] at horder
    simpa [hcontent] using horder

/-- A step of the logging keeps the messages sound. -/
theorem step (h : l.Sound switches) (hstep : LedgerStep switches l l') : l'.Sound switches := by
  cases hstep with
  | stay => exact h
  | close => exact ⟨h.inHand, h.queue, h.file, h.order⟩
  | lose m hclosed => exact ⟨h.inHand, h.queue, h.file, h.order⟩
  | make n m hmade hrole =>
      refine ⟨h.update _ fun x hx => ?_, h.queue, h.file, h.order⟩
      rcases List.mem_cons.mp hx with rfl | hx
      · refine ⟨⟨hmade.assembled _ _, fun _ => composed_assembled _ m⟩, ?_⟩
        rw [assembleLogText_fields]
        exact hrole
      · exact h.inHand _ x hx
  | makeClient n m hmade hrole =>
      refine ⟨h.update _ fun x hx => ?_, h.queue, h.file, h.order⟩
      rcases List.mem_cons.mp hx with rfl | hx
      · exact ⟨⟨hmade, fun hserver => by rw [hrole] at hserver; cases hserver⟩, hrole⟩
      · exact h.inHand _ x hx
  | send t m rest hhand =>
      have hsound := h.inHand t
      rw [hhand] at hsound
      refine ⟨h.update _ fun x hx => hsound x (List.mem_cons_of_mem m hx), fun x hx => ?_,
        h.file, ?_⟩
      · rcases List.mem_append.mp hx with hold | hnew
        · exact h.queue x hold
        · rw [List.mem_singleton.mp hnew]
          exact (hsound m List.mem_cons_self).1
      · show (l.sent ++ [m]).map _ = (l.file ++ (l.queue ++ [m])).map _
        rw [List.map_append, h.order, ← List.append_assoc, ← List.map_append]
  | leave n =>
      exact ⟨h.update _ fun x hx => absurd hx List.not_mem_nil, h.queue, h.file, h.order⟩
  | write m queue hqueue hrole =>
      have hm := h.queue m (hqueue ▸ List.mem_cons_self)
      exact h.write hqueue hm.made (hm.composed hrole) rfl l.counters
  | writeClient m queue hqueue hrole =>
      have hm := h.queue m (hqueue ▸ List.mem_cons_self)
      exact h.write hqueue (hm.made.assembled _ _) (composed_assembled _ m)
        (content_assembled _ _ m) _
  | drop m queue hqueue hlog =>
      -- what is not to be logged was never made
      have hm := h.queue m (hqueue ▸ List.mem_cons_self)
      rw [hm.made.toLog] at hlog
      cases hlog

end LogLedger.Sound

/-- The states of the logging with texts. -/
abbrev LogTextReachable (switches : LogSwitches) : LogTextState → Prop :=
  Reachable (LogTextState.step switches) initialLogTextState

theorem initialLedger : initialLogTextState.ledger =
    ⟨fun _ => [], [], [], [], fun _ => 0, true⟩ := by
  have hhand : initialLogTextState.ledger.inHand = fun _ => [] := by
    funext t
    exact filterMap_message_op _
  exact congrArg (fun inHand => (⟨inHand, [], [], [], fun _ => 0, true⟩ : LogLedger)) hhand

theorem sound_of_reachable (hreach : LogTextReachable switches s) : s.ledger.Sound switches := by
  refine hreach.invariant (fun s => s.ledger.Sound switches) ?_
    fun _ _ _ _ h _ hstep => h.step (step_ledger hstep)
  rw [initialLedger]
  exact ⟨fun _ m hm => absurd hm List.not_mem_nil, fun m hm => absurd hm List.not_mem_nil,
    fun m hm => absurd hm List.not_mem_nil, rfl⟩

/-! ## Reading a line -/

/-- What follows the fields in the server's syntax, after a first `[`. -/
def lineDelimiters : List CString :=
  [[']', ' ', '['], [']', ' ', '['], [']', ' ', '('], [')', ' '], ['\n']]

/-- The id in the line of a message. -/
def LogTextMessage.idText (m : LogTextMessage) : CString :=
  match m.number with
  | some n => printInt (counterValue n)
  | none =>
      if m.id = NON_APPLICABLE_LOG_ID then serverLoggingConfig.nonApplicableLogIdString
      else printInt m.id

/-- The values of an `int`. -/
def IsInt (n : ℤ) : Prop := -2 ^ 31 ≤ n ∧ n < 2 ^ 31

theorem isInt_counterValue (n : ℕ) : IsInt (counterValue n) :=
  ⟨Int.le_bmod (by decide), Int.bmod_lt (by decide)⟩

theorem bracket_notMem_printInt (n : ℤ) : ']' ∉ printInt n := by
  have hdigits : ∀ n, ']' ∉ Nat.toDigits 10 n := by
    intro n hmem
    have hdigit := Nat.isDigit_of_mem_toDigits (by decide) (Nat.le_refl 10) hmem
    exact absurd hdigit (by decide)
  cases n with
  | ofNat n => exact hdigits n
  | negSucc n =>
      intro hmem
      rcases List.mem_cons.mp hmem with heq | hmem
      · exact absurd heq (by decide)
      · exact hdigits _ hmem

theorem bracket_notMem_timestampText (seconds : ℤ) (nanoseconds : ℕ) :
    ']' ∉ timestampText seconds nanoseconds := by
  intro hmem
  rcases List.mem_append.mp (List.mem_of_mem_take hmem) with hmem | hmem
  · exact bracket_notMem_printInt _ hmem
  · rcases List.mem_append.mp hmem with hmem | hmem
    · exact absurd (List.eq_of_mem_replicate hmem) (by decide)
    · exact bracket_notMem_printInt _ hmem

theorem length_printInt_le {n : ℤ} (hn : IsInt n) : (printInt n).length ≤ 11 := by
  obtain ⟨hlow, hhigh⟩ := hn
  cases n with
  | ofNat n =>
      have hdigits : (Nat.toDigits 10 n).length ≤ 10 :=
        (Nat.length_toDigits_le_iff (by decide) (by decide)).mpr (by simp at hhigh; omega)
      exact hdigits.trans (by decide)
  | negSucc n =>
      have hdigits : (Nat.toDigits 10 (n + 1)).length ≤ 10 :=
        (Nat.length_toDigits_le_iff (by decide) (by decide)).mpr (by omega)
      exact Nat.succ_le_succ hdigits

theorem length_snprintf_le (size : ℕ) (s : CString) : (snprintf size s).length ≤ size - 1 :=
  List.length_take_le _ _

theorem LogEventType.length_name_le (e : LogEventType) : e.name.toList.length ≤ 37 := by
  cases e <;> decide

theorem outId_eq {increments : ℕ} (hid : IsInt m.id)
    (hnumber : m.number = if m.id = AUTOMATIC_LOG_ID then some increments else none) :
    outId serverLoggingConfig increments m.id = m.idText := by
  have hcut : ∀ s : CString, s.length ≤ 11 → snprintf MAX_LOG_EVENT_ID_STRING_LENGTH s = s :=
    fun s hs => List.take_of_length_le (hs.trans (by decide))
  unfold outId LogTextMessage.idText
  split at hnumber
  · rename_i hauto
    rw [if_pos hauto, hnumber]
    exact hcut _ (length_printInt_le (isInt_counterValue _))
  · rename_i hauto
    rw [if_neg hauto, hnumber]
    split
    · rfl
    · exact hcut _ (length_printInt_le hid)

theorem bracket_notMem_outId (increments : ℕ) (id : ℤ) :
    ']' ∉ outId serverLoggingConfig increments id := by
  intro hmem
  have hmem := List.mem_of_mem_take hmem
  split at hmem
  · exact bracket_notMem_printInt _ hmem
  · split at hmem
    · exact absurd hmem (by decide)
    · exact bracket_notMem_printInt _ hmem

/-- The fields of a line of the server, one after the other. -/
theorem printItems_server (timestamp id event threadName message : CString) :
    printItems serverLoggingConfig.loggingSyntax [timestamp, id, event, threadName, message] =
      '[' :: printFields lineDelimiters [timestamp, id, event, threadName, message] := by
  simp [printItems, printFields, serverLoggingConfig, lineDelimiters, List.rightpad]

/-- A line is never cut. -/
theorem lineText_server (h : m.WellMade switches) (increments : ℕ) :
    lineText serverLoggingConfig increments m = '[' :: printFields lineDelimiters
      [m.timestamp, outId serverLoggingConfig increments m.id, m.eventType.name.toList,
        m.threadName, m.formattedMessage] := by
  obtain ⟨seconds, nanoseconds, htimestamp⟩ := h.timestamp
  obtain ⟨name, hname⟩ := h.threadName
  obtain ⟨message, hmessage⟩ := h.formattedMessage
  have h₁ : m.timestamp.length ≤ 31 := htimestamp ▸ length_snprintf_le _ _
  have h₂ : (outId serverLoggingConfig increments m.id).length ≤ 15 := length_snprintf_le _ _
  have h₃ := m.eventType.length_name_le
  have h₄ : m.threadName.length ≤ 31 := hname ▸ length_snprintf_le _ _
  have h₅ : m.formattedMessage.length ≤ 299 := hmessage ▸ length_snprintf_le _ _
  rw [lineText, printItems_server]
  refine List.take_of_length_le ?_
  simp only [printFields, lineDelimiters, List.length_cons, List.length_append, List.length_nil,
    LOG_EVENT_TOTAL_LENGTH]
  omega

/-- The state after a list of actions. -/
def logTextAfter (switches : LogSwitches) (actions : List LogTextAction) : LogTextState :=
  (run (LogTextState.step switches) initialLogTextState actions).getD initialLogTextState

theorem reachable_logTextAfter (switches : LogSwitches) (actions : List LogTextAction) :
    LogTextReachable switches (logTextAfter switches actions) := by
  unfold logTextAfter
  cases hrun : run (LogTextState.step switches) initialLogTextState actions with
  | none => exact .initial
  | some s => exact reachableWith_of_runWith .initial hrun

/-- A thread makes and sends the message of its call, and the logger writes it. -/
def logsNow (t : LogThread) : List LogTextAction :=
  [.step t 1757289120 486000000, .step t 0 0, .logger, .logger]

/-- The server and a client start, and each of them logs an automatic event. -/
def twoProcessesLog : List LogTextAction :=
  logsNow (.server 0) ++ [.init 0] ++ logsNow (.client 0) ++
    [.register (.server 1) (some "WORKER #0".toList),
      .call (.server 1) (.event AUTOMATIC_LOG_ID .emergencyStatus "ASSEGNATA".toList)] ++
    logsNow (.server 1) ++
    [.call (.client 0) (.event AUTOMATIC_LOG_ID .emergencyStatus "Incendio".toList)] ++
    logsNow (.client 0)

end EmergencyDispatch
