import EmergencyDispatch.Logger
import EmergencyDispatch.ThreadNames
import EmergencyDispatch.Library.JsonWriting

/-!
# The text of the log (`log.c`)

The logger of `Logger.lean`, with what that file leaves out: the fields of
`log_message_t`, the counters of the automatic ids, the names of the threads, and
the lines.  `log_event` composes the line in the process that logs.  The logger
writes the line of a message of the server as it came, but composes that of a
client's message again, with the syntax and the counters of the server: so the
automatic ids of the file are all drawn from one set of counters.

Forgetting the texts gives the logger of `Logger.lean` (`step_erase`).
-/

namespace EmergencyDispatch

open TransitionSystem Json

/-! ## Lines (`log.h`, `config_log.h`, `config_server.h`, `config_client.h`) -/

def LOG_EVENT_TOTAL_LENGTH : ℕ := 512

def MAX_LOG_EVENT_TIMESTAMP_STRING_LENGTH : ℕ := 32

def MAX_LOG_EVENT_ID_STRING_LENGTH : ℕ := 16

def MAX_LOG_EVENT_FORMATTED_MESSAGE_LENGTH : ℕ := 300

/-- The column `name` of `LOG_EVENT_LOOKUP_TABLE`. -/
def LogEventType.name : LogEventType → String
  | .nonApplicable => "NON_APPLICABLE"
  | .debug => "DEBUG"
  | .fatalError => "FATAL_ERROR"
  | .fatalErrorClient => "FATAL_ERROR_CLIENT"
  | .fatalErrorParsing => "FATAL_ERROR_PARSING"
  | .fatalErrorLogging => "FATAL_ERROR_LOGGING"
  | .fatalErrorMemory => "FATAL_ERROR_MEMORY"
  | .fatalErrorFileOpening => "FATAL_ERROR_FILE_OPENING"
  | .parsingError => "PARSING_ERROR"
  | .emptyConfLineIgnored => "EMPTY_CONF_LINE_IGNORED"
  | .duplicateRescuerRequestIgnored => "DUPLICATE_RESCUER_REQUEST_IGNORED"
  | .wrongRescuerRequestIgnored => "WRONG_RESCUER_REQUEST_IGNORED"
  | .duplicateEmergencyTypeIgnored => "DUPLICATE_EMERGENCY_TYPE_IGNORED"
  | .duplicateRescuerTypeIgnored => "DUPLICATE_RESCUER_TYPE_IGNORED"
  | .wrongEmergencyRequestIgnoredClient => "WRONG_EMERGENCY_REQUEST_CLIENT"
  | .wrongEmergencyRequestIgnoredServer => "WRONG_EMERGENCY_REQUEST_SERVER"
  | .loggingStarted => "LOGGING_STARTED"
  | .loggingEnded => "LOGGING_ENDED"
  | .parsingStarted => "PARSING_STARTED"
  | .parsingEnded => "PARSING_ENDED"
  | .rescuerTypeParsed => "RESCUER_TYPE_PARSED"
  | .rescuerDigitalTwinAdded => "RESCUER_DIGITAL_TWIN_ADDED"
  | .emergencyParsed => "EMERGENCY_PARSED"
  | .rescuerRequestAdded => "RESCUER_REQUEST_ADDED"
  | .serverUpdate => "SERVER_UPDATE"
  | .server => "SERVER"
  | .serverClock => "SERVER_CLOCK"
  | .client => "CLIENT"
  | .emergencyRequestReceived => "EMERGENCY_REQUEST_RECEIVED"
  | .emergencyRequestProcessed => "EMERGENCY_REQUEST_PROCESSED"
  | .messageQueueClient => "MESSAGE_QUEUE_CLIENT"
  | .messageQueueServer => "MESSAGE_QUEUE_SERVER"
  | .emergencyStatus => "EMERGENCY_STATUS"
  | .rescuerStatus => "RESCUER_STATUS"
  | .rescuerTravellingStatus => "RESCUER_TRAVELLING_STATUS"
  | .emergencyRequest => "EMERGENCY_REQUEST"
  | .programEndedSuccessfully => "PROGRAM_ENDED_SUCCESSFULLY"

/-- A piece of a format string: plain text, or `%-<width>s`. -/
inductive SyntaxItem
  | text (s : CString)
  | string (width : ℕ)

/-- What `snprintf` composes from a format string and its arguments. -/
def printItems : List SyntaxItem → List CString → CString
  | [], _ => []
  | .text s :: items, args => s ++ printItems items args
  | .string width :: items, arg :: args => arg.rightpad width ' ' ++ printItems items args
  | .string _ :: items, [] => printItems items []

/-- What the lines depend on in `logging_config_t`. -/
structure LoggingConfig where
  loggingSyntax : List SyntaxItem
  nonApplicableLogIdString : CString

/-- `"[%s] [%s] [%s] (%s) %s\n"`. -/
def serverLoggingConfig : LoggingConfig where
  loggingSyntax :=
    [.text ['['], .string 0, .text [']', ' ', '['], .string 0, .text [']', ' ', '['], .string 0,
      .text [']', ' ', '('], .string 0, .text [')', ' '], .string 0, .text ['\n']]
  nonApplicableLogIdString := "N/A".toList

/-- `"%-13s %-4s %-30s %-12s %s\n"`. -/
def clientLoggingConfig : LoggingConfig where
  loggingSyntax :=
    [.string 13, .text [' '], .string 4, .text [' '], .string 30, .text [' '], .string 12,
      .text [' '], .string 0, .text ['\n']]
  nonApplicableLogIdString := "N/A".toList

/-- The time stamp: seconds and milliseconds, `"%ld%03ld"`. -/
def timestampText (seconds : ℤ) (nanoseconds : ℕ) : CString :=
  snprintf MAX_LOG_EVENT_TIMESTAMP_STRING_LENGTH
    (printInt seconds ++ (printInt (nanoseconds / 1000000 : ℕ)).leftpad 3 '0')

/-- A process that logs: `log_event_counters` and `thread_names` are its own. -/
inductive LogProcess
  | server
  | client (n : ℕ)
  deriving DecidableEq

def LogThread.process : LogThread → LogProcess
  | .server _ => .server
  | .client n => .client n

def LogProcess.loggingConfig : LogProcess → LoggingConfig
  | .server => serverLoggingConfig
  | .client _ => clientLoggingConfig

/-- `log_message_t`.  No code reads `madeBy` and `number`, the increments of the counter
from which the id of the text was taken. -/
structure LogTextMessage where
  role : LogRole
  timestamp : CString
  threadName : CString
  id : ℤ
  eventType : LogEventType
  formattedMessage : CString
  text : CString
  madeBy : LogFunction
  number : Option ℕ
  deriving DecidableEq

/-- An `atomic_int` that was increased so many times from 0. -/
def counterValue (increments : ℕ) : ℤ := (increments : ℤ).bmod (2 ^ 32)

/-- The id as `assemble_log_text` writes it. -/
def outId (config : LoggingConfig) (increments : ℕ) (id : ℤ) : CString :=
  snprintf MAX_LOG_EVENT_ID_STRING_LENGTH
    (if id = AUTOMATIC_LOG_ID then printInt (counterValue increments)
    else if id = NON_APPLICABLE_LOG_ID then config.nonApplicableLogIdString
    else printInt id)

/-- The line of a message. -/
def lineText (config : LoggingConfig) (increments : ℕ) (m : LogTextMessage) : CString :=
  snprintf LOG_EVENT_TOTAL_LENGTH (printItems config.loggingSyntax
    [m.timestamp, outId config increments m.id, m.eventType.name.toList, m.threadName,
      m.formattedMessage])

/-- `assemble_log_text`: the message with its text, and the counters. -/
def assembleLogText (config : LoggingConfig) (counters : LogEventType → ℕ) (m : LogTextMessage) :
    LogTextMessage × (LogEventType → ℕ) :=
  let m' := { m with
    text := lineText config (counters m.eventType) m
    number := if m.id = AUTOMATIC_LOG_ID then some (counters m.eventType) else none }
  if m.id = AUTOMATIC_LOG_ID then
    (m', Function.update counters m.eventType (counters m.eventType + 1))
  else (m', counters)

/-! ## States -/

/-- What a thread has still to do: an operation of `LogOp`, but `mq_send` of a message
with its text. -/
inductive LogTextOp
  | op (o : LogOp)
  | send (m : LogTextMessage)

/-- The state of the logging, with the texts.  The file is the list of the messages
written, each with the text that was written for it. -/
structure LogTextState where
  queue : List LogTextMessage
  file : List LogTextMessage
  loggerRunning : Bool
  logger : LoggerPc
  serverOpened : Bool
  clientOpened : ℕ → Bool
  serverExited : Bool
  todo : LogThread → List LogTextOp
  sent : List LogTextMessage
  counters : LogProcess → LogEventType → ℕ
  threadNames : LogProcess → ThreadNames LogThread

/-- `log_init` of the server has created the queue and the logger, has registered its
thread, and logs its first event. -/
def initialLogTextState : LogTextState where
  queue := []
  file := []
  loggerRunning := true
  logger := .test
  serverOpened := true
  clientOpened _ := false
  serverExited := false
  todo := fun t => (initialLogState.todo t).map .op
  sent := []
  counters _ _ := 0
  threadNames
    | .server => registerAll emptyThreadNames [(.server 0, some "SERVER".toList)]
    | .client _ => emptyThreadNames

inductive LogTextAction
  /-- A client starts and calls `log_init`. -/
  | init (n : ℕ)
  | call (t : LogThread) (c : LogCall)
  /-- `log_register_this_thread(name)`. -/
  | register (t : LogThread) (name : Option CString)
  /-- A thread goes on with its call; the time is what `clock_gettime` returns if it is
  called. -/
  | step (t : LogThread) (seconds : ℤ) (nanoseconds : ℕ)
  | logger

namespace LogTextState

variable (switches : LogSwitches)

/-- `queue_was_opened` in the process of the thread. -/
def opened (s : LogTextState) : LogThread → Bool
  | .server _ => s.serverOpened
  | .client n => s.clientOpened n

/-- The process of the thread still runs. -/
def alive (s : LogTextState) : LogThread → Bool
  | .server _ => !s.serverExited
  | .client _ => true

def setTodo (s : LogTextState) (t : LogThread) (ops : List LogTextOp) : LogTextState :=
  { s with todo := Function.update s.todo t ops }

/-- The process of the thread ends. -/
def exitProcess (s : LogTextState) : LogThread → LogTextState
  | .server _ => { s with serverExited := true }
  | .client n => { s with clientOpened := Function.update s.clientOpened n false }.setTodo
      (.client n) []

/-- The end of `log_close`: the server waits for the logger. -/
def finish (s : LogTextState) (rest : List LogTextOp) : LogThread → Option LogTextState
  | .server n =>
      if s.serverOpened = false then some (s.setTodo (.server n) rest)
      else if s.logger = .exited then
        some ({ s with loggerRunning := false, serverOpened := false }.setTodo (.server n) rest)
      else none
  | .client n =>
      some ({ s with clientOpened := Function.update s.clientOpened n false }.setTodo
        (.client n) rest)

/-- The message that `log_event` makes, up to its text. -/
def makeMessage (s : LogTextState) (t : LogThread) (seconds : ℤ) (nanoseconds : ℕ)
    (madeBy : LogFunction) (id : ℤ) (eventType : LogEventType) (message : CString) :
    LogTextMessage where
  role := t.role
  timestamp := timestampText seconds nanoseconds
  threadName := snprintf MAX_THREAD_NAME_LENGTH
    (logGetCurrentThreadName (s.threadNames t.process) t)
  id := id
  eventType := eventType
  formattedMessage := snprintf MAX_LOG_EVENT_FORMATTED_MESSAGE_LENGTH message
  text := []
  madeBy := madeBy
  number := none

/-- `log_event` composes the text in the process of the thread. -/
def assembleIn (s : LogTextState) (p : LogProcess) (m : LogTextMessage) :
    LogTextMessage × LogTextState :=
  let (m', counters) := assembleLogText p.loggingConfig (s.counters p) m
  (m', { s with counters := Function.update s.counters p counters })

/-- A thread goes on with its call. -/
def stepThread (s : LogTextState) (t : LogThread) (seconds : ℤ) (nanoseconds : ℕ) :
    Option LogTextState :=
  match s.todo t with
  | [] => none
  | .op (.event madeBy id eventType message) :: rest =>
      if eventType.isToLog switches then
        let (m, s') := s.assembleIn t.process
          (s.makeMessage t seconds nanoseconds madeBy id eventType message)
        if s.opened t then some (s'.setTodo t (.send m :: rest)) else some (s'.setTodo t rest)
      else some (s.setTodo t rest)
  | .op (.send _) :: _ => none
  | .send m :: rest =>
      if s.opened t then
        if s.queue.length < MAX_LOG_QUEUE_MESSAGES then
          some ({ s with queue := s.queue ++ [m], sent := s.sent ++ [m] }.setTodo t rest)
        else none
      else some (s.exitProcess t)
  | .op .finish :: rest => s.finish rest t
  | .op .exit :: _ => some (s.exitProcess t)

/-- `logger_write_line`: the message as it is written, and the state. -/
def loggerWriteLine (s : LogTextState) (m : LogTextMessage) : LogTextMessage × LogTextState :=
  if m.role ≠ .server then s.assembleIn .server m else (m, s)

/-- A step of `logger_thread`. -/
def stepLogger (s : LogTextState) : Option LogTextState :=
  match s.logger with
  | .test => some { s with logger := if s.loggerRunning then .receive else .exited }
  | .receive =>
      match s.queue with
      | [] => none
      | m :: queue =>
          if m.eventType.isToLog switches then
            let (line, s') := s.loggerWriteLine m
            some { s' with
              queue := queue
              file := s.file ++ [line]
              loggerRunning :=
                if m.eventType.isTerminating && m.role == .server then false
                else s.loggerRunning
              logger := .test }
          else some { s with queue := queue, logger := .test }
  | .exited => none

/-- A step of the logging. -/
def step (s : LogTextState) : LogTextAction → Option LogTextState
  | .init n =>
      if (s.todo (.client n)).isEmpty then
        some ({ s with
          clientOpened := Function.update s.clientOpened n s.serverOpened
          counters := Function.update s.counters (.client n) fun _ => 0
          threadNames := Function.update s.threadNames (.client n)
            (registerAll emptyThreadNames [(.client n, some "CLIENT".toList)]) }.setTodo
          (.client n) [.op (.event .logInit NON_APPLICABLE_LOG_ID .loggingStarted
            "(CLIENT) Inizio del Logging!".toList)])
      else none
  | .call t c =>
      if s.alive t && (s.todo t).isEmpty then
        some (s.setTodo t ((callOps t.role c).map .op))
      else none
  | .register t name =>
      if s.alive t && (s.todo t).isEmpty then
        some { s with
          threadNames := Function.update s.threadNames t.process
            (logRegisterThisThread (s.threadNames t.process) t name) }
      else none
  | .step t seconds nanoseconds =>
      if s.alive t then s.stepThread switches t seconds nanoseconds else none
  | .logger => if s.serverExited then none else s.stepLogger switches

end LogTextState

/-! ## Forgetting the texts -/

def LogTextMessage.erase (m : LogTextMessage) : LogMessage :=
  ⟨m.role, m.id, m.eventType, m.formattedMessage, m.madeBy⟩

/-- A message is cut to the length of its field. -/
def LogOp.cut : LogOp → LogOp
  | .event madeBy id eventType message =>
      .event madeBy id eventType (snprintf MAX_LOG_EVENT_FORMATTED_MESSAGE_LENGTH message)
  | op => op

def LogCall.cut : LogCall → LogCall
  | .event id eventType message =>
      .event id eventType (snprintf MAX_LOG_EVENT_FORMATTED_MESSAGE_LENGTH message)
  | .errorAndExit exitFunction message =>
      .errorAndExit exitFunction (snprintf MAX_LOG_EVENT_FORMATTED_MESSAGE_LENGTH message)
  | .close => .close

def LogTextOp.erase : LogTextOp → LogOp
  | .op o => o.cut
  | .send m => .send m.erase

/-- The state of `Logger.lean`. -/
def LogTextState.erase (s : LogTextState) : LogState where
  queue := s.queue.map LogTextMessage.erase
  file := s.file.map LogTextMessage.erase
  loggerRunning := s.loggerRunning
  logger := s.logger
  serverOpened := s.serverOpened
  clientOpened := s.clientOpened
  serverExited := s.serverExited
  todo t := (s.todo t).map LogTextOp.erase
  sent := s.sent.map LogTextMessage.erase

/-- The action of `Logger.lean`; registering a name is none there. -/
def LogTextAction.erase : LogTextAction → Option LogAction
  | .init n => some (.init n)
  | .call t c => some (.call t c.cut)
  | .register _ _ => none
  | .step t _ _ => some (.step t)
  | .logger => some .logger

variable {switches : LogSwitches} {s s' : LogTextState} {a : LogTextAction} {t : LogThread}

theorem erase_setTodo (s : LogTextState) (t : LogThread) (ops : List LogTextOp) :
    (s.setTodo t ops).erase = s.erase.setTodo t (ops.map LogTextOp.erase) := by
  have htodo : (fun u => (Function.update s.todo t ops u).map LogTextOp.erase) =
      Function.update (fun u => (s.todo u).map LogTextOp.erase) t
        (ops.map LogTextOp.erase) := by
    funext u
    by_cases hu : u = t
    · subst hu
      simp
    · simp [hu]
  exact congrArg (fun todo => { s.erase with todo := todo }) htodo

@[simp] theorem erase_opened (s : LogTextState) (t : LogThread) :
    s.erase.opened t = s.opened t := by
  cases t <;> rfl

@[simp] theorem erase_alive (s : LogTextState) (t : LogThread) : s.erase.alive t = s.alive t := by
  cases t <;> rfl

theorem erase_exitProcess (s : LogTextState) (t : LogThread) :
    (s.exitProcess t).erase = s.erase.exitProcess t := by
  cases t with
  | server n => rfl
  | client n => exact erase_setTodo _ _ _

theorem erase_finish {rest : List LogTextOp} (h : s.finish rest t = some s') :
    s.erase.finish (rest.map LogTextOp.erase) t = some s'.erase := by
  cases t with
  | client n =>
      obtain rfl := Option.some.inj h
      rw [erase_setTodo]
      rfl
  | server n =>
      simp only [LogTextState.finish] at h
      split at h
      · rename_i hclosed
        obtain rfl := Option.some.inj h
        rw [erase_setTodo]
        exact if_pos hclosed
      · rename_i hopened
        split at h
        · rename_i hexited
          obtain rfl := Option.some.inj h
          rw [erase_setTodo]
          exact (if_neg hopened).trans (if_pos hexited)
        · cases h

/-- The counters are forgotten, and the text. -/
theorem erase_assembleIn (s : LogTextState) (p : LogProcess) (m : LogTextMessage) :
    (s.assembleIn p m).1.erase = m.erase ∧ (s.assembleIn p m).2.erase = s.erase := by
  by_cases hid : m.id = AUTOMATIC_LOG_ID
  · simp only [LogTextState.assembleIn, assembleLogText, if_pos hid]
    exact ⟨rfl, rfl⟩
  · simp only [LogTextState.assembleIn, assembleLogText, if_neg hid]
    exact ⟨rfl, rfl⟩

theorem erase_callOps (role : LogRole) (c : LogCall) :
    ((callOps role c).map LogTextOp.op).map LogTextOp.erase = callOps role c.cut := by
  cases c with
  | event id eventType message => rfl
  | close => cases role <;> rfl
  | errorAndExit exitFunction message => cases exitFunction <;> cases role <;> rfl

theorem erase_stepThread {seconds : ℤ} {nanoseconds : ℕ}
    (h : s.stepThread switches t seconds nanoseconds = some s') :
    s.erase.stepThread switches t = some s'.erase := by
  unfold LogTextState.stepThread at h
  unfold LogState.stepThread
  have htodo : s.erase.todo t = (s.todo t).map LogTextOp.erase := rfl
  cases hops : s.todo t with
  | nil => simp [hops] at h
  | cons op rest =>
      rw [hops, List.map_cons] at htodo
      rw [htodo]
      rw [hops] at h
      cases op with
      | send m =>
          simp only [LogTextOp.erase, erase_opened] at h ⊢
          by_cases hopened : s.opened t = true
          · rw [if_pos hopened] at h ⊢
            have hlength : s.erase.queue.length = s.queue.length := List.length_map _
            rw [hlength]
            split at h
            · rename_i hroom
              obtain rfl := Option.some.inj h
              rw [if_pos hroom, erase_setTodo]
              simp [LogTextState.erase]
            · cases h
          · rw [if_neg hopened] at h ⊢
            obtain rfl := Option.some.inj h
            rw [erase_exitProcess]
      | op o =>
          cases o with
          | send m => cases h
          | finish => exact erase_finish h
          | exit =>
              obtain rfl := Option.some.inj h
              exact congrArg some (erase_exitProcess s t).symm
          | event madeBy id eventType message =>
              have hassemble := erase_assembleIn s t.process
                (s.makeMessage t seconds nanoseconds madeBy id eventType message)
              simp only [LogTextOp.erase, LogOp.cut, erase_opened] at h ⊢
              cases hlog : eventType.isToLog switches with
              | false =>
                  simp only [hlog, Bool.false_eq_true, if_false] at h
                  obtain rfl := Option.some.inj h
                  simp only [Bool.false_and, Bool.false_eq_true, if_false, erase_setTodo]
              | true =>
                  simp only [hlog, if_true] at h
                  simp only [Bool.true_and]
                  split at h
                  · rename_i hopened
                    obtain rfl := Option.some.inj h
                    rw [if_pos hopened, erase_setTodo, hassemble.2, List.map_cons,
                      LogTextOp.erase, hassemble.1]
                    rfl
                  · rename_i hopened
                    obtain rfl := Option.some.inj h
                    rw [if_neg hopened, erase_setTodo, hassemble.2]

theorem erase_stepLogger (h : s.stepLogger switches = some s') :
    s.erase.stepLogger switches = some s'.erase := by
  unfold LogTextState.stepLogger at h
  unfold LogState.stepLogger
  have hlogger : s.erase.logger = s.logger := rfl
  have hqueue : s.erase.queue = s.queue.map LogTextMessage.erase := rfl
  rw [hlogger, hqueue]
  cases hpc : s.logger with
  | test =>
      simp only [hpc] at h
      obtain rfl := Option.some.inj h
      rfl
  | exited => simp [hpc] at h
  | receive =>
      cases hq : s.queue with
      | nil => simp [hpc, hq] at h
      | cons m queue =>
          simp only [hpc, hq, LogTextState.loggerWriteLine] at h
          simp only [List.map_cons]
          have htype : m.erase.eventType = m.eventType := rfl
          rw [htype]
          split at h
          · rename_i hlog
            rw [if_pos hlog]
            have hassemble := erase_assembleIn s .server m
            split at h
            · obtain rfl := Option.some.inj h
              simp only [LogTextState.erase, List.map_append, List.map_cons, List.map_nil]
              rw [hassemble.1]
              have hrest := hassemble.2
              simp only [LogTextState.erase, LogState.mk.injEq] at hrest
              simp [hrest]
              rfl
            · obtain rfl := Option.some.inj h
              simp only [LogTextState.erase, List.map_append, List.map_cons, List.map_nil]
              rfl
          · rename_i hlog
            obtain rfl := Option.some.inj h
            rw [if_neg hlog]
            rfl

/-- **Forgetting the texts.**  A step is one of the logger of `Logger.lean`, or the
registration of a name, which changes nothing there. -/
theorem step_erase (h : s.step switches a = some s') :
    match a.erase with
    | some b => s.erase.step switches b = some s'.erase
    | none => s'.erase = s.erase := by
  cases a with
  | init n =>
      simp only [LogTextState.step] at h
      split at h
      · rename_i htodo
        obtain rfl := Option.some.inj h
        have hempty : s.erase.todo (.client n) = [] := by
          rw [List.isEmpty_iff] at htodo
          simp [LogTextState.erase, htodo]
        show s.erase.step switches (.init n) = _
        rw [LogState.step, if_pos hempty, erase_setTodo]
        rfl
      · cases h
  | call t c =>
      simp only [LogTextState.step] at h
      split at h
      · rename_i hcall
        obtain rfl := Option.some.inj h
        obtain ⟨halive, htodo⟩ := Bool.and_eq_true_iff.mp hcall
        have hempty : s.erase.todo t = [] := by
          rw [List.isEmpty_iff] at htodo
          simp [LogTextState.erase, htodo]
        show s.erase.step switches (.call t c.cut) = _
        rw [LogState.step, erase_alive, halive, hempty, erase_setTodo, erase_callOps]
        rfl
      · cases h
  | register t name =>
      simp only [LogTextState.step] at h
      split at h
      · obtain rfl := Option.some.inj h
        rfl
      · cases h
  | step t seconds nanoseconds =>
      simp only [LogTextState.step] at h
      split at h
      · rename_i halive
        show s.erase.step switches (.step t) = _
        rw [LogState.step, erase_alive, if_pos halive]
        exact erase_stepThread h
      · cases h
  | logger =>
      simp only [LogTextState.step] at h
      split at h
      · cases h
      · rename_i hexited
        show s.erase.step switches .logger = _
        rw [LogState.step]
        exact (if_neg hexited).trans (erase_stepLogger h)

end EmergencyDispatch
