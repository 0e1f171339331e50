import EmergencyDispatch.Structs
import EmergencyDispatch.Library.TransitionSystem

/-!
# The logger (`log.c`)

The threads of the server and the clients send their messages to one POSIX queue
with room for `MAX_LOG_QUEUE_MESSAGES`; a thread of the server, the logger,
receives them and writes them to the file.  `mq_send` waits while the queue is
full, `mq_receive` while it is empty.

The logger stops after a message of the server whose type is terminating in
`LOG_EVENT_LOOKUP_TABLE`.  The event `LOGGING_ENDED` that `log_close` sends is
meant for this, but the fatal errors are terminating as well, and
`log_error_and_exit` sends one *before* it calls an exit function that may log
and must call `log_close`.

The text of a line is left out: the file is the list of the messages written.
-/

namespace EmergencyDispatch

open TransitionSystem

/-! ## Events (`log.h`, `config_log.h`) -/

/-- `log_role_t`. -/
inductive LogRole
  | server
  | client
  deriving DecidableEq

/-- `log_event_type_t`. -/
inductive LogEventType
  | nonApplicable
  | debug
  | fatalError
  | fatalErrorClient
  | fatalErrorParsing
  | fatalErrorLogging
  | fatalErrorMemory
  | fatalErrorFileOpening
  | parsingError
  | emptyConfLineIgnored
  | duplicateRescuerRequestIgnored
  | wrongRescuerRequestIgnored
  | duplicateEmergencyTypeIgnored
  | duplicateRescuerTypeIgnored
  | wrongEmergencyRequestIgnoredClient
  | wrongEmergencyRequestIgnoredServer
  | loggingStarted
  | loggingEnded
  | parsingStarted
  | parsingEnded
  | rescuerTypeParsed
  | rescuerDigitalTwinAdded
  | emergencyParsed
  | rescuerRequestAdded
  | serverUpdate
  | server
  | serverClock
  | client
  | emergencyRequestReceived
  | emergencyRequestProcessed
  | messageQueueClient
  | messageQueueServer
  | emergencyStatus
  | rescuerStatus
  | rescuerTravellingStatus
  | emergencyRequest
  | programEndedSuccessfully
  deriving DecidableEq

/-- The macros `LOG_DEBUG`, `LOG_CLOCK`, `LOG_TRAVEL` and `LOG_DTWIN`, which the
build chooses for server and clients together. -/
structure LogSwitches where
  debug : Bool
  clock : Bool
  travel : Bool
  dtwin : Bool

/-- The column `is_terminating` of `LOG_EVENT_LOOKUP_TABLE`. -/
def LogEventType.isTerminating : LogEventType → Bool
  | .fatalError | .fatalErrorParsing | .fatalErrorLogging | .fatalErrorMemory
  | .fatalErrorFileOpening | .loggingEnded | .programEndedSuccessfully => true
  | _ => false

/-- The column `is_to_log` of `LOG_EVENT_LOOKUP_TABLE`. -/
def LogEventType.isToLog (switches : LogSwitches) : LogEventType → Bool
  | .debug => switches.debug
  | .rescuerDigitalTwinAdded => switches.dtwin
  | .serverClock => switches.clock
  | .rescuerTravellingStatus => switches.travel
  | _ => true

def AUTOMATIC_LOG_ID : ℤ := -1

def NON_APPLICABLE_LOG_ID : ℤ := -2

def MAX_LOG_QUEUE_MESSAGES : ℕ := 10

/-- The function of `log.c` whose call has made a message. -/
inductive LogFunction
  | logInit
  | logEvent
  | logErrorAndExit
  | logClose
  deriving DecidableEq

/-- `log_message_t`.  `madeBy` is a history, which no code reads. -/
structure LogMessage where
  role : LogRole
  id : ℤ
  eventType : LogEventType
  formattedMessage : CString
  madeBy : LogFunction
  deriving DecidableEq

/-! ## Threads and their calls -/

/-- A thread of the server, or the only thread of a client. -/
inductive LogThread
  | server (n : ℕ)
  | client (n : ℕ)
  deriving DecidableEq

/-- `log_role` in the process of the thread. -/
def LogThread.role : LogThread → LogRole
  | .server _ => .server
  | .client _ => .client

/-- A call that a thread makes. -/
inductive LogCall
  /-- `log_event(id, event_type, ..)`. -/
  | event (id : ℤ) (eventType : LogEventType) (message : CString)
  /-- `log_error_and_exit(exit_function, ..)`; the flag says whether there is an
  exit function.  What it logs are further calls of the thread. -/
  | errorAndExit (exitFunction : Bool) (message : CString)
  /-- `log_close()`. -/
  | close

/-- What a thread has still to do in a call. -/
inductive LogOp
  /-- `log_event`, up to the test of `queue_was_opened`. -/
  | event (madeBy : LogFunction) (id : ℤ) (eventType : LogEventType) (message : CString)
  /-- In `mq_send`. -/
  | send (m : LogMessage)
  /-- The end of `log_close`: `thrd_join` of the logger, then the queue is closed. -/
  | finish
  /-- `exit(EXIT_FAILURE)`. -/
  | exit
  deriving DecidableEq

/-- The operations of `log_close`. -/
def closeOps : LogRole → List LogOp
  | .server =>
      [.event .logClose NON_APPLICABLE_LOG_ID .loggingEnded
        "(SERVER) Logging terminato :)".toList, .finish]
  | .client =>
      [.event .logClose NON_APPLICABLE_LOG_ID .loggingEnded
        "(CLIENT) Logging terminato :)".toList, .finish]

/-- The type of a fatal error. -/
def fatalType : LogRole → LogEventType
  | .server => .fatalError
  | .client => .fatalErrorClient

/-- The operations of a call. -/
def callOps (role : LogRole) : LogCall → List LogOp
  | .event id eventType message => [.event .logEvent id eventType message]
  | .errorAndExit exitFunction message =>
      .event .logErrorAndExit NON_APPLICABLE_LOG_ID (fatalType role) message ::
        if exitFunction then [] else closeOps role ++ [.exit]
  | .close => closeOps role

/-! ## States -/

/-- Where the logger is in `logger_thread`. -/
inductive LoggerPc
  /-- About to read `logger_running`. -/
  | test
  /-- In `mq_receive`. -/
  | receive
  | exited
  deriving DecidableEq

/-- The state of the logging.  `serverOpened` and `clientOpened` are
`queue_was_opened` in the server and in the clients; `sent` is the history of the
messages that were put in the queue. -/
structure LogState where
  queue : List LogMessage
  file : List LogMessage
  loggerRunning : Bool
  logger : LoggerPc
  serverOpened : Bool
  clientOpened : ℕ → Bool
  serverExited : Bool
  todo : LogThread → List LogOp
  sent : List LogMessage

/-- The state in which `log_init` of the server has created the queue and the
logger, and logs its first event. -/
def initialLogState : LogState where
  queue := []
  file := []
  loggerRunning := true
  logger := .test
  serverOpened := true
  clientOpened _ := false
  serverExited := false
  todo := fun t => if t = .server 0 then
    [.event .logInit NON_APPLICABLE_LOG_ID .loggingStarted
      "(SERVER) Inizio del Logging!".toList] else []
  sent := []

inductive LogAction
  /-- A client calls `log_init`. -/
  | init (n : ℕ)
  | call (t : LogThread) (c : LogCall)
  /-- A thread goes on with its call. -/
  | step (t : LogThread)
  | logger

namespace LogState

variable (switches : LogSwitches)

/-- `queue_was_opened` in the process of the thread. -/
def opened (s : LogState) : LogThread → Bool
  | .server _ => s.serverOpened
  | .client n => s.clientOpened n

/-- The process of the thread still runs. -/
def alive (s : LogState) : LogThread → Bool
  | .server _ => !s.serverExited
  | .client _ => true

def setTodo (s : LogState) (t : LogThread) (ops : List LogOp) : LogState :=
  { s with todo := Function.update s.todo t ops }

/-- The process of the thread ends. -/
def exitProcess (s : LogState) : LogThread → LogState
  | .server _ => { s with serverExited := true }
  | .client n => { s with clientOpened := Function.update s.clientOpened n false }.setTodo
      (.client n) []

/-- The end of `log_close`: the server waits for the logger. -/
def finish (s : LogState) (rest : List LogOp) : LogThread → Option LogState
  | .server n =>
      if s.serverOpened = false then some (s.setTodo (.server n) rest)
      else if s.logger = .exited then
        some ({ s with loggerRunning := false, serverOpened := false }.setTodo (.server n) rest)
      else none
  | .client n =>
      some ({ s with clientOpened := Function.update s.clientOpened n false }.setTodo
        (.client n) rest)

/-- A thread goes on with its call.  `mq_send` waits while the queue is full, and
a failed `mq_send` ends the process. -/
def stepThread (s : LogState) (t : LogThread) : Option LogState :=
  match s.todo t with
  | [] => none
  | .event madeBy id eventType message :: rest =>
      if eventType.isToLog switches && s.opened t then
        some (s.setTodo t (.send ⟨t.role, id, eventType, message, madeBy⟩ :: rest))
      else some (s.setTodo t rest)
  | .send m :: rest =>
      if s.opened t then
        if s.queue.length < MAX_LOG_QUEUE_MESSAGES then
          some ({ s with queue := s.queue ++ [m], sent := s.sent ++ [m] }.setTodo t rest)
        else none
      else some (s.exitProcess t)
  | .finish :: rest => s.finish rest t
  | .exit :: _ => some (s.exitProcess t)

/-- A step of `logger_thread`: it receives a message, writes it, and takes note
when it is a terminating one of its own process. -/
def stepLogger (s : LogState) : Option LogState :=
  match s.logger with
  | .test => some { s with logger := if s.loggerRunning then .receive else .exited }
  | .receive =>
      match s.queue with
      | [] => none
      | m :: queue =>
          if m.eventType.isToLog switches then
            some { s with
              queue := queue
              file := s.file ++ [m]
              loggerRunning :=
                if m.eventType.isTerminating && m.role == .server then false
                else s.loggerRunning
              logger := .test }
          else some { s with queue := queue, logger := .test }
  | .exited => none

/-- A step of the logging.  A thread makes its calls one after the other. -/
def step (s : LogState) : LogAction → Option LogState
  | .init n =>
      if s.todo (.client n) = [] then
        some ({ s with clientOpened := Function.update s.clientOpened n s.serverOpened }.setTodo
          (.client n) [.event .logInit NON_APPLICABLE_LOG_ID .loggingStarted
            "(CLIENT) Inizio del Logging!".toList])
      else none
  | .call t c =>
      if s.alive t && s.todo t = [] then some (s.setTodo t (callOps t.role c)) else none
  | .step t => if s.alive t then s.stepThread switches t else none
  | .logger => if s.serverExited then none else s.stepLogger switches

end LogState

end EmergencyDispatch
