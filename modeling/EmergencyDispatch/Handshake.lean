import EmergencyDispatch.ThreadNames
import EmergencyDispatch.Library.TransitionSystem
import Mathlib.Data.List.Nodup

/-!
# How a client finds the server (`main.c`, `client.c`)

The server leaves the name of its message queue, its process id and the names of
its configuration files in a shared memory object, creates a semaphore with the
value 0 when all is written, and posts it once.  A client opens the semaphore,
waits and posts it again, maps the memory, opens the queue it finds there, and
copies the rest.

Memory, semaphore and queues are found by name, and a name can be left over from a
server that was killed: a server begins by removing the names.  The objects
themselves stay as long as somebody has them open.  Here an object is known by the
number of the server that made it.
-/

namespace EmergencyDispatch

open TransitionSystem

/-! ## What is shared -/

def FILENAME_BUFF : ℕ := 256

def MAX_QUEUE_NAME_CELLS : ℕ := 32

/-- `client_server_shm_t`. -/
structure ClientServerShm where
  queueName : CString
  requestsArgumentSeparator : Char
  env : CString
  rescuerTypes : CString
  emergencyTypes : CString
  serverPid : ℕ
  deriving DecidableEq

/-- Memory that `ftruncate` has filled with zeros. -/
def ClientServerShm.zero : ClientServerShm := ⟨[], '\x00', [], [], [], 0⟩

/-- The fields in which the server leaves something. -/
inductive ShmField
  | queueName
  | requestsArgumentSeparator
  | env
  | rescuerTypes
  | emergencyTypes
  | serverPid
  deriving DecidableEq

/-- One field is taken from the first record, the others from the second. -/
def ShmField.copy (source : ClientServerShm) (target : ClientServerShm) :
    ShmField → ClientServerShm
  | .queueName => { target with queueName := source.queueName }
  | .requestsArgumentSeparator =>
      { target with requestsArgumentSeparator := source.requestsArgumentSeparator }
  | .env => { target with env := source.env }
  | .rescuerTypes => { target with rescuerTypes := source.rescuerTypes }
  | .emergencyTypes => { target with emergencyTypes := source.emergencyTypes }
  | .serverPid => { target with serverPid := source.serverPid }

/-- What differs from one start of the server to the next.  The name of the queue fits
`queue_name`. -/
structure IpcConfig where
  queueName : ℕ → CString
  serverPid : ℕ → ℕ
  fits : ∀ k, (queueName k).length < MAX_QUEUE_NAME_CELLS

/-- What the `k`-th server leaves. -/
def IpcConfig.published (cfg : IpcConfig) (k : ℕ) : ClientServerShm where
  queueName := snprintf MAX_QUEUE_NAME_CELLS (cfg.queueName k)
  requestsArgumentSeparator := ' '
  env := snprintf FILENAME_BUFF "conf/env.conf".toList
  rescuerTypes := snprintf FILENAME_BUFF "conf/rescuers.conf".toList
  emergencyTypes := snprintf FILENAME_BUFF "conf/emergency_types.conf".toList
  serverPid := cfg.serverPid k

/-! ## Programs -/

/-- The operations of the server on what is shared. -/
inductive ServerOp
  | shmUnlink
  | semUnlink
  /-- `qname[0] != '/'` ends the server. -/
  | checkQueueName
  | mqUnlink
  | mqOpen
  /-- `shm_open` with `O_CREAT | O_EXCL`. -/
  | shmOpen
  | ftruncate
  | store (field : ShmField)
  /-- `sem_open` with `O_CREAT | O_EXCL`, value 0. -/
  | semOpen
  | semPost
  deriving DecidableEq

/-- `server_ipc_setup`; `memset` of zeros with zeros is left out. -/
def serverIpcSetup : List ServerOp :=
  [.shmUnlink, .semUnlink, .checkQueueName, .mqUnlink, .mqOpen, .shmOpen, .ftruncate,
    .store .queueName, .store .requestsArgumentSeparator, .store .env, .store .rescuerTypes,
    .store .emergencyTypes, .store .serverPid, .semOpen, .semPost]

/-- `cleanup_server_context`, as far as the clients can notice it. -/
def cleanupIpc : List ServerOp := [.shmUnlink, .semUnlink, .mqUnlink]

/-- The operations of `main` of the client up to the `switch` over its mode. -/
inductive ClientOp
  | semOpen
  | semWait
  | semPost
  | semClose
  /-- `shm_open`, `mmap` and `close`. -/
  | shmOpen
  /-- `mq_open(shm->queue_name)`. -/
  | mqOpen
  | read (field : ShmField)
  | munmap
  deriving DecidableEq

def clientSetup : List ClientOp :=
  [.semOpen, .semWait, .semPost, .semClose, .shmOpen, .mqOpen, .read .requestsArgumentSeparator,
    .read .serverPid, .read .env, .read .rescuerTypes, .read .emergencyTypes, .munmap]

/-- `client_mode_t`. -/
inductive ClientMode
  | undefined
  | help
  | normal
  | file
  | stopJustClient
  | stopClientAndServer
  deriving DecidableEq

/-- The first `switch` of `main`; with any other number of arguments the client ends. -/
def clientMode : List CString → Option ClientMode
  | [_, _, _, _, _] => some .normal
  | [_, mode, _] => some (if mode = "-f".toList then .file else .undefined)
  | [_, mode] =>
      some (if mode = "-h".toList then .help
        else if mode = "-z".toList then .stopJustClient
        else if mode = "-S".toList then .stopClientAndServer
        else .undefined)
  | _ => none

/-! ## States -/

/-- Where the server is. -/
inductive ServerPhase
  | down
  /-- So many operations of `server_ipc_setup` are done. -/
  | setup (done : ℕ)
  | running
  /-- So many operations of `cleanup_server_context` are done. -/
  | cleanup (done : ℕ)
  deriving DecidableEq

/-- A client: how many operations of `clientSetup` it has done, none when it does not run;
what it has open; and the copies it has made. -/
structure IpcClient where
  mode : ClientMode
  phase : Option ℕ
  sem : Option ℕ
  shm : Option ℕ
  mq : Option ℕ
  record : ClientServerShm

/-- Names and objects.  `started` is the number of servers started so far, the last of
which may be running.  A semaphore is its value, memory of size 0 is `none`;
`serverQueue k` is the queue from which the `k`-th server receives. -/
structure IpcState where
  shmName : Option ℕ
  semName : Option ℕ
  mqName : CString → Option ℕ
  shm : ℕ → Option ClientServerShm
  sem : ℕ → Option ℕ
  serverQueue : ℕ → Option ℕ
  started : ℕ
  server : ServerPhase
  clients : ℕ → IpcClient

def initialIpcState : IpcState where
  shmName := none
  semName := none
  mqName _ := none
  shm _ := none
  sem _ := none
  serverQueue _ := none
  started := 0
  server := .down
  clients _ := ⟨.undefined, none, none, none, none, .zero⟩

/-- How an operation ends; an error ends the process. -/
inductive IpcOutcome
  | done (s : IpcState)
  | fails
  | waits

def IpcState.setClient (s : IpcState) (n : ℕ) (c : IpcClient) : IpcState :=
  { s with clients := Function.update s.clients n c }

variable (cfg : IpcConfig)

/-- What an operation of the `k`-th server does to its memory. -/
def ServerOp.write (k : ℕ) (shm : Option ClientServerShm) : ServerOp → Option ClientServerShm
  | .ftruncate => some .zero
  | .store field => shm.map fun record => field.copy (cfg.published k) record
  | _ => shm

/-- An operation of the server. -/
def ServerOp.exec (s : IpcState) (op : ServerOp) : IpcOutcome :=
  match op with
  | .shmUnlink => .done { s with shmName := none }
  | .semUnlink => .done { s with semName := none }
  | .checkQueueName =>
      if (cfg.queueName s.started).head? = some '/' then .done s else .fails
  | .mqUnlink => .done { s with
      mqName := Function.update s.mqName (cfg.queueName s.started) none }
  | .mqOpen =>
      let queue := (s.mqName (cfg.queueName s.started)).getD s.started
      .done { s with
        mqName := Function.update s.mqName (cfg.queueName s.started) (some queue)
        serverQueue := Function.update s.serverQueue s.started (some queue) }
  | .shmOpen => if s.shmName = none then .done { s with shmName := some s.started } else .fails
  | .ftruncate | .store _ => .done { s with
      shm := Function.update s.shm s.started (op.write cfg s.started (s.shm s.started)) }
  | .semOpen =>
      if s.semName = none then .done { s with
        semName := some s.started
        sem := Function.update s.sem s.started (some 0) }
      else .fails
  | .semPost => .done { s with
      sem := Function.update s.sem s.started ((s.sem s.started).map (· + 1)) }

/-- What an operation of a client copies from the memory. -/
def ClientOp.copies (source record : ClientServerShm) : ClientOp → ClientServerShm
  | .mqOpen => ShmField.queueName.copy source record
  | .read field => field.copy source record
  | _ => record

/-- The memory that the client has mapped. -/
def IpcState.mapped (s : IpcState) (n : ℕ) : Option ClientServerShm :=
  (s.clients n).shm.bind s.shm

/-- An operation of a client. -/
def ClientOp.exec (s : IpcState) (n : ℕ) (op : ClientOp) : IpcOutcome :=
  let c := s.clients n
  match op with
  | .semOpen =>
      match s.semName with
      | some k => .done (s.setClient n { c with sem := some k })
      | none => .fails
  | .semWait =>
      match c.sem, c.sem.bind s.sem with
      | some k, some (value + 1) => .done { s with sem := Function.update s.sem k (some value) }
      | some _, some 0 => .waits
      | _, _ => .fails
  | .semPost =>
      match c.sem, c.sem.bind s.sem with
      | some k, some value => .done { s with sem := Function.update s.sem k (some (value + 1)) }
      | _, _ => .fails
  | .semClose | .munmap => .done s
  | .shmOpen =>
      match s.shmName with
      | some j => .done (s.setClient n { c with shm := some j })
      | none => .fails
  | .mqOpen =>
      match s.mapped n with
      | some source =>
          match s.mqName source.queueName with
          | some queue =>
              .done (s.setClient n { c with mq := some queue, record := op.copies source c.record })
          | none => .fails
      | none => .fails
  | .read _ =>
      match s.mapped n with
      | some source => .done (s.setClient n { c with record := op.copies source c.record })
      | none => .fails

inductive IpcAction
  /-- A server is started, when none is running. -/
  | start
  | server
  /-- The server, which has been set up, begins to close. -/
  | close
  /-- The server is killed. -/
  | crash
  /-- A client is started with arguments, by a number that no running client has. -/
  | startClient (n : ℕ) (argv : List CString)
  | client (n : ℕ)

/-- The server goes on with a list of operations. -/
def IpcState.stepServer (s : IpcState) (program : List ServerOp) (done : ℕ)
    (next : ℕ → ServerPhase) (finished : ServerPhase) : Option IpcState :=
  match program[done]? with
  | none => some { s with server := finished }
  | some op =>
      match op.exec cfg s with
      | .done s' => some { s' with server := next (done + 1) }
      | .fails => some { s with server := .down }
      | .waits => none

/-- A client goes on. -/
def IpcState.stepClient (s : IpcState) (n : ℕ) : Option IpcState :=
  match (s.clients n).phase with
  | none => none
  | some done =>
      match clientSetup[done]? with
      | none => none
      | some op =>
          match op.exec s n with
          | .done s' => some (s'.setClient n { s'.clients n with phase := some (done + 1) })
          | .fails => some (s.setClient n { s.clients n with phase := none })
          | .waits => none

/-- The client has copied everything. -/
def IpcClient.passed (c : IpcClient) : Prop := c.phase = some clientSetup.length

instance (c : IpcClient) : Decidable c.passed := inferInstanceAs (Decidable (_ = _))

def IpcState.step (s : IpcState) : IpcAction → Option IpcState
  | .start =>
      if s.server = .down then some { s with started := s.started + 1, server := .setup 0 }
      else none
  | .server =>
      match s.server with
      | .setup done => s.stepServer cfg serverIpcSetup done .setup .running
      | .cleanup done => s.stepServer cfg cleanupIpc done .cleanup .down
      | .down | .running => none
  | .close => if s.server = .running then some { s with server := .cleanup 0 } else none
  | .crash => if s.server = .down then none else some { s with server := .down }
  | .startClient n argv =>
      if (s.clients n).phase = none ∨ (s.clients n).passed then
        match clientMode argv with
        | some mode => some (s.setClient n ⟨mode, some 0, none, none, none, .zero⟩)
        | none => some (s.setClient n ⟨.undefined, none, none, none, none, .zero⟩)
      else none
  | .client n => s.stepClient n

/-! ## What a client does then -/

inductive ClientAct
  | help (env rescuerTypes emergencyTypes : CString)
  /-- Its requests go to this queue; their last argument is found by this separator. -/
  | requests (queue : Option ℕ) (separator : Char)
  /-- `kill(server_pid, SIGTERM)`. -/
  | terminate (pid : ℕ)
  | nothing
  /-- The mode was not recognised. -/
  | die
  deriving DecidableEq

/-- The second `switch` of `main`. -/
def ClientMode.act (mode : ClientMode) (record : ClientServerShm) (mq : Option ℕ) : ClientAct :=
  match mode with
  | .help => .help record.env record.rescuerTypes record.emergencyTypes
  | .normal | .file => .requests mq record.requestsArgumentSeparator
  | .stopClientAndServer => .terminate record.serverPid
  | .stopJustClient => .nothing
  | .undefined => .die

def IpcClient.act (c : IpcClient) : ClientAct := c.mode.act c.record c.mq

end EmergencyDispatch
