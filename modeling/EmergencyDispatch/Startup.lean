import EmergencyDispatch.Parsers.Acceptance
import EmergencyDispatch.Parsers.EnvSettings
import EmergencyDispatch.PriorityTable

/-!
# Starting up (`main.c`)

`main` reads the three configuration files one after the other and only then
looks whether one of the parsers has returned `NULL`.  By then the results have
been used: the rescuers are parsed with the sides of the environment and the
emergencies with the array of the rescuers.  The last parser's `NULL` is seen,
but the cleanup frees the types of the emergencies without a look at them.  So
there is no clean way out of a failure, and the server starts up cleanly exactly
when the three files are accepted.
-/

namespace EmergencyDispatch

open Scanf CharBuffers NullTerminated

/-! ## The context and its cleanup -/

/-- What `server_context_t` keeps of the configuration, `none` for `NULL`.  All the other
pointers are set by `init_server_context`, before the files are read. -/
structure ServerContext where
  enviroment : Option Environment
  rescuers : Option Rescuers
  emergencies : Option (List EmergencyType)

/-- Using what a pointer points to. -/
def deref {α : Type} : Option α → Except MemoryFault α
  | none => .error .nullDereference
  | some a => .ok a

/-- `for (i = 0; array[i] != NULL; i++)`. -/
def walk {α : Type} (array : List (Option α)) : Except MemoryFault Unit :=
  match scan (fun _ => false) array with
  | none => .error .outOfBounds
  | some _ => .ok ()

/-- `free_rescuer_types`; it goes to the trajectory of every twin. -/
def freeRescuerTypes (rescuers : Rescuers) : Except MemoryFault Unit := do
  walk rescuers.types
  (items rescuers.types).forM fun r => r.twins.forM fun t => do
    let _ ← deref (rescuers.twins t)

/-- `free_rescuers`. -/
def freeRescuers (rescuers : Option Rescuers) : Except MemoryFault Unit := do
  let rescuers ← deref rescuers
  freeRescuerTypes rescuers

/-- `free_rescuer_requests` on the array of a type. -/
def freeRescuerRequests (requests : List RescuerRequest) : Except MemoryFault Unit :=
  walk (filled MAX_RESCUER_REQ_NUMBER_PER_EMERGENCY requests)

/-- `free_emergency_types`. -/
def freeEmergencyTypes (types : List EmergencyType) : Except MemoryFault Unit :=
  types.forM fun type => freeRescuerRequests type.rescuers

/-- `free_emergencies`. -/
def freeEmergencies (emergencies : Option (List EmergencyType)) : Except MemoryFault Unit := do
  let types ← deref emergencies
  freeEmergencyTypes types

/-- `write_positions_rescuer_types`: the types it reads. -/
def writePositionsRescuerTypes (ctx : ServerContext) : Except MemoryFault Unit := do
  let rescuers ← deref ctx.rescuers
  (List.range rescuers.count).forM fun i =>
    if i < rescuers.types.length then .ok () else .error .outOfBounds

/-- `json_visualizer_positions_dump`; the flag says whether the file for the positions opens.
The text version draws nothing of a context that is `NULL`. -/
def jsonVisualizerPositionsDump (opens : Bool) (ctx : ServerContext) : Except MemoryFault Unit :=
  if opens then writePositionsRescuerTypes ctx else .ok ()

/-- `cleanup_server_context`.  Before the setup of the queue and the shared memory there is
nothing to unmap or to close, and no simulation to end; the name of the queue is unlinked
all the same. -/
def cleanupServerContext (ctx : ServerContext) : Except MemoryFault Unit := do
  let _ ← deref ctx.enviroment
  freeEmergencies ctx.emergencies
  freeRescuers ctx.rescuers

/-- `close_server` up to its call of `exit`. -/
def closeServer (opens : Bool) (ctx : ServerContext) : Except MemoryFault Unit := do
  jsonVisualizerPositionsDump opens ctx
  cleanupServerContext ctx

/-! ## The three parsers -/

/-- The contents of the configuration files. -/
structure ConfigFiles where
  env : List Char
  rescuers : List Char
  emergencyTypes : List Char

section startup

variable (opens : Bool) (mallocated : TwinId → BresenhamTrajectory) (buffer : CString)
  (table : List PriorityRule) (files : ConfigFiles)

/-- The result of `parse_env`. -/
def parsedEnviroment : Except MemoryFault (Option Environment) :=
  match parseEnvInBuffers buffer files.env with
  | .overrun => .error .outOfBounds
  | .returned enviroment => .ok enviroment

/-- The result of `parse_rescuers`. -/
def parsedRescuers (width height : ℤ) : Except MemoryFault (Option Rescuers) :=
  match parseRescuerArray mallocated files.rescuers width height with
  | .null => .ok none
  | .overrun => .error .outOfBounds
  | .returned rescuers => .ok (some rescuers)

/-- The result of `parse_emergencies`, which takes the array out of the rescuers first. -/
def parsedEmergencies (rescuers : Option Rescuers) :
    Except MemoryFault (Option (List EmergencyType)) := do
  let rescuers ← deref rescuers
  match parseEmergenciesInBuffers files.emergencyTypes (items rescuers.types) table with
  | .null => .ok none
  | .overrun => .error .outOfBounds
  | .returned types => .ok (some types)

/-- How the startup ends. -/
inductive StartupEnd
  /-- `main` is past the check of the three results. -/
  | pastParsing (ctx : ServerContext)
  /-- `close_server` has come to `exit`. -/
  | exited

/-- `main` up to the setup of the queue and the shared memory. -/
def startUp : Except MemoryFault StartupEnd := do
  let enviroment ← parsedEnviroment buffer files
  let sides ← deref enviroment
  let rescuers ← parsedRescuers mallocated files sides.width sides.height
  let emergencies ← parsedEmergencies table files rescuers
  let ctx : ServerContext := ⟨enviroment, rescuers, emergencies⟩
  if ctx.enviroment.isNone || ctx.rescuers.isNone || ctx.emergencies.isNone then
    closeServer opens ctx
    return .exited
  else
    return .pastParsing ctx

end startup

/-- The server is past parsing with everything it has parsed, or it has closed. -/
def StartsCleanly (outcome : Except MemoryFault StartupEnd) : Prop :=
  (∃ enviroment rescuers emergencies, outcome =
      .ok (.pastParsing ⟨some enviroment, some rescuers, some emergencies⟩)) ∨
    outcome = .ok .exited

/-- The fault that ends the startup. -/
def faultOf : Except MemoryFault StartupEnd → Option MemoryFault
  | .error fault => some fault
  | .ok _ => none

/-! ## Which files are accepted -/

/-- The queue has a name that fits its field, and the sides that scan are not too long. -/
structure EnvFileAccepted (buffer : CString) (file : List Char) : Prop where
  queue : ∃ name, sscanf ENV_CONF_QUEUE_SYNTAX (settingLine buffer file 0) = [.str name] ∧
    2 ≤ name.length ∧ name.length < MAX_EMERGENCY_QUEUE_NAME_LENGTH
  height : ∀ height, sscanf ENV_CONF_HEIGHT_SYNTAX (settingLine buffer file 1) = [.int height] →
    wrappedABS height ≤ MAX_Y_COORDINATE_ABSOLUTE_VALUE
  width : ∀ width, sscanf ENV_CONF_WIDTH_SYNTAX (settingLine buffer file 2) = [.int width] →
    wrappedABS width ≤ MAX_X_COORDINATE_ABSOLUTE_VALUE

/-- The three files are accepted, each with those before it. -/
structure FilesAccepted (table : List PriorityRule) (buffer : CString) (files : ConfigFiles) :
    Prop where
  env : EnvFileAccepted buffer files.env
  rescuers : RescuerFileAccepted files.rescuers (scannedEnvironment buffer files.env).width
    (scannedEnvironment buffer files.env).height
  emergencies : EmergencyFileAccepted table files.rescuers files.emergencyTypes

variable {opens : Bool} {mallocated : TwinId → BresenhamTrajectory} {buffer : CString}
  {table : List PriorityRule} {files : ConfigFiles} {file : List Char}

/-- The settings that fit are those that are legal. -/
theorem envFileAccepted_iff :
    EnvFileAccepted buffer file ↔
      queueNameOverruns (sscanf ENV_CONF_QUEUE_SYNTAX (settingLine buffer file 0)) = false ∧
        environmentValuesAreIllegal (scannedEnvironment buffer file) = false := by
  by_cases hfits : ∀ name, sscanf ENV_CONF_QUEUE_SYNTAX (settingLine buffer file 0) = [.str name] →
      name.length < MAX_EMERGENCY_QUEUE_NAME_LENGTH
  · have hroom : queueNameOverruns (sscanf ENV_CONF_QUEUE_SYNTAX (settingLine buffer file 0)) =
        false := by
      rw [Bool.eq_false_iff, ne_eq, queueNameOverruns_iff]
      exact not_not_intro hfits
    rw [and_iff_right hroom, Bool.eq_false_iff, ne_eq, scannedEnvironment_illegal_iff hfits]
    constructor
    · rintro ⟨⟨name, hname, hshort, -⟩, hheight, hwidth⟩
        (hall | ⟨height, hscan, hlong⟩ | ⟨width, hscan, hlong⟩)
      · exact absurd (hall name hname) (not_lt.mpr hshort)
      · exact absurd (hheight height hscan) (not_le.mpr hlong)
      · exact absurd (hwidth width hscan) (not_le.mpr hlong)
    · intro hlegal
      simp only [not_or, not_forall, not_exists, not_and, not_lt] at hlegal
      obtain ⟨⟨name, hname, hshort⟩, hheight, hwidth⟩ := hlegal
      exact ⟨⟨name, hname, hshort, hfits name hname⟩, hheight, hwidth⟩
  · refine iff_of_false (fun h => hfits fun name hname => ?_) fun h => ?_
    · obtain ⟨⟨name', hname', -, hlt⟩, -⟩ := h
      obtain rfl : name' = name := by simpa [hname'] using hname
      exact hlt
    · have hover := (queueNameOverruns_iff (settingLine buffer file 0)).mpr hfits
      rw [h.1] at hover
      cases hover

theorem parsedEnviroment_cases :
    (EnvFileAccepted buffer files.env ∧
        parsedEnviroment buffer files = .ok (some (scannedEnvironment buffer files.env))) ∨
      (¬EnvFileAccepted buffer files.env ∧
        (parsedEnviroment buffer files = .error .outOfBounds ∨
          parsedEnviroment buffer files = .ok none)) := by
  rw [envFileAccepted_iff]
  unfold parsedEnviroment
  rw [parseEnvInBuffers_eq, parseEnv_eq]
  cases queueNameOverruns (sscanf ENV_CONF_QUEUE_SYNTAX (settingLine buffer files.env 0)) with
  | true => simp
  | false => cases environmentValuesAreIllegal (scannedEnvironment buffer files.env) <;> simp

theorem parsedRescuers_cases (mallocated : TwinId → BresenhamTrajectory) (files : ConfigFiles)
    (width height : ℤ) :
    (RescuerFileAccepted files.rescuers width height ∧ ∃ types memory,
        parsedRescuers mallocated files width height =
          .ok (some ⟨filled (MAX_RESCUER_CONF_LINES + 1) types, types.length, memory⟩) ∧
        (types.map (·.rescuerTypeName)).Nodup ∧
        List.Forall₂ RescuerOf (rescuerLines files.rescuers) types) ∨
      (¬RescuerFileAccepted files.rescuers width height ∧
        (parsedRescuers mallocated files width height = .error .outOfBounds ∨
          parsedRescuers mallocated files width height = .ok none)) := by
  unfold parsedRescuers
  by_cases haccepted : RescuerFileAccepted files.rescuers width height
  · obtain ⟨types, memory, hparse, -, hnames, hlines⟩ := haccepted.parsed mallocated
    rw [hparse]
    exact .inl ⟨haccepted, types, memory, rfl, hnames, hlines⟩
  · refine .inr ⟨haccepted, ?_⟩
    cases hparse : parseRescuerArray mallocated files.rescuers width height with
    | null => exact .inr rfl
    | overrun => exact .inl rfl
    | returned rescuers =>
        exact absurd (parseRescuerArray_returned_iff.mp ⟨rescuers, hparse⟩) haccepted

theorem parsedEmergencies_cases (table : List PriorityRule) {types : List RescuerType}
    {count : ℕ} {memory : TwinId → Option RescuerDigitalTwin}
    (hnames : (types.map (·.rescuerTypeName)).Nodup)
    (hlines : List.Forall₂ RescuerOf (rescuerLines files.rescuers) types) :
    let result := parsedEmergencies table files
      (some ⟨filled (MAX_RESCUER_CONF_LINES + 1) types, count, memory⟩)
    (EmergencyFileAccepted table files.rescuers files.emergencyTypes ∧
        ∃ emergencies, result = .ok (some emergencies)) ∨
      (¬EmergencyFileAccepted table files.rescuers files.emergencyTypes ∧
        (result = .error .outOfBounds ∨ result = .ok none)) := by
  intro result
  have hresult : result =
      match parseEmergenciesInBuffers files.emergencyTypes types table with
      | .null => .ok none
      | .overrun => .error .outOfBounds
      | .returned emergencies => .ok (some emergencies) := by
    simp only [result, parsedEmergencies, deref, bind, Except.bind, items_filled]
  rw [hresult, ← parseEmergenciesInBuffers_returned_iff hlines hnames]
  cases parseEmergenciesInBuffers files.emergencyTypes types table <;> simp

/-! ## Every `NULL` is dereferenced -/

theorem not_startsCleanly_error (fault : MemoryFault) : ¬StartsCleanly (.error fault) := by
  rintro (⟨enviroment, rescuers, emergencies, h⟩ | h) <;> cases h

theorem eq_error_of_faultOf {outcome : Except MemoryFault StartupEnd} {fault : MemoryFault}
    (h : faultOf outcome = some fault) : outcome = .error fault := by
  cases outcome with
  | error fault' => exact congrArg Except.error (Option.some.inj h)
  | ok _ => cases h

/-- Without an environment the rescuers cannot be parsed. -/
theorem not_startsCleanly_of_env (h : parsedEnviroment buffer files = .error .outOfBounds ∨
    parsedEnviroment buffer files = .ok none) :
    ¬StartsCleanly (startUp opens mallocated buffer table files) := by
  unfold startUp
  rcases h with h | h
  · rw [h]
    exact not_startsCleanly_error _
  · rw [h]
    exact not_startsCleanly_error .nullDereference

section parsed

variable {enviroment : Environment} {rescuers : Rescuers}

/-- Without rescuers the emergencies cannot be parsed. -/
theorem not_startsCleanly_of_rescuers
    (henv : parsedEnviroment buffer files = .ok (some enviroment))
    (h : parsedRescuers mallocated files enviroment.width enviroment.height =
        .error .outOfBounds ∨
      parsedRescuers mallocated files enviroment.width enviroment.height = .ok none) :
    ¬StartsCleanly (startUp opens mallocated buffer table files) := by
  simp only [startUp, henv, deref, bind, Except.bind]
  rcases h with h | h
  · rw [h]
    exact not_startsCleanly_error _
  · rw [h]
    exact not_startsCleanly_error .nullDereference

/-- Closing without emergencies fails, whatever else was parsed. -/
theorem closeServer_emergencies_null (opens : Bool) (enviroment : Option Environment)
    (rescuers : Option Rescuers) :
    ∃ fault, closeServer opens ⟨enviroment, rescuers, none⟩ = .error fault := by
  have hcleanup : cleanupServerContext ⟨enviroment, rescuers, none⟩ = .error .nullDereference := by
    cases enviroment <;> rfl
  unfold closeServer
  rw [hcleanup]
  cases jsonVisualizerPositionsDump opens ⟨enviroment, rescuers, none⟩ with
  | error fault => exact ⟨fault, rfl⟩
  | ok _ => exact ⟨.nullDereference, rfl⟩

/-- Without emergencies the server cannot be closed. -/
theorem not_startsCleanly_of_emergencies
    (henv : parsedEnviroment buffer files = .ok (some enviroment))
    (hrescuers : parsedRescuers mallocated files enviroment.width enviroment.height =
      .ok (some rescuers))
    (h : parsedEmergencies table files (some rescuers) = .error .outOfBounds ∨
      parsedEmergencies table files (some rescuers) = .ok none) :
    ¬StartsCleanly (startUp opens mallocated buffer table files) := by
  simp only [startUp, henv, deref, bind, Except.bind, hrescuers]
  rcases h with h | h
  · rw [h]
    exact not_startsCleanly_error _
  · obtain ⟨fault, hclose⟩ := closeServer_emergencies_null opens (some enviroment) (some rescuers)
    rw [h]
    simp only [Option.isNone_some, Option.isNone_none, Bool.or_true, if_true, hclose]
    exact not_startsCleanly_error fault

theorem startsCleanly_of_parsed {types : List EmergencyType}
    (henv : parsedEnviroment buffer files = .ok (some enviroment))
    (hrescuers : parsedRescuers mallocated files enviroment.width enviroment.height =
      .ok (some rescuers))
    (h : parsedEmergencies table files (some rescuers) = .ok (some types)) :
    StartsCleanly (startUp opens mallocated buffer table files) := by
  simp only [startUp, henv, deref, bind, Except.bind, hrescuers, h]
  exact .inl ⟨enviroment, rescuers, types, rfl⟩

end parsed

/-- The server starts up cleanly exactly when the three files are accepted: a `NULL` of any
of the parsers is dereferenced, by the next parser or by the cleanup. -/
theorem startup_is_clean_iff (opens : Bool) (mallocated : TwinId → BresenhamTrajectory)
    (buffer : CString) (table : List PriorityRule) (files : ConfigFiles) :
    StartsCleanly (startUp opens mallocated buffer table files) ↔
      FilesAccepted table buffer files := by
  -- the first file that is not accepted decides
  rcases parsedEnviroment_cases with ⟨haccepted, henv⟩ | ⟨hrefused, henv⟩
  swap
  · exact iff_of_false (not_startsCleanly_of_env henv) fun h => hrefused h.env
  rcases parsedRescuers_cases mallocated files (scannedEnvironment buffer files.env).width
    (scannedEnvironment buffer files.env).height with
    ⟨hrescuers, types, memory, hreturned, hnames, hlines⟩ | ⟨hrefused, hrescuers⟩
  swap
  · exact iff_of_false (not_startsCleanly_of_rescuers henv hrescuers) fun h => hrefused h.rescuers
  rcases parsedEmergencies_cases table hnames hlines with
    ⟨hemergencies, emergencies, hparsed⟩ | ⟨hrefused, hemergencies⟩
  · exact iff_of_true (startsCleanly_of_parsed henv hreturned hparsed)
      ⟨haccepted, hrescuers, hemergencies⟩
  · exact iff_of_false (not_startsCleanly_of_emergencies henv hreturned hemergencies)
      fun h => hrefused h.emergencies

/-- A height that is too large, a rescuer type without units and a priority that does not
exist: each parser returns `NULL` for its file, and each `NULL` is dereferenced. -/
theorem configuration_error_is_not_reported :
    let startUpOn (env rescuers emergencyTypes : String) := startUp true (fun _ => default) []
      defaultPriorityLookupTable ⟨env.toList, rescuers.toList, emergencyTypes.toList⟩
    let tooHigh := startUpOn "queue=/coda\nheight=5000\nwidth=100\n" "[A][1][5][0;0]\n"
      "[Fire] [1] A:1,5;\n"
    let noUnits := startUpOn "queue=/coda\nheight=100\nwidth=100\n" "[A][0][5][0;0]\n"
      "[Fire] [1] A:1,5;\n"
    let noPriority := startUpOn "queue=/coda\nheight=100\nwidth=100\n" "[A][1][5][0;0]\n"
      "[Fire] [9] A:1,5;\n"
    (tooHigh = .error .nullDereference ∧ noUnits = .error .nullDereference ∧
        noPriority = .error .nullDereference) ∧
      ¬StartsCleanly tooHigh ∧ ¬StartsCleanly noUnits ∧ ¬StartsCleanly noPriority := by
  intro startUpOn tooHigh noUnits noPriority
  obtain ⟨henv, hrescuers, hemergencies⟩ : faultOf tooHigh = some .nullDereference ∧
      faultOf noUnits = some .nullDereference ∧
      faultOf noPriority = some .nullDereference := by
    decide +kernel
  have henv := eq_error_of_faultOf henv
  have hrescuers := eq_error_of_faultOf hrescuers
  have hemergencies := eq_error_of_faultOf hemergencies
  refine ⟨⟨henv, hrescuers, hemergencies⟩, ?_, ?_, ?_⟩
  · exact henv ▸ not_startsCleanly_error _
  · exact hrescuers ▸ not_startsCleanly_error _
  · exact hemergencies ▸ not_startsCleanly_error _

/-- With legal values the startup goes through. -/
example : faultOf (startUp true (fun _ => default) [] defaultPriorityLookupTable
    ⟨"queue=/coda\nheight=100\nwidth=100\n".toList, "[A][1][5][0;0]\n".toList,
      "[Fire] [1] A:1,5;\n".toList⟩) = none := by
  decide +kernel

end EmergencyDispatch
