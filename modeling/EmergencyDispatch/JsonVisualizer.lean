import EmergencyDispatch.Library.JsonWriting
import EmergencyDispatch.Parsers.Rescuers
import EmergencyDispatch.Threads

/-!
# The simulation as JSON (`json_visualizer.c`)

The document is written in pieces over the whole run: its beginning, one object
a tick with the twins and the emergencies, its end.  Every loop skips what is
not shown and separates what is by a flag of its own.  The names of the types
are copied between quotation marks as the configuration has them, and nothing in
its syntax keeps quotation marks, backslashes or control characters out of them:
the document is right exactly when no name that is shown has one.

A text is the list of its characters; the names keep the encoding of the
configuration files.
-/

namespace EmergencyDispatch

open Json

/-! ## The writer -/

/-- `rescuer_status_to_string`. -/
def rescuerStatusToString : RescuerStatus → CString
  | .idle => "IDLE".toList
  | .enRouteToScene => "EN_ROUTE_TO_SCENE".toList
  | .onScene => "ON_SCENE".toList
  | .returningToBase => "RETURNING_TO_BASE".toList

/-- `emergency_status_to_string`. -/
def emergencyStatusToString : EmergencyStatus → CString
  | .waiting => "WAITING".toList
  | .assigned => "ASSIGNED".toList
  | .askingForRescuers => "ASKING_FOR_RESCUERS".toList
  | .waitingForRescuers => "WAITING_FOR_RESCUERS".toList
  | .inProgress => "IN_PROGRESS".toList
  | .paused => "PAUSED".toList
  | .completed => "COMPLETED".toList
  | .canceled => "CANCELED".toList
  | .timeout => "TIMEOUT".toList

/-- What is shown of a twin or of an emergency. -/
structure Shown where
  id : ℕ
  type : CString
  status : CString
  x : ℤ
  y : ℤ

/-- The format that both loops print. -/
def Shown.text (item : Shown) : CString :=
  "        \x7b \"id\": ".toList ++ (printInt item.id ++ (", \"type\": ".toList ++
    ('"' :: (item.type ++ ("\", \"status\": ".toList ++
    ('"' :: (item.status ++ ("\", \"x\": ".toList ++ (printInt item.x ++
    (", \"y\": ".toList ++ (printInt item.y ++ " \x7d".toList)))))))))))

/-- What is shown of a twin of the type. -/
def shownTwin (w : World) (rtype : RescuerType) (t : TwinId) : Shown where
  id := t
  type := rtype.rescuerTypeName
  status := rescuerStatusToString (w.twins t).status
  x := (w.twins t).x
  y := (w.twins t).y

/-- What is shown of an emergency. -/
def shownEmergency (w : World) (e : EmergencyId) : Shown where
  id := e
  type := (w.emergencies e).type.emergencyDesc
  status := emergencyStatusToString (w.emergencies e).status
  x := (w.emergencies e).x
  y := (w.emergencies e).y

def separator : CString := ",\n".toList

/-- The body of the inner loop of `write_tick_rescuers`; the flag is `first`. -/
def writeTwin (w : World) (rtype : RescuerType) (state : CString × Bool) (t : TwinId) :
    CString × Bool :=
  if (w.twins t).status = .idle then state
  else writeSeparated separator (shownTwin w rtype t).text state

/-- `write_tick_rescuers`.  The arrays of the types and of their twins have no `NULL` before
their counts. -/
def writeTickRescuers (types : List RescuerType) (w : World) (out : CString) : CString :=
  let out := out ++ "      \"rescuers\": [\n".toList
  let (out, _) := types.foldl (fun state rtype => rtype.twins.foldl (writeTwin w rtype) state)
    (out, true)
  out ++ "\n      ]".toList

/-- The body of the loop of `write_tick_emergencies`; the flag is `first`. -/
def writeEmergency (w : World) (state : CString × Bool) (i : Worker) : CString × Bool :=
  match w.active i with
  | none => state
  | some e => writeSeparated separator (shownEmergency w e).text state

/-- `write_tick_emergencies`. -/
def writeTickEmergencies (w : World) (out : CString) : CString :=
  let out := out ++ "      \"emergencies\": [\n".toList
  let (out, _) := (List.finRange WORKER_THREADS_NUMBER).foldl (writeEmergency w) (out, true)
  out ++ "\n      ]".toList

/-- The global state of the visualizer: what has been written to the file, if it is open. -/
structure Visualizer where
  simulationJsonFile : Option CString
  isFirstTick : Bool

/-- `json_visualizer_begin`; the flag says whether the file opens. -/
def jsonVisualizerBegin (opens : Bool) (width height : ℤ) (v : Visualizer) : Visualizer × Bool :=
  if opens then
    let out := "\x7b\n".toList
    let out := out ++ ("  \"width\": ".toList ++ printInt width ++ ",\n".toList)
    let out := out ++ ("  \"height\": ".toList ++ printInt height ++ ",\n".toList)
    let out := out ++ "  \"ticks\": [\n".toList
    (⟨some out, true⟩, true)
  else ({ v with simulationJsonFile := none }, false)

/-- `json_visualizer_append_tick` in the state `w` of the server. -/
def jsonVisualizerAppendTick (types : List RescuerType) (w : World) (tick : ℤ) (v : Visualizer) :
    Visualizer × Bool :=
  match v.simulationJsonFile with
  | none => (v, false)
  | some out =>
      let out := if v.isFirstTick then out else out ++ ",\n".toList
      let out := out ++ "    \x7b\n".toList
      let out := out ++ ("      \"tick\": ".toList ++ printInt tick ++ ",\n".toList)
      let out := writeTickRescuers types w out ++ ",\n".toList
      let out := writeTickEmergencies w out
      let out := out ++ "\n    \x7d".toList
      (⟨some out, false⟩, true)

/-- `json_visualizer_end`: the state it leaves and the content of the file it closes. -/
def jsonVisualizerEnd (v : Visualizer) : Visualizer × Option CString :=
  match v.simulationJsonFile with
  | none => (v, none)
  | some out =>
      ({ v with simulationJsonFile := none }, some (out ++ "\n  ]\n".toList ++ "\x7d\n".toList))

/-- A call of `json_visualizer_append_tick`: its number and the server it sees. -/
structure VisualizedTick where
  tick : ℤ
  world : World

/-- The file after the beginning, these ticks and the end. -/
def simulationJson (types : List RescuerType) (width height : ℤ) (ticks : List VisualizedTick)
    (v : Visualizer) : Option CString :=
  let (v, _) := jsonVisualizerBegin true width height v
  let v := ticks.foldl (fun v t => (jsonVisualizerAppendTick types t.world t.tick v).1) v
  (jsonVisualizerEnd v).2

/-! ## What it should stand for -/

/-- The twins that are not idle, type by type. -/
def shownTwins (types : List RescuerType) (w : World) : List Shown :=
  types.flatMap fun rtype =>
    (rtype.twins.filter fun t => (w.twins t).status ≠ .idle).map (shownTwin w rtype)

/-- The active emergencies, slot by slot. -/
def shownEmergencies (w : World) : List Shown :=
  ((List.finRange WORKER_THREADS_NUMBER).filterMap w.active).map (shownEmergency w)

def Shown.value (item : Shown) : Value :=
  .object [("id".toList, .number item.id 0), ("type".toList, .string item.type),
    ("status".toList, .string item.status), ("x".toList, .number item.x 0),
    ("y".toList, .number item.y 0)]

def tickValue (types : List RescuerType) (t : VisualizedTick) : Value :=
  .object [("tick".toList, .number t.tick 0),
    ("rescuers".toList, .array ((shownTwins types t.world).map Shown.value)),
    ("emergencies".toList, .array ((shownEmergencies t.world).map Shown.value))]

/-- The width, the height and the ticks. -/
def simulationValue (types : List RescuerType) (width height : ℤ)
    (ticks : List VisualizedTick) : Value :=
  .object [("width".toList, .number width 0), ("height".toList, .number height 0),
    ("ticks".toList, .array (ticks.map (tickValue types)))]

/-- No name that is shown has a character that must be escaped. -/
def ShownNamesUnescaped (types : List RescuerType) (ticks : List VisualizedTick) : Prop :=
  ∀ t ∈ ticks, (∀ item ∈ shownTwins types t.world, Unescaped item.type) ∧
    ∀ item ∈ shownEmergencies t.world, Unescaped item.type

/-! ## One item -/

theorem unescaped_rescuerStatus (status : RescuerStatus) :
    Unescaped (rescuerStatusToString status) := by
  have hall : (rescuerStatusToString status).all isUnescaped = true := by
    cases status <;> decide +kernel
  exact List.all_eq_true.mp hall

theorem unescaped_emergencyStatus (status : EmergencyStatus) :
    Unescaped (emergencyStatusToString status) := by
  have hall : (emergencyStatusToString status).all isUnescaped = true := by
    cases status <;> decide +kernel
  exact List.all_eq_true.mp hall

/-- An item stands for its object exactly when its strings need no escapes. -/
theorem Shown.standsFor (item : Shown) :
    StandsFor item.text item.value.tokens (Unescaped item.type ∧ Unescaped item.status) := by
  -- the format from its end
  have hend : scan .between " \x7d".toList = some (.between, [.endObject]) := by decide +kernel
  have hy := (StandsFor.nil.cons_scan hend).printInt (by decide +kernel) item.y
  have hbeforeY : scan .between ", \"y\": ".toList =
      some (.between, [.comma, .string "y".toList, .colon]) := by decide +kernel
  have hx := (hy.cons_scan hbeforeY).printInt (by decide +kernel) item.x
  have hbeforeX : scan .between ("\", \"x\": ".toList.tail) =
      some (.between, [.comma, .string "x".toList, .colon]) := by decide +kernel
  have hstatus := (hx.cons_scan hbeforeX).string (by decide +kernel) item.status
  have hbeforeStatus : scan .between ("\", \"status\": ".toList.tail) =
      some (.between, [.comma, .string "status".toList, .colon]) := by decide +kernel
  have htype := (hstatus.cons_scan hbeforeStatus).string (by decide +kernel) item.type
  have hbeforeType : scan .between ", \"type\": ".toList =
      some (.between, [.comma, .string "type".toList, .colon]) := by decide +kernel
  have hid := (htype.cons_scan hbeforeType).printInt (by decide +kernel) item.id
  have hbegin : scan .between "        \x7b \"id\": ".toList =
      some (.between, [.beginObject, .string "id".toList, .colon]) := by decide +kernel
  have hitem := hid.cons_scan hbegin
  rw [List.append_nil] at hitem
  refine hitem.congr ?_ ?_
  · rfl
  · rw [and_true]

/-! ## One tick -/

section tick

variable {types : List RescuerType} {w : World}

theorem foldl_writeTwin (rtype : RescuerType) (state : CString × Bool) :
    rtype.twins.foldl (writeTwin w rtype) state =
      ((rtype.twins.filter fun t => (w.twins t).status ≠ .idle).map (shownTwin w rtype)).foldl
        (fun state item => writeSeparated separator item.text state) state := by
  rw [List.foldl_map, List.foldl_filter]
  refine congrArg (fun f => rtype.twins.foldl f state) ?_
  funext state t
  unfold writeTwin
  by_cases hidle : (w.twins t).status = .idle <;> simp [hidle]

theorem writeTickRescuers_eq (out : CString) :
    writeTickRescuers types w out = out ++ "      \"rescuers\": [\n".toList ++
      joined separator Shown.text (shownTwins types w) ++ "\n      ]".toList := by
  have hloops : ∀ state, types.foldl (fun state rtype => rtype.twins.foldl (writeTwin w rtype)
      state) state =
        (shownTwins types w).foldl (fun state item => writeSeparated separator item.text state)
          state := by
    intro state
    rw [shownTwins, List.foldl_flatMap]
    simp only [foldl_writeTwin]
  simp only [writeTickRescuers, hloops, foldl_writeSeparated]

theorem writeTickEmergencies_eq (out : CString) :
    writeTickEmergencies w out = out ++ "      \"emergencies\": [\n".toList ++
      joined separator Shown.text (shownEmergencies w) ++ "\n      ]".toList := by
  have hloop : ∀ state, (List.finRange WORKER_THREADS_NUMBER).foldl (writeEmergency w) state =
      (shownEmergencies w).foldl (fun state item => writeSeparated separator item.text state)
        state := by
    intro state
    rw [shownEmergencies, List.foldl_map, List.foldl_filterMap]
    refine congrArg (fun f => (List.finRange WORKER_THREADS_NUMBER).foldl f state) ?_
    funext state i
    unfold writeEmergency
    cases w.active i <;> rfl
  simp only [writeTickEmergencies, hloop, foldl_writeSeparated]

/-- The object of a tick. -/
def tickText (types : List RescuerType) (t : VisualizedTick) : CString :=
  ("    \x7b\n".toList ++ "      \"tick\": ".toList) ++ (printInt t.tick ++
    ((",\n".toList ++ "      \"rescuers\": [\n".toList) ++
    (joined separator Shown.text (shownTwins types t.world) ++
    (("\n      ]".toList ++ ",\n".toList ++ "      \"emergencies\": [\n".toList) ++
    (joined separator Shown.text (shownEmergencies t.world) ++
    ("\n      ]".toList ++ "\n    \x7d".toList))))))

/-- A tick adds its object, with a separator unless it is the first one. -/
theorem jsonVisualizerAppendTick_eq (t : VisualizedTick) (out : CString) (first : Bool) :
    (jsonVisualizerAppendTick types t.world t.tick ⟨some out, first⟩).1 =
      ⟨some (writeSeparated separator (tickText types t) (out, first)).1, false⟩ := by
  delta tickText
  simp only [jsonVisualizerAppendTick, writeTickRescuers_eq, writeTickEmergencies_eq,
    writeSeparated, separator, List.append_assoc]

theorem unescaped_status_of_shownTwins {item : Shown} (h : item ∈ shownTwins types w) :
    Unescaped item.status := by
  obtain ⟨rtype, -, hitem⟩ := List.mem_flatMap.mp h
  obtain ⟨t, -, rfl⟩ := List.mem_map.mp hitem
  exact unescaped_rescuerStatus _

theorem unescaped_status_of_shownEmergencies {item : Shown} (h : item ∈ shownEmergencies w) :
    Unescaped item.status := by
  obtain ⟨e, -, rfl⟩ := List.mem_map.mp h
  exact unescaped_emergencyStatus _

theorem scan_separator : scan .between separator = some (.between, [.comma]) := by
  decide +kernel

/-- A tick stands for its object exactly when the names it shows need no escapes. -/
theorem tickText_standsFor (types : List RescuerType) (t : VisualizedTick) :
    StandsFor (tickText types t) (tickValue types t).tokens
      ((∀ item ∈ shownTwins types t.world, Unescaped item.type) ∧
        ∀ item ∈ shownEmergencies t.world, Unescaped item.type) := by
  have hitems := StandsFor.elements scan_separator Shown.standsFor
  -- from the end
  have hend : StandsFor ("\n      ]".toList ++ "\n    \x7d".toList) [.endArray, .endObject] True :=
    StandsFor.of_scan (by decide +kernel)
  have hemergencies := (hitems (shownEmergencies t.world)).append hend
  have hmiddle : scan .between
      ("\n      ]".toList ++ ",\n".toList ++ "      \"emergencies\": [\n".toList) =
        some (.between, [.endArray, .comma, .string "emergencies".toList, .colon,
          .beginArray]) := by decide +kernel
  have hrescuers := (hitems (shownTwins types t.world)).append (hemergencies.cons_scan hmiddle)
  have hbefore : scan .between (",\n".toList ++ "      \"rescuers\": [\n".toList) =
      some (.between, [.comma, .string "rescuers".toList, .colon, .beginArray]) := by
    decide +kernel
  have htick := (hrescuers.cons_scan hbefore).printInt (by decide +kernel) t.tick
  have hbegin : scan .between ("    \x7b\n".toList ++ "      \"tick\": ".toList) =
      some (.between, [.beginObject, .string "tick".toList, .colon]) := by decide +kernel
  refine (htick.cons_scan hbegin).congr ?_ ?_
  · simp only [tickValue, Value.tokens, memberTokens, moreMembers, List.cons_append,
      List.nil_append, List.append_nil, List.append_assoc]
  · have htwins : (∀ item ∈ shownTwins types t.world, Unescaped item.type ∧
        Unescaped item.status) ↔ ∀ item ∈ shownTwins types t.world, Unescaped item.type :=
      forall₂_congr fun item hitem => and_iff_left (unescaped_status_of_shownTwins hitem)
    have hactive : (∀ item ∈ shownEmergencies t.world, Unescaped item.type ∧
        Unescaped item.status) ↔ ∀ item ∈ shownEmergencies t.world, Unescaped item.type :=
      forall₂_congr fun item hitem => and_iff_left (unescaped_status_of_shownEmergencies hitem)
    rw [htwins, hactive, and_true]

end tick

/-! ## The whole run -/

section run

variable {types : List RescuerType} {ticks : List VisualizedTick}

/-- The ticks of a run, from the state after the beginning on. -/
theorem foldl_appendTick (out : CString) (first : Bool) :
    (ticks.foldl (fun v t => (jsonVisualizerAppendTick types t.world t.tick v).1)
      ⟨some out, first⟩).simulationJsonFile =
      some (ticks.foldl (fun state t => writeSeparated separator (tickText types t) state)
        (out, first)).1 := by
  induction ticks generalizing out first with
  | nil => rfl
  | cons t ticks ih =>
      rw [List.foldl_cons, List.foldl_cons, jsonVisualizerAppendTick_eq, ih]
      rfl

/-- The document that a run leaves. -/
def simulationText (types : List RescuerType) (width height : ℤ)
    (ticks : List VisualizedTick) : CString :=
  ("\x7b\n".toList ++ "  \"width\": ".toList) ++ (printInt width ++
    ((",\n".toList ++ "  \"height\": ".toList) ++ (printInt height ++
    ((",\n".toList ++ "  \"ticks\": [\n".toList) ++
    (joined separator (tickText types) ticks ++ ("\n  ]\n".toList ++ "\x7d\n".toList))))))

theorem simulationJson_eq (width height : ℤ) (v : Visualizer) :
    simulationJson types width height ticks v = some (simulationText types width height ticks) := by
  have hticks : ∀ out, (ticks.foldl (fun v t => (jsonVisualizerAppendTick types t.world t.tick v).1)
      ⟨some out, true⟩).simulationJsonFile =
        some (out ++ joined separator (tickText types) ticks) := by
    intro out
    rw [foldl_appendTick, foldl_writeSeparated]
  simp only [simulationJson, jsonVisualizerBegin, if_true, jsonVisualizerEnd, hticks,
    simulationText, List.append_assoc]

/-- The document stands for the run exactly when the names that are shown need no escapes. -/
theorem simulationText_standsFor (width height : ℤ) :
    StandsFor (simulationText types width height ticks)
      (simulationValue types width height ticks).tokens (ShownNamesUnescaped types ticks) := by
  have hend : StandsFor ("\n  ]\n".toList ++ "\x7d\n".toList) [.endArray, .endObject] True :=
    StandsFor.of_scan (by decide +kernel)
  have hticks := (StandsFor.elements scan_separator (tickText_standsFor types) ticks).append hend
  have hbeforeTicks : scan .between (",\n".toList ++ "  \"ticks\": [\n".toList) =
      some (.between, [.comma, .string "ticks".toList, .colon, .beginArray]) := by
    decide +kernel
  have hheight := (hticks.cons_scan hbeforeTicks).printInt (by decide +kernel) height
  have hbeforeHeight : scan .between (",\n".toList ++ "  \"height\": ".toList) =
      some (.between, [.comma, .string "height".toList, .colon]) := by decide +kernel
  have hwidth := (hheight.cons_scan hbeforeHeight).printInt (by decide +kernel) width
  have hbegin : scan .between ("\x7b\n".toList ++ "  \"width\": ".toList) =
      some (.between, [.beginObject, .string "width".toList, .colon]) := by decide +kernel
  refine (hwidth.cons_scan hbegin).congr ?_ ?_
  · simp only [simulationValue, Value.tokens, memberTokens, moreMembers, List.cons_append,
      List.nil_append, List.append_nil, List.append_assoc]
  · rw [and_true]
    rfl

end run

/-- The file of a run is a JSON document that stands for exactly the width, the height and the
twins and emergencies of every tick if and only if no name that is shown has a quotation mark,
a backslash or a control character. -/
theorem simulation_json_decodes_iff (types : List RescuerType) (width height : ℤ)
    (ticks : List VisualizedTick) (v : Visualizer) :
    (∃ text, simulationJson types width height ticks v = some text ∧
        ∀ u, Decodes text u ↔ u = simulationValue types width height ticks) ↔
      ShownNamesUnescaped types ticks := by
  rw [simulationJson_eq]
  calc (∃ text, some (simulationText types width height ticks) = some text ∧
          ∀ u, Decodes text u ↔ u = simulationValue types width height ticks)
      ↔ Decodes (simulationText types width height ticks)
          (simulationValue types width height ticks) := by simp [decodes_exactly_iff]
    _ ↔ ShownNamesUnescaped types ticks := (simulationText_standsFor width height).tokenize_iff

/-- A server without emergencies, with all twins of the type on their way. -/
def everyTwinEnRoute (rtype : RescuerType) : World where
  twins _ := { mallocateRescuerDigitalTwin rtype default with status := .enRouteToScene }
  emergencies _ := default
  active _ := none
  finished := []
  signals := []

/-- Names that the parser accepts.  With quotation marks in one the file is no JSON document;
with a backslash it is one, for another name. -/
theorem name_is_not_escaped :
    let named (name : String) : RescuerType := ⟨name.toList, 1, 5, 0, 0, [0]⟩
    let run (rtype : RescuerType) := [VisualizedTick.mk 1 (everyTwinEnRoute rtype)]
    let quoted := named "Unit \"A\""
    let slashed := named "Nord\\test"
    (parseRescuers "[Unit \"A\"][1][5][0;0]\n".toList 20 20 = some [quoted] ∧
      ∃ text, simulationJson [quoted] 20 20 (run quoted) ⟨none, true⟩ = some text ∧
        ∀ v, ¬Decodes text v) ∧
    parseRescuers "[Nord\\test][1][5][0;0]\n".toList 20 20 = some [slashed] ∧
      ∃ text, simulationJson [slashed] 20 20 (run slashed) ⟨none, true⟩ = some text ∧
        Decodes text (simulationValue [named "Nord\test"] 20 20 (run slashed)) ∧
        ¬Decodes text (simulationValue [slashed] 20 20 (run slashed)) := by
  intro named run quoted slashed
  obtain ⟨hquoted, hslashed⟩ :
      parseRescuers "[Unit \"A\"][1][5][0;0]\n".toList 20 20 = some [quoted] ∧
        parseRescuers "[Nord\\test][1][5][0;0]\n".toList 20 20 = some [slashed] := by
    decide +kernel
  have hnone : tokenize (simulationText [quoted] 20 20 (run quoted)) = none := by
    decide +kernel
  have hother : Decodes (simulationText [slashed] 20 20 (run slashed))
      (simulationValue [named "Nord\test"] 20 20 (run slashed)) ∧
      ¬Decodes (simulationText [slashed] 20 20 (run slashed))
        (simulationValue [slashed] 20 20 (run slashed)) := by
    decide +kernel
  refine ⟨⟨hquoted, _, simulationJson_eq 20 20 _, fun v hv => ?_⟩, hslashed, _,
    simulationJson_eq 20 20 _, hother⟩
  rw [Decodes, hnone] at hv
  cases hv

end EmergencyDispatch
