import EmergencyDispatch.Library.JsonObjects
import EmergencyDispatch.JsonVisualizer
import EmergencyDispatch.Report

/-!
# The final positions as JSON (`json_visualizer_positions_dump`)

`close_server` writes the map, the bases of the rescuer types and one object for
every emergency that `pq_map` finds in `completed_emergencies` and then in
`canceled_emergencies`.  As in the file of the simulation the names are copied as
they are.  What the file lists is all that has ended: with the emergencies that
wait in `emergency_queue`, which it leaves out, it has every accepted emergency
once.
-/

namespace EmergencyDispatch

open Json State TransitionSystem

/-! ## The writer -/

/-- The members that `write_positions_rescuer_types` prints of a type. -/
def rescuerTypeMembers (rtype : RescuerType) : List (CString × Printed) :=
  [("name".toList, .string rtype.rescuerTypeName), ("amount".toList, .int rtype.amount),
    ("x".toList, .int rtype.x)]

def rescuerTypeText (rtype : RescuerType) : CString :=
  "    ".toList ++ objectText (rescuerTypeMembers rtype) ("y".toList, rtype.y)

/-- `write_positions_rescuer_types`. -/
def JsonVisualizer.writePositionsRescuerTypes (types : List RescuerType) (out : CString) :
    CString :=
  let out := out ++ "  \"rescuer_types\": [\n".toList
  let (out, _) := types.foldl (fun state rtype =>
    writeSeparated separator (rescuerTypeText rtype) state) (out, true)
  out ++ "\n  ],\n".toList

/-- The members that `write_positions_one_emergency` prints; `time` is when the requests were
sent. -/
def emergencyMembers (w : World) (time : EmergencyId → ℤ) (e : EmergencyId) :
    List (CString × Printed) :=
  let em := w.emergencies e
  [("type_desc".toList, .string em.type.emergencyDesc),
    ("type_priority".toList, .int em.type.priority),
    ("id".toList, .int e),
    ("priority".toList, .int em.priority),
    ("status".toList, .string (emergencyStatusToString em.status)),
    ("x".toList, .int em.x),
    ("y".toList, .int em.y),
    ("time".toList, .int (time e)),
    ("tick_time".toList, .int em.tickTime),
    ("rescuer_count".toList, .int em.rescuerCount),
    ("how_many_times_was_paused".toList, .int em.howManyTimesWasPaused)]

/-- The last member of an emergency. -/
def promotedMember (w : World) (e : EmergencyId) : CString × ℤ :=
  ("how_many_times_was_promoted".toList, (w.emergencies e).howManyTimesWasPromoted)

def positionText (w : World) (time : EmergencyId → ℤ) (e : EmergencyId) : CString :=
  "    ".toList ++ objectText (emergencyMembers w time e) (promotedMember w e)

/-- `write_positions_one_emergency`; the flag is `global_positions_first_emergency`. -/
def writePositionsOneEmergency (w : World) (time : EmergencyId → ℤ) (state : CString × Bool)
    (e : EmergencyId) : CString × Bool :=
  writeSeparated separator (positionText w time e) state

def mapText (cfg : Config) : CString :=
  objectText [("width".toList, .int cfg.size.width)] ("height".toList, cfg.size.height)

/-- What `json_visualizer_positions_dump` writes to the file for JSON. -/
def positionsJson (cfg : Config) (time : EmergencyId → ℤ) (s : State) : CString :=
  let out := "\x7b\n".toList
  let out := out ++ ("  \"map\": ".toList ++ mapText cfg ++ ",\n".toList)
  let out := JsonVisualizer.writePositionsRescuerTypes cfg.rescuers out
  let out := out ++ "  \"emergencies\": [\n".toList
  let state := s.completedEmergencies.map (writePositionsOneEmergency s.world time) (out, true)
  let (out, _) := s.canceledEmergencies.map (writePositionsOneEmergency s.world time) state
  out ++ "\n  ]\n".toList ++ "\x7d\n".toList

/-! ## What it should stand for -/

/-- The emergencies in the order of the file. -/
def State.positioned (s : State) : List EmergencyId :=
  s.completedEmergencies.contents ++ s.canceledEmergencies.contents

def mapValue (cfg : Config) : Value :=
  objectValue [("width".toList, .int cfg.size.width)] ("height".toList, cfg.size.height)

def rescuerTypeValue (rtype : RescuerType) : Value :=
  objectValue (rescuerTypeMembers rtype) ("y".toList, rtype.y)

def positionValue (w : World) (time : EmergencyId → ℤ) (e : EmergencyId) : Value :=
  objectValue (emergencyMembers w time e) (promotedMember w e)

/-- The map, the bases and the emergencies. -/
def positionsValue (cfg : Config) (time : EmergencyId → ℤ) (s : State) : Value :=
  .object [
    ("map".toList, mapValue cfg),
    ("rescuer_types".toList, .array (cfg.rescuers.map rescuerTypeValue)),
    ("emergencies".toList, .array (s.positioned.map (positionValue s.world time)))]

/-- No name of a rescuer type or of an emergency that is listed has a character that must be
escaped. -/
def PositionNamesUnescaped (cfg : Config) (s : State) : Prop :=
  (∀ rtype ∈ cfg.rescuers, Unescaped rtype.rescuerTypeName) ∧
    ∀ e ∈ s.positioned, Unescaped (s.world.emergencies e).type.emergencyDesc

/-! ## The pieces -/

instance (s : List Char) : Decidable (Unescaped s) :=
  decidable_of_iff (s.all isUnescaped = true) List.all_eq_true

theorem mapText_standsFor (cfg : Config) :
    StandsFor (mapText cfg) (mapValue cfg).tokens True := by
  have hnames : ∀ m ∈ [("width".toList, Printed.int cfg.size.width)], Unescaped m.1 := by
    simp only [List.forall_mem_cons]
    decide +kernel
  have hlast : Unescaped "height".toList := by decide +kernel
  refine (objectText_standsFor hnames hlast).congr rfl ?_
  simp [Printed.Plain]

theorem scan_indent : scan .between "    ".toList = some (.between, []) := by decide +kernel

theorem rescuerTypeText_standsFor (rtype : RescuerType) :
    StandsFor (rescuerTypeText rtype) (rescuerTypeValue rtype).tokens
      (Unescaped rtype.rescuerTypeName) := by
  have hnames : ∀ m ∈ rescuerTypeMembers rtype, Unescaped m.1 := by
    simp only [rescuerTypeMembers, List.forall_mem_cons]
    decide +kernel
  have hlast : Unescaped "y".toList := by decide +kernel
  refine ((objectText_standsFor hnames hlast).cons_scan scan_indent).congr rfl ?_
  simp [rescuerTypeMembers, Printed.Plain]

theorem positionText_standsFor (w : World) (time : EmergencyId → ℤ) (e : EmergencyId) :
    StandsFor (positionText w time e) (positionValue w time e).tokens
      (Unescaped (w.emergencies e).type.emergencyDesc) := by
  have hnames : ∀ m ∈ emergencyMembers w time e, Unescaped m.1 := by
    simp only [emergencyMembers, List.forall_mem_cons]
    decide +kernel
  have hlast : Unescaped "how_many_times_was_promoted".toList := by decide +kernel
  refine ((objectText_standsFor hnames hlast).cons_scan scan_indent).congr rfl ?_
  have hstatus := unescaped_emergencyStatus (w.emergencies e).status
  simp [emergencyMembers, Printed.Plain, hstatus]

/-! ## The document -/

variable {cfg : Config} {s : State}

/-- The types are joined, and so are the emergencies of the two queues. -/
def positionsText (cfg : Config) (time : EmergencyId → ℤ) (s : State) : CString :=
  ("\x7b\n".toList ++ "  \"map\": ".toList) ++
    (mapText cfg ++ ((",\n".toList ++ "  \"rescuer_types\": [\n".toList) ++
    (joined separator rescuerTypeText cfg.rescuers ++
    (("\n  ],\n".toList ++ "  \"emergencies\": [\n".toList) ++
    (joined separator (positionText s.world time) s.positioned ++
    ("\n  ]\n".toList ++ "\x7d\n".toList))))))

theorem positionsJson_eq (time : EmergencyId → ℤ) :
    positionsJson cfg time s = positionsText cfg time s := by
  have hqueues : ∀ out : CString,
      (s.canceledEmergencies.map (writePositionsOneEmergency s.world time)
        (s.completedEmergencies.map (writePositionsOneEmergency s.world time) (out, true))).1 =
      out ++ joined separator (positionText s.world time) s.positioned := by
    intro out
    calc _ = (s.positioned.foldl (fun state e =>
              writeSeparated separator (positionText s.world time e) state) (out, true)).1 := by
          rw [State.positioned, List.foldl_append]
          rfl
      _ = _ := foldl_writeSeparated _ _
  simp only [positionsJson, JsonVisualizer.writePositionsRescuerTypes, hqueues,
    foldl_writeSeparated, positionsText, List.append_assoc]

theorem positionsText_standsFor (time : EmergencyId → ℤ) :
    StandsFor (positionsText cfg time s) (positionsValue cfg time s).tokens
      (PositionNamesUnescaped cfg s) := by
  -- from the end
  have hend : StandsFor ("\n  ]\n".toList ++ "\x7d\n".toList) [.endArray, .endObject] True :=
    StandsFor.of_scan (by decide +kernel)
  have hemergencies := (StandsFor.elements scan_separator (positionText_standsFor s.world time)
    s.positioned).append hend
  have hmiddle : scan .between ("\n  ],\n".toList ++ "  \"emergencies\": [\n".toList) =
      some (.between, [.endArray, .comma, .string "emergencies".toList, .colon,
        .beginArray]) := by decide +kernel
  have htypes := (StandsFor.elements scan_separator rescuerTypeText_standsFor
    cfg.rescuers).append (hemergencies.cons_scan hmiddle)
  have hbeforeTypes : scan .between (",\n".toList ++ "  \"rescuer_types\": [\n".toList) =
      some (.between, [.comma, .string "rescuer_types".toList, .colon, .beginArray]) := by
    decide +kernel
  have hmap := (mapText_standsFor cfg).append (htypes.cons_scan hbeforeTypes)
  have hbegin : scan .between ("\x7b\n".toList ++ "  \"map\": ".toList) =
      some (.between, [.beginObject, .string "map".toList, .colon]) := by decide +kernel
  refine (hmap.cons_scan hbegin).congr ?_ ?_
  · simp only [positionsValue, Value.tokens, memberTokens, moreMembers, List.cons_append,
      List.nil_append, List.append_nil, List.append_assoc]
  · simp [PositionNamesUnescaped]

/-- In every state the file is a JSON document that stands for exactly the map, the rescuer
types and the emergencies that ended, if and only if none of their names has a quotation mark,
a backslash or a control character. -/
theorem positions_json_decodes_iff (cfg : Config) (time : EmergencyId → ℤ) (s : State) :
    (∀ u, Decodes (positionsJson cfg time s) u ↔ u = positionsValue cfg time s) ↔
      PositionNamesUnescaped cfg s := by
  rw [positionsJson_eq, decodes_exactly_iff]
  exact (positionsText_standsFor time).tokenize_iff

end EmergencyDispatch
