import EmergencyDispatch.Parsers.ParsingUtils

/-!
# The rescuer types (`parse_rescuers.c`)

Each line that can be processed is a rescuer type, unless it repeats the name of
an earlier one.  The bounds of the map come from the environment, and a base may
lie on them.
-/

namespace EmergencyDispatch

open Scanf

def MAX_RESCUER_NAME_LENGTH : ℕ := 128

def MAX_RESCUER_CONF_LINES : ℕ := 128

def MAX_RESCUER_CONF_LINE_LENGTH : ℕ := 512

def MAX_RESCUER_TYPES_COUNT : ℕ := 64

def MIN_RESCUER_AMOUNT : ℤ := 1

def MAX_RESCUER_AMOUNT : ℤ := 1000

/-- `RESCUERS_SYNTAX`: `"[%128[^]]][%d][%d][%d;%d]"`. -/
def RESCUERS_SYNTAX : List Directive :=
  [.char '[', .set MAX_RESCUER_NAME_LENGTH (fun c => c != ']'), .char ']', .char '[', .int,
    .char ']', .char '[', .int, .char ']', .char '[', .int, .char ';', .int, .char ']']

/-- `rescuer_type_fields_t`. -/
structure RescuerTypeFields where
  name : CString
  amount : ℤ
  speed : ℤ
  x : ℤ
  y : ℤ
  maxXCoordinate : ℤ
  maxYCoordinate : ℤ

/-- `rescuer_type_values_are_illegal`. -/
def rescuerTypeValuesAreIllegal (fields : RescuerTypeFields) : Bool :=
  fields.name.length == 0 ||
  fields.amount < MIN_RESCUER_AMOUNT ||
  fields.amount > MAX_RESCUER_AMOUNT ||
  fields.speed < MIN_RESCUER_SPEED ||
  fields.speed > MAX_RESCUER_SPEED ||
  fields.x < MIN_X_COORDINATE_ABSOLUTE_VALUE ||
  fields.x > fields.maxXCoordinate ||
  fields.y < MIN_Y_COORDINATE_ABSOLUTE_VALUE ||
  fields.y > fields.maxYCoordinate

/-- What a line that can be processed is for the parser. -/
inductive RescuerLine
  /-- A syntax error or an illegal value: the file is rejected. -/
  | rejected
  /-- The name was parsed before: the line is ignored. -/
  | duplicate
  | accepted (fields : RescuerTypeFields)

/-- `check_and_extract_rescuer_type_fields_from_line`.  The lookup trims the
scanned name in place. -/
def checkAndExtractRescuerTypeFields (line : CString) (types : List RescuerType)
    (maxX maxY : ℤ) : RescuerLine :=
  match sscanf RESCUERS_SYNTAX line with
  | [.str name, .int amount, .int speed, .int x, .int y] =>
      let fields : RescuerTypeFields := ⟨name, amount, speed, x, y, maxX, maxY⟩
      if rescuerTypeValuesAreIllegal fields then .rejected
      else if (getRescuerTypeByName name types).isSome then .duplicate
      else .accepted { fields with name := trimRight name }
  | _ => .rejected

/-- `mallocate_and_populate_rescuer_type`; its twins get the numbers from `total`
on, the value of `rescuer_digital_twins_total_count`. -/
def mallocateAndPopulateRescuerType (fields : RescuerTypeFields) (total : ℕ) : RescuerType where
  rescuerTypeName := trimRight fields.name
  amount := fields.amount.toNat
  speed := fields.speed
  x := fields.x
  y := fields.y
  twins := (List.range fields.amount.toNat).map (total + ·)

/-- The loop of `parse_rescuers` over the lines that are still unread. -/
def parseRescuersLoop (maxX maxY : ℤ) :
    List CString → ParsingState → List RescuerType → ℕ → Option (List RescuerType)
  | [], _, types, _ => some types
  | line :: unread, ps, types, total =>
      let (ps, processable) := checkIfLineCanBeProcessed (goToNextLine ps line)
        MAX_RESCUER_CONF_LINES MAX_RESCUER_TYPES_COUNT MAX_RESCUER_CONF_LINE_LENGTH
      if !processable then
        if ps.shouldContinueParsing then parseRescuersLoop maxX maxY unread ps types total
        else none
      else
        match checkAndExtractRescuerTypeFields ps.line types maxX maxY with
        | .rejected => none
        | .duplicate => parseRescuersLoop maxX maxY unread ps types total
        | .accepted fields =>
            parseRescuersLoop maxX maxY unread { ps with parsedSoFar := ps.parsedSoFar + 1 }
              (types ++ [mallocateAndPopulateRescuerType fields total])
              (total + fields.amount.toNat)

/-- `parse_rescuers` on the content of the file; `x` and `y` are the width and
the height of the environment. -/
def parseRescuers (file : List Char) (x y : ℤ) : Option (List RescuerType) :=
  parseRescuersLoop x y (unreadLines file) (mallocateParsingState []) [] 0

/-! ## What the parser guarantees -/

/-- The types parsed so far: their values are legal, their names are different
and their twins are numbered from `0` up to the count. -/
structure LegalRescuers (maxX maxY : ℤ) (types : List RescuerType) (total : ℕ) : Prop where
  x : ∀ r ∈ types, MIN_X_COORDINATE_ABSOLUTE_VALUE ≤ r.x ∧ r.x ≤ maxX
  y : ∀ r ∈ types, MIN_Y_COORDINATE_ABSOLUTE_VALUE ≤ r.y ∧ r.y ≤ maxY
  speed : ∀ r ∈ types, MIN_RESCUER_SPEED ≤ r.speed ∧ r.speed ≤ MAX_RESCUER_SPEED
  names : (types.map (·.rescuerTypeName)).Nodup
  twins : types.flatMap (·.twins) = List.range total

variable {maxX maxY : ℤ} {types : List RescuerType} {total : ℕ} {fields : RescuerTypeFields}

theorem trimRight_trimRight (name : CString) : trimRight (trimRight name) = trimRight name :=
  List.rdropWhile_idempotent _ _

theorem length_trimRight_le (name : CString) : (trimRight name).length ≤ name.length :=
  List.IsPrefix.length_le (List.rdropWhile_prefix isSpace name)

theorem getRescuerTypeByName_eq_none_iff {name : CString} :
    getRescuerTypeByName name types = none ↔ trimRight name ∉ types.map (·.rescuerTypeName) := by
  simp [getRescuerTypeByName, List.find?_eq_none]

theorem rescuerTypeValues_legal (h : rescuerTypeValuesAreIllegal fields = false) :
    (MIN_RESCUER_AMOUNT ≤ fields.amount ∧ fields.amount ≤ MAX_RESCUER_AMOUNT) ∧
      (MIN_RESCUER_SPEED ≤ fields.speed ∧ fields.speed ≤ MAX_RESCUER_SPEED) ∧
      (MIN_X_COORDINATE_ABSOLUTE_VALUE ≤ fields.x ∧ fields.x ≤ fields.maxXCoordinate) ∧
      MIN_Y_COORDINATE_ABSOLUTE_VALUE ≤ fields.y ∧ fields.y ≤ fields.maxYCoordinate := by
  simp only [rescuerTypeValuesAreIllegal, Bool.or_eq_false_iff, decide_eq_false_iff_not, not_lt,
    gt_iff_lt] at h
  obtain ⟨⟨⟨⟨⟨⟨⟨⟨-, hmin⟩, hmax⟩, hspeed⟩, hspeed'⟩, hx⟩, hx'⟩, hy⟩, hy'⟩ := h
  exact ⟨⟨hmin, hmax⟩, ⟨hspeed, hspeed'⟩, ⟨hx, hx'⟩, hy, hy'⟩

/-- An accepted line scans, with legal values and a new name. -/
theorem checkAndExtract_scanned {line : CString}
    (h : checkAndExtractRescuerTypeFields line types maxX maxY = .accepted fields) :
    ∃ name amount speed x y,
      sscanf RESCUERS_SYNTAX line = [.str name, .int amount, .int speed, .int x, .int y] ∧
      rescuerTypeValuesAreIllegal ⟨name, amount, speed, x, y, maxX, maxY⟩ = false ∧
      getRescuerTypeByName name types = none ∧
      fields = ⟨trimRight name, amount, speed, x, y, maxX, maxY⟩ := by
  unfold checkAndExtractRescuerTypeFields at h
  split at h
  · rename_i name amount speed x y hscan
    dsimp only at h
    split at h
    · cases h
    rename_i hlegal
    split at h
    · cases h
    rename_i hnew
    exact ⟨name, amount, speed, x, y, hscan, Bool.eq_false_iff.mpr hlegal, by simpa using hnew,
      (RescuerLine.accepted.inj h).symm⟩
  · cases h

/-- An accepted line has legal values and a new name. -/
theorem checkAndExtract_accepted {line : CString}
    (h : checkAndExtractRescuerTypeFields line types maxX maxY = .accepted fields) :
    (MIN_X_COORDINATE_ABSOLUTE_VALUE ≤ fields.x ∧ fields.x ≤ maxX) ∧
      (MIN_Y_COORDINATE_ABSOLUTE_VALUE ≤ fields.y ∧ fields.y ≤ maxY) ∧
      (MIN_RESCUER_SPEED ≤ fields.speed ∧ fields.speed ≤ MAX_RESCUER_SPEED) ∧
      trimRight fields.name ∉ types.map (·.rescuerTypeName) := by
  obtain ⟨name, amount, speed, x, y, -, hlegal, hnew, rfl⟩ := checkAndExtract_scanned h
  obtain ⟨-, hspeed, hx, hy⟩ := rescuerTypeValues_legal hlegal
  refine ⟨hx, hy, hspeed, ?_⟩
  rw [trimRight_trimRight, ← getRescuerTypeByName_eq_none_iff]
  exact hnew

theorem LegalRescuers.append (h : LegalRescuers maxX maxY types total) {line : CString}
    (haccepted : checkAndExtractRescuerTypeFields line types maxX maxY = .accepted fields) :
    LegalRescuers maxX maxY (types ++ [mallocateAndPopulateRescuerType fields total])
      (total + fields.amount.toNat) := by
  obtain ⟨hx, hy, hspeed, hname⟩ := checkAndExtract_accepted haccepted
  have hmem : ∀ {p : RescuerType → Prop}, (∀ r ∈ types, p r) →
      p (mallocateAndPopulateRescuerType fields total) →
      ∀ r ∈ types ++ [mallocateAndPopulateRescuerType fields total], p r := by
    intro p htypes hnew r hr
    rcases List.mem_append.mp hr with hr | hr
    · exact htypes r hr
    · rwa [List.mem_singleton.mp hr]
  refine ⟨hmem h.x hx, hmem h.y hy, hmem h.speed hspeed, ?_, ?_⟩
  · rw [List.map_append, List.nodup_append]
    refine ⟨h.names, List.nodup_singleton _, fun name hold name' hnew => ?_⟩
    rintro rfl
    obtain rfl : name = trimRight fields.name := by
      simpa [mallocateAndPopulateRescuerType] using hnew
    exact hname hold
  · rw [List.flatMap_append, h.twins, List.range_add]
    simp [mallocateAndPopulateRescuerType]

theorem parseRescuersLoop_legal {unread : List CString} {ps : ParsingState}
    {types' : List RescuerType} (h : LegalRescuers maxX maxY types total)
    (hparse : parseRescuersLoop maxX maxY unread ps types total = some types') :
    ∃ total', LegalRescuers maxX maxY types' total' := by
  induction unread generalizing ps types total with
  | nil =>
      obtain rfl := Option.some.inj hparse
      exact ⟨total, h⟩
  | cons line unread ih =>
      unfold parseRescuersLoop at hparse
      dsimp only at hparse
      split at hparse
      · split at hparse
        · exact ih h hparse
        · cases hparse
      · split at hparse
        · cases hparse
        · exact ih h hparse
        · rename_i fields haccepted
          exact ih (h.append haccepted) hparse

/-- **The parser's guarantee.**  Accepted rescuer types have legal values,
different names and twins with different numbers. -/
theorem parseRescuers_legal {file : List Char} (h : parseRescuers file maxX maxY = some types) :
    ∃ total, LegalRescuers maxX maxY types total :=
  parseRescuersLoop_legal ⟨by simp, by simp, by simp, by simp, rfl⟩ h

end EmergencyDispatch
