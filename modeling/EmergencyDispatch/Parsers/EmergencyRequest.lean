import EmergencyDispatch.Structs
import EmergencyDispatch.Library.Scanf
import Mathlib.Data.List.DropRight

/-!
# Requests of emergencies

The lookups by name of `structs.c` and the parser of the messages the clients
send (`parse_emergency_request` of `parse_emergencies.c`).
-/

namespace EmergencyDispatch

open Scanf

/-- `trim_right`. -/
def trimRight (s : CString) : CString := s.rdropWhile isSpace

/-- `get_emergency_type_by_name`, which trims the name it is given. -/
def getEmergencyTypeByName (name : CString) (types : List EmergencyType) :
    Option EmergencyType :=
  types.find? fun type => type.emergencyDesc == trimRight name

/-- `get_rescuer_type_by_name`, which trims the name it is given. -/
def getRescuerTypeByName (name : CString) (types : List RescuerType) : Option RescuerType :=
  types.find? fun type => type.rescuerTypeName == trimRight name

/-- `get_rescuer_request_by_name`. -/
def getRescuerRequestByName (name : CString) (requests : List RescuerRequest) :
    Option RescuerRequest :=
  requests.find? fun request => request.type.rescuerTypeName == name

def MAX_EMERGENCY_NAME_LENGTH : ℕ := 64

/-- `EMERGENCY_REQUEST_SYNTAX`: `"%64[^0-9] %d %d %d"`. -/
def EMERGENCY_REQUEST_SYNTAX : List Directive :=
  [.set MAX_EMERGENCY_NAME_LENGTH (fun c => !c.isDigit), .space, .int, .space, .int, .space, .int]

/-- `emergency_request_t`. -/
structure EmergencyRequest where
  emergencyName : CString
  x : ℤ
  y : ℤ
  deriving DecidableEq

def MIN_X_COORDINATE_ABSOLUTE_VALUE : ℤ := 0

def MAX_X_COORDINATE_ABSOLUTE_VALUE : ℤ := 1024

def MIN_Y_COORDINATE_ABSOLUTE_VALUE : ℤ := 0

def MAX_Y_COORDINATE_ABSOLUTE_VALUE : ℤ := 1024

/-- `emergency_request_values_are_illegal`. -/
def emergencyRequestValuesAreIllegal (types : List EmergencyType) (envh envw : ℤ)
    (name : CString) (x y : ℤ) : Bool :=
  name.length == 0 ||
  (getEmergencyTypeByName name types).isNone ||
  (ABS x < MIN_X_COORDINATE_ABSOLUTE_VALUE || wrappedABS x > wrappedABS envw) ||
  (ABS y < MIN_Y_COORDINATE_ABSOLUTE_VALUE || wrappedABS y > wrappedABS envh)

/-- `parse_emergency_request`.  The validator trims the scanned name in place,
so the trimmed name is what the request keeps. -/
def parseEmergencyRequest (message : CString) (types : List EmergencyType) (envh envw : ℤ) :
    Option EmergencyRequest :=
  match sscanf EMERGENCY_REQUEST_SYNTAX message with
  | [.str n, .int x, .int y, .int _] =>
      if emergencyRequestValuesAreIllegal types envh envw n x y then none
      else some ⟨trimRight n, x, y⟩
  | _ => none

end EmergencyDispatch
