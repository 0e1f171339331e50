import EmergencyDispatch.Parsers.ParsingUtils

/-!
# The environment (`parse_env.c`)

The three settings are read from the next three lines that can be processed, in
a fixed order.  A line that does not scan leaves its field as it was, and the
parser goes on.
-/

namespace EmergencyDispatch

open Scanf

/-- `environment_t`. -/
structure Environment where
  queueName : CString
  height : ℤ
  width : ℤ
  deriving DecidableEq

def MAX_EMERGENCY_QUEUE_NAME_LENGTH : ℕ := 32

def MAX_ENV_CONF_LINES : ℕ := 12

def MAX_ENV_CONF_LINE_LENGTH : ℕ := 128

def ENV_CONF_VALID_LINES_COUNT : ℕ := 3

/-- `keyword%*[ \t=]`. -/
def envConfKeyword (keyword : String) : List Directive :=
  keyword.toList.map .char ++ [.skipSet fun c => c == ' ' || c == '\t' || c == '=']

def ENV_CONF_QUEUE_SYNTAX : List Directive :=
  envConfKeyword "queue" ++ [.word MAX_EMERGENCY_QUEUE_NAME_LENGTH]

def ENV_CONF_HEIGHT_SYNTAX : List Directive := envConfKeyword "height" ++ [.int]

def ENV_CONF_WIDTH_SYNTAX : List Directive := envConfKeyword "width" ++ [.int]

/-- `check_and_extract_env_line_field`: the state and the lines it leaves, and
what `sscanf` stores. -/
def checkAndExtractEnvLineField (ps : ParsingState) (unread : List CString)
    (format : List Directive) : ParsingState × List CString × List Item :=
  let (ps, unread, _) := skipEmptyOrIllegalLines MAX_ENV_CONF_LINES ENV_CONF_VALID_LINES_COUNT
    MAX_ENV_CONF_LINE_LENGTH unread ps
  ({ ps with parsedSoFar := ps.parsedSoFar + 1 }, unread, sscanf format ps.line)

/-- The string a conversion stores, or the one that was there before. -/
def storedString (old : CString) : List Item → CString
  | [.str s] => s
  | _ => old

/-- The number a conversion stores, or the one that was there before. -/
def storedInt (old : ℤ) : List Item → ℤ
  | [.int n] => n
  | _ => old

/-- `cleanup_queue_name`: the slash is put in front in place, over the last character. -/
def cleanupQueueName (name : CString) : CString :=
  match name with
  | [] => []
  | first :: rest =>
      let cleaned := first :: rest.map fun c => if c = '/' then '-' else c
      if first = '/' then cleaned else '/' :: cleaned.dropLast

/-- `environment_values_are_illegal`. -/
def environmentValuesAreIllegal (e : Environment) : Bool :=
  e.queueName.length < 2 ||
  MAX_EMERGENCY_QUEUE_NAME_LENGTH < e.queueName.length ||
  ABS e.height < MIN_Y_COORDINATE_ABSOLUTE_VALUE ||
  wrappedABS e.height > MAX_Y_COORDINATE_ABSOLUTE_VALUE ||
  ABS e.width < MIN_X_COORDINATE_ABSOLUTE_VALUE ||
  wrappedABS e.width > MAX_X_COORDINATE_ABSOLUTE_VALUE

/-- `parse_env` on the content of the file. -/
def parseEnv (buffer : CString) (file : List Char) : Option Environment :=
  let (ps, unread, queue) := checkAndExtractEnvLineField (mallocateParsingState buffer)
    (unreadLines file) ENV_CONF_QUEUE_SYNTAX
  let (ps, unread, height) := checkAndExtractEnvLineField ps unread ENV_CONF_HEIGHT_SYNTAX
  let (ps, _, width) := checkAndExtractEnvLineField ps unread ENV_CONF_WIDTH_SYNTAX
  let env : Environment :=
    { queueName := cleanupQueueName (storedString [] queue)
      height := storedInt 0 height
      width := storedInt 0 width }
  if environmentValuesAreIllegal env then none
  else if ps.parsedSoFar ≠ ENV_CONF_VALID_LINES_COUNT then none
  else some env

end EmergencyDispatch
