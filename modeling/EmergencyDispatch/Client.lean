import EmergencyDispatch.Parsers.EmergencyRequest

/-!
# The client (`client.c`)

What the client sends for the arguments of one request, or for a line of a file.
It reads no more of a request than its delay; everything else is for the server
to check.
-/

namespace EmergencyDispatch

open Scanf

def MAX_EMERGENCY_REQUEST_LENGTH : ℕ := 512

def MAX_REQUEST_DELAY_SECONDS : ℤ := 32

/-- `EMERGENCY_REQUESTS_ARGUMENT_SEPARATOR_CHAR`, which the client gets from the server. -/
def EMERGENCY_REQUESTS_ARGUMENT_SEPARATOR_CHAR : Char := ' '

/-- `extract_last_token`: what follows the last separator, or the whole string. -/
def extractLastToken (s : CString) (separator : Char) : CString :=
  s.rtakeWhile fun c => c != separator

/-- The format `"%ud"` of the delay. -/
def REQUEST_DELAY_SYNTAX : List Directive := [.uint, .char 'd']

/-- `send_emergency_request_message`: the message it sends, if any. -/
def sendEmergencyRequestMessage (s : CString) : Option CString :=
  match sscanf REQUEST_DELAY_SYNTAX
      (extractLastToken s EMERGENCY_REQUESTS_ARGUMENT_SEPARATOR_CHAR) with
  | [.int delay] =>
      if MAX_REQUEST_DELAY_SECONDS < delay then none
      else some (if s.getLast? = some '\n' then s.dropLast else s)
  | _ => none

/-- What `snprintf` writes for the format `"%s %s %s %s"`. -/
def composeRequest (name x y delay : CString) : CString :=
  name ++ ' ' :: (x ++ ' ' :: (y ++ ' ' :: delay))

/-- `handle_normal_mode_input`: the message it sends, if any.  The string it composes
fits its buffer, so that its second test never fails. -/
def handleNormalModeInput (name x y delay : CString) : Option CString :=
  if MAX_EMERGENCY_REQUEST_LENGTH < name.length + x.length + y.length + delay.length + 3 then none
  else sendEmergencyRequestMessage (composeRequest name x y delay)

end EmergencyDispatch
