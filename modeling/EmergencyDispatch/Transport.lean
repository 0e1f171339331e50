import EmergencyDispatch.Client
import EmergencyDispatch.Threads
import EmergencyDispatch.Parsers.RequestBuffers

/-!
# The way of a request to the parser

The client writes a request into a buffer, takes the newline off, and sends the
cells up to the terminator of the string as it was before; the queue takes
messages of a limited size, and the receiver terminates what it gets once more.
A request of the greatest length the client allows is one cell too long for the
queue: `mq_send` fails, which ends the client.
-/

namespace EmergencyDispatch

open Scanf CharBuffers

def MAX_EMERGENCY_QUEUE_MESSAGE_LENGTH : ℕ := 512

/-- `char string[MAX_EMERGENCY_REQUEST_LENGTH + 1]` of the client, whatever it holds. -/
abbrev ClientBuffer := { cells : Buffer // cells.length = MAX_EMERGENCY_REQUEST_LENGTH + 1 }

/-- `char buffer[MAX_EMERGENCY_QUEUE_MESSAGE_LENGTH]` of the receiver, whatever it holds. -/
abbrev ReceiverBuffer :=
  { cells : Buffer // cells.length = MAX_EMERGENCY_QUEUE_MESSAGE_LENGTH }

/-! ## The client -/

/-- What becomes of a request in the client. -/
inductive SendOutcome
  /-- Without a delay that can be read and is within the limit. -/
  | ignored
  /-- The client closes: the request is too long. -/
  | closed
  /-- `mq_send` fails, and `SYSC` ends the client. -/
  | killed
  | sent (bytes : List Char)
  deriving DecidableEq

/-- `mq_send` to the queue of the server. -/
def mqSend (bytes : List Char) : SendOutcome :=
  if MAX_EMERGENCY_QUEUE_MESSAGE_LENGTH < bytes.length then .killed else .sent bytes

/-- The end of `send_emergency_request_message`: the newline is taken off in the buffer, and
`len + 1` cells are sent. -/
def stripAndSend (string : Buffer) (len : ℕ) : Except MemoryFault SendOutcome :=
  if len = 0 then .error .outOfBounds
  else
    let string := if string[len - 1]? = some '\n' then string.set (len - 1) NUL else string
    .ok (mqSend (string.take (len + 1)))

/-- `send_emergency_request_message` on its buffer. -/
def sendEmergencyRequestMessageInBuffer (string : Buffer) : Except MemoryFault SendOutcome := do
  let s ← readString string
  match sscanf REQUEST_DELAY_SYNTAX
      (extractLastToken s EMERGENCY_REQUESTS_ARGUMENT_SEPARATOR_CHAR) with
  | [.int delay] =>
      if MAX_REQUEST_DELAY_SECONDS < delay then return .ignored
      else stripAndSend string s.length
  | _ => return .ignored

/-- What the client is given: the four arguments of the direct mode, or a line of a file
with its newline. -/
inductive ClientInput
  | arguments (name x y delay : Message)
  | fileLine (line : List Char)

namespace ClientInput

/-- The text of the request. -/
def text : ClientInput → List Char
  | arguments name x y delay => composeRequest name.1 x.1 y.1 delay.1
  | fileLine line => line

/-- `handle_normal_mode_input`, and what `handle_file_mode_input` does with a line. -/
def send (string : ClientBuffer) : ClientInput → Except MemoryFault SendOutcome
  | arguments name x y delay => do
      if MAX_EMERGENCY_REQUEST_LENGTH <
          name.1.length + x.1.length + y.1.length + delay.1.length + 3 then return .closed
      let composed := composeRequest name.1 x.1 y.1 delay.1
      if MAX_EMERGENCY_REQUEST_LENGTH + 1 ≤ composed.length then return .closed
      let string ← storeString string.1 composed
      sendEmergencyRequestMessageInBuffer string
  | fileLine line => do
      let buf ← strncpy (line ++ [NUL]) (MAX_EMERGENCY_REQUEST_LENGTH + 1)
      sendEmergencyRequestMessageInBuffer (buf.set MAX_EMERGENCY_REQUEST_LENGTH NUL)

end ClientInput

/-! ## The receiver -/

/-- `mq_receive` and the terminator that `thread_reciever` sets. -/
def receiveMessage (buffer : ReceiverBuffer) (bytes : List Char) : Buffer :=
  let received := bytes ++ buffer.1.drop bytes.length
  if MAX_EMERGENCY_QUEUE_MESSAGE_LENGTH ≤ bytes.length then
    received.set (MAX_EMERGENCY_QUEUE_MESSAGE_LENGTH - 1) NUL
  else received.set bytes.length NUL

/-- The string that `thread_reciever` hands to `parse_emergency_request`; `none` for the
message that stops it. -/
def handedToParser (buffer : ReceiverBuffer) (bytes : List Char) :
    Except MemoryFault (Option CString) := do
  let s ← readString (receiveMessage buffer bytes)
  return if s = MQ_STOP_MESSAGE then none else some s

/-! ## One request -/

/-- The text without its final newline. -/
def withoutNewline (text : List Char) : List Char :=
  if text.getLast? = some '\n' then text.dropLast else text

/-- The delay is readable and within the limit. -/
def DelayAccepted (s : CString) : Prop :=
  ∃ delay, sscanf REQUEST_DELAY_SYNTAX
      (extractLastToken s EMERGENCY_REQUESTS_ARGUMENT_SEPARATOR_CHAR) = [.int delay] ∧
    delay ≤ MAX_REQUEST_DELAY_SECONDS

theorem sendEmergencyRequestMessage_accepted {s : CString} (h : DelayAccepted s) :
    sendEmergencyRequestMessage s = some (withoutNewline s) := by
  obtain ⟨delay, hscan, hdelay⟩ := h
  rw [sendEmergencyRequestMessage, hscan]
  dsimp only
  rw [if_neg (not_lt.mpr hdelay), withoutNewline]

theorem not_delayAccepted_nil : ¬DelayAccepted [] := by
  rintro ⟨delay, hscan, -⟩
  have hnone : sscanf REQUEST_DELAY_SYNTAX
      (extractLastToken [] EMERGENCY_REQUESTS_ARGUMENT_SEPARATOR_CHAR) = [] := by decide
  rw [hnone] at hscan
  cases hscan

theorem withoutNewline_ne_stop {s : CString} (h : DelayAccepted s) :
    withoutNewline s ≠ MQ_STOP_MESSAGE := by
  intro hstop
  obtain ⟨delay, hscan, -⟩ := h
  have hs : s = MQ_STOP_MESSAGE ∨ s = MQ_STOP_MESSAGE ++ ['\n'] := by
    rw [withoutNewline] at hstop
    split at hstop
    · rename_i hlast
      right
      rw [← hstop, List.dropLast_append_getLast? _ hlast]
    · exact .inl hstop
  have hnone : ∀ stop ∈ [MQ_STOP_MESSAGE, MQ_STOP_MESSAGE ++ ['\n']],
      sscanf REQUEST_DELAY_SYNTAX
        (extractLastToken stop EMERGENCY_REQUESTS_ARGUMENT_SEPARATOR_CHAR) = [] := by
    decide
  rw [hnone s (by simpa using hs)] at hscan
  cases hscan

/-- The cells up to the old terminator hold the text without its newline. -/
theorem stripAndSend_holds {string : Buffer} {t : List Char} {c : Char}
    (h : Holds string (t ++ [c])) :
    ∃ bytes, stripAndSend string (t ++ [c]).length = .ok (mqSend bytes) ∧
      bytes.length = (t ++ [c]).length + 1 ∧ Holds bytes (withoutNewline (t ++ [c])) := by
  have hlast : (t ++ [c]).length - 1 = t.length := by simp
  have hcell : string[t.length]? = some c := by
    obtain ⟨-, rest, rfl⟩ := h
    simp
  have hlength := h.length_lt
  have hwithout : withoutNewline (t ++ [c]) = if c = '\n' then t else t ++ [c] := by
    rw [withoutNewline, List.getLast?_concat, List.dropLast_concat]
    simp
  rw [stripAndSend, if_neg (by simp), hlast, hcell, hwithout]
  by_cases hc : c = '\n'
  · rw [if_pos (by rw [hc]), if_pos hc]
    have hcut : t.length < (t ++ [c]).length + 1 := by
      rw [List.length_append, List.length_singleton]
      omega
    refine ⟨_, rfl, ?_, h.cut.take hcut⟩
    rw [List.length_take, List.length_set]
    omega
  · rw [if_neg (by simpa using hc), if_neg hc]
    refine ⟨_, rfl, ?_, h.take (by omega)⟩
    rw [List.length_take]
    omega

/-- A request whose delay is accepted is sent, if the queue takes it with its terminator. -/
theorem sendEmergencyRequestMessageInBuffer_accepted {string : Buffer} {s : CString}
    (hholds : Holds string s) (h : DelayAccepted s) :
    ∃ bytes, sendEmergencyRequestMessageInBuffer string = .ok (mqSend bytes) ∧
      bytes.length = s.length + 1 ∧ Holds bytes (withoutNewline s) := by
  obtain ⟨t, c, rfl⟩ : ∃ t c, s = t ++ [c] :=
    (List.eq_nil_or_concat' s).resolve_left fun hnil => not_delayAccepted_nil (hnil ▸ h)
  obtain ⟨bytes, hsend, hlength, hbytes⟩ := stripAndSend_holds hholds
  obtain ⟨delay, hscan, hdelay⟩ := h
  refine ⟨bytes, ?_, hlength, hbytes⟩
  unfold sendEmergencyRequestMessageInBuffer
  rw [hholds.readString]
  simp only [bind, Except.bind, hscan, if_neg (not_lt.mpr hdelay), hsend]

/-- A request whose delay is not accepted is not sent. -/
theorem sendEmergencyRequestMessageInBuffer_ignored {string : Buffer} {s : CString}
    (hholds : Holds string s) (h : ¬DelayAccepted s) :
    sendEmergencyRequestMessageInBuffer string = .ok .ignored ∧
      sendEmergencyRequestMessage s = none := by
  unfold sendEmergencyRequestMessageInBuffer sendEmergencyRequestMessage
  rw [hholds.readString]
  simp only [bind, Except.bind]
  unfold DelayAccepted at h
  generalize sscanf REQUEST_DELAY_SYNTAX
    (extractLastToken s EMERGENCY_REQUESTS_ARGUMENT_SEPARATOR_CHAR) = items at h ⊢
  rcases items with _ | ⟨delay | _, _ | _⟩
  all_goals try exact ⟨rfl, rfl⟩
  -- one number, which is over the limit
  have hdelay : MAX_REQUEST_DELAY_SECONDS < delay := by
    by_contra hle
    exact h ⟨delay, rfl, not_lt.mp hle⟩
  constructor
  · exact if_pos hdelay
  · exact if_pos hdelay

theorem length_composeRequest (name x y delay : CString) :
    (composeRequest name x y delay).length =
      name.length + x.length + y.length + delay.length + 3 := by
  simp only [composeRequest, List.length_append, List.length_cons]
  omega

theorem nul_notMem_composeRequest (name x y delay : Message) :
    NUL ∉ composeRequest name.1 x.1 y.1 delay.1 := by
  have hblank : NUL ≠ ' ' := by decide
  simp [composeRequest, name.2, x.2, y.2, delay.2, hblank]

/-- A line is copied into the buffer up to its first terminator. -/
theorem ClientInput.send_fileLine (buf : ClientBuffer) {line : List Char}
    (hlength : line.length ≤ MAX_EMERGENCY_REQUEST_LENGTH) :
    ∃ string, Holds string (str line) ∧
      (ClientInput.fileLine line).send buf = sendEmergencyRequestMessageInBuffer string := by
  have hline : Holds (line ++ [NUL]) (str line) := by
    rw [← str_append_nul]
    exact holds_str (by simp)
  have hshort := (length_str_le line).trans hlength
  obtain ⟨copy, hcopy, -, hholds⟩ := hline.strncpy (Nat.lt_succ_of_le hshort)
  refine ⟨_, hholds.set_nul hshort, ?_⟩
  simp only [ClientInput.send]
  rw [hcopy]
  rfl

/-- A request that is short enough is sent, if its delay is accepted and the queue takes it:
the string is what stands before the first terminator. -/
theorem ClientInput.send_accepted (input : ClientInput) (string : ClientBuffer)
    (hlength : input.text.length ≤ MAX_EMERGENCY_REQUEST_LENGTH)
    (h : DelayAccepted (str input.text)) :
    ∃ bytes, input.send string = .ok (mqSend bytes) ∧
      bytes.length = (str input.text).length + 1 ∧
      Holds bytes (withoutNewline (str input.text)) := by
  cases input with
  | arguments name x y delay =>
      have hnul := nul_notMem_composeRequest name x y delay
      have hshort := length_composeRequest name.1 x.1 y.1 delay.1
      simp only [ClientInput.text] at hlength h ⊢
      rw [str_of_notMem hnul] at h ⊢
      rcases storeString_cases string.1 hnul with ⟨-, buffer, hstore, -, hholds⟩ | ⟨hle, -⟩
      · obtain ⟨bytes, hsend, hbytes⟩ := sendEmergencyRequestMessageInBuffer_accepted hholds h
        refine ⟨bytes, ?_, hbytes⟩
        simp only [ClientInput.send]
        rw [if_neg (by omega), if_neg (by omega), hstore]
        exact hsend
      · rw [string.2] at hle
        omega
  | fileLine line =>
      simp only [ClientInput.text] at hlength h ⊢
      obtain ⟨buf, hholds, hcopied⟩ := ClientInput.send_fileLine string hlength
      obtain ⟨bytes, hsend, hbytes⟩ := sendEmergencyRequestMessageInBuffer_accepted hholds h
      exact ⟨bytes, hcopied.trans hsend, hbytes⟩

/-- The receiver hands over what the bytes it gets hold. -/
theorem handedToParser_holds (buffer : ReceiverBuffer) {bytes : List Char} {s : CString}
    (hholds : Holds bytes s) (hbytes : bytes.length ≤ MAX_EMERGENCY_QUEUE_MESSAGE_LENGTH)
    (hstop : s ≠ MQ_STOP_MESSAGE) : handedToParser buffer bytes = .ok (some s) := by
  have hlength := hholds.length_lt
  have hreceived : Holds (receiveMessage buffer bytes) s := by
    unfold receiveMessage
    split
    · exact (hholds.append _).set_nul (by omega)
    · exact (hholds.append _).set_nul hlength.le
  rw [handedToParser, hreceived.readString]
  show Except.ok (if s = MQ_STOP_MESSAGE then none else some s) = _
  rw [if_neg hstop]

/-! ## Transport -/

/-- The client lets the request through: it is not too long, and its delay is accepted. -/
def ClientInput.LetThrough : ClientInput → Prop
  | arguments name x y delay =>
      name.1.length + x.1.length + y.1.length + delay.1.length + 3 ≤
          MAX_EMERGENCY_REQUEST_LENGTH ∧
        DelayAccepted (composeRequest name.1 x.1 y.1 delay.1)
  | fileLine line => DelayAccepted (str line)

/-- The bytes fit a message of the queue, and the parser gets the text without its final
newline. -/
def Transported (input : ClientInput) (string : ClientBuffer) (buffer : ReceiverBuffer) : Prop :=
  ∃ bytes, input.send string = .ok (.sent bytes) ∧
    bytes.length ≤ MAX_EMERGENCY_QUEUE_MESSAGE_LENGTH ∧
    handedToParser buffer bytes = .ok (some (withoutNewline input.text))

theorem ClientInput.LetThrough.delayAccepted {input : ClientInput} (h : input.LetThrough) :
    DelayAccepted (str input.text) := by
  cases input with
  | arguments name x y delay =>
      rw [ClientInput.text, str_of_notMem (nul_notMem_composeRequest name x y delay)]
      exact h.2
  | fileLine line => exact h

theorem nul_mem_withoutNewline {text : List Char} (h : NUL ∈ text) :
    NUL ∈ withoutNewline text := by
  rw [withoutNewline]
  split
  · rename_i hlast
    rw [← List.dropLast_append_getLast? _ hlast] at h
    rcases List.mem_append.mp h with hmem | hmem
    · exact hmem
    · exact absurd (List.mem_singleton.mp hmem) (by decide)
  · exact h

/-- **A request is transported exactly when it leaves room for its terminator** in a message
of the queue, and has no terminator inside. -/
theorem request_transported_iff {input : ClientInput} (string : ClientBuffer)
    (buffer : ReceiverBuffer) (hlength : input.text.length ≤ MAX_EMERGENCY_REQUEST_LENGTH)
    (hthrough : input.LetThrough) :
    Transported input string buffer ↔
      input.text.length < MAX_EMERGENCY_QUEUE_MESSAGE_LENGTH ∧ NUL ∉ input.text := by
  obtain ⟨bytes, hsend, hbytes, hholds⟩ :=
    input.send_accepted string hlength hthrough.delayAccepted
  constructor
  · rintro ⟨sent, hsent, hfits, hhanded⟩
    have hmq : mqSend bytes = .sent sent := by simpa [hsend] using hsent
    have hfit : bytes.length ≤ MAX_EMERGENCY_QUEUE_MESSAGE_LENGTH := by
      by_contra hlong
      rw [mqSend, if_pos (not_le.mp hlong)] at hmq
      cases hmq
    rw [mqSend, if_neg (not_lt.mpr hfit)] at hmq
    obtain rfl : bytes = sent := by simpa using hmq
    rw [handedToParser_holds buffer hholds hfit (withoutNewline_ne_stop hthrough.delayAccepted)]
      at hhanded
    have hsame : withoutNewline (str input.text) = withoutNewline input.text := by
      simpa using hhanded
    have hnul : NUL ∉ input.text := by
      intro hmem
      have hwithout := nul_mem_withoutNewline hmem
      rw [← hsame] at hwithout
      exact hholds.1 hwithout
    rw [str_of_notMem hnul] at hbytes
    exact ⟨by omega, hnul⟩
  · rintro ⟨hshort, hnul⟩
    have hstop := withoutNewline_ne_stop hthrough.delayAccepted
    rw [str_of_notMem hnul] at hbytes hholds hstop
    have hfits : bytes.length ≤ MAX_EMERGENCY_QUEUE_MESSAGE_LENGTH := by omega
    refine ⟨bytes, ?_, hfits, handedToParser_holds buffer hholds hfits hstop⟩
    rw [hsend, mqSend, if_neg (not_lt.mpr hfits)]

/-! ## A file of requests -/

def MAX_CLIENT_INPUT_FILE_LINES : ℕ := 128

def MAX_EMERGENCY_REQUEST_COUNT : ℕ := 256

/-- The loop of `handle_file_mode_input`: the messages it sends for these lines, and whether
it comes to the end of the file. -/
def handleFileModeInput (buf : ClientBuffer) :
    ℕ → ℕ → List (List Char) → Except MemoryFault (List (List Char) × Bool)
  | _, _, [] => .ok ([], true)
  | lineCount, emergencyCount, line :: lines =>
      if MAX_CLIENT_INPUT_FILE_LINES < lineCount + 1 then .ok ([], false)
      else if MAX_EMERGENCY_REQUEST_COUNT < emergencyCount then .ok ([], false)
      else do
        match ← (ClientInput.fileLine line).send buf with
        | .ignored => handleFileModeInput buf (lineCount + 1) (emergencyCount + 1) lines
        | .sent bytes =>
            let (messages, finished) ←
              handleFileModeInput buf (lineCount + 1) (emergencyCount + 1) lines
            return (bytes :: messages, finished)
        | _ => return ([], false)

/-- The bytes fit the queue, and the parser gets this string from them. -/
def Carries (bytes : List Char) (s : CString) : Prop :=
  bytes.length ≤ MAX_EMERGENCY_QUEUE_MESSAGE_LENGTH ∧
    ∀ buffer, handedToParser buffer bytes = .ok (some s)

/-- A line does what `sendEmergencyRequestMessage` says, if it leaves room for its
terminator. -/
theorem send_fileLine_cases (buf : ClientBuffer) {line : List Char}
    (hlength : line.length < MAX_EMERGENCY_QUEUE_MESSAGE_LENGTH) (hnul : NUL ∉ line) :
    (sendEmergencyRequestMessage line = none ∧
        (ClientInput.fileLine line).send buf = .ok .ignored) ∨
      ∃ s bytes, sendEmergencyRequestMessage line = some s ∧
        (ClientInput.fileLine line).send buf = .ok (.sent bytes) ∧ Carries bytes s := by
  by_cases haccepted : DelayAccepted line
  · have hstr := str_of_notMem hnul
    have hthrough : DelayAccepted (str (ClientInput.fileLine line).text) := by
      rw [ClientInput.text, hstr]
      exact haccepted
    obtain ⟨bytes, hsend, hbytes, hholds⟩ :=
      (ClientInput.fileLine line).send_accepted buf hlength.le hthrough
    rw [ClientInput.text, hstr] at hbytes hholds
    have hfits : bytes.length ≤ MAX_EMERGENCY_QUEUE_MESSAGE_LENGTH := by omega
    refine .inr ⟨_, bytes, sendEmergencyRequestMessage_accepted haccepted, ?_, hfits,
      fun buffer => handedToParser_holds buffer hholds hfits (withoutNewline_ne_stop haccepted)⟩
    rw [hsend, mqSend, if_neg (not_lt.mpr hfits)]
  · obtain ⟨string, hholds, hsend⟩ := ClientInput.send_fileLine buf hlength.le
    rw [str_of_notMem hnul] at hholds
    obtain ⟨hignored, hnone⟩ := sendEmergencyRequestMessageInBuffer_ignored hholds haccepted
    exact .inl ⟨hnone, hsend.trans hignored⟩

/-- Short lines go to the parser one after the other, and the client comes to the end of its
file. -/
theorem handleFileModeInput_carries (buf : ClientBuffer) {lines : List (List Char)}
    {lineCount emergencyCount : ℕ}
    (hlines : lineCount + lines.length ≤ MAX_CLIENT_INPUT_FILE_LINES)
    (hcount : emergencyCount ≤ lineCount)
    (hshort : ∀ line ∈ lines,
      line.length < MAX_EMERGENCY_QUEUE_MESSAGE_LENGTH ∧ NUL ∉ line) :
    ∃ messages, handleFileModeInput buf lineCount emergencyCount lines = .ok (messages, true) ∧
      List.Forall₂ Carries messages (lines.filterMap sendEmergencyRequestMessage) := by
  have hlimit : MAX_CLIENT_INPUT_FILE_LINES ≤ MAX_EMERGENCY_REQUEST_COUNT := by decide
  induction lines generalizing lineCount emergencyCount with
  | nil => exact ⟨[], rfl, .nil⟩
  | cons line lines ih =>
      rw [List.length_cons] at hlines
      obtain ⟨hlength, hnul⟩ := hshort line List.mem_cons_self
      obtain ⟨messages, hrun, hcarries⟩ : ∃ messages,
          handleFileModeInput buf (lineCount + 1) (emergencyCount + 1) lines =
            .ok (messages, true) ∧
          List.Forall₂ Carries messages (lines.filterMap sendEmergencyRequestMessage) :=
        ih (by omega) (by omega) fun other hother => hshort other (List.mem_cons_of_mem _ hother)
      rw [handleFileModeInput, if_neg (by omega), if_neg (by omega)]
      rcases send_fileLine_cases buf hlength hnul with ⟨hnone, hsend⟩ |
        ⟨s, bytes, hsome, hsend, hcarried⟩
      · refine ⟨messages, ?_, ?_⟩
        · rw [hsend]
          exact hrun
        · rw [List.filterMap_cons_none hnone]
          exact hcarries
      · refine ⟨bytes :: messages, ?_, ?_⟩
        · rw [hsend]
          show (handleFileModeInput buf (lineCount + 1) (emergencyCount + 1) lines).bind _ = _
          rw [hrun]
          rfl
        · rw [List.filterMap_cons_some hsome]
          exact .cons hcarried hcarries

/-- A client and a receiver at their start. -/
def clearedClient : ClientBuffer :=
  ⟨List.replicate (MAX_EMERGENCY_REQUEST_LENGTH + 1) NUL, List.length_replicate⟩

def clearedReceiver : ReceiverBuffer :=
  ⟨List.replicate MAX_EMERGENCY_QUEUE_MESSAGE_LENGTH NUL, List.length_replicate⟩

/-- A line of a file with its newline. -/
def fireLine : ClientInput := .fileLine "Fire 1 2 0\n".toList

theorem request_transported_fire :
    fireLine.text.length ≤ MAX_EMERGENCY_REQUEST_LENGTH ∧ fireLine.LetThrough ∧
      Transported fireLine clearedClient clearedReceiver := by
  have hlength : fireLine.text.length ≤ MAX_EMERGENCY_REQUEST_LENGTH := by decide
  have hthrough : fireLine.LetThrough := ⟨0, by decide, by decide⟩
  exact ⟨hlength, hthrough,
    (request_transported_iff clearedClient clearedReceiver hlength hthrough).mpr (by decide)⟩

/-- A line of `MAX_EMERGENCY_REQUEST_LENGTH` characters, with a legal delay. -/
def longestLine : ClientInput :=
  .fileLine (List.replicate 505 'a' ++ " 1 1 0\n".toList)

/-- A request of the greatest length is let through, and kills the client. -/
theorem longest_request_kills_client :
    longestLine.text.length = MAX_EMERGENCY_REQUEST_LENGTH ∧ longestLine.LetThrough ∧
      longestLine.send clearedClient = .ok .killed ∧
      ¬Transported longestLine clearedClient clearedReceiver := by
  obtain ⟨hlength, hscan, hstr⟩ : longestLine.text.length = MAX_EMERGENCY_REQUEST_LENGTH ∧
      sscanf REQUEST_DELAY_SYNTAX (extractLastToken (str longestLine.text)
        EMERGENCY_REQUESTS_ARGUMENT_SEPARATOR_CHAR) = [.int 0] ∧
      (str longestLine.text).length = MAX_EMERGENCY_REQUEST_LENGTH := by
    decide +kernel
  have haccepted : DelayAccepted (str longestLine.text) := ⟨0, hscan, by decide⟩
  obtain ⟨bytes, hsend, hbytes, -⟩ :=
    longestLine.send_accepted clearedClient hlength.le haccepted
  have hkilled : longestLine.send clearedClient = .ok .killed := by
    rw [hsend, mqSend, if_pos]
    rw [hbytes, hstr]
    decide
  refine ⟨hlength, haccepted, hkilled, ?_⟩
  rintro ⟨sent, hsent, -⟩
  rw [hkilled] at hsent
  cases hsent

end EmergencyDispatch
