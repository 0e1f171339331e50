import EmergencyDispatch.Parsers.EmergencyRequest

/-!
# Reading a configuration file (`parsing_utils.c`)

A file is the list of its characters.  `getline` returns its lines one by one,
each with its newline; the C string in the buffer ends at the first `'\0'`, and
at the end of the file the buffer keeps the line it has.  Every loop over
`go_to_next_line` is a recursion over the lines that are still unread.
-/

namespace EmergencyDispatch

open Scanf

/-- The lines that `getline` returns. -/
def fileLines : List Char → List (List Char)
  | [] => []
  | c :: rest =>
      if c = '\n' then [c] :: fileLines rest
      else
        match fileLines rest with
        | [] => [[c]]
        | line :: lines => (c :: line) :: lines

/-- The C string that starts at the beginning of a buffer. -/
def toCString (buffer : List Char) : CString := buffer.takeWhile fun c => c != '\x00'

/-- The lines of a file as the parsers see them. -/
def unreadLines (file : List Char) : List CString := (fileLines file).map toCString

/-- `parsing_state_t` without the file and its name. -/
structure ParsingState where
  line : CString
  lineNumber : ℕ
  parsedSoFar : ℕ
  shouldContinueParsing : Bool
  deriving DecidableEq

/-- `mallocate_parsing_state`; `buffer` is the indeterminate content of the line
buffer before the first line is read. -/
def mallocateParsingState (buffer : CString) : ParsingState := ⟨buffer, 0, 0, true⟩

/-- `go_to_next_line` when there is a line. -/
def goToNextLine (ps : ParsingState) (line : CString) : ParsingState :=
  { ps with line := line, lineNumber := ps.lineNumber + 1 }

def COMMENT_CHAR : Char := '#'

/-- `line_is_comment`. -/
def lineIsComment (line : CString) : Bool :=
  (line.dropWhile fun c => c == ' ' || c == '\t').head? == some COMMENT_CHAR

/-- `is_line_empty`. -/
def isLineEmpty (line : CString) : Bool := line.all isSpace

/-- `check_if_line_can_be_processed_logging`: the state it leaves and its answer. -/
def checkIfLineCanBeProcessed (ps : ParsingState)
    (maxLines maxParsableLines maxLineLength : ℕ) : ParsingState × Bool :=
  if maxLines < ps.lineNumber then ({ ps with shouldContinueParsing := false }, false)
  else if maxParsableLines < ps.parsedSoFar then ({ ps with shouldContinueParsing := false }, false)
  else if maxLineLength < ps.line.length then ({ ps with shouldContinueParsing := false }, false)
  else if lineIsComment ps.line then (ps, false)
  else if isLineEmpty ps.line then (ps, false)
  else (ps, true)

/-- The line is neither a comment nor blank. -/
def lineIsProcessable (line : CString) : Bool := !lineIsComment line && !isLineEmpty line

/-- The lines that the loop of a parser does not skip. -/
def processableLines (lines : List CString) : List CString := lines.filter lineIsProcessable

/-- The line that was read last is within these limits. -/
def lineIsWithin (ps : ParsingState) (maxLines maxParsableLines maxLineLength : ℕ) : Bool :=
  decide (ps.lineNumber ≤ maxLines) && decide (ps.parsedSoFar ≤ maxParsableLines) &&
    decide (ps.line.length ≤ maxLineLength)

/-- A line outside the limits is not processed, and ends the parsing. -/
theorem checkIfLineCanBeProcessed_eq (ps : ParsingState)
    (maxLines maxParsableLines maxLineLength : ℕ) :
    checkIfLineCanBeProcessed ps maxLines maxParsableLines maxLineLength =
      let within := lineIsWithin ps maxLines maxParsableLines maxLineLength
      ({ ps with shouldContinueParsing := ps.shouldContinueParsing && within },
        within && lineIsProcessable ps.line) := by
  unfold checkIfLineCanBeProcessed lineIsWithin lineIsProcessable
  by_cases hlines : maxLines < ps.lineNumber
  · rw [if_pos hlines, decide_eq_false (Nat.not_le_of_lt hlines)]
    simp
  rw [if_neg hlines, decide_eq_true (Nat.le_of_not_lt hlines)]
  by_cases hparsed : maxParsableLines < ps.parsedSoFar
  · rw [if_pos hparsed, decide_eq_false (Nat.not_le_of_lt hparsed)]
    simp
  rw [if_neg hparsed, decide_eq_true (Nat.le_of_not_lt hparsed)]
  by_cases hlength : maxLineLength < ps.line.length
  · rw [if_pos hlength, decide_eq_false (Nat.not_le_of_lt hlength)]
    simp
  rw [if_neg hlength, decide_eq_true (Nat.le_of_not_lt hlength)]
  cases lineIsComment ps.line <;> cases isLineEmpty ps.line <;> simp

/-- A line within the limits is processed unless it is skipped; another one ends the parsing. -/
theorem checkIfLineCanBeProcessed_cases (ps : ParsingState)
    (maxLines maxParsableLines maxLineLength : ℕ) :
    (ps.parsedSoFar ≤ maxParsableLines ∧ ps.line.length ≤ maxLineLength ∧
        checkIfLineCanBeProcessed ps maxLines maxParsableLines maxLineLength =
          (ps, lineIsProcessable ps.line)) ∨
      checkIfLineCanBeProcessed ps maxLines maxParsableLines maxLineLength =
        ({ ps with shouldContinueParsing := false }, false) := by
  rw [checkIfLineCanBeProcessed_eq]
  cases hwithin : lineIsWithin ps maxLines maxParsableLines maxLineLength with
  | false => exact .inr (by simp)
  | true =>
      simp only [lineIsWithin, Bool.and_eq_true, decide_eq_true_eq] at hwithin
      exact .inl ⟨hwithin.1.2, hwithin.2, by simp⟩

/-- `skip_and_log_empty_or_illegal_lines`: the state it leaves, the lines that are
still unread and its answer. -/
def skipEmptyOrIllegalLines (maxLines maxParsableLines maxLineLength : ℕ) :
    List CString → ParsingState → ParsingState × List CString × Bool
  | [], ps => (ps, [], false)
  | line :: unread, ps =>
      let (ps, processable) :=
        checkIfLineCanBeProcessed (goToNextLine ps line) maxLines maxParsableLines maxLineLength
      if processable then (ps, unread, true)
      else skipEmptyOrIllegalLines maxLines maxParsableLines maxLineLength unread ps

end EmergencyDispatch
