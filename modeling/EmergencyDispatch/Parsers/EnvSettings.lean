import EmergencyDispatch.Parsers.QueueNames

/-!
# Which environments are accepted

`parse_env` goes through its file three times: each time it skips to the next
line that can be processed and scans a setting.  Whether there was such a line
and whether it scanned is not looked at, and the counter that is checked at the
end is incremented in any case.  So the three settings are read from the first
three candidates, and from the last line of the file when there are fewer; a
setting that is not there has its default, and only illegal values are refused.
-/

namespace EmergencyDispatch

open Scanf

/-- Line `number` of the file is not skipped by `parse_env`. -/
def envLineFits (number : ℕ) (line : CString) : Bool :=
  decide (number ≤ MAX_ENV_CONF_LINES) && decide (line.length ≤ MAX_ENV_CONF_LINE_LENGTH) &&
    lineIsProcessable line

/-- The candidates among the lines after line `number`: neither blank nor comments, and
within the limits. -/
def candidatesFrom : ℕ → List CString → List CString
  | _, [] => []
  | number, line :: lines =>
      if envLineFits (number + 1) line then line :: candidatesFrom (number + 1) lines
      else candidatesFrom (number + 1) lines

/-- The candidates of a file. -/
def envCandidates (file : List Char) : List CString := candidatesFrom 0 (unreadLines file)

/-- The line from which the setting of index `k` is read: a candidate, or what is left in
the line buffer at the end of the file. -/
def settingLine (buffer : CString) (file : List Char) (k : ℕ) : CString :=
  ((envCandidates file)[k]?).getD ((unreadLines file).getLast?.getD buffer)

/-! ## Skipping to the next candidate -/

/-- What is still to be read: these candidates, and this line at the end. -/
structure StillToRead (candidates : List CString) (last : CString) (ps : ParsingState)
    (unread : List CString) : Prop where
  candidates : candidatesFrom ps.lineNumber unread = candidates
  last : unread.getLast?.getD ps.line = last
  parsed : ps.parsedSoFar ≤ ENV_CONF_VALID_LINES_COUNT

section reading

variable {candidates unread : List CString} {last line : CString} {ps : ParsingState}

/-- The check lets through exactly the lines that fit, and changes nothing that is read
again. -/
theorem checkIfLineCanBeProcessed_env (hparsed : ps.parsedSoFar ≤ ENV_CONF_VALID_LINES_COUNT) :
    ∃ continues, checkIfLineCanBeProcessed ps MAX_ENV_CONF_LINES ENV_CONF_VALID_LINES_COUNT
      MAX_ENV_CONF_LINE_LENGTH =
        ({ ps with shouldContinueParsing := continues }, envLineFits ps.lineNumber ps.line) := by
  rw [checkIfLineCanBeProcessed_eq]
  simp only [lineIsWithin, decide_eq_true hparsed, Bool.and_true]
  exact ⟨_, rfl⟩

/-- The loop stops at the next candidate, or with the last line in the buffer. -/
theorem StillToRead.skip (h : StillToRead candidates last ps unread) :
    let result := skipEmptyOrIllegalLines MAX_ENV_CONF_LINES ENV_CONF_VALID_LINES_COUNT
      MAX_ENV_CONF_LINE_LENGTH unread ps
    StillToRead candidates.tail last result.1 result.2.1 ∧
      result.1.line = candidates.head?.getD last ∧
      result.1.parsedSoFar = ps.parsedSoFar := by
  induction unread generalizing ps with
  | nil =>
      obtain ⟨hcandidates, hlast, hparsed⟩ := h
      obtain rfl : candidates = [] := hcandidates.symm
      exact ⟨⟨rfl, hlast, hparsed⟩, hlast, rfl⟩
  | cons line unread ih =>
      obtain ⟨hcandidates, hlast, hparsed⟩ := h
      have hnext : (goToNextLine ps line).parsedSoFar ≤ ENV_CONF_VALID_LINES_COUNT := hparsed
      obtain ⟨continues, hcheck⟩ := checkIfLineCanBeProcessed_env hnext
      have hlastLine : unread.getLast?.getD line = last := by
        rw [← hlast, List.getLast?_cons]
        rfl
      simp only [skipEmptyOrIllegalLines, hcheck]
      rw [candidatesFrom] at hcandidates
      by_cases hfits : envLineFits (ps.lineNumber + 1) line = true
      · have hfound : envLineFits (goToNextLine ps line).lineNumber (goToNextLine ps line).line =
            true := hfits
        rw [if_pos hfits] at hcandidates
        rw [if_pos hfound, ← hcandidates]
        exact ⟨⟨rfl, hlastLine, hparsed⟩, rfl, rfl⟩
      · have hskipped : ¬envLineFits (goToNextLine ps line).lineNumber
            (goToNextLine ps line).line = true := hfits
        rw [if_neg hfits] at hcandidates
        rw [if_neg hskipped]
        exact ih ⟨hcandidates, hlastLine, hparsed⟩

/-- One setting is read from the next candidate, and counted whatever becomes of it. -/
theorem StillToRead.extract (h : StillToRead candidates last ps unread)
    (hparsed : ps.parsedSoFar < ENV_CONF_VALID_LINES_COUNT) (format : List Directive) :
    let result := checkAndExtractEnvLineField ps unread format
    StillToRead candidates.tail last result.1 result.2.1 ∧
      result.1.parsedSoFar = ps.parsedSoFar + 1 ∧
      result.2.2 = sscanf format (candidates.head?.getD last) := by
  obtain ⟨⟨hcandidates, hlast, -⟩, hline, hsame⟩ := h.skip
  simp only [checkAndExtractEnvLineField]
  refine ⟨⟨hcandidates, hlast, ?_⟩, ?_, ?_⟩
  · rw [hsame]
    exact hparsed
  · rw [hsame]
  · rw [hline]

end reading

/-- The environment that the three lines give. -/
def scannedEnvironment (buffer : CString) (file : List Char) : Environment where
  queueName := cleanupQueueName (storedString []
    (sscanf ENV_CONF_QUEUE_SYNTAX (settingLine buffer file 0)))
  height := storedInt 0 (sscanf ENV_CONF_HEIGHT_SYNTAX (settingLine buffer file 1))
  width := storedInt 0 (sscanf ENV_CONF_WIDTH_SYNTAX (settingLine buffer file 2))

theorem stillToRead_start (buffer : CString) (file : List Char) :
    StillToRead (envCandidates file) ((unreadLines file).getLast?.getD buffer)
      (mallocateParsingState buffer) (unreadLines file) :=
  ⟨rfl, rfl, Nat.zero_le _⟩

/-- Only illegal values are refused. -/
theorem parseEnv_eq (buffer : CString) (file : List Char) :
    parseEnv buffer file =
      if environmentValuesAreIllegal (scannedEnvironment buffer file) then none
      else some (scannedEnvironment buffer file) := by
  have hzero : (mallocateParsingState buffer).parsedSoFar = 0 := rfl
  obtain ⟨hqueue, hone, hqueueItems⟩ :=
    (stillToRead_start buffer file).extract (by rw [hzero]; decide) ENV_CONF_QUEUE_SYNTAX
  rw [hzero] at hone
  obtain ⟨hheight, htwo, hheightItems⟩ :=
    hqueue.extract (by rw [hone]; decide) ENV_CONF_HEIGHT_SYNTAX
  rw [hone] at htwo
  obtain ⟨-, hthree, hwidthItems⟩ :=
    hheight.extract (by rw [htwo]; decide) ENV_CONF_WIDTH_SYNTAX
  rw [htwo] at hthree
  have hfirst : (envCandidates file).head? = (envCandidates file)[0]? := List.head?_eq_getElem?
  have hsecond : (envCandidates file).tail.head? = (envCandidates file)[1]? := by
    rw [List.head?_eq_getElem?, List.getElem?_tail]
  have hthird : (envCandidates file).tail.tail.head? = (envCandidates file)[2]? := by
    rw [List.head?_eq_getElem?, List.getElem?_tail, List.getElem?_tail]
  rw [hfirst] at hqueueItems
  rw [hsecond] at hheightItems
  rw [hthird] at hwidthItems
  unfold parseEnv
  simp only [hqueueItems, hheightItems, hwidthItems, hthree]
  rfl

/-! ## What a line can give -/

theorem sscanf_setting (keyword : String) (format : List Directive) (line : CString) :
    sscanf (envConfKeyword keyword ++ format) line = [] ∨
      ∃ rest, sscanf (envConfKeyword keyword ++ format) line = sscanf format rest := by
  rw [envConfKeyword, List.append_assoc]
  rcases sscanf_chars keyword.toList _ line with hnil | ⟨rest, hrest⟩
  · exact .inl hnil
  · rw [hrest]
    exact sscanf_skipSet _ format rest

theorem sscanf_queue (line : CString) :
    sscanf ENV_CONF_QUEUE_SYNTAX line = [] ∨
      ∃ name, sscanf ENV_CONF_QUEUE_SYNTAX line = [.str name] := by
  rcases sscanf_setting "queue" [.word MAX_EMERGENCY_QUEUE_NAME_LENGTH] line with
    hnil | ⟨rest, hrest⟩
  · exact .inl hnil
  · rw [ENV_CONF_QUEUE_SYNTAX, hrest]
    exact sscanf_word_last _ rest

theorem sscanf_side (keyword : String) (line : CString) :
    sscanf (envConfKeyword keyword ++ [.int]) line = [] ∨
      ∃ n, sscanf (envConfKeyword keyword ++ [.int]) line = [.int n] := by
  rcases sscanf_setting keyword [.int] line with hnil | ⟨rest, hrest⟩
  · exact .inl hnil
  · rw [hrest]
    exact sscanf_int_last rest

/-! ## Exactly the well-formed files -/

/-- What a call of `parse_env` ends with. -/
inductive ParseEnvOutcome
  /-- The queue name and its terminator do not fit the field. -/
  | overrun
  | returned (env : Option Environment)
  deriving DecidableEq

/-- `queue_name` has as many cells as the name may have characters. -/
def queueNameOverruns : List Item → Bool
  | [.str name] => MAX_EMERGENCY_QUEUE_NAME_LENGTH ≤ name.length
  | _ => false

/-- `parse_env` with the bound of its field. -/
def parseEnvInBuffers (buffer : CString) (file : List Char) : ParseEnvOutcome :=
  let (_, _, queue) := checkAndExtractEnvLineField (mallocateParsingState buffer)
    (unreadLines file) ENV_CONF_QUEUE_SYNTAX
  if queueNameOverruns queue then .overrun else .returned (parseEnv buffer file)

/-- The first three candidates of the file are the settings of this environment, in order
and with legal values. -/
structure WellFormedEnv (file : List Char) (env : Environment) : Prop where
  lines : ∃ queueLine heightLine widthLine others name,
    envCandidates file = queueLine :: heightLine :: widthLine :: others ∧
      sscanf ENV_CONF_QUEUE_SYNTAX queueLine = [.str name] ∧
      env.queueName = cleanupQueueName name ∧
      sscanf ENV_CONF_HEIGHT_SYNTAX heightLine = [.int env.height] ∧
      sscanf ENV_CONF_WIDTH_SYNTAX widthLine = [.int env.width]
  legal : environmentValuesAreIllegal env = false

/-- `parse_env` accepts exactly the well-formed files. -/
structure AcceptsExactly (buffer : CString) (file : List Char) : Prop where
  accepted : ∀ env, parseEnvInBuffers buffer file = .returned (some env) ↔ WellFormedEnv file env
  refused : (∀ env, ¬WellFormedEnv file env) → parseEnvInBuffers buffer file = .returned none

/-- The three lines that are scanned are there and scan, or one of them gives a value that
is refused. -/
structure SettledByLines (buffer : CString) (file : List Char) : Prop where
  fits : ∀ name, sscanf ENV_CONF_QUEUE_SYNTAX (settingLine buffer file 0) = [.str name] →
    name.length < MAX_EMERGENCY_QUEUE_NAME_LENGTH
  settled :
    (3 ≤ (envCandidates file).length ∧
        sscanf ENV_CONF_QUEUE_SYNTAX (settingLine buffer file 0) ≠ [] ∧
        sscanf ENV_CONF_HEIGHT_SYNTAX (settingLine buffer file 1) ≠ [] ∧
        sscanf ENV_CONF_WIDTH_SYNTAX (settingLine buffer file 2) ≠ []) ∨
      (∀ name, sscanf ENV_CONF_QUEUE_SYNTAX (settingLine buffer file 0) = [.str name] →
        name.length < 2) ∨
      (∃ height, sscanf ENV_CONF_HEIGHT_SYNTAX (settingLine buffer file 1) = [.int height] ∧
        MAX_Y_COORDINATE_ABSOLUTE_VALUE < wrappedABS height) ∨
      ∃ width, sscanf ENV_CONF_WIDTH_SYNTAX (settingLine buffer file 2) = [.int width] ∧
        MAX_X_COORDINATE_ABSOLUTE_VALUE < wrappedABS width

section acceptance

variable {buffer : CString} {file : List Char} {env : Environment}

theorem length_cleanupQueueName (name : CString) :
    (cleanupQueueName name).length = name.length := by
  cases name with
  | nil => rfl
  | cons first name =>
      by_cases hfirst : first = '/'
      · subst hfirst
        rw [cleanupQueueName_slash]
        simp
      · rw [cleanupQueueName_cons hfirst]
        simp

theorem WellFormedEnv.scanned (h : WellFormedEnv file env) :
    scannedEnvironment buffer file = env := by
  obtain ⟨⟨queueLine, heightLine, widthLine, others, name, hlines, hqueue, hname, hheight,
    hwidth⟩, -⟩ := h
  unfold scannedEnvironment settingLine
  rw [hlines]
  simp only [List.getElem?_cons_zero, List.getElem?_cons_succ, Option.getD_some, hqueue, hheight,
    hwidth, storedString, storedInt, ← hname]

theorem exists_three {α : Type*} {l : List α} (h : 3 ≤ l.length) :
    ∃ a b c others, l = a :: b :: c :: others := by
  match l, h with
  | a :: b :: c :: others, _ => exact ⟨a, b, c, others, rfl⟩

/-- What is scanned is well formed when there are three candidates and all of them scan. -/
theorem wellFormedEnv_scanned_iff
    (hlegal : environmentValuesAreIllegal (scannedEnvironment buffer file) = false) :
    WellFormedEnv file (scannedEnvironment buffer file) ↔
      3 ≤ (envCandidates file).length ∧
        sscanf ENV_CONF_QUEUE_SYNTAX (settingLine buffer file 0) ≠ [] ∧
        sscanf ENV_CONF_HEIGHT_SYNTAX (settingLine buffer file 1) ≠ [] ∧
        sscanf ENV_CONF_WIDTH_SYNTAX (settingLine buffer file 2) ≠ [] := by
  constructor
  · rintro ⟨⟨queueLine, heightLine, widthLine, others, name, hlines, hqueue, -, hheight,
      hwidth⟩, -⟩
    have hline : settingLine buffer file 0 = queueLine ∧ settingLine buffer file 1 = heightLine ∧
        settingLine buffer file 2 = widthLine := by
      unfold settingLine
      rw [hlines]
      exact ⟨rfl, rfl, rfl⟩
    rw [hline.1, hline.2.1, hline.2.2, hqueue, hheight, hwidth, hlines]
    simp
  · rintro ⟨hthree, hqueue, hheight, hwidth⟩
    obtain ⟨queueLine, heightLine, widthLine, others, hlines⟩ := exists_three hthree
    have hline : settingLine buffer file 0 = queueLine ∧ settingLine buffer file 1 = heightLine ∧
        settingLine buffer file 2 = widthLine := by
      unfold settingLine
      rw [hlines]
      exact ⟨rfl, rfl, rfl⟩
    rw [hline.1] at hqueue
    rw [hline.2.1] at hheight
    rw [hline.2.2] at hwidth
    obtain ⟨name, hname⟩ := (sscanf_queue queueLine).resolve_left hqueue
    obtain ⟨height, hscanHeight⟩ := (sscanf_side "height" heightLine).resolve_left hheight
    obtain ⟨width, hscanWidth⟩ := (sscanf_side "width" widthLine).resolve_left hwidth
    refine ⟨⟨queueLine, heightLine, widthLine, others, name, hlines, hname, ?_, ?_, ?_⟩, hlegal⟩
    · rw [scannedEnvironment, hline.1, hname]
      rfl
    · rw [scannedEnvironment, hline.2.1, ENV_CONF_HEIGHT_SYNTAX, hscanHeight]
      rfl
    · rw [scannedEnvironment, hline.2.2, ENV_CONF_WIDTH_SYNTAX, hscanWidth]
      rfl

/-- A side that is scanned is too long, or the default is legal. -/
theorem lt_wrappedABS_storedInt_iff {items : List Item}
    (hitems : items = [] ∨ ∃ n, items = [.int n])
    {bound : ℤ} (hbound : 0 ≤ bound) :
    bound < wrappedABS (storedInt 0 items) ↔ ∃ n, items = [.int n] ∧ bound < wrappedABS n := by
  rcases hitems with rfl | ⟨n, rfl⟩
  · have hzero : wrappedABS (storedInt 0 []) = 0 := wrappedABS_zero
    rw [hzero]
    exact iff_of_false (not_lt.mpr hbound) (by simp)
  · constructor
    · exact fun h => ⟨n, rfl, h⟩
    · rintro ⟨m, hm, h⟩
      obtain rfl : n = m := by simpa using hm
      exact h

/-- What is scanned is refused for a short name or for a long side. -/
theorem scannedEnvironment_illegal_iff
    (hfits : ∀ name, sscanf ENV_CONF_QUEUE_SYNTAX (settingLine buffer file 0) = [.str name] →
      name.length < MAX_EMERGENCY_QUEUE_NAME_LENGTH) :
    environmentValuesAreIllegal (scannedEnvironment buffer file) = true ↔
      (∀ name, sscanf ENV_CONF_QUEUE_SYNTAX (settingLine buffer file 0) = [.str name] →
        name.length < 2) ∨
      (∃ height, sscanf ENV_CONF_HEIGHT_SYNTAX (settingLine buffer file 1) = [.int height] ∧
        MAX_Y_COORDINATE_ABSOLUTE_VALUE < wrappedABS height) ∨
      ∃ width, sscanf ENV_CONF_WIDTH_SYNTAX (settingLine buffer file 2) = [.int width] ∧
        MAX_X_COORDINATE_ABSOLUTE_VALUE < wrappedABS width := by
  have hheight := lt_wrappedABS_storedInt_iff (sscanf_side "height" (settingLine buffer file 1))
    (show 0 ≤ MAX_Y_COORDINATE_ABSOLUTE_VALUE by decide)
  have hwidth := lt_wrappedABS_storedInt_iff (sscanf_side "width" (settingLine buffer file 2))
    (show 0 ≤ MAX_X_COORDINATE_ABSOLUTE_VALUE by decide)
  have hname : (scannedEnvironment buffer file).queueName.length < 2 ↔
        ∀ name, sscanf ENV_CONF_QUEUE_SYNTAX (settingLine buffer file 0) = [.str name] →
          name.length < 2 := by
    rw [scannedEnvironment, length_cleanupQueueName]
    rcases sscanf_queue (settingLine buffer file 0) with hnil | ⟨name, hname⟩
    · simp [hnil, storedString]
    · simp [hname, storedString]
  have hlong : ¬MAX_EMERGENCY_QUEUE_NAME_LENGTH <
      (scannedEnvironment buffer file).queueName.length := by
    rw [scannedEnvironment, length_cleanupQueueName]
    rcases sscanf_queue (settingLine buffer file 0) with hnil | ⟨name, hname⟩
    · simp [hnil, storedString]
    · rw [hname]
      exact not_lt.mpr (hfits name hname).le
  have hmin : ∀ n : ℤ, ¬ABS n < 0 := fun n => not_lt.mpr (ABS_nonneg n)
  have hminY : MIN_Y_COORDINATE_ABSOLUTE_VALUE = 0 := rfl
  have hminX : MIN_X_COORDINATE_ABSOLUTE_VALUE = 0 := rfl
  rw [ENV_CONF_HEIGHT_SYNTAX, ENV_CONF_WIDTH_SYNTAX, ← hname, ← hheight, ← hwidth]
  simp only [environmentValuesAreIllegal, Bool.or_eq_true, decide_eq_true_eq, hlong, hminY, hminX,
    hmin, or_false, or_assoc]
  rfl

theorem queueNameOverruns_iff (line : CString) :
    queueNameOverruns (sscanf ENV_CONF_QUEUE_SYNTAX line) = true ↔
      ¬∀ name, sscanf ENV_CONF_QUEUE_SYNTAX line = [.str name] →
        name.length < MAX_EMERGENCY_QUEUE_NAME_LENGTH := by
  rcases sscanf_queue line with hnil | ⟨name, hname⟩
  · rw [hnil]
    simp [queueNameOverruns]
  · rw [hname]
    simp [queueNameOverruns]

theorem parseEnvInBuffers_eq (buffer : CString) (file : List Char) :
    parseEnvInBuffers buffer file =
      if queueNameOverruns (sscanf ENV_CONF_QUEUE_SYNTAX (settingLine buffer file 0)) then .overrun
      else .returned (parseEnv buffer file) := by
  have hzero : (mallocateParsingState buffer).parsedSoFar = 0 := rfl
  obtain ⟨-, -, hitems⟩ :=
    (stillToRead_start buffer file).extract (by rw [hzero]; decide) ENV_CONF_QUEUE_SYNTAX
  rw [List.head?_eq_getElem?] at hitems
  simp only [parseEnvInBuffers, hitems]
  rfl

/-- `parse_env` accepts exactly the well-formed files when the lines it scans settle the
matter: otherwise a setting that is missing has its default and is taken for legal. -/
theorem parse_env_accepts_exactly_iff (buffer : CString) (file : List Char) :
    AcceptsExactly buffer file ↔ SettledByLines buffer file := by
  by_cases hfits : ∀ name, sscanf ENV_CONF_QUEUE_SYNTAX (settingLine buffer file 0) = [.str name] →
      name.length < MAX_EMERGENCY_QUEUE_NAME_LENGTH
  · have houtcome : parseEnvInBuffers buffer file = .returned (parseEnv buffer file) := by
      rw [parseEnvInBuffers_eq, if_neg]
      rw [queueNameOverruns_iff]
      exact not_not_intro hfits
    have hillegal := scannedEnvironment_illegal_iff hfits
    rw [parseEnv_eq] at houtcome
    cases hlegal : environmentValuesAreIllegal (scannedEnvironment buffer file) with
    | true =>
        -- no well-formed file gives these values, and they are refused
        have hnone : ∀ env, ¬WellFormedEnv file env := by
          intro env henv
          have hsame : scannedEnvironment buffer file = env := henv.scanned
          rw [hsame, henv.legal] at hlegal
          cases hlegal
        rw [hlegal, if_pos rfl] at houtcome
        refine iff_of_true ⟨fun env => ?_, fun _ => houtcome⟩ ⟨hfits, .inr (hillegal.mp hlegal)⟩
        rw [houtcome]
        simp [hnone env]
    | false =>
        -- these values are accepted, be they on three lines of the file or not
        have hwell := wellFormedEnv_scanned_iff hlegal
        rw [hlegal, if_neg Bool.false_ne_true] at houtcome
        constructor
        · intro hexactly
          exact ⟨hfits, .inl (hwell.mp ((hexactly.accepted _).mp houtcome))⟩
        · rintro ⟨-, hsettled⟩
          have hlines := hwell.mpr (hsettled.resolve_right fun h => ?_)
          · refine ⟨fun env => ?_, fun hnone => absurd hlines (hnone _)⟩
            rw [houtcome]
            constructor
            · intro henv
              obtain rfl : scannedEnvironment buffer file = env := by simpa using henv
              exact hlines
            · intro henv
              rw [henv.scanned]
          · rw [hillegal.mpr h] at hlegal
            cases hlegal
  · -- the name does not fit its field
    have houtcome : parseEnvInBuffers buffer file = .overrun := by
      rw [parseEnvInBuffers_eq, if_pos]
      exact (queueNameOverruns_iff _).mpr hfits
    refine iff_of_false (fun hexactly => ?_) fun hsettled => hfits hsettled.fits
    have hnone : ∀ env, ¬WellFormedEnv file env := by
      intro env henv
      have hreturned := (hexactly.accepted env).mpr henv
      rw [houtcome] at hreturned
      cases hreturned
    have hreturned := hexactly.refused hnone
    rw [houtcome] at hreturned
    cases hreturned

end acceptance

/-- A file that has only the line of the queue is accepted, and so are one with height and
width in the wrong order and one with a width that does not scan. -/
theorem incomplete_settings_accepted :
    parseEnvInBuffers [] "queue=/coda\n".toList = .returned (some ⟨"/coda".toList, 0, 0⟩) ∧
      ¬WellFormedEnv "queue=/coda\n".toList ⟨"/coda".toList, 0, 0⟩ ∧
      ¬AcceptsExactly [] "queue=/coda\n".toList ∧
      parseEnvInBuffers [] "queue=/coda\nwidth=100\nheight=50\n".toList =
        .returned (some ⟨"/coda".toList, 0, 0⟩) ∧
      parseEnvInBuffers [] "queue=/coda\nheight=100\nwidth=x\n".toList =
        .returned (some ⟨"/coda".toList, 100, 0⟩) := by
  obtain ⟨haccepted, hlines, hothers⟩ :
      parseEnvInBuffers [] "queue=/coda\n".toList = .returned (some ⟨"/coda".toList, 0, 0⟩) ∧
        (envCandidates "queue=/coda\n".toList).length = 1 ∧
        parseEnvInBuffers [] "queue=/coda\nwidth=100\nheight=50\n".toList =
          .returned (some ⟨"/coda".toList, 0, 0⟩) ∧
        parseEnvInBuffers [] "queue=/coda\nheight=100\nwidth=x\n".toList =
          .returned (some ⟨"/coda".toList, 100, 0⟩) := by
    decide +kernel
  have hnot : ¬WellFormedEnv "queue=/coda\n".toList ⟨"/coda".toList, 0, 0⟩ := by
    rintro ⟨⟨queueLine, heightLine, widthLine, others, name, hthree, -⟩, -⟩
    rw [hthree] at hlines
    simp at hlines
  exact ⟨haccepted, hnot, fun h => hnot ((h.accepted _).mp haccepted), hothers⟩

end EmergencyDispatch
