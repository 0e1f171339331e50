import EmergencyDispatch.Library.NullTerminated
import EmergencyDispatch.Parsers.RequestNames

/-!
# The array of the requests

`callocate_rescuer_requests` makes room for as many pointers as an emergency type
may have requests, and the lookups end at the first `NULL`.  Here the requests
are written into that array, as the code does it; `extractRequestArray_filled`
says that this is the loop over the list of the requests, and the array is then
`filled` with the list.  It has a `NULL` behind its last request exactly when the
list is shorter than the array.  Three things can end the loop, and
`LeavesRoom` has a case for each:

* a request whose type does not exist or is too small: the line is rejected, if
  the lookup of its name has not run out of the array;
* a malformed request: the line is rejected before its name is looked up;
* the end of the line: the array is used as it is.
-/

namespace EmergencyDispatch

open Scanf FirstOccurrences NullTerminated

/-- `rescuer_request_t **`. -/
abbrev RequestArray := List (Option RescuerRequest)

/-- `callocate_rescuer_requests`. -/
def callocateRescuerRequests : RequestArray := calloc MAX_RESCUER_REQ_NUMBER_PER_EMERGENCY

/-- `get_rescuer_request_by_name` on the array; `none` when it reads past its end. -/
def lookupRescuerRequest (name : CString) (requests : RequestArray) :
    Option (Option RescuerRequest) :=
  scan (fun request => request.type.rescuerTypeName == name) requests

/-- What `check_and_extract_rescuer_requests_from_string` leaves in the fields. -/
inductive RequestArrayOutcome
  | rejected
  | overrun
  | extracted (rescuers : RequestArray) (rescuersReqNumber : ℕ)
  deriving DecidableEq

/-- The loop of `check_and_extract_rescuer_requests_from_string` over the tokens that are
left; the number is `requests_parsed_so_far`. -/
def extractRequestArray (rescuers : List RescuerType) :
    List CString → RequestArray → ℕ → RequestArrayOutcome
  | [], requests, requestsParsedSoFar => .extracted requests requestsParsedSoFar
  | token :: tokens, requests, requestsParsedSoFar =>
      if MAX_RESCUER_REQ_NUMBER_PER_EMERGENCY < requestsParsedSoFar then .rejected
      else if nameOverruns MAX_RESCUER_NAME_LENGTH (sscanf RESCUER_REQUEST_SYNTAX token) then
        .overrun
      else
        match sscanf RESCUER_REQUEST_SYNTAX token with
        | [.str name, .int requiredCount, .int timeToManage] =>
            if rescuerRequestValuesAreIllegal name requiredCount timeToManage then .rejected
            else
              match lookupRescuerRequest name requests with
              | none => .overrun
              | some (some _) => extractRequestArray rescuers tokens requests requestsParsedSoFar
              | some none =>
                  match getRescuerTypeByName name rescuers with
                  | none => .rejected
                  | some type =>
                      if type.amount < requiredCount then .rejected
                      else
                        match store requests requestsParsedSoFar
                            ⟨type, requiredCount.toNat, timeToManage⟩ with
                        | none => .overrun
                        | some requests =>
                            extractRequestArray rescuers tokens requests (requestsParsedSoFar + 1)
        | _ => .rejected

/-- `check_and_extract_rescuer_requests_from_string`. -/
def checkAndExtractRescuerRequestsFromString (rescuers : List RescuerType)
    (rescuerRequestsString : CString) : RequestArrayOutcome :=
  extractRequestArray rescuers (strtok RESCUER_REQUESTS_SEPARATOR rescuerRequestsString)
    callocateRescuerRequests 0

/-- The loop of `allocate_and_copy_rescuer_requests_from_type` from the index `i` on; `none`
when it reads a `NULL` request, or reads or writes past the end. -/
def copyRescuerRequests (source : RequestArray) : ℕ → ℕ → RequestArray → Option RequestArray
  | 0, _, copy => some copy
  | left + 1, i, copy =>
      match source[i]? with
      | some (some request) =>
          (store copy i request).bind (copyRescuerRequests source left (i + 1))
      | _ => none

/-- `allocate_and_copy_rescuer_requests_from_type`. -/
def allocateAndCopyRescuerRequests (rescuers : RequestArray) (rescuersReqNumber : ℕ) :
    Option RequestArray :=
  copyRescuerRequests rescuers rescuersReqNumber 0 callocateRescuerRequests

/-! ## One token -/

variable {rescuers : List RescuerType} {tokens : List CString} {token : CString}
  {requests : List RescuerRequest}

/-- The scanned name leaves room for its terminator. -/
def nameFits (token : CString) : Bool :=
  !nameOverruns MAX_RESCUER_NAME_LENGTH (sscanf RESCUER_REQUEST_SYNTAX token)

/-- The request does not scan or has an illegal value: its name is not looked up. -/
def requestIsMalformed (token : CString) : Bool :=
  !nameFits token ||
    match sscanf RESCUER_REQUEST_SYNTAX token with
    | [.str name, .int requiredCount, .int timeToManage] =>
        rescuerRequestValuesAreIllegal name requiredCount timeToManage
    | _ => true

/-- The request the parser makes of a token, if the rescuer type exists and has the units. -/
def requestOf (rescuers : List RescuerType) (token : CString) : Option RescuerRequest :=
  match sscanf RESCUER_REQUEST_SYNTAX token with
  | [.str name, .int requiredCount, .int timeToManage] =>
      match getRescuerTypeByName name rescuers with
      | none => none
      | some type =>
          if type.amount < requiredCount then none
          else some ⟨type, requiredCount.toNat, timeToManage⟩
  | _ => none

theorem nameFits_eq (token : CString) :
    nameOverruns MAX_RESCUER_NAME_LENGTH (sscanf RESCUER_REQUEST_SYNTAX token) =
      !nameFits token := (Bool.not_not _).symm

theorem wellFormed_cases (h : requestIsMalformed token = false) :
    nameFits token = true ∧ ∃ requiredCount timeToManage,
      sscanf RESCUER_REQUEST_SYNTAX token =
        [.str (requestName token), .int requiredCount, .int timeToManage] ∧
      rescuerRequestValuesAreIllegal (requestName token) requiredCount timeToManage = false := by
  obtain ⟨hfits, hlegal⟩ := Bool.or_eq_false_iff.mp h
  refine ⟨by simpa using hfits, ?_⟩
  unfold requestName
  split at hlegal
  · rename_i name requiredCount timeToManage hscan
    rw [hscan]
    exact ⟨requiredCount, timeToManage, rfl, hlegal⟩
  · cases hlegal

theorem requestOf_name {request : RescuerRequest} (h : requestOf rescuers token = some request) :
    request.type.rescuerTypeName = requestedName token := by
  unfold requestOf at h
  unfold requestedName requestName
  split at h
  · rename_i hscan
    split at h
    · cases h
    · rename_i type htype
      split at h
      · cases h
      · obtain rfl := Option.some.inj h
        have hsame := List.find?_some htype
        rw [hscan]
        exact beq_iff_eq.mp hsame
  · cases h

theorem extractRescuerRequests_malformed
    (hlength : requests.length ≤ MAX_RESCUER_REQ_NUMBER_PER_EMERGENCY)
    (h : requestIsMalformed token = true) :
    extractRescuerRequests rescuers (token :: tokens) requests =
      if nameFits token then .rejected else .overrun := by
  unfold extractRescuerRequests
  rw [if_neg (Nat.not_lt.mpr hlength), nameFits_eq]
  unfold requestIsMalformed at h
  cases hfits : nameFits token with
  | false => rfl
  | true =>
      rw [hfits, Bool.not_true, Bool.false_or] at h
      generalize sscanf RESCUER_REQUEST_SYNTAX token = items at h ⊢
      split at h <;> simp [h]

theorem extractRequestArray_malformed {array : RequestArray} {n : ℕ}
    (hlength : n ≤ MAX_RESCUER_REQ_NUMBER_PER_EMERGENCY)
    (h : requestIsMalformed token = true) :
    extractRequestArray rescuers (token :: tokens) array n =
      if nameFits token then .rejected else .overrun := by
  unfold extractRequestArray
  rw [if_neg (Nat.not_lt.mpr hlength), nameFits_eq]
  unfold requestIsMalformed at h
  cases hfits : nameFits token with
  | false => rfl
  | true =>
      rw [hfits, Bool.not_true, Bool.false_or] at h
      split at h
      · simp [h]
      · simp

theorem extractRescuerRequests_wellFormed
    (hlength : requests.length ≤ MAX_RESCUER_REQ_NUMBER_PER_EMERGENCY)
    (h : requestIsMalformed token = false) :
    extractRescuerRequests rescuers (token :: tokens) requests =
      if requestName token ∈ requests.map (·.type.rescuerTypeName) then
        extractRescuerRequests rescuers tokens requests
      else if requests.length = MAX_RESCUER_REQ_NUMBER_PER_EMERGENCY then .overrun
      else
        match requestOf rescuers token with
        | none => .rejected
        | some request => extractRescuerRequests rescuers tokens (requests ++ [request]) := by
  obtain ⟨hfits, requiredCount, timeToManage, hscan, hlegal⟩ := wellFormed_cases h
  rw [extractRescuerRequests, if_neg (Nat.not_lt.mpr hlength), nameFits_eq, hfits]
  unfold requestOf
  simp only [hscan, hlegal, Bool.not_true, Bool.false_eq_true, if_false,
    getRescuerRequestByName_isSome_iff]
  split
  · rfl
  split
  · rfl
  cases getRescuerTypeByName (requestName token) rescuers with
  | none => rfl
  | some type =>
      dsimp only
      split <;> rfl

theorem extractRequestArray_wellFormed {array : RequestArray} {n : ℕ}
    (hlength : n ≤ MAX_RESCUER_REQ_NUMBER_PER_EMERGENCY)
    (h : requestIsMalformed token = false) :
    extractRequestArray rescuers (token :: tokens) array n =
      match lookupRescuerRequest (requestName token) array with
      | none => .overrun
      | some (some _) => extractRequestArray rescuers tokens array n
      | some none =>
          match requestOf rescuers token with
          | none => .rejected
          | some request =>
              match store array n request with
              | none => .overrun
              | some array => extractRequestArray rescuers tokens array (n + 1) := by
  obtain ⟨hfits, requiredCount, timeToManage, hscan, hlegal⟩ := wellFormed_cases h
  rw [extractRequestArray, if_neg (Nat.not_lt.mpr hlength), nameFits_eq, hfits]
  unfold requestOf
  simp only [hscan, hlegal, Bool.not_true, Bool.false_eq_true, if_false]
  split
  · rfl
  · rfl
  cases getRescuerTypeByName (requestName token) rescuers with
  | none => rfl
  | some type =>
      dsimp only
      split <;> rfl

/-! ## The array and the list -/

/-- The array that holds the requests of an outcome. -/
def RequestsOutcome.inArray : RequestsOutcome → RequestArrayOutcome
  | .rejected => .rejected
  | .overrun => .overrun
  | .extracted requests =>
      .extracted (filled MAX_RESCUER_REQ_NUMBER_PER_EMERGENCY requests) requests.length

theorem lookupRescuerRequest_filled {name : CString}
    (hlength : requests.length ≤ MAX_RESCUER_REQ_NUMBER_PER_EMERGENCY) :
    lookupRescuerRequest name (filled MAX_RESCUER_REQ_NUMBER_PER_EMERGENCY requests) =
      if requests.length < MAX_RESCUER_REQ_NUMBER_PER_EMERGENCY then
        some (getRescuerRequestByName name requests)
      else (getRescuerRequestByName name requests).map some := by
  unfold lookupRescuerRequest getRescuerRequestByName
  split
  · rename_i hroom
    exact scan_filled hroom _
  · rename_i hfull
    exact scan_filled_full (Nat.le_antisymm hlength (Nat.not_lt.mp hfull)) _

/-- **The array is the list**: the loop over the array leaves the requests of the loop over
the list, and runs past the end where that one says so. -/
theorem extractRequestArray_filled
    (hlength : requests.length ≤ MAX_RESCUER_REQ_NUMBER_PER_EMERGENCY) :
    extractRequestArray rescuers tokens
        (filled MAX_RESCUER_REQ_NUMBER_PER_EMERGENCY requests) requests.length =
      (extractRescuerRequests rescuers tokens requests).inArray := by
  induction tokens generalizing requests with
  | nil => rfl
  | cons token tokens ih =>
      cases hformed : requestIsMalformed token with
      | true =>
          rw [extractRequestArray_malformed hlength hformed,
            extractRescuerRequests_malformed hlength hformed]
          split <;> rfl
      | false =>
          rw [extractRequestArray_wellFormed hlength hformed,
            extractRescuerRequests_wellFormed hlength hformed,
            lookupRescuerRequest_filled hlength]
          simp only [← getRescuerRequestByName_isSome_iff]
          cases hfind : getRescuerRequestByName (requestName token) requests with
          | some request =>
              simp only [Option.map_some, ite_self, Option.isSome_some, if_true]
              exact ih hlength
          | none =>
              -- the search stops at the first `NULL`, or at the end of a full array
              rcases Nat.lt_or_eq_of_le hlength with hroom | hfull
              · rw [if_pos hroom, if_neg (by simp), if_neg (Nat.ne_of_lt hroom)]
                cases requestOf rescuers token with
                | none => rfl
                | some request =>
                    simp only [store_filled hroom]
                    have hnext : (requests ++ [request]).length ≤
                        MAX_RESCUER_REQ_NUMBER_PER_EMERGENCY := by
                      rw [List.length_append, List.length_singleton]
                      exact hroom
                    simpa using ih hnext
              · rw [if_neg (by omega), if_neg (by simp), if_pos hfull]
                rfl

/-! ## The terminator -/

/-- The array lies within its allocation, and a `NULL` follows its `n` requests. -/
structure TerminatedArray (array : RequestArray) (n : ℕ) : Prop where
  length : array.length = MAX_RESCUER_REQ_NUMBER_PER_EMERGENCY
  requests : ∀ i < n, ∃ request, array[i]? = some (some request)
  terminator : array[n]? = some none

/-- The line is rejected, or the array and the copy an emergency gets of it are terminated, and
every lookup in either of them stops inside it. -/
def LeavesTerminated : RequestArrayOutcome → Prop
  | .rejected => True
  | .overrun => False
  | .extracted array n =>
      TerminatedArray array n ∧
        ∃ copy, allocateAndCopyRescuerRequests array n = some copy ∧ TerminatedArray copy n ∧
          ∀ name, lookupRescuerRequest name array ≠ none ∧ lookupRescuerRequest name copy ≠ none

/-- The requests up to the first malformed one whose names are not those of earlier ones, when
the names `seen` have been requested already. -/
def newRequests (seen : List CString) (tokens : List CString) : List CString :=
  firsts requestName requestedName seen (tokens.takeWhile fun token => !requestIsMalformed token)

/-- A line leaves room for the terminator, `parsed` requests being in the array already: when
a request cannot be met, fewer than all the entries were filled before it; when a request
is malformed, no more than all of them, and its name fits; otherwise fewer than all. -/
def leavesRoom (rescuers : List RescuerType) (seen : List CString) (parsed : ℕ)
    (tokens : List CString) : Bool :=
  let new := newRequests seen tokens
  let met := new.takeWhile fun token => (requestOf rescuers token).isSome
  if met.length < new.length then parsed + met.length < MAX_RESCUER_REQ_NUMBER_PER_EMERGENCY
  else
    match tokens.find? requestIsMalformed with
    | some token => nameFits token && parsed + new.length ≤ MAX_RESCUER_REQ_NUMBER_PER_EMERGENCY
    | none => parsed + new.length < MAX_RESCUER_REQ_NUMBER_PER_EMERGENCY

theorem terminatedArray_filled_iff
    (hlength : requests.length ≤ MAX_RESCUER_REQ_NUMBER_PER_EMERGENCY) :
    TerminatedArray (filled MAX_RESCUER_REQ_NUMBER_PER_EMERGENCY requests) requests.length ↔
      requests.length < MAX_RESCUER_REQ_NUMBER_PER_EMERGENCY := by
  constructor
  · intro hterminated
    have hread := hterminated.terminator
    by_contra hfull
    rw [List.getElem?_eq_none] at hread
    · cases hread
    · rw [length_filled hlength]
      exact Nat.not_lt.mp hfull
  · intro hroom
    refine ⟨length_filled hlength, fun i hi => ⟨requests[i], ?_⟩, ?_⟩
    · rw [getElem?_filled (Nat.lt_trans hi hroom), List.getElem?_eq_getElem hi]
    · rw [getElem?_filled hroom, List.getElem?_eq_none (Nat.le_refl _)]

/-- The loop of the copy from the index `i` on. -/
theorem copyRescuerRequests_filled
    (hlength : requests.length ≤ MAX_RESCUER_REQ_NUMBER_PER_EMERGENCY) {left i : ℕ}
    (hleft : i + left = requests.length) :
    copyRescuerRequests (filled MAX_RESCUER_REQ_NUMBER_PER_EMERGENCY requests) left i
        (filled MAX_RESCUER_REQ_NUMBER_PER_EMERGENCY (requests.take i)) =
      some (filled MAX_RESCUER_REQ_NUMBER_PER_EMERGENCY requests) := by
  induction left generalizing i with
  | zero =>
      rw [copyRescuerRequests, List.take_of_length_le (by omega)]
  | succ left ih =>
      have hi : i < requests.length := by omega
      have hroom : i < MAX_RESCUER_REQ_NUMBER_PER_EMERGENCY := by omega
      have hread : (filled MAX_RESCUER_REQ_NUMBER_PER_EMERGENCY requests)[i]? =
          some (some requests[i]) := by
        rw [getElem?_filled hroom, List.getElem?_eq_getElem hi]
      have htake : (requests.take i).length = i := List.length_take_of_le (by omega)
      have hstore := store_filled (l := requests.take i) (by rwa [htake]) requests[i]
      rw [htake, List.take_append_getElem hi] at hstore
      rw [copyRescuerRequests, hread]
      dsimp only
      rw [hstore]
      exact ih (by omega)

theorem allocateAndCopyRescuerRequests_filled
    (hlength : requests.length ≤ MAX_RESCUER_REQ_NUMBER_PER_EMERGENCY) :
    allocateAndCopyRescuerRequests (filled MAX_RESCUER_REQ_NUMBER_PER_EMERGENCY requests)
        requests.length =
      some (filled MAX_RESCUER_REQ_NUMBER_PER_EMERGENCY requests) :=
  copyRescuerRequests_filled hlength (Nat.zero_add _)

theorem leavesTerminated_filled_iff
    (hlength : requests.length ≤ MAX_RESCUER_REQ_NUMBER_PER_EMERGENCY) :
    LeavesTerminated (RequestsOutcome.extracted requests).inArray ↔
      requests.length < MAX_RESCUER_REQ_NUMBER_PER_EMERGENCY := by
  constructor
  · rintro ⟨hterminated, -⟩
    exact (terminatedArray_filled_iff hlength).mp hterminated
  · intro hroom
    have hterminated := (terminatedArray_filled_iff hlength).mpr hroom
    have hstops := fun name : CString =>
      (scan_stops_iff hlength).mpr hroom fun request => request.type.rescuerTypeName == name
    exact ⟨hterminated, _, allocateAndCopyRescuerRequests_filled hlength, hterminated,
      fun name => ⟨hstops name, hstops name⟩⟩

/-! ## Which lines leave room -/

section room

variable {seen : List CString} {parsed : ℕ}

theorem leavesRoom_malformed (h : requestIsMalformed token = true) :
    leavesRoom rescuers seen parsed (token :: tokens) =
      (nameFits token && parsed ≤ MAX_RESCUER_REQ_NUMBER_PER_EMERGENCY) := by
  have hnew : newRequests seen (token :: tokens) = [] := by
    rw [newRequests, List.takeWhile_cons_of_neg (by simp [h])]
    rfl
  simp [leavesRoom, hnew, h]

/-- A repeated request makes no difference. -/
theorem leavesRoom_repeated (h : requestIsMalformed token = false)
    (hmem : requestName token ∈ seen) :
    leavesRoom rescuers seen parsed (token :: tokens) =
      leavesRoom rescuers seen parsed tokens := by
  have hnew : newRequests seen (token :: tokens) = newRequests seen tokens := by
    rw [newRequests, List.takeWhile_cons_of_pos (by simp [h]), firsts_cons_of_mem hmem]
    rfl
  simp [leavesRoom, hnew, h]

theorem newRequests_of_new (h : requestIsMalformed token = false)
    (hmem : requestName token ∉ seen) :
    newRequests seen (token :: tokens) =
      token :: newRequests (seen ++ [requestedName token]) tokens := by
  rw [newRequests, List.takeWhile_cons_of_pos (by simp [h]), firsts_cons_of_notMem hmem]
  rfl

/-- A new request that cannot be met ends the parsing. -/
theorem leavesRoom_unmet (h : requestIsMalformed token = false)
    (hmem : requestName token ∉ seen) (hunmet : requestOf rescuers token = none) :
    leavesRoom rescuers seen parsed (token :: tokens) =
      decide (parsed < MAX_RESCUER_REQ_NUMBER_PER_EMERGENCY) := by
  simp [leavesRoom, newRequests_of_new h hmem, hunmet]

/-- A new request that can be met takes one entry. -/
theorem leavesRoom_met (h : requestIsMalformed token = false)
    (hmem : requestName token ∉ seen) {request : RescuerRequest}
    (hmet : requestOf rescuers token = some request) :
    leavesRoom rescuers seen parsed (token :: tokens) =
      leavesRoom rescuers (seen ++ [requestedName token]) (parsed + 1) tokens := by
  simp [leavesRoom, newRequests_of_new h hmem, hmet, h, Nat.add_assoc, Nat.add_comm 1]

/-- A new request has no room in a full array. -/
theorem leavesRoom_full (h : requestIsMalformed token = false)
    (hmem : requestName token ∉ seen) :
    leavesRoom rescuers seen MAX_RESCUER_REQ_NUMBER_PER_EMERGENCY (token :: tokens) = false := by
  cases hrequest : requestOf rescuers token with
  | none =>
      rw [leavesRoom_unmet h hmem hrequest]
      exact decide_eq_false (lt_irrefl _)
  | some request =>
      rw [leavesRoom_met h hmem hrequest, leavesRoom]
      split
      · exact decide_eq_false (by omega)
      split
      · rw [Bool.and_eq_false_iff]
        exact .inr (decide_eq_false (by omega))
      · exact decide_eq_false (by omega)

end room

/-- The loop leaves a terminated array exactly when the tokens leave room. -/
theorem leavesTerminated_iff
    (hlength : requests.length ≤ MAX_RESCUER_REQ_NUMBER_PER_EMERGENCY) :
    LeavesTerminated (extractRescuerRequests rescuers tokens requests).inArray ↔
      leavesRoom rescuers (requests.map (·.type.rescuerTypeName)) requests.length tokens =
        true := by
  induction tokens generalizing requests with
  | nil =>
      rw [extractRescuerRequests, leavesTerminated_filled_iff hlength]
      simp [leavesRoom, newRequests, firsts]
  | cons token tokens ih =>
      cases hformed : requestIsMalformed token with
      | true =>
          rw [extractRescuerRequests_malformed hlength hformed, leavesRoom_malformed hformed,
            decide_eq_true hlength, Bool.and_true]
          cases nameFits token <;> simp [RequestsOutcome.inArray, LeavesTerminated]
      | false =>
          rw [extractRescuerRequests_wellFormed hlength hformed]
          split
          · rename_i hmem
            rw [leavesRoom_repeated hformed hmem]
            exact ih hlength
          rename_i hmem
          split
          -- the array is full: a new request has no room, and no `NULL` is left to stop a search
          · rename_i hfull
            rw [hfull, leavesRoom_full hformed hmem]
            simp [RequestsOutcome.inArray, LeavesTerminated]
          rename_i hroom
          have hroom : requests.length < MAX_RESCUER_REQ_NUMBER_PER_EMERGENCY := by omega
          cases hrequest : requestOf rescuers token with
          | none =>
              rw [leavesRoom_unmet hformed hmem hrequest, decide_eq_true hroom]
              simp [RequestsOutcome.inArray, LeavesTerminated]
          | some request =>
              have hnext : (requests ++ [request]).length ≤
                  MAX_RESCUER_REQ_NUMBER_PER_EMERGENCY := by
                rw [List.length_append, List.length_singleton]
                exact hroom
              rw [leavesRoom_met hformed hmem hrequest]
              simpa [requestOf_name hrequest] using ih hnext

/-- **The array of a line**: it is rejected, or its array and the copies of it have a `NULL`
behind the last request, exactly when its requests leave room for one. -/
theorem requestArray_terminated_iff (rescuers : List RescuerType)
    (rescuerRequestsString : CString) :
    LeavesTerminated (checkAndExtractRescuerRequestsFromString rescuers rescuerRequestsString) ↔
      leavesRoom rescuers [] 0 (strtok RESCUER_REQUESTS_SEPARATOR rescuerRequestsString) =
        true := by
  have hempty : ([] : List RescuerRequest).length ≤ MAX_RESCUER_REQ_NUMBER_PER_EMERGENCY :=
    Nat.zero_le _
  have hlist : checkAndExtractRescuerRequestsFromString rescuers rescuerRequestsString =
      (extractRescuerRequests rescuers
        (strtok RESCUER_REQUESTS_SEPARATOR rescuerRequestsString) []).inArray :=
    extractRequestArray_filled hempty
  rw [hlist]
  exact leavesTerminated_iff hempty

/-- Rescuer types named by letters, with one unit each. -/
def letterTypes (letters : String) : List RescuerType :=
  letters.toList.map fun c => ⟨[c], 1, 20, 0, 0, [c.toNat]⟩

/-- A request for a unit of each. -/
def letterRequests (letters : String) : CString :=
  letters.toList.flatMap fun c => c :: [':', '1', ',', '1', ';']

/-- Sixteen requests fill the array: no `NULL` follows them, and the lookup of a seventeenth
name leaves the array.  A seventeenth request has the parser make that lookup. -/
theorem sixteen_requests_not_terminated :
    let types := letterTypes "abcdefghijklmnopq"
    let outcome := checkAndExtractRescuerRequestsFromString types
      (letterRequests "abcdefghijklmnop")
    (∃ array, outcome = .extracted array 16 ∧ array[16]? = none ∧
      lookupRescuerRequest ['q'] array = none) ∧
      ¬LeavesTerminated outcome ∧
      checkAndExtractRescuerRequestsFromString types (letterRequests "abcdefghijklmnopq") =
        .overrun := by
  intro types outcome
  let array : RequestArray := (letterTypes "abcdefghijklmnop").map fun type => some ⟨type, 1, 1⟩
  obtain ⟨hrun, hend, hlookup, hmore⟩ : outcome = .extracted array 16 ∧ array[16]? = none ∧
      lookupRescuerRequest ['q'] array = none ∧
      checkAndExtractRescuerRequestsFromString types (letterRequests "abcdefghijklmnopq") =
        .overrun := by decide +kernel
  refine ⟨⟨array, hrun, hend, hlookup⟩, ?_, hmore⟩
  rw [hrun]
  rintro ⟨hterminated, -⟩
  rw [hterminated.terminator] at hend
  cases hend

end EmergencyDispatch
