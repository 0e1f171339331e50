import EmergencyDispatch.Emergencies
import EmergencyDispatch.Library.CharBuffers
import EmergencyDispatch.Parsers.RequestArrays
import Mathlib.Data.List.ReduceOption

/-!
# The buffers a request goes through

The name in a message is scanned into `n`, trimmed there by the lookup of the
validator, copied into the request by `strncpy` and looked up again by
`mallocate_emergency`, which does not ask whether it is found.  Here the three
are done on the arrays, with a fault where one is left; in the buffers they
compute what `parseEmergencyRequest` and `mallocateEmergency` say.  The scan
width of the name is the size of `n`: a name that needs all of it has no room
for its terminator.
-/

namespace EmergencyDispatch

open Scanf CharBuffers NullTerminated

/-- `char n[MAX_EMERGENCY_NAME_LENGTH]`, whatever it holds. -/
abbrev NameBuffer := { cells : Buffer // cells.length = MAX_EMERGENCY_NAME_LENGTH }

/-- The string at a pointer. -/
abbrev Message := { text : CString // NUL ∉ text }

/-- The loop of `trim_right` from `cutoff` on. -/
def trimRightFrom : ℕ → Buffer → Buffer
  | 0, string => string
  | cutoff + 1, string =>
      if isSpace (string.getD cutoff NUL) then trimRightFrom cutoff (string.set cutoff NUL)
      else string

/-- `trim_right` on an array. -/
def trimRightInPlace (string : Buffer) : Except MemoryFault Buffer := do
  let s ← readString string
  return trimRightFrom s.length string

/-- `get_emergency_type_by_name`: the array it leaves and the type, `none` for `NULL`. -/
def getEmergencyTypeInPlace (name : Buffer) (types : List EmergencyType) :
    Except MemoryFault (Buffer × Option EmergencyType) := do
  let name ← trimRightInPlace name
  let s ← readString name
  return (name, types.find? fun type => type.emergencyDesc == s)

/-- `emergency_request_values_are_illegal`: the array it leaves and its answer. -/
def emergencyRequestValuesAreIllegalInPlace (types : List EmergencyType) (envh envw : ℤ)
    (name : Buffer) (x y : ℤ) : Except MemoryFault (Buffer × Bool) := do
  let s ← readString name
  if s.length == 0 then return (name, true)
  let (name, type) ← getEmergencyTypeInPlace name types
  return (name, type.isNone ||
    (ABS x < MIN_X_COORDINATE_ABSOLUTE_VALUE || wrappedABS x > wrappedABS envw) ||
    (ABS y < MIN_Y_COORDINATE_ABSOLUTE_VALUE || wrappedABS y > wrappedABS envh))

/-- `emergency_request_t` with the array of its name. -/
structure RequestRecord where
  emergencyName : Buffer
  x : ℤ
  y : ℤ
  deriving DecidableEq

/-- What `sscanf` does to `n`: the name is stored before anything else is looked at. -/
def storeName (n : Buffer) : List Item → Except MemoryFault Buffer
  | .str name :: _ => storeString n name
  | _ => .ok n

/-- `parse_emergency_request` on its arrays. -/
def parseEmergencyRequestInBuffers (n : NameBuffer) (message : Message)
    (types : List EmergencyType) (envh envw : ℤ) : Except MemoryFault (Option RequestRecord) := do
  let n ← storeName n.1 (sscanf EMERGENCY_REQUEST_SYNTAX message.1)
  match sscanf EMERGENCY_REQUEST_SYNTAX message.1 with
  | [.str _, .int x, .int y, .int _] =>
      let (n, illegal) ← emergencyRequestValuesAreIllegalInPlace types envh envw n x y
      if illegal then return none
      let emergencyName ← strncpy n MAX_EMERGENCY_NAME_LENGTH
      return some ⟨emergencyName, x, y⟩
  | _ => return none

/-- The array `type->rescuers`. -/
def requestArray (type : EmergencyType) : RequestArray :=
  filled MAX_RESCUER_REQ_NUMBER_PER_EMERGENCY type.rescuers

/-- `mallocate_emergency` on the record of the request. -/
def mallocateEmergencyInBuffers (table : List PriorityRule) (types : List EmergencyType)
    (r : RequestRecord) (tick : ℕ) : Except MemoryFault Emergency := do
  let (_, type) ← getEmergencyTypeInPlace r.emergencyName types
  match type with
  | none => .error .nullDereference
  | some type =>
      match allocateAndCopyRescuerRequests (requestArray type) type.rescuers.length with
      | none => .error .outOfBounds
      | some rescuersMissing => return {
          type := type
          priority := type.priority
          status := .waiting
          x := r.x
          y := r.y
          tickTime := tick
          rescuerCount := totalCount type.rescuers
          rescuersMissing := rescuersMissing.reduceOption
          rescuerTwins := List.replicate (totalCount type.rescuers) none
          rescuersNotArrivedYet := totalCount type.rescuers
          rescuersNotDoneYet := totalCount type.rescuers
          timeoutTimer := priorityToTimeoutTimer table type.priority
          promotionTimer := priorityToPromotionTimer table type.priority
          howManyTimesWasPaused := 0
          howManyTimesWasPromoted := 0 }

/-- What the receiver does with a message: `parse_emergency_request`, and
`mallocate_emergency` when it accepts. -/
def receiveRequest (table : List PriorityRule) (types : List EmergencyType) (envh envw : ℤ)
    (n : NameBuffer) (message : Message) (tick : ℕ) : Except MemoryFault (Option Emergency) := do
  match ← parseEmergencyRequestInBuffers n message types envh envw with
  | none => return none
  | some r => return some (← mallocateEmergencyInBuffers table types r tick)

/-! ## The functions on their arrays -/

section arrays

variable {buffer : Buffer} {s name : CString} {types : List EmergencyType}

theorem trimRightFrom_append (s after : List Char) :
    ∃ after', trimRightFrom s.length (s ++ NUL :: after) = trimRight s ++ NUL :: after' := by
  induction s using List.reverseRecOn generalizing after with
  | nil => exact ⟨after, rfl⟩
  | append_singleton s c ih =>
      have hcell : (s ++ [c] ++ NUL :: after).getD s.length NUL = c := by simp
      rw [List.length_append, List.length_singleton, trimRightFrom, hcell]
      by_cases hc : isSpace c = true
      · have hset : (s ++ [c] ++ NUL :: after).set s.length NUL = s ++ NUL :: NUL :: after := by
          simp
        rw [if_pos hc, hset, trimRight, List.rdropWhile_concat_pos _ _ _ hc]
        exact ih (NUL :: after)
      · rw [if_neg hc, trimRight, List.rdropWhile_concat_neg _ _ _ hc]
        exact ⟨after, rfl⟩

theorem trimRightInPlace_holds (h : Holds buffer s) :
    ∃ buffer', trimRightInPlace buffer = .ok buffer' ∧ Holds buffer' (trimRight s) := by
  have hread := h.readString
  obtain ⟨hs, after, rfl⟩ := h
  obtain ⟨after', htrim⟩ := trimRightFrom_append s after
  refine ⟨_, ?_, fun hmem => hs ?_, after', htrim⟩
  · rw [trimRightInPlace, hread]
    rfl
  · exact (List.rdropWhile_prefix isSpace s).subset hmem

/-- The lookup finds what `getEmergencyTypeByName` says, and leaves the trimmed name. -/
theorem getEmergencyTypeInPlace_holds (h : Holds buffer name)
    (types : List EmergencyType) :
    ∃ buffer', getEmergencyTypeInPlace buffer types =
        .ok (buffer', getEmergencyTypeByName name types) ∧
      Holds buffer' (trimRight name) := by
  obtain ⟨buffer', htrim, hholds⟩ := trimRightInPlace_holds h
  refine ⟨buffer', ?_, hholds⟩
  rw [getEmergencyTypeInPlace, htrim]
  show (readString buffer').bind _ = _
  rw [hholds.readString]
  rfl

theorem emergencyRequestValuesAreIllegalInPlace_holds (h : Holds buffer name)
    (types : List EmergencyType) (envh envw x y : ℤ) :
    ∃ buffer', emergencyRequestValuesAreIllegalInPlace types envh envw buffer x y =
        .ok (buffer', emergencyRequestValuesAreIllegal types envh envw name x y) ∧
      Holds buffer' (trimRight name) := by
  unfold emergencyRequestValuesAreIllegalInPlace emergencyRequestValuesAreIllegal
  rw [h.readString]
  by_cases hempty : name.length = 0
  · obtain rfl := List.eq_nil_of_length_eq_zero hempty
    exact ⟨buffer, rfl, h⟩
  · obtain ⟨buffer', hlookup, hholds⟩ := getEmergencyTypeInPlace_holds h types
    refine ⟨buffer', ?_, hholds⟩
    rw [beq_eq_false_iff_ne.mpr hempty, Bool.false_or]
    show (if (name.length == 0) = true then _ else _) = _
    rw [if_neg (by simpa using hempty), hlookup]
    rfl

theorem nul_notMem_of_scanned {message : Message} {items : List Item}
    (h : sscanf EMERGENCY_REQUEST_SYNTAX message.1 = .str name :: items) : NUL ∉ name := by
  rcases sscanf_set_cases MAX_EMERGENCY_NAME_LENGTH (fun c => !c.isDigit)
    [.space, .int, .space, .int, .space, .int] message.1 with hnil | ⟨run, rest, hrun, hscan⟩
  · rw [EMERGENCY_REQUEST_SYNTAX, hnil] at h
    cases h
  · rw [EMERGENCY_REQUEST_SYNTAX, hscan] at h
    obtain rfl : run = name := by simpa using (List.cons.inj h).1
    exact fun hmem => message.2 (hrun hmem)

/-! ## The two calls -/

variable {table : List PriorityRule} {envh envw : ℤ} {n : NameBuffer} {message : Message}
  {tick : ℕ}

theorem storeName_cases (n : NameBuffer) (message : Message) :
    (nameOverruns MAX_EMERGENCY_NAME_LENGTH (sscanf EMERGENCY_REQUEST_SYNTAX message.1) = true ∧
        storeName n.1 (sscanf EMERGENCY_REQUEST_SYNTAX message.1) = .error .outOfBounds) ∨
      (sscanf EMERGENCY_REQUEST_SYNTAX message.1 = []) ∨
      ∃ name items buffer, sscanf EMERGENCY_REQUEST_SYNTAX message.1 = .str name :: items ∧
        name.length < MAX_EMERGENCY_NAME_LENGTH ∧
        storeName n.1 (sscanf EMERGENCY_REQUEST_SYNTAX message.1) = .ok buffer ∧
        Holds buffer name := by
  rcases sscanf_set_cases MAX_EMERGENCY_NAME_LENGTH (fun c => !c.isDigit)
    [.space, .int, .space, .int, .space, .int] message.1 with hnil | ⟨name, rest, -, hscan⟩
  · exact .inr (.inl hnil)
  · have hnul := nul_notMem_of_scanned hscan
    rw [← EMERGENCY_REQUEST_SYNTAX] at hscan
    rcases storeString_cases n.1 hnul with ⟨hlt, buffer, hstore, -, hholds⟩ |
      ⟨hle, hstore⟩
    · rw [n.2] at hlt
      refine .inr (.inr ⟨name, _, buffer, hscan, hlt, ?_, hholds⟩)
      rw [hscan]
      exact hstore
    · rw [n.2] at hle
      refine .inl ⟨?_, ?_⟩
      · rw [hscan]
        exact decide_eq_true hle
      · rw [hscan]
        exact hstore

/-- Without room for the terminator the name is written past the end of `n`. -/
theorem parseEmergencyRequestInBuffers_overruns
    (h : nameOverruns MAX_EMERGENCY_NAME_LENGTH (sscanf EMERGENCY_REQUEST_SYNTAX message.1) =
      true) :
    parseEmergencyRequestInBuffers n message types envh envw = .error .outOfBounds := by
  have hstore : storeName n.1 (sscanf EMERGENCY_REQUEST_SYNTAX message.1) =
      .error .outOfBounds := by
    rcases storeName_cases n message with ⟨-, hstore⟩ | hnil | ⟨name, items, -, hscan, hlt, -, -⟩
    · exact hstore
    · rw [hnil] at h
      cases h
    · rw [hscan] at h
      exact absurd (of_decide_eq_true h) (not_le.mpr hlt)
  rw [parseEmergencyRequestInBuffers, hstore]
  rfl

/-- With room for the terminator the record holds what `parseEmergencyRequest` says. -/
theorem parseEmergencyRequestInBuffers_fits (n : NameBuffer) (types : List EmergencyType)
    (envh envw : ℤ)
    (h : nameOverruns MAX_EMERGENCY_NAME_LENGTH (sscanf EMERGENCY_REQUEST_SYNTAX message.1) =
      false) :
    match parseEmergencyRequest message.1 types envh envw with
    | none => parseEmergencyRequestInBuffers n message types envh envw = .ok none
    | some request => ∃ emergencyName,
        parseEmergencyRequestInBuffers n message types envh envw =
          .ok (some ⟨emergencyName, request.x, request.y⟩) ∧
        emergencyName.length = MAX_EMERGENCY_NAME_LENGTH ∧
        Holds emergencyName request.emergencyName := by
  unfold parseEmergencyRequestInBuffers parseEmergencyRequest
  rcases storeName_cases n message with ⟨hoverruns, -⟩ | hnil |
    ⟨name, items, buffer, hscan, hlt, hstore, hholds⟩
  · rw [h] at hoverruns
    cases hoverruns
  · rw [hnil]
    rfl
  · rw [hstore, hscan]
    -- only three numbers behind the name let the scan go through
    rcases items with _ | ⟨x | _, _ | ⟨y | _, _ | ⟨d | _, _ | ⟨_, _⟩⟩⟩⟩
    all_goals try rfl
    obtain ⟨trimmed, hvalidate, htrimmed⟩ :=
      emergencyRequestValuesAreIllegalInPlace_holds hholds types envh envw x y
    obtain ⟨copy, hcopy, hlength, hcopied⟩ :=
      htrimmed.strncpy ((length_trimRight_le name).trans_lt hlt)
    cases hillegal : emergencyRequestValuesAreIllegal types envh envw name x y with
    | true =>
        simp only [hillegal, if_true]
        show (emergencyRequestValuesAreIllegalInPlace types envh envw buffer x y).bind _ = _
        rw [hvalidate, hillegal]
        rfl
    | false =>
        simp only [hillegal, Bool.false_eq_true, if_false]
        refine ⟨copy, ?_, hlength, hcopied⟩
        show (emergencyRequestValuesAreIllegalInPlace types envh envw buffer x y).bind _ = _
        rw [hvalidate, hillegal]
        show (strncpy trimmed MAX_EMERGENCY_NAME_LENGTH).bind _ = _
        rw [hcopy]
        rfl

theorem reduceOption_filled {α : Type*} (size : ℕ) (l : List α) :
    (filled size l).reduceOption = l := by
  rw [filled, List.reduceOption_append, calloc, List.reduceOption_replicate_none, List.append_nil]
  simp [List.reduceOption]

/-- The loop of the copy leaves the array when there are more requests than cells. -/
theorem copyRescuerRequests_overruns {requests : List RescuerRequest}
    (hlength : MAX_RESCUER_REQ_NUMBER_PER_EMERGENCY < requests.length) {left i : ℕ}
    (hleft : i + left = requests.length) (hi : i ≤ MAX_RESCUER_REQ_NUMBER_PER_EMERGENCY) :
    copyRescuerRequests (filled MAX_RESCUER_REQ_NUMBER_PER_EMERGENCY requests) left i
      (filled MAX_RESCUER_REQ_NUMBER_PER_EMERGENCY (requests.take i)) = none := by
  induction left generalizing i with
  | zero => omega
  | succ left ih =>
      have hlt : i < requests.length := by omega
      have hread : (filled MAX_RESCUER_REQ_NUMBER_PER_EMERGENCY requests)[i]? =
          some (some requests[i]) := by
        rw [filled, List.getElem?_append_left (by simpa using hlt)]
        simp [hlt]
      have htake : (requests.take i).length = i := List.length_take_of_le (by omega)
      rw [copyRescuerRequests, hread]
      dsimp only
      rcases hi.lt_or_eq with hroom | hfull
      · have hstore := store_filled (l := requests.take i) (by rwa [htake]) requests[i]
        rw [htake, List.take_append_getElem hlt] at hstore
        rw [hstore]
        exact ih (by omega) hroom
      · -- the cell behind the last one
        rw [store, if_neg, Option.bind_none]
        rw [length_filled (by rw [htake]; exact hi)]
        omega

/-- The copy of the requests of a type fits its array up to the size of the array. -/
theorem allocateAndCopyRescuerRequests_cases (type : EmergencyType) :
    (type.rescuers.length ≤ MAX_RESCUER_REQ_NUMBER_PER_EMERGENCY ∧
        allocateAndCopyRescuerRequests (requestArray type) type.rescuers.length =
          some (requestArray type)) ∨
      (MAX_RESCUER_REQ_NUMBER_PER_EMERGENCY < type.rescuers.length ∧
        allocateAndCopyRescuerRequests (requestArray type) type.rescuers.length = none) := by
  by_cases hlength : type.rescuers.length ≤ MAX_RESCUER_REQ_NUMBER_PER_EMERGENCY
  · exact .inl ⟨hlength, allocateAndCopyRescuerRequests_filled hlength⟩
  · have hlong := Nat.lt_of_not_le hlength
    exact .inr ⟨hlong, copyRescuerRequests_overruns hlong (Nat.zero_add _) (Nat.zero_le _)⟩

/-- `mallocate_emergency` on a record that holds the trimmed name of a type. -/
theorem mallocateEmergencyInBuffers_eq {r : RequestRecord} {request : EmergencyRequest}
    {type : EmergencyType} (hname : Holds r.emergencyName request.emergencyName)
    (hx : r.x = request.x) (hy : r.y = request.y)
    (htype : getEmergencyTypeByName request.emergencyName types = some type) :
    mallocateEmergencyInBuffers table types r tick =
      if type.rescuers.length ≤ MAX_RESCUER_REQ_NUMBER_PER_EMERGENCY then
        .ok ((mallocateEmergency table types request tick).getD default)
      else .error .outOfBounds := by
  obtain ⟨trimmed, hlookup, -⟩ := getEmergencyTypeInPlace_holds hname types
  rw [htype] at hlookup
  unfold mallocateEmergencyInBuffers
  rw [hlookup]
  show (match allocateAndCopyRescuerRequests (requestArray type) type.rescuers.length with
    | none => .error .outOfBounds
    | some rescuersMissing => _ : Except MemoryFault Emergency) = _
  rcases allocateAndCopyRescuerRequests_cases type with ⟨hroom, hcopy⟩ | ⟨hfull, hcopy⟩
  · rw [hcopy, if_pos hroom, mallocateEmergency, htype, requestArray, hx, hy]
    simp only [reduceOption_filled]
    rfl
  · rw [hcopy, if_neg (Nat.not_le_of_lt hfull)]

/-- A request that is accepted: the type of its name is there, also for its trimmed name. -/
theorem parseEmergencyRequest_eq_some {text : CString} {request : EmergencyRequest}
    (h : parseEmergencyRequest text types envh envw = some request) :
    ∃ name x y d type, sscanf EMERGENCY_REQUEST_SYNTAX text =
        [.str name, .int x, .int y, .int d] ∧
      emergencyRequestValuesAreIllegal types envh envw name x y = false ∧
      getEmergencyTypeByName name types = some type ∧
      request = ⟨trimRight name, x, y⟩ ∧
      getEmergencyTypeByName request.emergencyName types = some type := by
  unfold parseEmergencyRequest at h
  split at h
  · rename_i name x y d hscan
    cases hillegal : emergencyRequestValuesAreIllegal types envh envw name x y with
    | true =>
        rw [hillegal] at h
        cases h
    | false =>
        rw [hillegal] at h
        obtain rfl : (⟨trimRight name, x, y⟩ : EmergencyRequest) = request := by simpa using h
        have hsome : (getEmergencyTypeByName name types).isSome = true := by
          simp only [emergencyRequestValuesAreIllegal, Bool.or_eq_false_iff] at hillegal
          obtain ⟨⟨⟨-, hnone⟩, -⟩, -⟩ := hillegal
          simpa using hnone
        obtain ⟨type, htype⟩ := Option.isSome_iff_exists.mp hsome
        refine ⟨name, x, y, d, type, hscan, hillegal, htype, rfl, ?_⟩
        rw [getEmergencyTypeByName, trimRight_trimRight]
        exact htype
  · cases h

end arrays

/-! ## Staying inside -/

section safety

variable (table : List PriorityRule) (types : List EmergencyType) (envh envw : ℤ) (n : NameBuffer)
  (message : Message) (tick : ℕ)

/-- The receiver leaves no array and follows no `NULL`; what it copies is terminated, and the
second lookup finds the type that the first one has found. -/
structure StaysInside : Prop where
  runs : ∃ result, receiveRequest table types envh envw n message tick = .ok result
  copied : ∀ r, parseEmergencyRequestInBuffers n message types envh envw = .ok (some r) →
    ∃ name items type trimmed, sscanf EMERGENCY_REQUEST_SYNTAX message.1 = .str name :: items ∧
      NUL ∈ r.emergencyName ∧ getEmergencyTypeByName name types = some type ∧
      getEmergencyTypeInPlace r.emergencyName types = .ok (trimmed, some type)

/-- The scanned name leaves room for its terminator, and the type of a request that is
accepted has no more requests than their array has cells. -/
structure FitsArrays : Prop where
  name : ∀ name items, sscanf EMERGENCY_REQUEST_SYNTAX message.1 = .str name :: items →
    name.length < MAX_EMERGENCY_NAME_LENGTH
  requests : ∀ name x y d type,
    sscanf EMERGENCY_REQUEST_SYNTAX message.1 = [.str name, .int x, .int y, .int d] →
      emergencyRequestValuesAreIllegal types envh envw name x y = false →
      getEmergencyTypeByName name types = some type →
      type.rescuers.length ≤ MAX_RESCUER_REQ_NUMBER_PER_EMERGENCY

variable {table types envh envw n message tick}

theorem nameOverruns_eq_false_iff {size : ℕ} {items : List Item} :
    nameOverruns size items = false ↔
      ∀ name rest, items = .str name :: rest → name.length < size := by
  rcases items with _ | ⟨_ | name, rest⟩ <;> simp [nameOverruns]

/-- A record and the emergency that is made of it, or the fault of the copy of its requests. -/
theorem receiveRequest_accepted (hfits : nameOverruns MAX_EMERGENCY_NAME_LENGTH
      (sscanf EMERGENCY_REQUEST_SYNTAX message.1) = false) {request : EmergencyRequest}
    (hrequest : parseEmergencyRequest message.1 types envh envw = some request)
    {type : EmergencyType}
    (htype : getEmergencyTypeByName request.emergencyName types = some type) :
    receiveRequest table types envh envw n message tick =
      if type.rescuers.length ≤ MAX_RESCUER_REQ_NUMBER_PER_EMERGENCY then
        .ok (mallocateEmergency table types request tick)
      else .error .outOfBounds := by
  have hparse := parseEmergencyRequestInBuffers_fits n types envh envw hfits
  rw [hrequest] at hparse
  obtain ⟨copy, hcopy, -, hholds⟩ := hparse
  unfold receiveRequest
  rw [hcopy]
  show (mallocateEmergencyInBuffers table types _ tick).bind _ = _
  rw [mallocateEmergencyInBuffers_eq hholds rfl rfl htype, mallocateEmergency, htype]
  split <;> rfl

/-- In arrays that are large enough the receiver does what the functions on strings say. -/
theorem receiveRequest_eq (h : FitsArrays types envh envw message) :
    receiveRequest table types envh envw n message tick =
      .ok ((parseEmergencyRequest message.1 types envh envw).bind fun request =>
        mallocateEmergency table types request tick) := by
  have hfits := nameOverruns_eq_false_iff.mpr h.name
  cases hrequest : parseEmergencyRequest message.1 types envh envw with
  | none =>
      have hparse := parseEmergencyRequestInBuffers_fits n types envh envw hfits
      rw [hrequest] at hparse
      unfold receiveRequest
      rw [hparse]
      rfl
  | some request =>
      obtain ⟨name, x, y, d, type, hscan, hlegal, hfound, -, hagain⟩ :=
        parseEmergencyRequest_eq_some hrequest
      rw [receiveRequest_accepted hfits hrequest hagain,
        if_pos (h.requests name x y d type hscan hlegal hfound)]
      rfl

/-- **A request stays inside its arrays exactly when they are large enough.** -/
theorem request_stays_inside_iff (table : List PriorityRule) (types : List EmergencyType)
    (envh envw : ℤ) (n : NameBuffer) (message : Message) (tick : ℕ) :
    StaysInside table types envh envw n message tick ↔ FitsArrays types envh envw message := by
  constructor
  · rintro ⟨⟨result, hruns⟩, -⟩
    -- a name that overruns its buffer is a fault, and so is an overrun of the copy
    have hfits : nameOverruns MAX_EMERGENCY_NAME_LENGTH
        (sscanf EMERGENCY_REQUEST_SYNTAX message.1) = false := by
      by_contra hoverruns
      have hparse : parseEmergencyRequestInBuffers n message types envh envw = _ :=
        parseEmergencyRequestInBuffers_overruns (Bool.of_not_eq_false hoverruns)
      rw [receiveRequest, hparse] at hruns
      cases hruns
    refine ⟨nameOverruns_eq_false_iff.mp hfits, ?_⟩
    intro name x y d type hscan hlegal htype
    have hrequest : parseEmergencyRequest message.1 types envh envw =
        some ⟨trimRight name, x, y⟩ := by
      rw [parseEmergencyRequest, hscan]
      simp only [hlegal, Bool.false_eq_true, if_false]
    have hagain : getEmergencyTypeByName (trimRight name) types = some type := by
      rw [getEmergencyTypeByName, trimRight_trimRight]
      exact htype
    by_contra hfull
    rw [receiveRequest_accepted hfits hrequest hagain, if_neg hfull] at hruns
    cases hruns
  · intro h
    refine ⟨⟨_, receiveRequest_eq h⟩, ?_⟩
    intro r hr
    have hparse := parseEmergencyRequestInBuffers_fits n types envh envw
      (nameOverruns_eq_false_iff.mpr h.name)
    cases hrequest : parseEmergencyRequest message.1 types envh envw with
    | none =>
        rw [hrequest] at hparse
        simp only [hparse] at hr
        cases hr
    | some request =>
        rw [hrequest] at hparse
        obtain ⟨copy, hcopy, -, hholds⟩ := hparse
        rw [hcopy] at hr
        obtain rfl : (⟨copy, request.x, request.y⟩ : RequestRecord) = r := by simpa using hr
        obtain ⟨name, x, y, d, type, hscan, -, hfound, -, hagain⟩ :=
          parseEmergencyRequest_eq_some hrequest
        obtain ⟨trimmed, hlookup, -⟩ := getEmergencyTypeInPlace_holds hholds types
        rw [hagain] at hlookup
        exact ⟨name, _, type, trimmed, hscan, hholds.mem, hfound, hlookup⟩

end safety

/-- A legal request whose name, with the blanks behind it, fills the scan width. -/
def paddedRequest : Message :=
  ⟨"Fire".toList ++ List.replicate 60 ' ' ++ "1 1 0".toList, by decide⟩

/-- The terminator of a name of the maximum length is written past the end of `n`, in a request
that the checks would accept as well as in a text without any number. -/
theorem terminator_past_the_end :
    parseEmergencyRequest paddedRequest.1 [⟨0, "Fire".toList, []⟩] 9 9 =
        some ⟨"Fire".toList, 1, 1⟩ ∧
      receiveRequest defaultPriorityLookupTable [⟨0, "Fire".toList, []⟩] 9 9
          ⟨List.replicate 64 NUL, rfl⟩ paddedRequest 0 = .error .outOfBounds ∧
      receiveRequest defaultPriorityLookupTable [] 9 9 ⟨List.replicate 64 NUL, rfl⟩
          ⟨List.replicate 64 'a', by decide⟩ 0 = .error .outOfBounds := by
  refine ⟨by decide, ?_, ?_⟩
  · rfl
  · rfl

end EmergencyDispatch
