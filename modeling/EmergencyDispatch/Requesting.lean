import EmergencyDispatch.Client
import EmergencyDispatch.Parsers.Env
import EmergencyDispatch.Parsers.EmergencyTypes

/-!
# Requesting an emergency

From a line of `emergency_types.conf` over the arguments of the client to the
parser of the server: the name is what stands between brackets in the first
grammar, an argument in the second and everything before the first digit in the
third.  The blank that the client adds is trimmed away again, so that a name
survives exactly when it has no digit.
-/

namespace EmergencyDispatch

open Scanf

/-- A number as it is typed. -/
def decimal (n : ℕ) : CString := Nat.toDigits 10 n

/-- The message for an emergency of this type at `(x, y)`. -/
def requestMessage (type : EmergencyType) (x y delay : ℕ) : CString :=
  composeRequest type.emergencyDesc (decimal x) (decimal y) (decimal delay)

/-- The server accepts the message, as a request for this type at `(x, y)`. -/
def RequestedAs (types : List EmergencyType) (env : Environment) (message : CString)
    (type : EmergencyType) (x y : ℕ) : Prop :=
  ∃ request, parseEmergencyRequest message types env.height env.width = some request ∧
    getEmergencyTypeByName request.emergencyName types = some type ∧
    request.x = x ∧ request.y = y

/-! ## Names -/

theorem trimRight_append_blank (name : CString) : trimRight (name ++ [' ']) = trimRight name :=
  List.rdropWhile_concat_pos _ _ _ rfl

section lookup

variable {table : List PriorityRule} {rescuers : List RescuerType} {types : List EmergencyType}
  {type : EmergencyType} {name : CString}

/-- The lookup finds the type of the trimmed name, and nothing else. -/
theorem LegalEmergencies.getByName_iff (h : LegalEmergencies table rescuers types)
    (htype : type ∈ types) :
    getEmergencyTypeByName name types = some type ↔ trimRight name = type.emergencyDesc := by
  constructor
  · intro hfind
    have hname := List.find?_some hfind
    exact (beq_iff_eq.mp hname).symm
  · intro hname
    cases hfind : getEmergencyTypeByName name types with
    | none =>
        rw [getEmergencyTypeByName_eq_none_iff, hname] at hfind
        exact absurd (List.mem_map_of_mem htype) hfind
    | some found =>
        have hfound : found ∈ types := List.mem_of_find?_eq_some hfind
        have hsame : found.emergencyDesc = type.emergencyDesc := by
          have hname' := List.find?_some hfind
          rw [← hname]
          exact beq_iff_eq.mp hname'
        rw [List.inj_on_of_nodup_map h.names hfound htype hsame]

end lookup

/-! ## What the server scans -/

section scan

variable {name : CString}

/-- A number that follows a blank, or nothing, is read back. -/
theorem sscanf_decimal {n : ℕ} (hn : n < 2 ^ 31) {s rest : CString}
    (hs : s.dropWhile isSpace = decimal n ++ rest) (hrest : Stops Char.isDigit rest)
    (format : List Directive) :
    sscanf (.space :: .int :: format) s = .int n :: sscanf format rest := by
  rw [sscanf, hs, sscanf, decimal, scanInt_toDigits hn hrest]

theorem dropWhile_decimal (n : ℕ) (rest : CString) :
    (decimal n ++ rest).dropWhile isSpace = decimal n ++ rest := by
  unfold decimal
  cases hdigits : Nat.toDigits 10 n with
  | nil => exact absurd hdigits Nat.toDigits_ne_nil
  | cons c digits =>
      have hc : c.isDigit = true :=
        isDigit_of_mem (n := n) (by rw [hdigits]; exact List.mem_cons_self)
      rw [List.cons_append, List.dropWhile_cons_of_neg]
      simp [(not_special_of_isDigit hc).1]

theorem stops_decimal (n : ℕ) (rest : CString) :
    Stops (fun c => !c.isDigit) (decimal n ++ rest) := by
  intro c hc
  unfold decimal at hc
  cases hdigits : Nat.toDigits 10 n with
  | nil => exact absurd hdigits Nat.toDigits_ne_nil
  | cons d digits =>
      rw [hdigits] at hc
      obtain rfl : d = c := Option.some.inj hc
      have hd : d.isDigit = true :=
        isDigit_of_mem (n := n) (by rw [hdigits]; exact List.mem_cons_self)
      simp [hd]

/-- What follows a name: the blank is part of the run that is scanned with it. -/
def requestEnd (x y delay : ℕ) : CString :=
  decimal x ++ ' ' :: (decimal y ++ ' ' :: decimal delay)

theorem composeRequest_eq (name : CString) (x y delay : ℕ) :
    composeRequest name (decimal x) (decimal y) (decimal delay) =
      name ++ [' '] ++ requestEnd x y delay := by
  simp [composeRequest, requestEnd]

theorem sscanf_requestEnd {x y delay : ℕ} (hx : x < 2 ^ 31) (hy : y < 2 ^ 31)
    (hdelay : delay < 2 ^ 31) :
    sscanf [.space, .int, .space, .int, .space, .int] (requestEnd x y delay) =
      [.int x, .int y, .int delay] := by
  have hblank : ∀ rest : CString, Stops Char.isDigit (' ' :: rest) := by
    intro rest c hc
    obtain rfl : ' ' = c := Option.some.inj hc
    rfl
  have hskip : ∀ (n : ℕ) (rest : CString),
      (' ' :: (decimal n ++ rest)).dropWhile isSpace = decimal n ++ rest := by
    intro n rest
    rw [List.dropWhile_cons_of_pos (by decide), dropWhile_decimal]
  have hend : (' ' :: decimal delay).dropWhile isSpace = decimal delay ++ [] := by
    have h := hskip delay []
    rwa [List.append_nil] at h ⊢
  rw [requestEnd, sscanf_decimal hx (dropWhile_decimal _ _) (hblank _),
    sscanf_decimal hy (hskip _ _) (hblank _), sscanf_decimal hdelay hend nofun, sscanf]

/-- The message for a name without digits. -/
theorem sscanf_composeRequest (hlength : name.length + 1 < MAX_EMERGENCY_NAME_LENGTH)
    (hname : ∀ c ∈ name, c.isDigit = false) {x y delay : ℕ} (hx : x < 2 ^ 31) (hy : y < 2 ^ 31)
    (hdelay : delay < 2 ^ 31) :
    sscanf EMERGENCY_REQUEST_SYNTAX (composeRequest name (decimal x) (decimal y) (decimal delay)) =
      [.str (name ++ [' ']), .int x, .int y, .int delay] := by
  have hrun : ∀ c ∈ name ++ [' '], (!c.isDigit) = true := by
    intro c hc
    rcases List.mem_append.mp hc with hc | hc
    · simp [hname c hc]
    · obtain rfl := List.mem_singleton.mp hc
      rfl
  have hstops : Stops (fun c => !c.isDigit) (requestEnd x y delay) := stops_decimal x _
  rw [composeRequest_eq, EMERGENCY_REQUEST_SYNTAX,
    sscanf_set (by simp) hrun (by simpa using hlength) hstops, sscanf_requestEnd hx hy hdelay]

/-- A name with a digit is cut off in front of it. -/
theorem request_name_lt {types : List EmergencyType} {envh envw : ℤ}
    {request : EmergencyRequest} {rest : CString}
    (hlength : name.length < MAX_EMERGENCY_NAME_LENGTH)
    (hdigit : ∃ c ∈ name, c.isDigit = true)
    (h : parseEmergencyRequest (name ++ rest) types envh envw = some request) :
    request.emergencyName.length < name.length := by
  -- the first digit is `c`
  obtain ⟨c, hfind⟩ := Option.isSome_iff_exists.mp (List.find?_isSome.mpr hdigit)
  obtain ⟨hc, before, after, rfl, hbefore⟩ := List.find?_eq_some_iff_append.mp hfind
  have hstops : Stops (fun d => !d.isDigit) (c :: (after ++ rest)) := by
    intro d hd
    obtain rfl : c = d := Option.some.inj hd
    simp [hc]
  rw [List.append_assoc, List.cons_append] at h
  unfold parseEmergencyRequest at h
  rw [EMERGENCY_REQUEST_SYNTAX] at h
  cases before with
  | nil =>
      rw [List.nil_append, sscanf_set_nil hstops] at h
      cases h
  | cons d before =>
      rw [sscanf_set (by simp) hbefore (by simp at hlength ⊢; omega) hstops] at h
      split at h
      · rename_i n x y delay hitems
        split at h
        · cases h
        · obtain rfl := Option.some.inj h
          obtain ⟨hn, -⟩ := List.cons.inj hitems
          obtain rfl := Item.str.inj hn
          refine lt_of_le_of_lt (length_trimRight_le _) ?_
          simp
      · cases h

end scan

/-! ## The trip of a request -/

section trip

variable {table : List PriorityRule} {rescuers : List RescuerType} {types : List EmergencyType}
  {type : EmergencyType} {env : Environment} {x y delay : ℕ}

theorem parseEnv_bounds {buffer : CString} {envFile : List Char}
    (h : parseEnv buffer envFile = some env) : env.width ≤ 1024 ∧ env.height ≤ 1024 := by
  unfold parseEnv at h
  dsimp only at h
  split at h
  · cases h
  · rename_i hlegal
    split at h
    · cases h
    · rw [Option.some.injEq] at h
      rw [h] at hlegal
      simp only [environmentValuesAreIllegal, Bool.or_eq_true, decide_eq_true_eq, not_or, not_lt,
        gt_iff_lt, MAX_X_COORDINATE_ABSOLUTE_VALUE, MAX_Y_COORDINATE_ABSOLUTE_VALUE] at hlegal
      obtain ⟨⟨⟨-, hheight⟩, -⟩, hwidth⟩ := hlegal
      constructor
      · rcases lt_or_ge env.width 0 with hneg | hpos
        · omega
        · rwa [wrappedABS_of_nonneg hpos] at hwidth
      · rcases lt_or_ge env.height 0 with hneg | hpos
        · omega
        · rwa [wrappedABS_of_nonneg hpos] at hheight

theorem length_decimal_le {n : ℕ} (hn : n < 10000) : (decimal n).length ≤ 4 :=
  (Nat.length_toDigits_le_iff (by decide) (by decide)).mpr hn

theorem extractLastToken_append {s token : CString} {separator : Char}
    (htoken : ∀ c ∈ token, c ≠ separator) :
    extractLastToken (s ++ separator :: token) separator = token := by
  have hrun : ∀ c ∈ token.reverse, (c != separator) = true := by
    intro c hc
    simpa using htoken c (List.mem_reverse.mp hc)
  have hstops : Stops (fun c => c != separator) (separator :: s.reverse) := by
    intro c hc
    obtain rfl : separator = c := Option.some.inj hc
    simp
  rw [extractLastToken, List.rtakeWhile]
  simp only [List.reverse_append, List.reverse_cons, List.append_assoc, List.singleton_append]
  rw [(takeWhile_append hrun hstops).1, List.reverse_reverse]

theorem handleNormalModeInput_eq (hlength : type.emergencyDesc.length ≤ 62) (hx : x < 10000)
    (hy : y < 10000) (hdelay : delay ≤ 32) :
    handleNormalModeInput type.emergencyDesc (decimal x) (decimal y) (decimal delay) =
      some (requestMessage type x y delay) := by
  have hlast : ∀ c ∈ decimal delay, c.isDigit = true := fun c hc => isDigit_of_mem hc
  have hsplit : requestMessage type x y delay =
      (type.emergencyDesc ++ ' ' :: (decimal x ++ ' ' :: decimal y)) ++ ' ' :: decimal delay := by
    simp [requestMessage, composeRequest]
  -- the last token is the delay
  have htoken : extractLastToken (requestMessage type x y delay)
      EMERGENCY_REQUESTS_ARGUMENT_SEPARATOR_CHAR = decimal delay := by
    rw [hsplit]
    refine extractLastToken_append fun c hc => ?_
    rintro rfl
    exact absurd (hlast _ hc) (by decide)
  have hscan : sscanf REQUEST_DELAY_SYNTAX (decimal delay) = [.int delay] := by
    have hstops : Stops Char.isDigit [] := nofun
    have hread := scanUInt_toDigits (n := delay) (by omega) hstops
    rw [List.append_nil] at hread
    rw [REQUEST_DELAY_SYNTAX, sscanf, decimal, hread]
    rfl
  have hnewline : (requestMessage type x y delay).getLast? ≠ some '\n' := by
    intro hlf
    have hmem : '\n' ∈ decimal delay := by
      have hne : decimal delay ≠ [] := Nat.toDigits_ne_nil
      rw [hsplit, List.getLast?_append_cons, List.getLast?_cons_of_ne_nil hne] at hlf
      exact List.mem_of_getLast? hlf
    exact absurd (hlast _ hmem) (by decide)
  have hxlength := length_decimal_le hx
  have hylength := length_decimal_le hy
  have hdlength := length_decimal_le (n := delay) (by omega)
  unfold handleNormalModeInput MAX_EMERGENCY_REQUEST_LENGTH
  rw [if_neg (by omega), sendEmergencyRequestMessage]
  rw [requestMessage] at htoken hnewline
  rw [htoken, hscan]
  show (if MAX_REQUEST_DELAY_SECONDS < (delay : ℤ) then none else _) = _
  rw [if_neg (by unfold MAX_REQUEST_DELAY_SECONDS; omega), if_neg hnewline, requestMessage]

/-- A legal request for a type whose name has no digit is accepted. -/
theorem requestedAs_of_noDigit (hlegal : LegalEmergencies table rescuers types)
    (htype : type ∈ types) (hlength : type.emergencyDesc.length ≤ 62)
    (hdigits : ∀ c ∈ type.emergencyDesc, c.isDigit = false) (hx : (x : ℤ) < env.width)
    (hy : (y : ℤ) < env.height) (hwidth : env.width ≤ 1024) (hheight : env.height ≤ 1024)
    (hdelay : delay ≤ 32) : RequestedAs types env (requestMessage type x y delay) type x y := by
  have htrim : trimRight (type.emergencyDesc ++ [' ']) = type.emergencyDesc := by
    rw [trimRight_append_blank, hlegal.trimmed type htype]
  have hfound : getEmergencyTypeByName (type.emergencyDesc ++ [' ']) types = some type :=
    (hlegal.getByName_iff htype).mpr htrim
  have hscan := sscanf_composeRequest (by unfold MAX_EMERGENCY_NAME_LENGTH; omega) hdigits
    (by omega : x < 2 ^ 31) (by omega : y < 2 ^ 31) (by omega : delay < 2 ^ 31)
  have hlegalValues : emergencyRequestValuesAreIllegal types env.height env.width
      (type.emergencyDesc ++ [' ']) x y = false := by
    have habs : ∀ {a b : ℤ}, 0 ≤ a → a < b → wrappedABS a ≤ wrappedABS b ∧ ¬ABS a < 0 := by
      intro a b ha hab
      rw [wrappedABS_of_nonneg ha, wrappedABS_of_nonneg (ha.trans hab.le)]
      exact ⟨hab.le, not_lt.mpr (ABS_nonneg a)⟩
    obtain ⟨hx', hx₀⟩ := habs (Int.natCast_nonneg x) hx
    obtain ⟨hy', hy₀⟩ := habs (Int.natCast_nonneg y) hy
    simp [emergencyRequestValuesAreIllegal, hfound, MIN_X_COORDINATE_ABSOLUTE_VALUE,
      MIN_Y_COORDINATE_ABSOLUTE_VALUE, hx₀, hy₀, hx', hy']
  refine ⟨⟨trimRight (type.emergencyDesc ++ [' ']), x, y⟩, ?_, ?_, rfl, rfl⟩
  · unfold parseEmergencyRequest
    rw [requestMessage, hscan]
    show (if _ then none else some _) = _
    rw [hlegalValues]
    rfl
  · rw [hlegal.getByName_iff htype, trimRight_trimRight, htrim]

/-- **A configured emergency can be requested exactly when its name has no digit.**  For
every emergency type that the parser accepts, every cell of the map and every legal delay
the client sends what it composes; the server accepts it as a request for this type at
this cell if and only if there is no digit in the name. -/
theorem emergency_requestable_iff {file buffer envFile : List Char}
    (hparse : parseEmergencies file rescuers table = some types)
    (henv : parseEnv buffer envFile = some env) (htype : type ∈ types)
    (hlength : type.emergencyDesc.length ≤ 62) (hx : (x : ℤ) < env.width)
    (hy : (y : ℤ) < env.height) (hdelay : delay ≤ 32) :
    handleNormalModeInput type.emergencyDesc (decimal x) (decimal y) (decimal delay) =
        some (requestMessage type x y delay) ∧
      (RequestedAs types env (requestMessage type x y delay) type x y ↔
        ∀ c ∈ type.emergencyDesc, c.isDigit = false) := by
  have hlegal := parseEmergencies_legal hparse
  obtain ⟨hwidth, hheight⟩ := parseEnv_bounds henv
  refine ⟨handleNormalModeInput_eq hlength (by omega) (by omega) hdelay, ?_⟩
  constructor
  · rintro ⟨request, hrequest, hfound, -, -⟩
    by_contra hdigits
    push Not at hdigits
    obtain ⟨c, hc, hdigit⟩ := hdigits
    -- the type that is found has the name that was scanned
    have hname := (hlegal.getByName_iff htype).mp hfound
    have hshort := request_name_lt (by unfold MAX_EMERGENCY_NAME_LENGTH; omega)
      ⟨c, hc, by simpa using hdigit⟩ hrequest
    have htrimmed := length_trimRight_le request.emergencyName
    rw [hname] at htrimmed
    omega
  · intro hdigits
    exact requestedAs_of_noDigit hlegal htype hlength hdigits hx hy hwidth hheight hdelay

end trip

/-! ## Two names -/

/-- One rescuer, and two emergency types, one of which has a digit in its name. -/
def fireBrigade : RescuerType := ⟨['A'], 1, 20, 0, 0, [0]⟩

def fireTypes : List EmergencyType :=
  [⟨0, "Fire".toList, [⟨fireBrigade, 1, 1⟩]⟩, ⟨1, "Fire 2".toList, [⟨fireBrigade, 1, 1⟩]⟩]

def fireTypesFile : List Char := "[Fire] [0] A:1,1;\n[Fire 2] [1] A:1,1;\n".toList

def fireEnv : Environment := ⟨"/fires".toList, 20, 20⟩

def fireEnvFile : List Char := "queue=/fires\nheight=20\nwidth=20\n".toList

theorem fireTypes_parsed :
    parseEmergencies fireTypesFile [fireBrigade] defaultPriorityLookupTable = some fireTypes := by
  decide +kernel

theorem fireEnv_parsed : parseEnv [] fireEnvFile = some fireEnv := by
  decide +kernel

/-- `Fire` can be requested. -/
theorem emergency_requestable_fire :
    RequestedAs fireTypes fireEnv "Fire 3 4 0".toList ⟨0, "Fire".toList, [⟨fireBrigade, 1, 1⟩]⟩
      3 4 := by
  have hmem : (⟨0, "Fire".toList, [⟨fireBrigade, 1, 1⟩]⟩ : EmergencyType) ∈ fireTypes := by decide
  have hdelay : 0 ≤ 32 := by decide
  have htrip := emergency_requestable_iff (x := 3) (y := 4) fireTypes_parsed fireEnv_parsed hmem
    (by decide) (by decide) (by decide) hdelay
  refine htrip.2.mpr fun c hc => ?_
  have hnone : ("Fire".toList.all fun c => !c.isDigit) = true := by decide
  simpa using List.all_eq_true.mp hnone c hc

/-- `Fire 2` cannot: the server accepts the message as a request for `Fire` at `(2, 3)`. -/
theorem emergency_not_requestable :
    let type : EmergencyType := ⟨1, "Fire 2".toList, [⟨fireBrigade, 1, 1⟩]⟩
    parseEmergencies fireTypesFile [fireBrigade] defaultPriorityLookupTable = some fireTypes ∧
      parseEnv [] fireEnvFile = some fireEnv ∧ type ∈ fireTypes ∧
      handleNormalModeInput type.emergencyDesc ['3'] ['4'] ['0'] = some "Fire 2 3 4 0".toList ∧
      parseEmergencyRequest "Fire 2 3 4 0".toList fireTypes fireEnv.height fireEnv.width =
        some ⟨"Fire".toList, 2, 3⟩ ∧
      ¬RequestedAs fireTypes fireEnv "Fire 2 3 4 0".toList type 3 4 := by
  have hparse : parseEmergencyRequest "Fire 2 3 4 0".toList fireTypes fireEnv.height
      fireEnv.width = some ⟨"Fire".toList, 2, 3⟩ := by decide +kernel
  refine ⟨fireTypes_parsed, fireEnv_parsed, by decide, by decide +kernel, hparse, ?_⟩
  rintro ⟨request, hrequest, -, hx, -⟩
  rw [hparse] at hrequest
  obtain rfl := Option.some.inj hrequest
  exact absurd hx (by decide)

end EmergencyDispatch
