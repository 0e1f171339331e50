import EmergencyDispatch.SearchLinks

/-!
# The life of an emergency and the links

The receiver makes an emergency with everything owed to it.  From then on the
sections that do not move twins write its status, its priority and its timers
only, and a status says the truth about the counters: in progress means that
nobody has still to arrive, completed that nobody has still to finish.
-/

namespace EmergencyDispatch

variable {cfg : Config} {n : EmergencyId} {w w' : World} {t : TwinId} {e : EmergencyId}
  {owed : EmergencyId → (RescuerType → Bool) → ℕ} {table : List PriorityRule}

/-! ## Emergencies with nobody left to finish -/

theorem Linked.not_serves_of_notDone (h : Linked cfg n w owed)
    (hdone : (w.emergencies e).rescuersNotDoneYet = 0) (t : TwinId) :
    (w.twins t).serves e = false := by
  have hlength := h.length_slots e
  have hnotDone := h.notDone e
  have hnil : (w.emergencies e).rescuerTwins.reduceOption = [] := by
    rw [← List.length_eq_zero_iff]
    omega
  by_contra hserves
  obtain ⟨i, hi⟩ := (h.slot_iff t e).mpr (by simpa using hserves)
  have hmem := List.reduceOption_mem_iff.mpr (List.mem_of_getElem? hi)
  simp [hnil] at hmem

theorem Linked.notDone_nonneg (h : Linked cfg n w owed) (e : EmergencyId) :
    0 ≤ (w.emergencies e).rescuersNotDoneYet := by
  rw [h.notDone e]
  omega

theorem Linked.notArrived_nonneg (h : Linked cfg n w owed) (e : EmergencyId) :
    0 ≤ (w.emergencies e).rescuersNotArrivedYet := by
  rw [h.notArrived e]
  omega

/-! ## Sections that write the status -/

/-- An emergency whose status is written, and nothing that the links depend on. -/
theorem setEmergency_linked (h : WellLinked cfg n w) (em : Emergency)
    (htype : em.type = (w.emergencies e).type)
    (hcount : em.rescuerCount = (w.emergencies e).rescuerCount)
    (hmissing : em.rescuersMissing = (w.emergencies e).rescuersMissing)
    (hslots : em.rescuerTwins = (w.emergencies e).rescuerTwins)
    (hnotArrived : em.rescuersNotArrivedYet = (w.emergencies e).rescuersNotArrivedYet)
    (hnotDone : em.rescuersNotDoneYet = (w.emergencies e).rescuersNotDoneYet)
    (hstatus : em.StatusJustified) : WellLinked cfg n (w.setEmergency e em) := by
  have hsame : (w.setEmergency e em).missing = w.missing := by
    funext e' ρ
    by_cases he : e' = e
    · subst he; simp [World.missing, hmissing]
    · simp [World.missing, he]
  rw [WellLinked, hsame]
  refine h.congr (.setEmergency htype hcount (by rw [hmissing]) hslots hnotArrived hnotDone)
    fun e' => ?_
  by_cases he : e' = e
  · subst he; simpa using hstatus
  · simpa [he] using h.status e'

/-- The slots of the workers and the signals do not matter. -/
theorem wellLinked_of_eq (h : WellLinked cfg n w) (htwins : w'.twins = w.twins)
    (hemergencies : w'.emergencies = w.emergencies) (hfinished : w'.finished = w.finished) :
    WellLinked cfg n w' := by
  have hsame : w'.missing = w.missing := by
    funext e ρ
    simp [World.missing, hemergencies]
  rw [WellLinked, hsame]
  exact h.congr_status (.of_eq htwins hemergencies hfinished) fun e => by rw [hemergencies]

/-- What the updater does to the status of an active emergency. -/
inductive StatusMove : EmergencyStatus → EmergencyStatus → Prop
  | same (status : EmergencyStatus) : StatusMove status status
  | pause {status : EmergencyStatus} (h : status ≠ .completed) : StatusMove status .paused
  | start : StatusMove .assigned .inProgress
  | complete {status : EmergencyStatus} (h : status ≠ .paused) : StatusMove status .completed

/-- The update of an active emergency writes its status, its priority and its timers. -/
theorem updateActiveEmergencyState_spec (table : List PriorityRule) (em : Emergency) :
    let em' := (updateActiveEmergencyState table em).1
    em'.type = em.type ∧ em'.rescuerCount = em.rescuerCount ∧
      em'.rescuersMissing = em.rescuersMissing ∧ em'.rescuerTwins = em.rescuerTwins ∧
      em'.rescuersNotArrivedYet = em.rescuersNotArrivedYet ∧
      em'.rescuersNotDoneYet = em.rescuersNotDoneYet ∧ em'.x = em.x ∧ em'.y = em.y := by
  unfold updateActiveEmergencyState promoteEmergency
  split
  · dsimp only; split <;> simp
  · split
    · simp
    · split
      · simp
      · split <;> simp

/-- It changes the status only to say what the counters say. -/
theorem updateActiveEmergencyState_status (table : List PriorityRule) (em : Emergency) :
    (updateActiveEmergencyState table em).1.status = em.status ∨
      (em.status ≠ .paused ∧ em.rescuersNotDoneYet ≤ 0 ∧
        (updateActiveEmergencyState table em).1.status = .completed) ∨
      (em.status = .assigned ∧ em.rescuersNotArrivedYet ≤ 0 ∧
        (updateActiveEmergencyState table em).1.status = .inProgress) := by
  unfold updateActiveEmergencyState promoteEmergency
  split
  · dsimp only; split <;> simp
  · split
    · simp
    · rename_i hpaused
      split
      · rename_i hdone
        exact .inr (.inl ⟨hpaused, hdone, rfl⟩)
      · split
        · rename_i harrived
          exact .inr (.inr ⟨harrived.2, harrived.1, rfl⟩)
        · simp

theorem updateActive_statusMove (em : Emergency) :
    StatusMove em.status (updateActiveEmergencyState table em).1.status := by
  rcases updateActiveEmergencyState_status table em with h | ⟨hpaused, -, h⟩ |
    ⟨hassigned, -, h⟩
  · rw [h]; exact .same _
  · rw [h]; exact .complete hpaused
  · rw [h, hassigned]; exact .start

theorem updateActive_linked (h : WellLinked cfg n w) (e : EmergencyId) :
    WellLinked cfg n (w.setEmergency e
      (updateActiveEmergencyState table (w.emergencies e)).1) := by
  obtain ⟨htype, hcount, hmissing, hslots, hnotArrived, hnotDone, -, -⟩ :=
    updateActiveEmergencyState_spec table (w.emergencies e)
  refine setEmergency_linked h _ htype hcount hmissing hslots hnotArrived hnotDone ?_
  have hold := h.status e
  have := h.notDone_nonneg e
  have := h.notArrived_nonneg e
  rw [Emergency.StatusJustified, hnotArrived, hnotDone]
  rcases updateActiveEmergencyState_status table (w.emergencies e) with hs |
    ⟨-, hdone, hs⟩ | ⟨-, harrived, hs⟩
  · rwa [hs]
  · refine ⟨fun h' => by simp [hs] at h', fun _ => by omega⟩
  · refine ⟨fun _ => by omega, fun h' => by simp [hs] at h'⟩

theorem mapWaiting_linked (h : WellLinked cfg n w) (waiting : List EmergencyId) :
    WellLinked cfg n { w with
      emergencies := fun e =>
        if e ∈ waiting then updateWaitingEmergencyState (w.emergencies e)
        else w.emergencies e } := by
  -- an emergency is as before, or has counted down its timers
  have hfields : ∀ e, (if e ∈ waiting then updateWaitingEmergencyState (w.emergencies e)
      else w.emergencies e) = w.emergencies e ∨
      (if e ∈ waiting then updateWaitingEmergencyState (w.emergencies e)
      else w.emergencies e) = updateWaitingEmergencyState (w.emergencies e) := by
    intro e
    split
    · exact .inr rfl
    · exact .inl rfl
  have same : SameLinks w { w with
      emergencies := fun e =>
        if e ∈ waiting then updateWaitingEmergencyState (w.emergencies e)
        else w.emergencies e } := by
    constructor <;> try (intros; rfl)
    all_goals
      intro e
      dsimp only
      rcases hfields e with he | he
      · rw [he]
      · rw [he]; rfl
  have hmissing : World.missing { w with
      emergencies := fun e =>
        if e ∈ waiting then updateWaitingEmergencyState (w.emergencies e)
        else w.emergencies e } = w.missing := by
    funext e ρ
    simp only [World.missing]
    rcases hfields e with he | he
    · rw [he]
    · rw [he]; rfl
  rw [WellLinked, hmissing]
  refine h.congr_status same fun e => ?_
  dsimp only
  rcases hfields e with he | he
  · rw [he]
  · rw [he]; rfl

/-! ## A new emergency -/

theorem mallocateEmergency_spec {types : List EmergencyType} {request : EmergencyRequest}
    {tick : ℕ} {em : Emergency}
    (h : mallocateEmergency table types request tick = some em) :
    em.type ∈ types ∧ em.rescuerCount = totalCount em.type.rescuers ∧
      em.rescuersMissing = em.type.rescuers ∧
      em.rescuerTwins = List.replicate (totalCount em.type.rescuers) none ∧
      em.rescuersNotArrivedYet = totalCount em.type.rescuers ∧
      em.rescuersNotDoneYet = totalCount em.type.rescuers ∧ em.status = .waiting ∧
      em.x = request.x ∧ em.y = request.y := by
  obtain ⟨type, hfind, rfl⟩ := Option.map_eq_some_iff.mp h
  exact ⟨List.mem_of_find?_eq_some hfind, rfl, rfl, rfl, rfl, rfl, rfl, rfl, rfl⟩

theorem receive_linked (h : WellLinked cfg n w) {request : EmergencyRequest} {tick : ℕ}
    {em : Emergency} (hem : mallocateEmergency table cfg.emergencies request tick = some em) :
    WellLinked cfg (n + 1) (w.setEmergency n em) := by
  obtain ⟨htype, hcount, hmissing, hslots, hnotArrived, hnotDone, hstatus, -, -⟩ :=
    mallocateEmergency_spec hem
  -- the number is new: no twin serves it and no stay was made there
  have hserves : ∀ t, (w.twins t).serves n = false := by
    intro t
    by_contra hs
    exact absurd (h.serving t n (by simpa using hs)).2.1 (Nat.lt_irrefl n)
  have henRoute : ∀ ρ, (w.setEmergency n em).enRoute cfg n ρ = 0 := by
    intro ρ
    refine List.countP_eq_zero.mpr fun t _ => ?_
    have := hserves t
    rw [RescuerDigitalTwin.serves_eq, Bool.or_eq_false_iff] at this
    simp [this.1]
  have honScene : ∀ ρ, (w.setEmergency n em).onScene cfg n ρ = 0 := by
    intro ρ
    refine List.countP_eq_zero.mpr fun t _ => ?_
    have := hserves t
    rw [RescuerDigitalTwin.serves_eq, Bool.or_eq_false_iff] at this
    simp [this.2]
  have hfinished : ∀ ρ, (w.setEmergency n em).finishedStays n ρ = 0 := by
    intro ρ
    refine List.countP_eq_zero.mpr fun stay hstay => ?_
    have := h.stayed stay hstay
    have hne : stay.emergency ≠ n := Nat.ne_of_lt this
    simp [hne]
  have hmissingSelf : ∀ ρ, (w.setEmergency n em).missing n ρ = requested ρ em.type.rescuers := by
    intro ρ
    simp [World.missing, hmissing]
  have hmissingOther : ∀ e, e ≠ n → (w.setEmergency n em).missing e = w.missing e := by
    intro e he
    funext ρ
    simp [World.missing, he]
  have hnil : em.rescuerTwins.reduceOption = [] := by
    rw [hslots]
    induction totalCount em.type.rescuers with
    | zero => rfl
    | succ k ih => rw [List.replicate_succ, List.reduceOption_cons_of_none, ih]
  -- field by field, for the new emergency and for the others
  have hself := World.setEmergency_self w n em
  have hother : ∀ e, e ≠ n → (w.setEmergency n em).emergencies e = w.emergencies e :=
    fun e he => World.setEmergency_of_ne w n em he
  constructor
  case owner => exact h.owner
  case atRest => exact h.atRest
  case notCandidate => exact h.notCandidate
  case serving =>
    intro t e ht
    obtain ⟨hmem, hlt, hrescuer⟩ := h.serving t e ht
    rw [hother e (Nat.ne_of_lt hlt)]
    exact ⟨hmem, Nat.lt_succ_of_lt hlt, hrescuer⟩
  case stayed => exact fun stay hstay => Nat.lt_succ_of_lt (h.stayed stay hstay)
  case slots =>
    intro e
    rcases eq_or_ne e n with rfl | he
    · rw [hself, hnil]; simp [hserves]
    · rw [hother e he]; exact h.slots e
  case slots_length =>
    intro e
    rcases eq_or_ne e n with rfl | he
    · rw [hself, hslots, hcount, List.length_replicate]
    · rw [hother e he]; exact h.slots_length e
  case rescuerCount =>
    intro e
    rcases eq_or_ne e n with rfl | he
    · rw [hself, hcount, requested_anyType]
    · rw [hother e he]; exact h.rescuerCount e
  case missing_type =>
    intro e
    rcases eq_or_ne e n with rfl | he
    · rw [hself, hmissing]
    · rw [hother e he]; exact h.missing_type e
  case missing_mem =>
    intro e
    rcases eq_or_ne e n with rfl | he
    · rw [hself, hmissing]; exact cfg.requests_mem _ htype
    · rw [hother e he]; exact h.missing_mem e
  case balance =>
    intro e ρ
    rcases eq_or_ne e n with rfl | he
    · rw [hself, henRoute, honScene, hfinished, hmissingSelf, Nat.add_zero]
    · rw [hother e he, hmissingOther e he]; exact h.balance e ρ
  case notDone =>
    intro e
    rcases eq_or_ne e n with rfl | he
    · rw [hself, henRoute, honScene, hmissingSelf, hnotDone, requested_anyType, Nat.add_zero]
    · rw [hother e he, hmissingOther e he]; exact h.notDone e
  case notArrived =>
    intro e
    rcases eq_or_ne e n with rfl | he
    · rw [hself, henRoute, hmissingSelf, hnotArrived, requested_anyType, Nat.add_zero]
    · rw [hother e he, hmissingOther e he]; exact h.notArrived e
  case status =>
    intro e
    rcases eq_or_ne e n with rfl | he
    · rw [hself]; simp [Emergency.StatusJustified, hstatus]
    · rw [hother e he]; exact h.status e

end EmergencyDispatch
