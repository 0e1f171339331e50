import EmergencyDispatch.Selection
import EmergencyDispatch.TwinLinks

/-!
# The search keeps the links

The dispatch of one candidate is the release of the twin by the emergency that
has it, if any, and then its binding to the emergency that searches
(`DispatchStep`).  A search that succeeds is a run of such steps over the
candidates, one for each empty slot, and ends with nothing missing; it reads
past the last candidate exactly when some rescuer has already finished its stay
there, because the slot of that rescuer is empty and nothing is missing for it
(`findRescuers_cases`).
-/

namespace EmergencyDispatch

variable {cfg : Config} {n : EmergencyId} {w w' : World} {t : TwinId} {e : EmergencyId}
  {table : List PriorityRule} {owed : EmergencyId → (RescuerType → Bool) → ℕ}

/-! ## Requests by name -/

/-- On rescuer types that exist, the name tells the type. -/
theorem Config.type_of_name (cfg : Config) {r r' : RescuerType} (hr : r ∈ cfg.rescuers)
    (hr' : r' ∈ cfg.rescuers) (h : r.rescuerTypeName = r'.rescuerTypeName) : r = r' :=
  List.inj_on_of_nodup_map cfg.names_nodup hr hr' h

theorem incrementRequest_spec {r : RescuerType} {requests : List RescuerRequest}
    (htypes : ∀ request ∈ requests, request.type ∈ cfg.rescuers)
    (hr : r ∈ requests.map (·.type)) :
    ∃ requests', incrementRequest r.rescuerTypeName requests = some requests' ∧
      requests'.map (·.type) = requests.map (·.type) ∧
      ∀ ρ, requested ρ requests' = requested ρ requests + (ρ r).toNat := by
  have hr' : r ∈ cfg.rescuers := by
    obtain ⟨request, hrequest, rfl⟩ := List.mem_map.mp hr
    exact htypes request hrequest
  induction requests with
  | nil => simp at hr
  | cons request requests ih =>
      have htype := htypes request (by simp)
      by_cases hname : request.type.rescuerTypeName = r.rescuerTypeName
      · have hsame := cfg.type_of_name htype hr' hname
        refine ⟨{ request with requiredCount := request.requiredCount + 1 } :: requests,
          by simp [incrementRequest, hname], by simp, fun ρ => ?_⟩
        cases hρ : ρ r <;> simp [hsame, hρ]
        omega
      · have hmem : r ∈ requests.map (·.type) := by
          rcases List.mem_cons.mp (List.map_cons ▸ hr) with heq | hmem
          · exact absurd (heq ▸ rfl) hname
          · exact hmem
        obtain ⟨requests', hsome, hmap, hcount⟩ :=
          ih (fun request' hrequest' => htypes request' (by simp [hrequest'])) hmem
        refine ⟨request :: requests', ?_, by simp [hmap], fun ρ => ?_⟩
        · simp [incrementRequest, hname, hsome]
        · rw [requested_cons, requested_cons, hcount]
          omega

theorem getRescuerRequestByName_isSome {r : RescuerType} {requests : List RescuerRequest}
    (hr : r ∈ requests.map (·.type)) :
    ∃ request, getRescuerRequestByName r.rescuerTypeName requests = some request := by
  obtain ⟨request, hrequest, rfl⟩ := List.mem_map.mp hr
  exact Option.isSome_iff_exists.mp (List.find?_isSome.mpr ⟨request, hrequest, by simp⟩)

/-! ## The dispatch of one candidate -/

/-- The emergency that loses the twin in its slot `i`. -/
def preempted (em : Emergency) (i : ℕ) (missing : List RescuerRequest) (onScene : Bool) :
    Emergency :=
  { em with
    rescuersMissing := missing
    rescuersNotArrivedYet := em.rescuersNotArrivedYet + onScene.toNat
    rescuerTwins := em.rescuerTwins.set i none
    howManyTimesWasPaused :=
      if em.status = .paused then em.howManyTimesWasPaused else em.howManyTimesWasPaused + 1
    status := .paused }

/-- The world in which `old` has lost the twin in its slot `i`. -/
def preemptWorld (w : World) (t : TwinId) (old : EmergencyId) (i : ℕ)
    (missing : List RescuerRequest) : World :=
  { w.setEmergency old
      (preempted (w.emergencies old) i missing ((w.twins t).isOnSceneOf old)) with
    signals := if (w.emergencies old).status = .paused then w.signals else w.signals ++ [old] }

/-- The twin as it leaves for `e`, with the time `request` grants for the stay. -/
def departing (twin : RescuerDigitalTwin) (e : EmergencyId) (em : Emergency)
    (request : RescuerRequest) : RescuerDigitalTwin :=
  changeRescuerDigitalTwinDestinationBlocked
    { twin with
      status := .enRouteToScene
      emergency := some e
      timeToManage := request.timeToManage
      timeLeftBeforeLeaving := request.timeToManage } em.x em.y

/-- The world in which the twin is in slot `i` of `e` and leaves for it. -/
def bindWorld (w : World) (t : TwinId) (e : EmergencyId) (i : ℕ) (request : RescuerRequest) :
    World :=
  (w.setEmergency e { w.emergencies e with
    rescuerTwins := (w.emergencies e).rescuerTwins.set i (some t) }).setTwin t
      (departing (w.twins t) e (w.emergencies e) request)

/-- What the dispatch of `t` into slot `i` of `e` does. -/
inductive DispatchStep (e : EmergencyId) (i : ℕ) (t : TwinId) (w : World) : World → Prop
  | atRest (request : RescuerRequest) (hrest : (w.twins t).isAtRest) :
      DispatchStep e i t w (bindWorld w t e i request)
  | preempting (request : RescuerRequest) (old : EmergencyId) (j : ℕ)
      (missing : List RescuerRequest) (hne : old ≠ e) (hserves : (w.twins t).serves old = true)
      (hslot : (w.emergencies old).rescuerTwins[j]? = some (some t))
      (htypes : missing.map (·.type) = (w.emergencies old).rescuersMissing.map (·.type))
      (hmissing : ∀ ρ, requested ρ missing =
        requested ρ (w.emergencies old).rescuersMissing + (ρ (w.twins t).rescuer).toNat) :
      DispatchStep e i t w (bindWorld (preemptWorld w t old j missing) t e i request)

theorem preemptIfNeededBlocked_atRest (h : (w.twins t).isAtRest) :
    preemptIfNeededBlocked w t = .ok w := by
  unfold preemptIfNeededBlocked
  rw [h.1]
  split <;> simp_all

theorem preemptIfNeededBlocked_serves (h : Linked cfg n w owed) {old : EmergencyId}
    (hserves : (w.twins t).serves old = true) :
    ∃ j missing, (w.emergencies old).rescuerTwins[j]? = some (some t) ∧
      missing.map (·.type) = (w.emergencies old).rescuersMissing.map (·.type) ∧
      (∀ ρ, requested ρ missing =
        requested ρ (w.emergencies old).rescuersMissing + (ρ (w.twins t).rescuer).toNat) ∧
      preemptIfNeededBlocked w t = .ok (preemptWorld w t old j missing) := by
  obtain ⟨hemergency, hstatus⟩ := RescuerDigitalTwin.serves_iff.mp hserves
  obtain ⟨missing, hincrement, htypes, hmissing⟩ :=
    incrementRequest_spec (h.missing_mem old) (h.serving t old hserves).2.2
  -- the slot is emptied after the counters are written
  let em : Emergency := { w.emergencies old with
    rescuersMissing := missing
    rescuersNotArrivedYet :=
      (w.emergencies old).rescuersNotArrivedYet + ((w.twins t).isOnSceneOf old).toNat }
  obtain ⟨j, hj, hremove⟩ := removeTwinFromItsEmergency_spec (w := w.setEmergency old em) (t := t)
    (e := old) (by simpa using hemergency) (by simpa [em] using (h.slot_iff t old).mpr hserves)
  refine ⟨j, missing, by simpa [em] using hj, htypes, hmissing, ?_⟩
  have hscene : (w.twins t).isOnSceneOf old = decide ((w.twins t).status = .onScene) := by
    simp [RescuerDigitalTwin.isOnSceneOf, hemergency, Bool.beq_eq_decide_eq]
  have hcounters :
      (if (w.twins t).status = .onScene then
        (w.setEmergency old { w.emergencies old with rescuersMissing := missing }).setEmergency old
          { (w.setEmergency old { w.emergencies old with
              rescuersMissing := missing }).emergencies old with
            rescuersNotArrivedYet := ((w.setEmergency old { w.emergencies old with
              rescuersMissing := missing }).emergencies old).rescuersNotArrivedYet + 1 }
      else w.setEmergency old { w.emergencies old with rescuersMissing := missing }) =
        w.setEmergency old em := by
    split
    · rename_i h'
      simp [World.setEmergency, em, hscene, h']
    · rename_i h'
      simp [World.setEmergency, em, hscene, h']
  have hidle : (w.twins t).status ≠ .idle := by
    rcases hstatus with h' | h' <;> simp [h']
  unfold preemptIfNeededBlocked
  split
  · rename_i h'
    exact absurd h' hidle
  · rename_i h' _
    simp [hemergency] at h'
  · rename_i old' hold' _
    obtain rfl : old = old' := Option.some_injective _ (hemergency.symm.trans hold')
    rw [hincrement]
    dsimp only
    rw [hcounters, hremove]
    by_cases hpaused : (w.emergencies old).status = .paused
    · simp [preemptWorld, preempted, World.setEmergency, em, hpaused]
    · simp [preemptWorld, preempted, World.setEmergency, em, hpaused]

/-- A twin that serves another emergency, or none, leaves for `e`. -/
theorem sendRescuerDigitalTwinToScene_spec (request : RescuerRequest)
    (hne : ∀ old, (w.twins t).emergency = some old → old ≠ e)
    (hbound : (w.twins t).isAtRest ∨ ∃ old, (w.twins t).serves old = true)
    (hrequest : getRescuerRequestByName (w.twins t).rescuer.rescuerTypeName
      (w.emergencies e).type.rescuers = some request) :
    sendRescuerDigitalTwinToScene w t e =
      .ok (w.setTwin t (departing (w.twins t) e (w.emergencies e) request)) := by
  have hnone : ∀ status, status = RescuerStatus.onScene ∨ status = .enRouteToScene →
      (w.twins t).status = status → (w.twins t).emergency ≠ none := by
    rintro status hstatus hw hnone
    rcases hbound with hrest | ⟨old, hold⟩
    · rcases hrest.2 with h' | h' <;> rcases hstatus with rfl | rfl <;> simp [h'] at hw
    · simp [(RescuerDigitalTwin.serves_iff.mp hold).1] at hnone
  unfold sendRescuerDigitalTwinToScene
  dsimp only
  rw [hrequest]
  split
  · rename_i hs he
    exact absurd he (hnone _ (.inl rfl) hs)
  · rename_i hs he
    exact absurd he (hnone _ (.inr rfl) hs)
  · rename_i old _ he
    rw [if_neg (hne old he)]
    rfl
  · rename_i old _ he
    rw [if_neg (hne old he)]
    rfl
  · rfl

/-! ## Dispatching keeps the links -/

/-- Inside the assignment loop of `e` the units owed to `e` are the candidates
that are left. -/
def World.owing (w : World) (e : EmergencyId) (candidates : List TwinId) :
    EmergencyId → (RescuerType → Bool) → ℕ :=
  fun e' ρ => if e' = e then countTypes w ρ candidates else w.missing e' ρ

theorem World.owing_self (w : World) (e : EmergencyId) (candidates : List TwinId)
    (ρ : RescuerType → Bool) : w.owing e candidates e ρ = countTypes w ρ candidates := by
  simp [owing]

theorem World.owing_of_ne (w : World) {e e' : EmergencyId} (h : e' ≠ e)
    (candidates : List TwinId) : w.owing e candidates e' = w.missing e' := by
  funext ρ
  simp [owing, h]

theorem countTypes_congr (h : ∀ t, (w'.twins t).rescuer = (w.twins t).rescuer)
    (ρ : RescuerType → Bool) (candidates : List TwinId) :
    countTypes w' ρ candidates = countTypes w ρ candidates := by
  simp only [countTypes, h]

/-- A twin that `e` can take. -/
structure Candidate (cfg : Config) (w : World) (e : EmergencyId) (t : TwinId) : Prop where
  mem : t ∈ cfg.twinIds
  ne : (w.twins t).emergency ≠ some e
  rescuer : (w.twins t).rescuer ∈ (w.emergencies e).rescuersMissing.map (·.type)

section departing

variable (twin : RescuerDigitalTwin) (em : Emergency) (request : RescuerRequest)

@[simp] theorem departing_status : (departing twin e em request).status = .enRouteToScene := by
  simp [departing]

@[simp] theorem departing_emergency : (departing twin e em request).emergency = some e := by
  simp [departing]

@[simp] theorem departing_rescuer : (departing twin e em request).rescuer = twin.rescuer := by
  simp [departing]

@[simp] theorem departing_isACandidate :
    (departing twin e em request).isACandidate = twin.isACandidate := by simp [departing]

theorem departing_isEnRouteTo : (departing twin e em request).isEnRouteTo e = true := by
  simp [RescuerDigitalTwin.isEnRouteTo]

end departing

theorem bindWorld_rescuer (w : World) (t : TwinId) (e : EmergencyId) (i : ℕ)
    (request : RescuerRequest) (u : TwinId) :
    ((bindWorld w t e i request).twins u).rescuer = (w.twins u).rescuer := by
  by_cases hu : u = t
  · subst hu; simp [bindWorld]
  · simp [bindWorld, hu]

theorem bindWorld_linked (i : ℕ) {candidates : List TwinId} (request : RescuerRequest)
    (h : Linked cfg n w (w.owing e (t :: candidates))) (he : e < n)
    (hmem : t ∈ cfg.twinIds)
    (hrescuer : (w.twins t).rescuer ∈ (w.emergencies e).rescuersMissing.map (·.type))
    (hrest : (w.twins t).isAtRest) (hslot : (w.emergencies e).rescuerTwins[i]? = some none) :
    Linked cfg n (bindWorld w t e i request) ((bindWorld w t e i request).owing e candidates) := by
  refine h.bind (departing (w.twins t) e (w.emergencies e) request) hmem he hrest hrescuer
    hslot rfl rfl rfl (departing_isEnRouteTo _ _ _) (by simp) (by simp) (fun e' he' => ?_)
    fun ρ => ?_
  · rw [World.owing_of_ne _ he', World.owing_of_ne _ he']
    funext ρ
    simp [World.missing, bindWorld, he']
  · rw [World.owing_self, World.owing_self, countTypes_cons,
      countTypes_congr (bindWorld_rescuer w t e i request)]

/-- The twin that has been released, before it is sent anywhere. -/
def released (twin : RescuerDigitalTwin) : RescuerDigitalTwin :=
  { twin with status := .idle, emergency := none }

theorem departing_released (twin : RescuerDigitalTwin) (em : Emergency)
    (request : RescuerRequest) :
    departing (released twin) e em request = departing twin e em request := rfl

theorem release_linked {candidates : List TwinId} {old : EmergencyId} {j : ℕ}
    {missing : List RescuerRequest} (h : Linked cfg n w (w.owing e candidates)) (hne : old ≠ e)
    (hserves : (w.twins t).serves old = true)
    (hslot : (w.emergencies old).rescuerTwins[j]? = some (some t))
    (htypes : missing.map (·.type) = (w.emergencies old).rescuersMissing.map (·.type))
    (hmissing : ∀ ρ, requested ρ missing =
      requested ρ (w.emergencies old).rescuersMissing + (ρ (w.twins t).rescuer).toNat) :
    Linked cfg n ((preemptWorld w t old j missing).setTwin t (released (w.twins t)))
      (((preemptWorld w t old j missing).setTwin t (released (w.twins t))).owing e candidates) := by
  have hrescuer : ∀ u, (((preemptWorld w t old j missing).setTwin t
      (released (w.twins t))).twins u).rescuer = (w.twins u).rescuer := by
    intro u
    by_cases hu : u = t
    · subst hu; simp [released]
    · simp [hu, preemptWorld]
  refine h.unbind (i := j) (released (w.twins t))
    (preempted (w.emergencies old) j missing ((w.twins t).isOnSceneOf old)) false hserves
    hslot rfl rfl rfl rfl htypes rfl h.stayed (fun e' ρ => ?_) ⟨rfl, .inl rfl⟩ rfl rfl
    (fun e' he' => ?_) (fun ρ => ?_) ?_ ?_ ?_ ?_
  · simp [World.finishedStays, preemptWorld]
  · funext ρ
    by_cases heq : e' = e
    · subst heq
      rw [World.owing_self, World.owing_self, countTypes_congr hrescuer]
    · rw [World.owing_of_ne _ heq, World.owing_of_ne _ heq]
      simp [World.missing, preemptWorld, he']
  · rw [World.owing_of_ne _ hne, World.owing_of_ne _ hne]
    simp [World.missing, preemptWorld, preempted, hmissing]
  · simp [preempted]
  · simp [preempted]
  · simp
  · simp [Emergency.StatusJustified, preempted]

/-- The dispatch of a candidate keeps the links; one candidate less is owed. -/
theorem dispatchStep_linked {i : ℕ} {candidates : List TwinId}
    (h : Linked cfg n w (w.owing e (t :: candidates))) (he : e < n)
    (hcandidate : Candidate cfg w e t) (hslot : (w.emergencies e).rescuerTwins[i]? = some none)
    (hstep : DispatchStep e i t w w') : Linked cfg n w' (w'.owing e candidates) := by
  cases hstep with
  | atRest request hrest =>
      exact bindWorld_linked _ _ h he hcandidate.mem hcandidate.rescuer hrest hslot
  | preempting request old j missing hne hserves hslot' htypes hmissing =>
      have hreleased := release_linked h hne hserves hslot' htypes hmissing
      have hsame : ((preemptWorld w t old j missing).setTwin t
          (released (w.twins t))).emergencies e = w.emergencies e := by
        simp [preemptWorld, Ne.symm hne]
      have hbind := bindWorld_linked i request hreleased he hcandidate.mem
        (by simpa [released, preemptWorld, Ne.symm hne] using hcandidate.rescuer)
        (by simpa using ⟨rfl, .inl rfl⟩) (by simpa [preemptWorld, Ne.symm hne] using hslot)
      have hworld : bindWorld ((preemptWorld w t old j missing).setTwin t
          (released (w.twins t))) t e i request =
          bindWorld (preemptWorld w t old j missing) t e i request := by
        simp [bindWorld, World.setTwin, World.setEmergency, preemptWorld, departing_released]
      rwa [hworld] at hbind

/-! ## The assignment loop -/

theorem dispatchTwin_spec (h : Linked cfg n w owed) (hcandidate : Candidate cfg w e t) (i : ℕ) :
    ∃ w', dispatchTwin w e i t = .ok w' ∧ DispatchStep e i t w w' := by
  have hrescuer : (w.twins t).rescuer ∈ (w.emergencies e).type.rescuers.map (·.type) :=
    h.missing_type e ▸ hcandidate.rescuer
  obtain ⟨request, hrequest⟩ := getRescuerRequestByName_isSome hrescuer
  rcases h.atRest t with hrest | ⟨old, hold⟩
  · refine ⟨_, ?_, .atRest request hrest⟩
    have hsend := sendRescuerDigitalTwinToScene_spec (e := e) (t := t) request
      (w := w.setEmergency e { w.emergencies e with
        rescuerTwins := (w.emergencies e).rescuerTwins.set i (some t) })
      (fun old' hold' => by simp [hrest.1] at hold') (.inl hrest) (by simpa using hrequest)
    simp only [dispatchTwin, preemptIfNeededBlocked_atRest hrest]
    refine Eq.trans hsend ?_
    simp [bindWorld, departing]
  · have hne : old ≠ e := by
      rintro rfl
      exact hcandidate.ne (RescuerDigitalTwin.serves_iff.mp hold).1
    obtain ⟨j, missing, hslot, htypes, hmissing, hpreempt⟩ := preemptIfNeededBlocked_serves h hold
    refine ⟨_, ?_, .preempting request old j missing hne hold hslot htypes hmissing⟩
    have hsend := sendRescuerDigitalTwinToScene_spec (e := e) (t := t) request
      (w := (preemptWorld w t old j missing).setEmergency e
        { (preemptWorld w t old j missing).emergencies e with
          rescuerTwins :=
            ((preemptWorld w t old j missing).emergencies e).rescuerTwins.set i (some t) })
      (fun old' hold' => by
        rintro rfl
        exact hcandidate.ne hold')
      (.inr ⟨old, hold⟩) (by simpa [preemptWorld, Ne.symm hne] using hrequest)
    simp only [dispatchTwin, hpreempt]
    refine Eq.trans hsend ?_
    simp [bindWorld, departing]

namespace DispatchStep

variable {i : ℕ}

theorem emergencies_self (h : DispatchStep e i t w w') :
    w'.emergencies e = { w.emergencies e with
      rescuerTwins := (w.emergencies e).rescuerTwins.set i (some t) } := by
  cases h with
  | atRest request hrest => simp [bindWorld]
  | preempting request old j missing hne => simp [bindWorld, preemptWorld, Ne.symm hne]

theorem twins_of_ne (h : DispatchStep e i t w w') {u : TwinId} (hu : u ≠ t) :
    w'.twins u = w.twins u := by
  cases h <;> simp [bindWorld, preemptWorld, hu]

theorem rescuer (h : DispatchStep e i t w w') (u : TwinId) :
    (w'.twins u).rescuer = (w.twins u).rescuer := by
  cases h <;> simp [bindWorld_rescuer, preemptWorld]

theorem candidate (h : DispatchStep e i t w w') {u : TwinId} (hu : u ≠ t)
    (hcandidate : Candidate cfg w e u) : Candidate cfg w' e u where
  mem := hcandidate.mem
  ne := by rw [h.twins_of_ne hu]; exact hcandidate.ne
  rescuer := by rw [h.rescuer, h.emergencies_self]; exact hcandidate.rescuer

end DispatchStep

/-- The dispatch of candidates one after the other. -/
inductive DispatchRun (e : EmergencyId) : List TwinId → World → World → Prop
  | nil (w : World) : DispatchRun e [] w w
  | cons {i : ℕ} {t : TwinId} {candidates : List TwinId} {w w' w'' : World}
      (hstep : DispatchStep e i t w w') (hrun : DispatchRun e candidates w' w'') :
      DispatchRun e (t :: candidates) w w''

/-- How many of these slots are empty. -/
def emptySlots (em : Emergency) (slots : List ℕ) : ℕ :=
  slots.countP fun i => em.rescuerTwins[i]? == some none

/-- The loop reads one candidate for each empty slot, and runs out of them
exactly when there are more empty slots than candidates. -/
theorem assignCandidates_spec (slots : List ℕ) (hslots : slots.Nodup) (candidates : List TwinId)
    (hnodup : candidates.Nodup) (hcandidates : ∀ t ∈ candidates, Candidate cfg w e t)
    (he : e < n) (h : Linked cfg n w (w.owing e candidates)) :
    (emptySlots (w.emergencies e) slots ≤ candidates.length →
      ∃ w', assignCandidates e slots candidates w = .ok w' ∧
        DispatchRun e (candidates.take (emptySlots (w.emergencies e) slots)) w w' ∧
        Linked cfg n w' (w'.owing e (candidates.drop (emptySlots (w.emergencies e) slots)))) ∧
      (candidates.length < emptySlots (w.emergencies e) slots →
        assignCandidates e slots candidates w = .error .candidatesOutOfRange) := by
  induction slots generalizing candidates w with
  | nil =>
      refine ⟨fun _ => ⟨w, rfl, ?_, ?_⟩, fun hlt => by simp [emptySlots] at hlt⟩
      · simpa [emptySlots] using DispatchRun.nil w
      · simpa [emptySlots] using h
  | cons i slots ih =>
      obtain ⟨hi, hslots⟩ := List.nodup_cons.mp hslots
      by_cases hempty : (w.emergencies e).rescuerTwins[i]? = some none
      -- an empty slot takes the next candidate, and there must be one
      · have hcount : emptySlots (w.emergencies e) (i :: slots) =
            emptySlots (w.emergencies e) slots + 1 := by simp [emptySlots, hempty]
        cases candidates with
        | nil =>
            refine ⟨fun hle => by simp [hcount] at hle, fun _ => ?_⟩
            simp [assignCandidates, hempty]
        | cons t candidates =>
            obtain ⟨ht, hnodup⟩ := List.nodup_cons.mp hnodup
            have hcandidate := hcandidates t (by simp)
            obtain ⟨w₁, hdispatch, hstep⟩ := dispatchTwin_spec h hcandidate i
            have h₁ := dispatchStep_linked h he hcandidate hempty hstep
            have hsame : emptySlots (w₁.emergencies e) slots =
                emptySlots (w.emergencies e) slots := by
              refine List.countP_congr fun k hk => ?_
              have hne : i ≠ k := fun heq => hi (heq ▸ hk)
              simp [hstep.emergencies_self, List.getElem?_set_ne hne]
            obtain ⟨hok, herror⟩ := ih hslots candidates hnodup
              (fun u hu =>
                hstep.candidate (fun heq => ht (heq ▸ hu)) (hcandidates u (by simp [hu]))) h₁
            have hloop : assignCandidates e (i :: slots) (t :: candidates) w =
                assignCandidates e slots candidates w₁ := by
              simp only [assignCandidates, hempty, hdispatch]
              rfl
            rw [hcount, hloop]
            rw [hsame] at hok herror
            refine ⟨fun hle => ?_, fun hlt => herror (by simpa using hlt)⟩
            obtain ⟨w', hw', hrun, hlinked⟩ := hok (by simpa using hle)
            exact ⟨w', hw', by simpa using hrun.cons hstep, by simpa using hlinked⟩
      · have hcount : emptySlots (w.emergencies e) (i :: slots) =
            emptySlots (w.emergencies e) slots := by simp [emptySlots, hempty]
        have hloop : assignCandidates e (i :: slots) candidates w =
            assignCandidates e slots candidates w := by
          rw [assignCandidates.eq_def]
          dsimp only
          split
          · rename_i hsome
            exact absurd hsome hempty
          · rfl
        rw [hcount, hloop]
        exact ih hslots candidates hnodup hcandidates h

/-! ## The search -/

/-- What a search of `e` can do. -/
inductive FindStep (table : List PriorityRule) (w : World) (e : EmergencyId) :
    Except Fault (World × Bool) → Prop
  | nothingMissing (h : totalCount (w.emergencies e).rescuersMissing = 0) :
      FindStep table w e (.ok (w, true))
  | notEnough (hmissing : totalCount (w.emergencies e).rescuersMissing ≠ 0)
      (h : ¬EnoughRescuers table w e) : FindStep table w e (.ok (w, false))
  | dispatched {w' : World} (hmissing : totalCount (w.emergencies e).rescuersMissing ≠ 0)
      (h : EnoughRescuers table w e)
      (hnotDone : (w.emergencies e).rescuersNotDoneYet = (w.emergencies e).rescuerCount)
      (hrun : DispatchRun e (selectCandidates table w e).candidates w w') :
      FindStep table w e (.ok (clearMissing w' e, true))
  | outOfRange (hmissing : totalCount (w.emergencies e).rescuersMissing ≠ 0)
      (h : EnoughRescuers table w e)
      (hnotDone : (w.emergencies e).rescuersNotDoneYet ≠ (w.emergencies e).rescuerCount) :
      FindStep table w e (.error .candidatesOutOfRange)

theorem requested_clear (ρ : RescuerType → Bool) (requests : List RescuerRequest) :
    requested ρ (requests.map fun request => { request with requiredCount := 0 }) = 0 := by
  induction requests with
  | nil => rfl
  | cons request requests ih => simpa using ih

/-- When nothing is owed any more the counts of the requests are cleared. -/
theorem clearMissing_linked (h : Linked cfg n w (w.owing e [])) :
    WellLinked cfg n (clearMissing w e) := by
  have hmissing : (clearMissing w e).missing = w.owing e [] := by
    funext e' ρ
    by_cases he : e' = e
    · subst he
      rw [World.owing_self, World.missing, clearMissing, World.setEmergency_self, requested_clear]
      rfl
    · rw [World.owing_of_ne _ he]
      simp [World.missing, clearMissing, he]
  have same : SameLinks w (clearMissing w e) :=
    .setEmergency rfl rfl (by simp) rfl rfl rfl
  rw [WellLinked, hmissing]
  refine h.congr_status same fun e' => ?_
  by_cases he : e' = e
  · subst he; simp [clearMissing]
  · simp [clearMissing, he]

/-- The empty slots of an emergency are the missing units and those that have
finished their stay. -/
theorem emptySlots_eq (h : WellLinked cfg n w) (e : EmergencyId) :
    emptySlots (w.emergencies e) (List.range (w.emergencies e).rescuerCount) =
      w.missing e anyType + w.finishedStays e anyType := by
  rw [← h.countP_isNone e, ← h.slots_length e, emptySlots]
  generalize (w.emergencies e).rescuerTwins = slots
  induction slots using List.reverseRecOn with
  | nil => rfl
  | append_singleton slots slot ih =>
      rw [List.length_append, List.length_singleton, List.range_succ, List.countP_append,
        List.countP_append, ← ih]
      congr 1
      · refine List.countP_congr fun i hi => ?_
        rw [List.getElem?_append_left (List.mem_range.mp hi)]
      · cases slot <;> simp

/-- A rescuer has finished its stay exactly when fewer than all are still to finish. -/
theorem finishedStays_eq_zero_iff (h : WellLinked cfg n w) (e : EmergencyId) :
    w.finishedStays e anyType = 0 ↔
      (w.emergencies e).rescuersNotDoneYet = (w.emergencies e).rescuerCount := by
  have hbalance := h.balance e anyType
  have hcount := h.rescuerCount e
  have hnotDone := h.notDone e
  omega

/-- The empty slots are as many as the missing units exactly when no rescuer has
finished its stay. -/
theorem emptySlots_eq_totalCount_iff (h : WellLinked cfg n w) (e : EmergencyId) :
    emptySlots (w.emergencies e) (List.range (w.emergencies e).rescuerCount) =
        totalCount (w.emergencies e).rescuersMissing ↔
      (w.emergencies e).rescuersNotDoneYet = (w.emergencies e).rescuerCount := by
  rw [emptySlots_eq h e, ← finishedStays_eq_zero_iff h e, ← requested_anyType]
  exact Nat.add_eq_left

theorem Chosen.candidate {candidates : List TwinId} (h : Chosen table w e candidates)
    (hlinked : Linked cfg n w owed) (ht : t ∈ candidates) : Candidate cfg w e t := by
  obtain ⟨request, hrequest, hmem⟩ := h.missing t ht
  have htype := hlinked.missing_mem e request hrequest
  refine ⟨List.mem_flatMap.mpr ⟨request.type, htype, hmem⟩, ?_, ?_⟩
  · have heligible := h.eligible t ht
    simp only [EmergencyDispatch.eligible, Bool.and_eq_true, bne_iff_ne] at heligible
    exact heligible.1.2
  · rw [hlinked.owner _ htype t hmem]
    exact List.mem_map_of_mem hrequest

/-- **The search.**  Every outcome of `find_rescuers_logging_blocking`, and the
links after it. -/
theorem findRescuers_cases (h : WellLinked cfg n w) (he : e < n) (table : List PriorityRule) :
    FindStep table w e (findRescuersLoggingBlocking table w e) ∧
      ∀ w' found, findRescuersLoggingBlocking table w e = .ok (w', found) →
        WellLinked cfg n w' := by
  obtain ⟨hworld, hchosen, hcount⟩ := selectCandidates_spec h table e
  have hfound := selectCandidates_found_iff h table e
  unfold findRescuersLoggingBlocking
  by_cases hmissing : totalCount (w.emergencies e).rescuersMissing = 0
  · rw [if_pos hmissing]
    refine ⟨.nothingMissing hmissing, fun w' found hok => ?_⟩
    obtain ⟨rfl, -⟩ := Prod.mk.inj (Except.ok.inj hok)
    exact h
  rw [if_neg hmissing]
  dsimp only
  by_cases henough : EnoughRescuers table w e
  · rw [if_pos (hfound.mpr henough), hworld]
    have hcount := hcount (hfound.mpr henough)
    generalize hcandidates : (selectCandidates table w e).candidates = candidates at *
    have howing : w.owing e candidates = w.missing := by
      funext e' ρ
      by_cases he' : e' = e
      · subst he'; rw [World.owing_self, hcount]
      · rw [World.owing_of_ne _ he']
    have hlength : candidates.length = w.missing e anyType := by
      rw [← hcount, countTypes]
      simp [anyType]
    have hempty := emptySlots_eq h e
    have hfinished := finishedStays_eq_zero_iff h e
    obtain ⟨hok, herror⟩ := assignCandidates_spec _ List.nodup_range candidates hchosen.nodup
      (fun t ht => hchosen.candidate h ht) he (howing ▸ h)
    by_cases hdone : (w.emergencies e).rescuersNotDoneYet = (w.emergencies e).rescuerCount
    -- nobody has finished, so there are as many empty slots as candidates
    · have hslots : emptySlots (w.emergencies e) (List.range (w.emergencies e).rescuerCount) =
          candidates.length := by
        have := hfinished.mpr hdone
        omega
      obtain ⟨w₁, hassign, hrun, hlinked⟩ := hok hslots.le
      rw [hslots, List.take_length] at hrun
      rw [hslots, List.drop_length] at hlinked
      rw [hassign]
      refine ⟨.dispatched hmissing henough hdone (hcandidates ▸ hrun), fun w' found hw' => ?_⟩
      obtain ⟨rfl, -⟩ := Prod.mk.inj (Except.ok.inj hw')
      exact clearMissing_linked hlinked
    -- a slot that was left by somebody who has finished is empty too
    · have hslots : candidates.length <
          emptySlots (w.emergencies e) (List.range (w.emergencies e).rescuerCount) := by
        have : w.finishedStays e anyType ≠ 0 := fun h0 => hdone (hfinished.mp h0)
        omega
      rw [herror hslots]
      exact ⟨.outOfRange hmissing henough hdone, fun w' found hw' => by cases hw'⟩
  · rw [if_neg fun hf => henough (hfound.mp hf), hworld]
    refine ⟨.notEnough hmissing henough, fun w' found hok => ?_⟩
    obtain ⟨rfl, -⟩ := Prod.mk.inj (Except.ok.inj hok)
    exact h

end EmergencyDispatch
