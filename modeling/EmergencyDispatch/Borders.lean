import EmergencyDispatch.Course
import EmergencyDispatch.Parsers.Env
import EmergencyDispatch.Parsers.Rescuers

/-!
# Validators and borders

The updater stops the server when a rescuer leaves the cells `0 ≤ x < width`,
`0 ≤ y < height`.  The validators accept more: a base on the line `x = width` or
`y = height`, a request there, a request with negative coordinates, and any request
on a map with a negative side, which has no cells.  Between positions that are
really on the map no walk leaves it, whatever the runs: the walker stays in the
rectangle between its position and its target (`Contained`), unless a rescuer
walks along a trajectory that was never written.
-/

namespace EmergencyDispatch

open State TransitionSystem

variable {cfg : Config} {s s' : State} {a : Action} {t u : TwinId} {e : EmergencyId}
  {w w' : World} {size : MapSize}

/-- The cell is one of those the updater lets a rescuer walk on. -/
def MapSize.contains (size : MapSize) (x y : ℤ) : Prop :=
  (MIN_X_COORDINATE_ABSOLUTE_VALUE ≤ x ∧ x < size.width) ∧
    MIN_Y_COORDINATE_ABSOLUTE_VALUE ≤ y ∧ y < size.height

instance (size : MapSize) (x y : ℤ) : Decidable (size.contains x y) :=
  inferInstanceAs (Decidable (_ ∧ _))

theorem outOfMap_eq_false_iff (size : MapSize) (twin : RescuerDigitalTwin) :
    outOfMap size twin = false ↔ size.contains twin.x twin.y := by
  simp [outOfMap, MapSize.contains]
  tauto

theorem MapSize.contains_of_between {x y x' y' a b : ℤ} (h : size.contains x y)
    (htarget : size.contains a b) (hx : Between x x' a) (hy : Between y y' b) :
    size.contains x' y' := by
  obtain ⟨⟨h₁, h₂⟩, h₃, h₄⟩ := h
  obtain ⟨⟨h₅, h₆⟩, h₇, h₈⟩ := htarget
  refine ⟨?_, ?_⟩
  · rcases hx with hx | hx <;> constructor <;> omega
  · rcases hy with hy | hy <;> constructor <;> omega

/-! ## The validators -/

/-- An accepted request is not farther from the origin than the far border, as the code
measures it. -/
theorem parseEmergencyRequest_bounds {message : CString} {types : List EmergencyType}
    {envh envw : ℤ} {request : EmergencyRequest}
    (h : parseEmergencyRequest message types envh envw = some request) :
    wrappedABS request.x ≤ wrappedABS envw ∧ wrappedABS request.y ≤ wrappedABS envh := by
  unfold parseEmergencyRequest at h
  split at h
  · split at h
    · cases h
    · rename_i hlegal
      obtain rfl := Option.some.inj h
      simp only [emergencyRequestValuesAreIllegal, Bool.or_eq_true, decide_eq_true_eq, not_or,
        gt_iff_lt, not_lt] at hlegal
      exact ⟨hlegal.1.2.2, hlegal.2.2⟩
  · cases h

/-- The configuration that the parsers make of the two files. -/
structure Config.Parsed (cfg : Config) (buffer : CString) (envFile rescuersFile : List Char) :
    Prop where
  env : ∃ env, parseEnv buffer envFile = some env ∧ cfg.size = ⟨env.width, env.height⟩
  rescuers : parseRescuers rescuersFile cfg.size.width cfg.size.height = some cfg.rescuers

/-- The base is not on the far border. -/
def BaseOffBorder (size : MapSize) (r : RescuerType) : Prop :=
  r.x ≠ size.width ∧ r.y ≠ size.height

/-- No side of the map is negative, and the position is neither on the far border nor negative. -/
def RequestOffBorder (size : MapSize) (request : EmergencyRequest) : Prop :=
  (0 ≤ size.width ∧ 0 ≤ request.x ∧ request.x ≠ size.width) ∧
    0 ≤ size.height ∧ 0 ≤ request.y ∧ request.y ≠ size.height

instance (size : MapSize) (r : RescuerType) : Decidable (BaseOffBorder size r) :=
  inferInstanceAs (Decidable (_ ∧ _))

instance (size : MapSize) (request : EmergencyRequest) :
    Decidable (RequestOffBorder size request) :=
  inferInstanceAs (Decidable (_ ∧ _))

/-- An accepted base is on the map exactly when it is not on the far border. -/
theorem Config.Parsed.base_iff {buffer : CString} {envFile rescuersFile : List Char}
    (h : cfg.Parsed buffer envFile rescuersFile) {r : RescuerType} (hr : r ∈ cfg.rescuers) :
    cfg.size.contains r.x r.y ↔ BaseOffBorder cfg.size r := by
  obtain ⟨total, hlegal⟩ := parseRescuers_legal h.rescuers
  have hx := hlegal.x r hr
  have hy := hlegal.y r hr
  unfold MapSize.contains BaseOffBorder
  constructor
  · rintro ⟨⟨-, hwidth⟩, -, hheight⟩
    exact ⟨by omega, by omega⟩
  · rintro ⟨hwidth, hheight⟩
    exact ⟨⟨hx.1, by omega⟩, hy.1, by omega⟩

/-- A coordinate that the code does not find farther than the side is below it, unless one of
them is negative or they are equal. -/
theorem lt_side_iff {x side : ℤ} (h : wrappedABS x ≤ wrappedABS side) :
    (0 ≤ x ∧ x < side) ↔ 0 ≤ side ∧ 0 ≤ x ∧ x ≠ side := by
  constructor
  · rintro ⟨hx, hlt⟩
    exact ⟨hx.trans hlt.le, hx, hlt.ne⟩
  · rintro ⟨hside, hx, hne⟩
    rw [wrappedABS_of_nonneg hx, wrappedABS_of_nonneg hside] at h
    exact ⟨hx, lt_of_le_of_ne h hne⟩

/-- An accepted request is on the map exactly when neither it nor a side is negative and it is
not on the far border. -/
theorem contains_request_iff {message : CString} {request : EmergencyRequest}
    (hrequest : parseEmergencyRequest message cfg.emergencies cfg.size.height cfg.size.width =
      some request) :
    cfg.size.contains request.x request.y ↔ RequestOffBorder cfg.size request := by
  obtain ⟨hx, hy⟩ := parseEmergencyRequest_bounds hrequest
  exact and_congr (lt_side_iff hx) (lt_side_iff hy)

/-! ## Twins that stay on the map -/

/-- The twin is on the map, and so are its base and the way it has before it. -/
structure Positioned (size : MapSize) (t : RescuerDigitalTwin) : Prop where
  speed : 0 ≤ t.rescuer.speed
  base : size.contains t.rescuer.x t.rescuer.y
  position : size.contains t.x t.y
  course : t.trajectoryInitialised = true →
    size.contains t.trajectory.xTarget t.trajectory.yTarget ∧ OnCourse t.trajectory t.x t.y

namespace Positioned

variable {twin twin' : RescuerDigitalTwin} {x y : ℤ}

theorem congr (h : Positioned size twin) (hrescuer : twin'.rescuer = twin.rescuer)
    (hx : twin'.x = twin.x) (hy : twin'.y = twin.y)
    (htrajectory : twin'.trajectory = twin.trajectory)
    (hinitialised : twin'.trajectoryInitialised = twin.trajectoryInitialised) :
    Positioned size twin' where
  speed := hrescuer ▸ h.speed
  base := hrescuer ▸ h.base
  position := by rw [hx, hy]; exact h.position
  course := by rw [hx, hy, htrajectory, hinitialised]; exact h.course

theorem changeDestination (h : Positioned size twin) (htarget : size.contains x y) :
    Positioned size (changeRescuerDigitalTwinDestinationBlocked twin x y) := by
  unfold changeRescuerDigitalTwinDestinationBlocked
  split
  · exact h.congr rfl rfl rfl rfl rfl
  · exact ⟨h.speed, h.base, h.position,
      fun _ => ⟨htarget, onCourse_changeBresenhamTrajectory _ _ _ _⟩⟩

theorem walkOneTick {arrived : Bool} (h : Positioned size twin)
    (hinitialised : twin.trajectoryInitialised = true)
    (hwalk : EmergencyDispatch.walkOneTick twin = some (twin', arrived)) :
    Positioned size twin' := by
  obtain ⟨step, hstep, -, rfl⟩ := walkOneTick_spec hwalk
  obtain ⟨htarget, hcourse⟩ := h.course hinitialised
  obtain ⟨step', hstep', hwalked⟩ := computeBresenhamStep_spec hcourse h.speed
  obtain rfl : step = step' := Option.some_injective _ (hstep.symm.trans hstep')
  refine ⟨h.speed, h.base, ?_, fun _ => ⟨?_, hwalked.onCourse⟩⟩
  · exact MapSize.contains_of_between h.position htarget hwalked.betweenX hwalked.betweenY
  · rw [hwalked.target]
    exact htarget

end Positioned

/-- A trajectory was written by the change of destination, or before it. -/
theorem initialised_changeDestination (twin : RescuerDigitalTwin) {x y : ℤ}
    (h : twin.StandsAt x y → twin.trajectoryInitialised = true) :
    (changeRescuerDigitalTwinDestinationBlocked twin x y).trajectoryInitialised = true := by
  unfold changeRescuerDigitalTwinDestinationBlocked
  split
  · rename_i hstands
    exact h hstands
  · rfl

/-- All twins and the emergencies with a number below `n` are on the map, and a
twin that is not idle walks along a trajectory that was written. -/
structure Contained (cfg : Config) (n : EmergencyId) (w : World) : Prop where
  emergencies : ∀ e < n, cfg.size.contains (w.emergencies e).x (w.emergencies e).y
  twins : ∀ t ∈ cfg.twinIds, Positioned cfg.size (w.twins t)
  travelled : ∀ t, (w.twins t).status ≠ .idle → (w.twins t).trajectoryInitialised = true

namespace Contained

variable {n : EmergencyId}

theorem congr (h : Contained cfg n w) (htwins : w'.twins = w.twins)
    (hplace : ∀ e, (w'.emergencies e).x = (w.emergencies e).x ∧
      (w'.emergencies e).y = (w.emergencies e).y) : Contained cfg n w' where
  emergencies e he := by
    rw [(hplace e).1, (hplace e).2]
    exact h.emergencies e he
  twins := by rw [htwins]; exact h.twins
  travelled := by rw [htwins]; exact h.travelled

theorem of_setEmergency (h : Contained cfg n w) {em : Emergency} (htwins : w'.twins = w.twins)
    (hemergencies : w'.emergencies = Function.update w.emergencies e em)
    (hx : em.x = (w.emergencies e).x) (hy : em.y = (w.emergencies e).y) :
    Contained cfg n w' := by
  refine h.congr htwins fun e' => ?_
  rw [hemergencies]
  by_cases he : e' = e
  · subst he; simp [hx, hy]
  · simp [he]

theorem setTwin (h : Contained cfg n w) {twin : RescuerDigitalTwin}
    (hpositioned : Positioned cfg.size (w.twins t) → Positioned cfg.size twin)
    (htravelled : twin.status ≠ .idle → twin.trajectoryInitialised = true) :
    Contained cfg n (w.setTwin t twin) where
  emergencies := h.emergencies
  twins u hu := by
    by_cases hut : u = t
    · subst hut
      rw [World.setTwin_twins_self]
      exact hpositioned (h.twins u hu)
    · rw [World.setTwin_twins_of_ne _ _ _ hut]
      exact h.twins u hu
  travelled u hu := by
    by_cases hut : u = t
    · subst hut
      rw [World.setTwin_twins_self] at hu ⊢
      exact htravelled hu
    · rw [World.setTwin_twins_of_ne _ _ _ hut] at hu ⊢
      exact h.travelled u hu

end Contained

/-! ### The updater -/

variable {n : EmergencyId}

theorem tickStay_contained (h : Contained cfg n w) (t : TwinId) : Contained cfg n (tickStay w t) :=
  h.setTwin (fun hpos => hpos.congr rfl rfl rfl rfl rfl) (h.travelled t)

theorem leaveScene_contained (hl : WellLinked cfg n w) (h : Contained cfg n w)
    (hscene : (w.twins t).isOnSceneOf e = true) : Contained cfg n (leaveScene w t e) := by
  obtain ⟨hstatus, -⟩ := RescuerDigitalTwin.isOnSceneOf_iff.mp hscene
  obtain ⟨i, -, hw⟩ := leaveScene_spec hl hscene
  rw [hw, sendBack_of_onScene hstatus]
  have hinitialised := h.travelled t (by simp [hstatus])
  have hleft : Contained cfg n (w.setTwin t
      { changeRescuerDigitalTwinDestinationBlocked { w.twins t with
          status := .returningToBase
          timeToManage := INVALID_TIME
          timeLeftBeforeLeaving := INVALID_TIME } (w.twins t).rescuer.x (w.twins t).rescuer.y with
        emergency := none }) := by
    refine h.setTwin (fun hpos => ?_) fun _ => initialised_changeDestination _ fun _ => hinitialised
    have hback : Positioned cfg.size { w.twins t with
        status := .returningToBase
        timeToManage := INVALID_TIME
        timeLeftBeforeLeaving := INVALID_TIME } := hpos.congr rfl rfl rfl rfl rfl
    exact (hback.changeDestination hpos.base).congr rfl rfl rfl rfl rfl
  exact hleft.of_setEmergency rfl rfl rfl rfl

theorem WalkStart.contained (hl : WellLinked cfg n w) (h : Contained cfg n w)
    (hstart : WalkStart w t w') : Contained cfg n w' := by
  cases hstart with
  | travelling => exact h
  | leaving e hscene =>
      exact leaveScene_contained (tickStay_linked hl) (tickStay_contained h t)
        ((isOnSceneOf_tickStay w t e).trans hscene)

/-- The walk of a twin that starts to walk in this tick. -/
theorem walked_contained {twin : RescuerDigitalTwin} {arrived : Bool} (hl : WellLinked cfg n w)
    (h : Contained cfg n w) (hstart : WalkStart w t w')
    (hwalk : walkOneTick (w'.twins t) = some (twin, arrived)) :
    Contained cfg n (w'.setTwin t twin) ∧
      (t ∈ cfg.twinIds → cfg.size.contains twin.x twin.y) := by
  have hcontained := hstart.contained hl h
  have hinitialised : (w'.twins t).trajectoryInitialised = true :=
    hcontained.travelled t (by rcases (hstart.twins hl).1 with h' | h' <;> simp [h'])
  have hpositioned := fun hpos : Positioned cfg.size (w'.twins t) =>
    hpos.walkOneTick hinitialised hwalk
  refine ⟨hcontained.setTwin hpositioned fun _ => ?_,
    fun ht => (hpositioned (hcontained.twins t ht)).position⟩
  obtain ⟨step, -, -, rfl⟩ := walkOneTick_spec hwalk
  exact hinitialised

/-! ### Searches -/

/-- A candidate that stands on the cell of the emergency has travelled before. -/
def TravelledBefore (e : EmergencyId) (w : World) (t : TwinId) : Prop :=
  (w.twins t).StandsAt (w.emergencies e).x (w.emergencies e).y →
    (w.twins t).trajectoryInitialised = true

theorem bindWorld_contained (i : ℕ) (request : RescuerRequest) (h : Contained cfg n w)
    (he : e < n) (ht : TravelledBefore e w t) :
    Contained cfg n (bindWorld w t e i request) ∧
      ∀ u, TravelledBefore e w u → TravelledBefore e (bindWorld w t e i request) u := by
  have hbound : Contained cfg n (w.setEmergency e { w.emergencies e with
      rescuerTwins := (w.emergencies e).rescuerTwins.set i (some t) }) :=
    h.of_setEmergency rfl rfl rfl rfl
  have hinitialised := initialised_changeDestination { w.twins t with
    status := .enRouteToScene
    emergency := some e
    timeToManage := request.timeToManage
    timeLeftBeforeLeaving := request.timeToManage } ht
  refine ⟨hbound.setTwin (fun hpos => ?_) fun _ => hinitialised, fun u hu => ?_⟩
  · have hleaving : Positioned cfg.size { w.twins t with
        status := .enRouteToScene
        emergency := some e
        timeToManage := request.timeToManage
        timeLeftBeforeLeaving := request.timeToManage } := hpos.congr rfl rfl rfl rfl rfl
    exact hleaving.changeDestination (h.emergencies e he)
  · by_cases hut : u = t
    · subst hut
      intro _
      simpa [bindWorld, departing] using hinitialised
    · simpa [TravelledBefore, bindWorld, hut] using hu

theorem DispatchStep.contained {k : ℕ} (he : e < n) (hstep : DispatchStep e k t w w')
    (h : Contained cfg n w) (ht : TravelledBefore e w t) :
    Contained cfg n w' ∧ ∀ u, TravelledBefore e w u → TravelledBefore e w' u := by
  obtain ⟨w₀, request, rfl, htwins, hplace⟩ := hstep.eq_bindWorld
  have hsame : ∀ u, TravelledBefore e w u → TravelledBefore e w₀ u := by
    intro u hu
    rwa [TravelledBefore, htwins, (hplace e).1, (hplace e).2]
  obtain ⟨hbound, hkept⟩ := bindWorld_contained k request
    (h.congr htwins hplace) he (hsame t ht)
  exact ⟨hbound, fun u hu => hkept u (hsame u hu)⟩

/-! ### Steps -/

/-- No request is accepted that is negative or on the far border, and no search
dispatches a rescuer that has never travelled to the cell it stands on. -/
def WalksOnMap (cfg : Config) (s : State) : Action → Prop
  | .receiver _ => s.receiver = .receive → ∀ message ∈ s.mq.head?,
      ∀ request ∈ parseEmergencyRequest message cfg.emergencies cfg.size.height cfg.size.width,
        RequestOffBorder cfg.size request
  | .worker i =>
      match s.worker i with
      | .find e => EnoughRescuers cfg.priorityLookupTable s.world e →
          ∀ t ∈ (selectCandidates cfg.priorityLookupTable s.world e).candidates,
            (s.world.twins t).StandsAt (s.world.emergencies e).x (s.world.emergencies e).y →
              (s.world.twins t).trajectoryInitialised = true
      | _ => True
  | _ => True

instance (cfg : Config) (s : State) (a : Action) : Decidable (WalksOnMap cfg s a) := by
  unfold WalksOnMap
  rcases a
  case worker i => dsimp only; generalize s.worker i = pc; rcases pc <;> infer_instance
  all_goals infer_instance

theorem contained_step (hinv : Invariant cfg s) (hguard : WalksOnMap cfg s a)
    (hrequests : ∀ message request, parseEmergencyRequest message cfg.emergencies
        cfg.size.height cfg.size.width = some request → RequestOffBorder cfg.size request →
        cfg.size.contains request.x request.y)
    (h : Contained cfg s.nextId s.world) (hstep : State.step cfg s a = some s') :
    Contained cfg s'.nextId s'.world := by
  have hl := hinv.links
  cases (step_effect hstep).2 with
  | quiet hq => rw [hq.world, hq.nextId]; exact h
  | move i pc hmove => exact h
  | pop i e queue hpc hpop => exact h
  | openSlot i e hpc => exact h.of_setEmergency rfl rfl rfl rfl
  | search i e w found worker hpc hfind hwoken =>
      refine Contained.congr (w := w) ?_ rfl fun _ => ⟨rfl, rfl⟩
      -- a search moves no twin, but it changes where twins go
      cases hinv.findStep hpc hfind with
      | nothingMissing => exact h
      | notEnough => exact h
      | dispatched hmissing henough hnotDone hrun =>
          have he : e < s.nextId := hinv.custody.worker_lt (i := i) (by rw [hpc]; rfl)
          simp only [WalksOnMap, hpc] at hguard
          have hcontained := DispatchRun.keeps (DispatchStep.contained he) hrun h (hguard henough)
          exact hcontained.of_setEmergency rfl rfl rfl rfl
  | store i e reason level hpc => exact h.of_setEmergency rfl rfl rfl rfl
  | closeSlot i leaving hpc => exact h.congr rfl fun _ => ⟨rfl, rfl⟩
  | stays t rest w hpc hupdate =>
      have hcases := update_cases hl cfg.size t
      rw [hupdate] at hcases
      cases hcases with
      | idle => exact h
      | stays => exact tickStay_contained h t
  | walked t rest w outside arrived hpc hupdate =>
      have hcases := update_cases hl cfg.size t
      rw [hupdate] at hcases
      cases hcases with
      | walked hstart hwalk => exact (walked_contained hl h hstart hwalk).1
  | arrived t rest w hpc harrive =>
      have hcases := arrival_cases hl t
      rw [harrive] at hcases
      cases hcases with
      | onScene e hroute =>
          have hinitialised := h.travelled t
            (by simp [(RescuerDigitalTwin.isEnRouteTo_iff.mp hroute).1])
          have harrived : Contained cfg s.nextId (s.world.setTwin t { s.world.twins t with
              isTravelling := false
              timeLeftBeforeLeaving := (s.world.twins t).timeToManage
              status := .onScene }) :=
            h.setTwin (fun hpos => hpos.congr rfl rfl rfl rfl rfl) fun _ => hinitialised
          exact harrived.of_setEmergency rfl rfl rfl rfl
      | atBase hreturning =>
          exact h.setTwin (fun hpos => hpos.congr rfl rfl rfl rfl rfl) fun hidle => absurd rfl hidle
  | fatal t rest w hpc harrive =>
      have hcases := arrival_cases hl t
      rw [harrive] at hcases
      cases hcases with
      | fatal =>
          exact h.setTwin (fun hpos => hpos.congr rfl rfl rfl rfl rfl) (h.travelled t)
  | slot i e rest worker hpc hactive hwoken =>
      obtain ⟨-, -, -, -, -, -, hx, hy⟩ :=
        updateActiveEmergencyState_spec cfg.priorityLookupTable (s.world.emergencies e)
      exact h.of_setEmergency rfl rfl hx hy
  | mapWaiting hpc =>
      refine h.congr rfl fun e => ?_
      dsimp only
      split <;> exact ⟨rfl, rfl⟩
  | extract e queue pred pc hpc hextract hnext => exact h
  | expire e level hpc => exact h.of_setEmergency rfl rfl rfl rfl
  | promote e level worker hpc hwoken => exact h.of_setEmergency rfl rfl rfl rfl
  | receive request emergency mq hpc hemergency message hreceive hmq hparse =>
      obtain ⟨-, -, -, -, -, -, -, hx, hy⟩ := mallocateEmergency_spec hemergency
      -- only here do coordinates come in from outside
      have hoff := hguard hreceive message (by simp [hmq]) request hparse
      refine ⟨fun e he => ?_, h.twins, h.travelled⟩
      rcases Nat.lt_succ_iff_lt_or_eq.mp he with hlt | rfl
      · simpa [Nat.ne_of_lt hlt] using h.emergencies e hlt
      · simpa [hx, hy] using hrequests message request hparse hoff
  | receiverPush e level worker hpc hwoken => exact h

theorem initial_contained (hbases : ∀ r ∈ cfg.rescuers, cfg.size.contains r.x r.y)
    {r : RescuerType} (hr : r ∈ cfg.rescuers) :
    Contained cfg (initialState cfg).nextId (initialState cfg).world where
  emergencies e _ := by
    obtain ⟨⟨hx, hx'⟩, hy, hy'⟩ := hbases r hr
    exact ⟨⟨le_rfl, lt_of_le_of_lt hx hx'⟩, le_rfl, lt_of_le_of_lt hy hy'⟩
  twins t ht := by
    obtain ⟨r, hr, ht⟩ := List.mem_flatMap.mp ht
    have hbase : cfg.size.contains (cfg.rescuerOf t).x (cfg.rescuerOf t).y := by
      rw [cfg.rescuerOf_eq hr ht]
      exact hbases r hr
    exact ⟨cfg.rescuerOf_speed t, hbase, hbase, (nomatch ·)⟩
  travelled t hstatus := absurd rfl hstatus

/-- **The map of the validators and the map of the updater.**  An accepted base is on the map
exactly when it is not on the far border, an accepted request exactly when besides neither
it nor a side of the map is negative.  When no base is on the far border, in every run in
which such requests are not accepted, and no rescuer is sent on its first trip to
the cell it stands on, no walk ends outside the map. -/
theorem validators_agree_on_map {buffer : CString} {envFile rescuersFile : List Char}
    (hparsed : cfg.Parsed buffer envFile rescuersFile) :
    (∀ r ∈ cfg.rescuers, cfg.size.contains r.x r.y ↔ BaseOffBorder cfg.size r) ∧
      (∀ message request,
        parseEmergencyRequest message cfg.emergencies cfg.size.height cfg.size.width =
          some request →
        (cfg.size.contains request.x request.y ↔ RequestOffBorder cfg.size request)) ∧
      ((∀ r ∈ cfg.rescuers, BaseOffBorder cfg.size r) →
        ∀ s, ReachableWith (State.step cfg) (WalksOnMap cfg) (initialState cfg) s →
          ∀ t ∈ cfg.twinIds, ∀ w outside arrived,
            updateRescuerDigitalTwinState cfg.size s.world t = .walked w outside arrived →
            outside = false) := by
  refine ⟨fun r hr => hparsed.base_iff hr, fun message request => contains_request_iff,
    fun hborder s hreach t ht w outside arrived hup => ?_⟩
  · obtain ⟨r, hr, -⟩ := List.mem_flatMap.mp ht
    have hbases : ∀ r ∈ cfg.rescuers, cfg.size.contains r.x r.y := fun r hr =>
      (hparsed.base_iff hr).mpr (hborder r hr)
    -- bases, requests and so all twins are on the map, and a walk between two cells of it stays
    have hcontained : Contained cfg s.nextId s.world := by
      refine hreach.invariant (fun s => Contained cfg s.nextId s.world)
        (initial_contained hbases hr) fun s a s' hs h hguard hstep => ?_
      exact contained_step (reachable_invariant hs.reachable) hguard
        (fun message request hrequest => (contains_request_iff hrequest).mpr) h hstep
    have hl := (reachable_invariant hreach.reachable).links
    have hcases := update_cases hl cfg.size t
    rw [hup] at hcases
    cases hcases with
    | walked hstart hwalk =>
        rw [outOfMap_eq_false_iff]
        exact (walked_contained hl hcontained hstart hwalk).2 ht

/-- The files of the example. -/
def exampleEnvFile : List Char := "queue=examples\nheight=20\nwidth=20\n".toList

def exampleRescuersFile : List Char := "# bases\n[A][1][20][0;0]\n[B][1][20][0;0]\n".toList

theorem exampleServer_parsed : exampleServer.Parsed [] exampleEnvFile exampleRescuersFile :=
  ⟨⟨⟨"/example".toList, 20, 20⟩, by decide +kernel, rfl⟩, by decide +kernel⟩

/-- A rescuer of the example walks to an accepted position. -/
theorem validators_agree_on_map_walk :
    let s := stateAfterWith (WalksOnMap exampleServer) exampleServer
      (threadsStart ++ requestArrives "f 5 4 0" ++ workerSteps 0 6)
    (s.world.twins 1).status = .enRouteToScene ∧
      ∀ w outside arrived, updateRescuerDigitalTwinState exampleServer.size s.world 1 =
        .walked w outside arrived → outside = false :=
  ⟨by decide +kernel, (validators_agree_on_map exampleServer_parsed).2.2 (by decide +kernel) _
    (reachableWith_stateAfterWith _ _ _) 1 (by decide +kernel)⟩

/-- A request on the far border is accepted, and the rescuer that is sent there
leaves the map. -/
theorem accepted_request_off_map :
    exampleServer.Parsed [] exampleEnvFile exampleRescuersFile ∧
      parseEmergencyRequest "f 20 0 0".toList exampleServer.emergencies exampleServer.size.height
        exampleServer.size.width = some ⟨['f'], 20, 0⟩ ∧
      ¬exampleServer.size.contains 20 0 ∧
      (let s := stateAfter exampleServer
        (threadsStart ++ requestArrives "f 20 0 0" ++ workerSteps 0 6 ++ clockTicks 6)
      Reachable exampleServer s ∧
        s.updater = .updating (.shutdown .request :: .arrive 1 ::
          (List.finRange WORKER_THREADS_NUMBER).map .slot)) :=
  ⟨exampleServer_parsed, by decide +kernel, by decide +kernel, reachable_stateAfter _ _,
    by decide +kernel⟩

end EmergencyDispatch
