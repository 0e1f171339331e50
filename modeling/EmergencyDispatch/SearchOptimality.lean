import Mathlib.Data.Prod.Lex
import EmergencyDispatch.Assignment
import EmergencyDispatch.Library.Greedy

/-!
# The search is complete and optimal

The comparator of `find_best_twin_blocked` has four criteria, the second of them
only for two twins that both have an emergency.  Among the twins a search may
take it follows a rank all the same, because these are at rest in their base or
working for an emergency (`compareTwins_follows`): idle or not, then the level of
the emergency, then the time of arrival, then on the scene or not.

A search marks the twins it has taken and changes nothing else, so every scan
uses the same rank, and what it leaves out is not preferable to what it takes
(`selectCandidates_noneBetter`).  The twins that are sent are those that were
selected, and how many are needed is what is missing.
-/

namespace EmergencyDispatch

variable {cfg : Config} {s : State} {n : EmergencyId} {w w' : World} {e : EmergencyId}
  {t u : TwinId} {table : List PriorityRule} {owed : EmergencyId → (RescuerType → Bool) → ℕ}

/-! ## The twins that can serve -/

/-- A twin can serve `e`: it is idle, or it works for an emergency of a strictly
lower level, and it arrives before the timeout if `e` has one. -/
def CanServe (table : List PriorityRule) (w : World) (e : EmergencyId)
    (twin : RescuerDigitalTwin) : Prop :=
  (twin.status = .idle ∨ (twin.status = .enRouteToScene ∨ twin.status = .onScene) ∧
      ∃ old ∈ twin.emergency, priorityToLevel table (w.emergencies old).priority <
        priorityToLevel table (w.emergencies e).priority) ∧
    ((w.emergencies e).timeoutTimer = NO_TIMEOUT ∨
      estimatedArrivalTime (w.emergencies e) twin ≤ (w.emergencies e).timeoutTimer)

instance (table : List PriorityRule) (w : World) (e : EmergencyId) (twin : RescuerDigitalTwin) :
    Decidable (CanServe table w e twin) :=
  inferInstanceAs (Decidable ((_ ∨ (_ ∨ _) ∧ ∃ old ∈ twin.emergency, _ < _) ∧ (_ ∨ _)))

/-- The twins of a type that can serve. -/
def twinsThatCanServe (table : List PriorityRule) (w : World) (e : EmergencyId)
    (r : RescuerType) : List TwinId :=
  r.twins.filter fun t => CanServe table w e (w.twins t)

/-- The tests of the search find exactly the twins that can serve.  Of a twin
that is at work the emergency is known, and one of lower level is another one. -/
theorem eligible_iff_canServe (h : Linked cfg n w owed) (t : TwinId) :
    eligible table w e (w.twins t) = true ↔ CanServe table w e (w.twins t) := by
  have htimeout : (!((w.emergencies e).timeoutTimer != NO_TIMEOUT &&
      estimatedArrivalTime (w.emergencies e) (w.twins t) > (w.emergencies e).timeoutTimer)) =
        true ↔ ((w.emergencies e).timeoutTimer = NO_TIMEOUT ∨
      estimatedArrivalTime (w.emergencies e) (w.twins t) ≤ (w.emergencies e).timeoutTimer) := by
    simp only [Bool.not_eq_true', Bool.and_eq_false_iff, bne_eq_false_iff_eq,
      decide_eq_false_iff_not, gt_iff_lt, not_lt]
  unfold eligible CanServe
  rw [Bool.and_eq_true, htimeout]
  refine and_congr ?_ Iff.rfl
  rw [Bool.and_eq_true]
  unfold isPreemptableOrAvailable
  rcases h.atRest t with ⟨hnone, hidle | hreturning⟩ | ⟨old, hserves⟩
  · simp [hidle, hnone]
  · simp [hreturning]
  · obtain ⟨hemergency, hstatus⟩ := RescuerDigitalTwin.serves_iff.mp hserves
    have hne : priorityToLevel table (w.emergencies old).priority <
        priorityToLevel table (w.emergencies e).priority → old ≠ e := by
      rintro hlt rfl
      exact absurd hlt (lt_irrefl _)
    rcases hstatus with hstatus | hstatus <;>
      simp [hstatus, hemergency, comparePriorities] <;> intro hlt <;> exact hne hlt

theorem eligibleTwins_eq (h : Linked cfg n w owed) (r : RescuerType) :
    eligibleTwins table w e r = twinsThatCanServe table w e r := by
  refine List.filter_congr fun t _ => ?_
  rw [Bool.eq_iff_iff, eligible_iff_canServe h t, decide_eq_true_iff]

/-! ## The rank of the comparator -/

/-- The level of the emergency the twin works for, `0` without one. -/
def levelOfWork (table : List PriorityRule) (w : World) (twin : RescuerDigitalTwin) : ℕ :=
  match twin.emergency with
  | none => 0
  | some old => priorityToLevel table (w.emergencies old).priority

/-- The four criteria of `compare_twins`, in their order; the least rank is
preferred. -/
def twinRank (table : List PriorityRule) (w : World) (em : Emergency)
    (twin : RescuerDigitalTwin) : ℕ ×ₗ ℕ ×ₗ ℤ ×ₗ ℕ :=
  toLex (if twin.status = .idle then 0 else 1, toLex (levelOfWork table w twin,
    toLex (estimatedArrivalTime em twin, if twin.status = .onScene then 1 else 0)))

/-- Idle without an emergency, or at work with one. -/
inductive Comparable (twin : RescuerDigitalTwin) : Prop
  | idle (hstatus : twin.status = .idle) (hnone : twin.emergency = none)
  | working (old : EmergencyId)
      (hstatus : twin.status = .enRouteToScene ∨ twin.status = .onScene)
      (hsome : twin.emergency = some old)

theorem CanServe.comparable (h : Linked cfg n w owed) (ht : CanServe table w e (w.twins t)) :
    Comparable (w.twins t) := by
  rcases h.atRest t with ⟨hnone, -⟩ | ⟨old, hserves⟩
  · rcases ht.1 with hidle | ⟨-, old, hold, -⟩
    · exact .idle hidle hnone
    · rw [hnone] at hold
      cases hold
  · obtain ⟨hemergency, hstatus⟩ := RescuerDigitalTwin.serves_iff.mp hserves
    exact .working old hstatus hemergency

/-- Of two idle twins the nearer one is preferred. -/
theorem compareTwins_idle {em : Emergency} {a b : RescuerDigitalTwin} (ha : a.status = .idle)
    (hb : b.status = .idle) (hanone : a.emergency = none) :
    compareTwins table w em a b = estimatedArrivalTime em b - estimatedArrivalTime em a := by
  simp only [compareTwins, ha, hb, hanone]
  simp
  omega

/-- Of two twins at work: the level of the emergency, then the time of arrival,
then who is on the scene. -/
theorem compareTwins_working {em : Emergency} {a b : RescuerDigitalTwin} {ea eb : EmergencyId}
    (ha : a.status = .enRouteToScene ∨ a.status = .onScene)
    (hb : b.status = .enRouteToScene ∨ b.status = .onScene)
    (haea : a.emergency = some ea) (hbeb : b.emergency = some eb) :
    compareTwins table w em a b =
      if levelOfWork table w a < levelOfWork table w b then 1
      else if levelOfWork table w b < levelOfWork table w a then -1
      else if estimatedArrivalTime em a ≠ estimatedArrivalTime em b then
        estimatedArrivalTime em b - estimatedArrivalTime em a
      else (if b.status = .onScene then 1 else 0) - (if a.status = .onScene then 1 else 0) := by
  simp only [compareTwins, levelOfWork, haea, hbeb, comparePriorities]
  generalize priorityToLevel table (w.emergencies ea).priority = la
  generalize priorityToLevel table (w.emergencies eb).priority = lb
  rcases ha with ha | ha <;> rcases hb with hb | hb <;> simp [ha, hb] <;> split_ifs <;> omega

/-- Two twins compared by `compare_twins`: the sign of the answer is the order of
their ranks. -/
theorem compareTwins_sign {em : Emergency} {a b : RescuerDigitalTwin} (ha : Comparable a)
    (hb : Comparable b) :
    (0 < compareTwins table w em a b ↔ twinRank table w em a < twinRank table w em b) ∧
      (compareTwins table w em a b < 0 ↔ twinRank table w em b < twinRank table w em a) := by
  unfold twinRank
  simp only [Prod.Lex.toLex_lt_toLex]
  cases ha with
  | idle hstatus hnone =>
      cases hb with
      | idle hstatus' hnone' =>
          rw [compareTwins_idle hstatus hstatus' hnone]
          simp [hstatus, hstatus', hnone, hnone', levelOfWork]
      | working old' hstatus' hsome' =>
          rcases hstatus' with hstatus' | hstatus' <;>
            simp [compareTwins, hstatus, hstatus']
  | working old hstatus hsome =>
      cases hb with
      | idle hstatus' hnone' =>
          rcases hstatus with hstatus | hstatus <;>
            simp [compareTwins, hstatus, hstatus']
      | working old' hstatus' hsome' =>
          -- the level counts first, and the time of arrival breaks the tie
          rw [compareTwins_working hstatus hstatus' hsome hsome']
          generalize levelOfWork table w a = la
          generalize levelOfWork table w b = lb
          generalize estimatedArrivalTime em a = ta
          generalize estimatedArrivalTime em b = tb
          rcases hstatus with hstatus | hstatus <;> rcases hstatus' with hstatus' | hstatus' <;>
            simp [hstatus, hstatus'] <;> split_ifs <;> omega

/-! ## What a scan finds -/

/-- The rank of a twin in the search of `e`. -/
abbrev searchRank (table : List PriorityRule) (w : World) (e : EmergencyId) (t : TwinId) :
    ℕ ×ₗ ℕ ×ₗ ℤ ×ₗ ℕ :=
  twinRank table w (w.emergencies e) (w.twins t)

/-- `compare_twins` on the twins of the world, in the search of `e`. -/
abbrev searchCompare (table : List PriorityRule) (w : World) (e : EmergencyId) (t u : TwinId) :
    ℤ :=
  compareTwins table w (w.emergencies e) (w.twins t) (w.twins u)

/-- **The comparator is a total preorder** on the twins that can serve. -/
theorem compareTwins_follows (h : Linked cfg n w owed) :
    Greedy.Follows (searchCompare table w e) (searchRank table w e)
      (fun t => CanServe table w e (w.twins t)) where
  pos_iff ht hu := (compareTwins_sign (ht.comparable h) (hu.comparable h)).1
  neg_iff ht hu := (compareTwins_sign (ht.comparable h) (hu.comparable h)).2

variable {r : RescuerType} {candidates : List TwinId}

/-- The loop of `find_best_twin_blocked` is a scan of the twins that can serve
and are not yet candidates. -/
theorem findBestTwinBlocked_eq_scan (h : Linked cfg n w owed) :
    findBestTwinBlocked table (w.markAll candidates) e r =
      Greedy.scan (searchCompare table w e)
        ((twinsThatCanServe table w e r).filter fun t => !candidates.contains t) := by
  unfold findBestTwinBlocked Greedy.scan
  rw [← eligibleTwins_eq h, eligibleTwins, List.filter_filter, List.foldl_filter]
  refine List.foldl_ext _ _ _ fun best t _ => ?_
  unfold betterTwin
  rw [eligible_markAll]
  have hmark : ((w.markAll candidates).twins t).isACandidate = candidates.contains t := rfl
  rw [hmark]
  cases candidates.contains t
  · cases eligible table w e (w.twins t)
    · simp
    · cases best <;> rfl
  · rfl

/-- No twin that can serve and is not yet a candidate is of lesser rank. -/
theorem findBestTwinBlocked_le (h : Linked cfg n w owed)
    (ht : findBestTwinBlocked table (w.markAll candidates) e r = some t) :
    ∀ u ∈ twinsThatCanServe table w e r, u ∉ candidates →
      searchRank table w e t ≤ searchRank table w e u := by
  intro u hu hnew
  rw [findBestTwinBlocked_eq_scan h] at ht
  apply Greedy.scan_le (compareTwins_follows h) _ ht
  · exact List.mem_filter.mpr ⟨hu, by simpa using hnew⟩
  · intro v hv
    have hmem := List.mem_of_mem_filter hv
    simpa using (List.mem_filter.mp hmem).2

/-! ## What the selection leaves out -/

/-- The twins that could be taken in the place of `t`. -/
def rivals (table : List PriorityRule) (w : World) (e : EmergencyId) (t : TwinId) : List TwinId :=
  twinsThatCanServe table w e (w.twins t).rescuer

theorem selectUnits_noneBetter (h : Linked cfg n w owed) {request : RescuerRequest}
    (hrequest : request ∈ (w.emergencies e).rescuersMissing) (count : ℕ)
    (hbest : Greedy.NoneBetter (searchRank table w e) (rivals table w e) candidates) :
    Greedy.NoneBetter (searchRank table w e) (rivals table w e)
      (selectUnits table e request.type count (w.markAll candidates) candidates).candidates := by
  induction count generalizing candidates with
  | zero => exact hbest
  | succ count ih =>
      unfold selectUnits
      split
      · exact hbest
      · rename_i t hsome
        rw [setCandidate_markAll]
        -- only the mark of `t` has changed
        apply ih
        apply hbest.append
        have hmem : t ∈ request.type.twins := (findBestTwinBlocked_some hsome).1
        rw [rivals, h.owner request.type (h.missing_mem e request hrequest) t hmem]
        exact findBestTwinBlocked_le h hsome

theorem selectRequests_noneBetter (h : Linked cfg n w owed) (requests : List RescuerRequest)
    (hrequests : ∀ request ∈ requests, request ∈ (w.emergencies e).rescuersMissing)
    (hchosen : Chosen table w e candidates)
    (hbest : Greedy.NoneBetter (searchRank table w e) (rivals table w e) candidates) :
    Greedy.NoneBetter (searchRank table w e) (rivals table w e)
      (selectRequests table e requests (w.markAll candidates) candidates).candidates := by
  induction requests generalizing candidates with
  | nil => exact hbest
  | cons request requests ih =>
      have hrequest := hrequests request (by simp)
      obtain ⟨hworld, hchosen', -, -⟩ :=
        selectUnits_spec table h hrequest request.requiredCount hchosen rfl
      have hbest' := selectUnits_noneBetter h hrequest request.requiredCount hbest
      unfold selectRequests
      dsimp only
      split
      · rw [hworld]
        exact ih (fun request' hmem => hrequests request' (by simp [hmem])) hchosen' hbest'
      · exact hbest'

/-- Nothing that the selection leaves out is preferable to what it takes. -/
theorem selectCandidates_noneBetter (h : Linked cfg n w owed) :
    Greedy.NoneBetter (searchRank table w e) (rivals table w e)
      (selectCandidates table w e).candidates := by
  have hstart : Chosen table w e [] := Chosen.nil
  have hselected := selectRequests_noneBetter h (w.emergencies e).rescuersMissing
    (fun _ hrequest => hrequest) hstart .nil
  rwa [h.markAll_nil] at hselected

/-! ## The twins that are sent -/

namespace DispatchStep

theorem serves_self {k : ℕ} (h : DispatchStep e k t w w') : (w'.twins t).serves e = true := by
  cases h <;> simp [bindWorld, RescuerDigitalTwin.serves]

end DispatchStep

namespace DispatchRun

theorem twins_of_notMem (h : DispatchRun e candidates w w') (ht : t ∉ candidates) :
    w'.twins t = w.twins t := by
  induction h with
  | nil w => rfl
  | cons hstep hrun ih =>
      rw [List.mem_cons, not_or] at ht
      rw [ih ht.2, hstep.twins_of_ne ht.1]

theorem serves_of_mem (h : DispatchRun e candidates w w') (hnodup : candidates.Nodup)
    (ht : t ∈ candidates) : (w'.twins t).serves e = true := by
  induction h with
  | nil w => simp at ht
  | cons hstep hrun ih =>
      obtain ⟨hnew, hnodup⟩ := List.nodup_cons.mp hnodup
      rcases List.mem_cons.mp ht with rfl | ht
      · rw [hrun.twins_of_notMem hnew]
        exact hstep.serves_self
      · exact ih hnodup ht

end DispatchRun

/-- The twins of type `r` that are sent to `e` between `w` and `w'`. -/
def sentTwins (w w' : World) (e : EmergencyId) (r : RescuerType) : List TwinId :=
  r.twins.filter fun t => (w'.twins t).serves e && !(w.twins t).serves e

theorem mem_sentTwins_iff (h : DispatchRun e candidates w w')
    (hchosen : Chosen table w e candidates) (hlinked : Linked cfg n w owed) :
    t ∈ sentTwins w w' e r ↔ t ∈ r.twins ∧ t ∈ candidates := by
  rw [sentTwins, List.mem_filter, Bool.and_eq_true, Bool.not_eq_true']
  refine and_congr_right fun _ => ⟨?_, fun ht => ⟨h.serves_of_mem hchosen.nodup ht, ?_⟩⟩
  · rintro ⟨hafter, hbefore⟩
    by_contra ht
    rw [h.twins_of_notMem ht, hbefore] at hafter
    cases hafter
  · have hne := (hchosen.candidate hlinked ht).ne
    rw [Bool.eq_false_iff]
    exact fun hserves => hne (RescuerDigitalTwin.serves_iff.mp hserves).1

/-- `taken` are `count` different twins of type `r` that can serve `e`, and no
other one that can is strictly preferred to one of them. -/
structure BestChoice (table : List PriorityRule) (w : World) (e : EmergencyId) (r : RescuerType)
    (count : ℕ) (taken : List TwinId) : Prop where
  nodup : taken.Nodup
  length : taken.length = count
  able : ∀ t ∈ taken, t ∈ r.twins ∧ CanServe table w e (w.twins t)
  best : ∀ t ∈ taken, ∀ u ∈ r.twins, CanServe table w e (w.twins u) → u ∉ taken →
    ¬0 < compareTwins table w (w.emergencies e) (w.twins u) (w.twins t)

theorem BestChoice.nothing : BestChoice table w e r 0 (sentTwins w w e r) := by
  have hnone : sentTwins w w e r = [] := by simp [sentTwins]
  rw [hnone]
  exact ⟨List.nodup_nil, rfl, by simp, by simp⟩

theorem length_sentTwins (h : DispatchRun e candidates w w')
    (hchosen : Chosen table w e candidates) (hlinked : Linked cfg n w owed)
    (hr : r ∈ cfg.rescuers) :
    (sentTwins w w' e r).length = countTypes w (onlyType r) candidates := by
  have htwins := Config.nodup_of_mem hr
  rw [countTypes, List.countP_eq_length_filter]
  apply List.Perm.length_eq
  apply (List.perm_ext_iff_of_nodup (htwins.filter _) (hchosen.nodup.filter _)).mpr
  intro t
  rw [← sentTwins, mem_sentTwins_iff h hchosen hlinked, List.mem_filter, and_comm]
  refine and_congr_right fun ht => ?_
  constructor
  · intro hmem
    simp [onlyType, hlinked.owner r hr t hmem]
  · exact hchosen.mem_of_type hlinked ht

/-- What a successful search sends is the best choice for each request. -/
theorem DispatchRun.bestChoice (h : DispatchRun e (selectCandidates table w e).candidates w w')
    (hlinked : Linked cfg n w owed) (hfound : (selectCandidates table w e).found = true)
    (hr : r ∈ cfg.rescuers) :
    BestChoice table w e r (w.missing e (onlyType r)) (sentTwins w w' e r) := by
  obtain ⟨-, hchosen, hcount⟩ := selectCandidates_spec hlinked table e
  have hsent := fun t => mem_sentTwins_iff (t := t) (r := r) h hchosen hlinked
  refine ⟨(Config.nodup_of_mem hr).filter _, ?_, fun t ht => ?_, fun t ht u hu hable hout => ?_⟩
  · rw [length_sentTwins h hchosen hlinked hr, hcount hfound]
  · obtain ⟨hmem, hcandidate⟩ := (hsent t).mp ht
    exact ⟨hmem, (eligible_iff_canServe hlinked t).mp (hchosen.eligible t hcandidate)⟩
  · obtain ⟨hmem, hcandidate⟩ := (hsent t).mp ht
    have hserve := (eligible_iff_canServe hlinked t).mp (hchosen.eligible t hcandidate)
    have hrival : u ∈ rivals table w e t := by
      rw [rivals, hlinked.owner r hr t hmem]
      exact List.mem_filter.mpr ⟨hu, by simpa using hable⟩
    have hnew : u ∉ (selectCandidates table w e).candidates :=
      fun hin => hout ((hsent u).mpr ⟨hu, hin⟩)
    have hle := selectCandidates_noneBetter hlinked t hcandidate u hrival hnew
    rw [(compareTwins_sign (hable.comparable hlinked) (hserve.comparable hlinked)).1]
    exact not_lt.mpr hle

/-! ## The search -/

/-- With requests for different types, enough rescuers means as many twins that
can serve as each request counts. -/
theorem enoughRescuers_iff (h : WellLinked cfg n w)
    (hdistinct : ((w.emergencies e).type.rescuers.map (·.type)).Nodup) :
    EnoughRescuers table w e ↔ ∀ request ∈ (w.emergencies e).rescuersMissing,
      request.requiredCount ≤ (twinsThatCanServe table w e request.type).length := by
  refine forall₂_congr fun request hrequest => ?_
  rw [eligibleTwins_eq h, World.missing,
    requested_onlyType (h.missing_type e ▸ hdistinct) hrequest]

/-- **The search is complete and optimal.**  An emergency has requests for
different types, and as many empty slots as units are missing.  The search
answers that it has found rescuers exactly when, for each missing request, there
are at least as many twins of the type that can serve; and then the twins it
sends are for each request that many different ones, such that none that is left
out is strictly preferred to one that was taken. -/
theorem search_complete_and_optimal (hreach : Reachable cfg s) (he : e < s.nextId)
    (hslots : emptySlots (s.world.emergencies e)
        (List.range (s.world.emergencies e).rescuerCount) =
      totalCount (s.world.emergencies e).rescuersMissing)
    (hdistinct : ((s.world.emergencies e).type.rescuers.map (·.type)).Nodup) :
    ∃ w' found, findRescuersLoggingBlocking cfg.priorityLookupTable s.world e = .ok (w', found) ∧
      (found = true ↔ ∀ request ∈ (s.world.emergencies e).rescuersMissing,
        request.requiredCount ≤
          (twinsThatCanServe cfg.priorityLookupTable s.world e request.type).length) ∧
      (found = true → ∀ request ∈ (s.world.emergencies e).rescuersMissing,
        BestChoice cfg.priorityLookupTable s.world e request.type request.requiredCount
          (sentTwins s.world w' e request.type)) := by
  have hlinks := (reachable_invariant hreach).links
  have hstep := (findRescuers_cases hlinks he cfg.priorityLookupTable).1
  have henough : EnoughRescuers cfg.priorityLookupTable s.world e ↔ _ :=
    enoughRescuers_iff hlinks hdistinct
  generalize findRescuersLoggingBlocking cfg.priorityLookupTable s.world e = outcome at hstep
  cases hstep with
  | nothingMissing hnothing =>
      have hzero : ∀ request ∈ (s.world.emergencies e).rescuersMissing,
          request.requiredCount = 0 := by
        intro request hrequest
        exact List.sum_eq_zero_iff_forall_eq_nat.mp hnothing _ (List.mem_map_of_mem hrequest)
      refine ⟨_, _, rfl, iff_of_true rfl fun request hrequest => ?_, fun _ request hrequest => ?_⟩
      · rw [hzero request hrequest]
        exact Nat.zero_le _
      · rw [hzero request hrequest]
        exact .nothing
  | notEnough hmissing hnot =>
      exact ⟨_, _, rfl, iff_of_false (by simp) fun hall => hnot (henough.mpr hall), by simp⟩
  | dispatched hmissing hsome hnotDone hrun =>
      refine ⟨_, _, rfl, iff_of_true rfl (henough.mp hsome), fun _ request hrequest => ?_⟩
      have hbest := hrun.bestChoice hlinks ((selectCandidates_found_iff hlinks _ e).mpr hsome)
        (hlinks.missing_mem e request hrequest)
      rwa [World.missing, requested_onlyType (hlinks.missing_type e ▸ hdistinct) hrequest]
        at hbest
  | outOfRange hmissing hsome hnotDone =>
      -- a unit that has finished would leave one slot more than units are missing
      exact absurd ((emptySlots_eq_totalCount_iff hlinks e).mp hslots) hnotDone

/-- A rescuer type with two twins. -/
def exampleRescuerPair : RescuerType := ⟨['A'], 1, 20, 0, 0, [0, 1]⟩

/-- A server whose two rescuers are of one type: the emergencies `e` and `g`, which
get the numbers from `2` on, need one of them, and `g` comes first. -/
def examplePairServer : Config where
  size := ⟨20, 20⟩
  rescuers := [exampleRescuerPair]
  emergencies :=
    [⟨1, ['e'], [⟨exampleRescuerPair, 1, 5⟩]⟩, ⟨2, ['g'], [⟨exampleRescuerPair, 1, 1⟩]⟩]
  priorityLookupTable := defaultPriorityLookupTable
  mallocated _ := ⟨7, 7, 0, 0, 0, 0, 0⟩
  names_nodup := by decide
  speeds := by decide
  twins_nodup := by decide
  requests_mem := by decide
  priorityLookupTable_ne_nil := defaultPriorityLookupTable_ne_nil

/-- The twin `0` is on its way to `e` and could be taken from it, but the idle
twin `1` is preferred; the search of `g` sends one of least rank. -/
theorem search_complete_and_optimal_idle :
    let s := stateAfter examplePairServer (threadsStart ++ requestArrives "e 3 4 0" ++
      workerSteps 0 6 ++ requestArrives "g 5 4 0" ++ workerSteps 1 4)
    twinsThatCanServe defaultPriorityLookupTable s.world 3 exampleRescuerPair = [0, 1] ∧
      0 < searchCompare defaultPriorityLookupTable s.world 3 1 0 ∧
      ∃ w', findRescuersLoggingBlocking defaultPriorityLookupTable s.world 3 = .ok (w', true) ∧
        BestChoice defaultPriorityLookupTable s.world 3 exampleRescuerPair 1
          (sentTwins s.world w' 3 exampleRescuerPair) := by
  intro s
  obtain ⟨w', found, hsearch, hfound, hbest⟩ :=
    search_complete_and_optimal (s := s) (e := 3) (reachable_stateAfter examplePairServer _)
      (by decide +kernel) (by decide +kernel) (by decide +kernel)
  obtain rfl : found = true := hfound.mpr (by decide +kernel)
  refine ⟨by decide +kernel, by decide +kernel, w', hsearch, ?_⟩
  exact hbest rfl ⟨exampleRescuerPair, 1, 1⟩ (by decide +kernel)

end EmergencyDispatch
