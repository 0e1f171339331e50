import EmergencyDispatch.Invariants

/-!
# The assignment of rescuers

What the links say of every reachable state: the required units of an emergency
are accounted for, rescuers are assigned exclusively and in both directions
alike, and how many candidates the assignment loop of a search reads.
-/

namespace EmergencyDispatch

variable {cfg : Config} {s : State}

/-! ## The units of an emergency -/

/-- **Every required unit is accounted for.**  For each request of an emergency
whose requests are for different types, the required count is what is missing,
on its way, on the scene and finished; the counters are the totals, and the
statuses in progress and completed say what they mean. -/
theorem required_units_accounted (hreach : Reachable cfg s) (e : EmergencyId)
    (hdistinct : ((s.world.emergencies e).type.rescuers.map (·.type)).Nodup) :
    (∀ request ∈ (s.world.emergencies e).type.rescuers,
      ∃ missing ∈ (s.world.emergencies e).rescuersMissing, missing.type = request.type ∧
        request.requiredCount = missing.requiredCount +
          s.world.enRoute cfg e (onlyType request.type) +
          s.world.onScene cfg e (onlyType request.type) +
          s.world.finishedStays e (onlyType request.type)) ∧
      (s.world.emergencies e).rescuersNotDoneYet =
        totalCount (s.world.emergencies e).rescuersMissing + s.world.enRoute cfg e anyType +
          s.world.onScene cfg e anyType ∧
      (s.world.emergencies e).rescuersNotArrivedYet =
        totalCount (s.world.emergencies e).rescuersMissing + s.world.enRoute cfg e anyType ∧
      ((s.world.emergencies e).status = .inProgress →
        (s.world.emergencies e).rescuersNotArrivedYet = 0) ∧
      ((s.world.emergencies e).status = .completed →
        ∀ request ∈ (s.world.emergencies e).type.rescuers,
          s.world.finishedStays e (onlyType request.type) = request.requiredCount) := by
  have hl := (reachable_invariant hreach).links
  have hmissing : s.world.missing e anyType = totalCount (s.world.emergencies e).rescuersMissing :=
    requested_anyType _
  -- the counts of one type: its request and what is missing for it stand for the type
  have hbalance : ∀ request ∈ (s.world.emergencies e).type.rescuers,
      ∃ missing ∈ (s.world.emergencies e).rescuersMissing, missing.type = request.type ∧
        request.requiredCount = missing.requiredCount +
          s.world.enRoute cfg e (onlyType request.type) +
          s.world.onScene cfg e (onlyType request.type) +
          s.world.finishedStays e (onlyType request.type) := by
    intro request hrequest
    have hmem : request.type ∈ (s.world.emergencies e).rescuersMissing.map (·.type) := by
      rw [hl.missing_type]
      exact List.mem_map_of_mem hrequest
    obtain ⟨missing, hmem, htype⟩ := List.mem_map.mp hmem
    refine ⟨missing, hmem, htype, ?_⟩
    have hrequired := requested_onlyType hdistinct hrequest
    have hcount := requested_onlyType (hl.missing_type e ▸ hdistinct) hmem
    rw [htype] at hcount
    rw [← hrequired, ← hcount]
    exact hl.balance e (onlyType request.type)
  refine ⟨hbalance, ?_, ?_, (hl.status e).1, fun hcompleted request hrequest => ?_⟩
  · rw [hl.notDone e, hmissing]
    push_cast
    rfl
  · rw [hl.notArrived e, hmissing]
    push_cast
    rfl
  · rw [hl.finishedStays_of_notDone ((hl.status e).2 hcompleted), requested_onlyType hdistinct
      hrequest]

/-- Both rescuers of the example are on their way to an emergency `e`. -/
theorem required_units_accounted_dispatched :
    let s := stateAfter exampleServer (threadsStart ++ requestArrives "e 3 4 0" ++ workerSteps 0 5)
    (s.world.emergencies 3).rescuersNotDoneYet = 2 ∧
      (s.world.emergencies 3).rescuersNotArrivedYet =
        totalCount (s.world.emergencies 3).rescuersMissing +
          s.world.enRoute exampleServer 3 anyType :=
  ⟨by decide +kernel, (required_units_accounted (reachable_stateAfter _ _) 3
    (by decide +kernel)).2.2.1⟩

/-! ## Exclusive assignment -/

/-- **Rescuers are assigned exclusively.**  A twin is in a slot of an emergency
exactly when it is bound to it; it is in one slot at most; a twin that is idle
or on its way home is bound to nothing; and no twin is marked as a candidate. -/
theorem assignment_exclusive (hreach : Reachable cfg s) :
    (∀ t e, (∃ i : ℕ, (s.world.emergencies e).rescuerTwins[i]? = some (some t)) ↔
        (s.world.twins t).emergency = some e ∧ ((s.world.twins t).status = .enRouteToScene ∨
          (s.world.twins t).status = .onScene)) ∧
      (∀ (t : TwinId) (e e' : EmergencyId) (i j : ℕ),
        (s.world.emergencies e).rescuerTwins[i]? = some (some t) →
        (s.world.emergencies e').rescuerTwins[j]? = some (some t) → e = e' ∧ i = j) ∧
      (∀ t, (s.world.twins t).status = .idle ∨ (s.world.twins t).status = .returningToBase →
        (s.world.twins t).emergency = none ∧
          ∀ e, some t ∉ (s.world.emergencies e).rescuerTwins) ∧
      (s.systemFree = true → ∀ t, (s.world.twins t).isACandidate = false) := by
  have hl := (reachable_invariant hreach).links
  refine ⟨fun t e => (hl.slot_iff t e).trans RescuerDigitalTwin.serves_iff, ?_, ?_,
    fun _ => hl.notCandidate⟩
  · intro t e e' i j hi hj
    obtain rfl := RescuerDigitalTwin.serves_unique ((hl.slot_iff t e).mp ⟨i, hi⟩)
      ((hl.slot_iff t e').mp ⟨j, hj⟩)
    exact ⟨rfl, Tally.index_unique (hl.slots_nodup e) hi hj⟩
  · intro t hstatus
    rcases hl.atRest t with hrest | ⟨e, he⟩
    · refine ⟨hrest.1, fun e hmem => ?_⟩
      have hserves := (hl.slot_iff t e).mp (List.mem_iff_getElem?.mp hmem)
      simp [RescuerDigitalTwin.serves_of_atRest hrest] at hserves
    · rcases (RescuerDigitalTwin.serves_iff.mp he).2 with h' | h' <;> simp [h'] at hstatus

/-- The twins of the example after a preemption: `0` is in the first slot of the
emergency `e`, `1` has passed to the emergency `f`. -/
theorem assignment_exclusive_preempted :
    let s := stateAfter exampleServer (threadsStart ++ requestArrives "e 3 4 0" ++
      workerSteps 0 5 ++ requestArrives "f 5 4 0" ++ workerSteps 1 5)
    (s.world.emergencies 3).rescuerTwins = [some 0, none] ∧
      (s.world.emergencies 4).rescuerTwins = [some 1] ∧
      (s.systemFree = true → ∀ t, (s.world.twins t).isACandidate = false) :=
  ⟨by decide +kernel, by decide +kernel, (assignment_exclusive (reachable_stateAfter _ _)).2.2.2⟩

/-! ## How many candidates a search reads -/

/-- **The candidates a search reads.**  The empty slots of the emergency are as
many as its missing rescuers, so that the assignment loop stays within the
candidates, exactly when no rescuer has finished its stay there: the slot of one
that has is empty, and nothing is missing for it. -/
theorem search_reads_its_candidates_iff (hreach : Reachable cfg s) {i : Worker} {e : EmergencyId}
    (hpc : s.worker i = .find e) :
    (emptySlots (s.world.emergencies e) (List.range (s.world.emergencies e).rescuerCount) =
        totalCount (s.world.emergencies e).rescuersMissing ∧
      findRescuersLoggingBlocking cfg.priorityLookupTable s.world e ≠
        .error .candidatesOutOfRange) ↔
      (s.world.emergencies e).rescuersNotDoneYet = (s.world.emergencies e).rescuerCount := by
  have hinv := reachable_invariant hreach
  have he : e < s.nextId := hinv.custody.worker_lt (i := i) (by rw [hpc]; rfl)
  have hslots := emptySlots_eq_totalCount_iff hinv.links e
  constructor
  · rintro ⟨hcount, -⟩
    exact hslots.mp hcount
  · intro hdone
    refine ⟨hslots.mpr hdone, fun herror => ?_⟩
    have hstep := (findRescuers_cases hinv.links he cfg.priorityLookupTable).1
    rw [herror] at hstep
    cases hstep with
    | outOfRange _ _ hnotDone => exact hnotDone hdone

/-- A run in which a rescuer finishes, the other one is taken from the same
emergency, and comes back: the search that follows. -/
def searchAfterFinishedStay : List Action :=
  threadsStart ++ requestArrives "e 3 4 0" ++ workerSteps 0 6 ++ clockTicks 22 ++ clockTicks 21 ++
    requestArrives "f 5 4 0" ++ workerSteps 1 6 ++ clockTicks 21 ++ clockTicks 21 ++
    workerSteps 0 4

/-- The first search of an emergency reads all its candidates. -/
theorem search_reads_its_candidates_first :
    let s := stateAfter exampleServer (threadsStart ++ requestArrives "e 3 4 0" ++ workerSteps 0 4)
    emptySlots (s.world.emergencies 3) (List.range (s.world.emergencies 3).rescuerCount) =
      totalCount (s.world.emergencies 3).rescuersMissing :=
  ((search_reads_its_candidates_iff (i := 0) (reachable_stateAfter _ _)
    (by decide +kernel)).mpr (by decide +kernel)).1

/-- Two slots are empty and one rescuer is missing: the search reads past the
last candidate. -/
theorem search_reads_past_candidates :
    let s := stateAfter exampleServer searchAfterFinishedStay
    Reachable exampleServer s ∧ s.worker 0 = .find 3 ∧
      emptySlots (s.world.emergencies 3) (List.range (s.world.emergencies 3).rescuerCount) = 2 ∧
      totalCount (s.world.emergencies 3).rescuersMissing = 1 ∧
      (State.step exampleServer s (.worker 0)).map (·.fault) =
        some (some .candidatesOutOfRange) :=
  ⟨reachable_stateAfter _ _, by decide +kernel, by decide +kernel, by decide +kernel,
    by decide +kernel⟩

end EmergencyDispatch
