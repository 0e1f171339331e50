import EmergencyDispatch.Departures
import EmergencyDispatch.MissionRuns

/-!
# The life cycle of a mission

In every run in which no search dispatches the twin anywhere else, what the twin is doing
between two sections of the updater is told by the number of updates since it was sent
(`settled_of_run`).  For a twin that was at its base the whole cycle takes twice the way
and the stay, less one tick: the last tick on the scene is the first one of the way home
(`mission_life_cycle`).

The search takes a twin for an emergency with a timeout if the distance divided by the
speed, rounded down, is at most the timer.  The walk takes the quotient rounded up, so a
twin can be taken that arrives one tick too late (`on_scene_in_time_iff`).
-/

namespace EmergencyDispatch

open State TransitionSystem

variable {cfg : Config} {s s₀ s' : State} {i : Worker} {m : Mission} {log : MissionLog}

/-- A run from `s₀` to `s'` in which no search dispatches the twin of the mission, and
the log of the mission. -/
abbrev MissionRun (cfg : Config) (m : Mission) (s₀ s' : State) (log : MissionLog) : Prop :=
  ReachableWith (withHistory (State.step cfg) (missionRecord m))
    (fun p a => Undiverted cfg m.twin p.1 a) (s₀, ⟨false, 0, 0⟩) (s', log)

/-- What a mission rests on, besides its progress. -/
structure Underway (cfg : Config) (m : Mission) (start : ℕ) (s : State) (log : MissionLog) :
    Prop where
  reachable : Reachable cfg s
  known : m.emergency < s.nextId
  progress : Progress m start s log

/-- **Run lemma.** -/
theorem underway_of_run (hreach : Reachable cfg s) (hsent : SentOn cfg m i s s₀)
    (hrun : MissionRun cfg m s₀ s' log) : Underway cfg m s₀.updates.length s' log := by
  obtain ⟨hlt, hrescuer, htwin⟩ := hsent.known hreach
  obtain ⟨hfree, hbegins⟩ := hsent.begins hreach
  have hmem : m.twin ∈ cfg.twinIds := List.mem_flatMap.mpr ⟨m.rescuer, hrescuer, htwin⟩
  suffices h : ∀ p : State × MissionLog,
      ReachableWith (withHistory (State.step cfg) (missionRecord m))
        (fun p a => Undiverted cfg m.twin p.1 a) (s₀, ⟨false, 0, 0⟩) p →
      Underway cfg m s₀.updates.length p.1 p.2 from h (s', log) hrun
  intro p hp
  refine hp.invariant (fun p => Underway cfg m s₀.updates.length p.1 p.2) ?_ ?_
  · exact ⟨hsent.reachable hreach, hlt,
      .settled 0 rfl (workOn_of_todo (todo_of_systemFree hfree).1) hbegins⟩
  · rintro ⟨s₁, log₁⟩ a ⟨s₂, log₂⟩ - ⟨hreach₁, hlt₁, hprogress⟩ hguard hstep
    obtain ⟨s₃, hstep₁, hpair⟩ := Option.map_eq_some_iff.mp hstep
    obtain ⟨rfl, rfl⟩ := Prod.mk.inj hpair
    have hinv := reachable_invariant hreach₁
    have hlt₂ : m.emergency < s₃.nextId := by
      rcases step_accepted hstep₁ with ⟨hid, -⟩ | ⟨hid, -⟩ <;> rw [hid]
      · exact hlt₁
      · exact Nat.lt_succ_of_lt hlt₁
    refine ⟨hreach₁.next trivial hstep₁, hlt₂, ?_⟩
    by_cases hown : a.thread = some .updater → treating m.twin s₁ = false
    · exact hprogress.other hmem hown hlt₁ hstep₁ (twin_of_other hinv hstep₁ hguard hown)
    · obtain ⟨ha, htreating⟩ := Classical.not_imp.mp hown
      obtain ⟨woken, rfl, -⟩ := step_updater hstep₁ ha
      exact (hprogress.own hinv (hinv.links.owner _ hrescuer _ htwin)
        (by simpa using htreating) hstep₁).2.2

theorem settled_of_run (hreach : Reachable cfg s) (hsent : SentOn cfg m i s s₀)
    (hrun : MissionRun cfg m s₀ s' log) (hfree : s'.systemFree = true) :
    OnMission m (s'.updates.length - s₀.updates.length) (s'.world.twins m.twin) log := by
  obtain ⟨htodo, hnotDiverged⟩ := todo_of_systemFree hfree
  have hwork := workOn_of_todo (t := m.twin) htodo
  cases (underway_of_run hreach hsent hrun).progress with
  | endless h => exact absurd h hnotDiverged
  | waiting n hupdates hleft => simp [hwork] at hleft
  | arriving n hupdates hleft => simp [hwork] at hleft
  | settled n hupdates _ hmission =>
      have hn : (s'.updates.length : ℤ) - s₀.updates.length = n := by
        rw [hupdates]
        push_cast
        ring
      rw [hn]
      exact hmission

/-- What the updates of the twin change, in any state of the mission. -/
theorem ownWork_of_run (hreach : Reachable cfg s) (hsent : SentOn cfg m i s s₀)
    (hrun : MissionRun cfg m s₀ s' log) {woken : Option Worker} {s'' : State}
    (htreating : treating m.twin s' = true)
    (hstep : State.step cfg s' (.updater woken) = some s'') :
    OwnWork m s'.world s''.world ∧
      s'' = { s' with world := s''.world, updater := s''.updater } := by
  obtain ⟨hreach', -, hprogress⟩ := underway_of_run hreach hsent hrun
  obtain ⟨-, hrescuer, htwin⟩ := hsent.known hreach
  have hinv := reachable_invariant hreach'
  have hown := hprogress.own hinv (hinv.links.owner _ hrescuer _ htwin) htreating hstep
  exact ⟨hown.1, hown.2.1⟩

/-! ## The life cycle -/

theorem MANHATTAN_comm (x y x' y' : ℤ) : MANHATTAN x y x' y' = MANHATTAN x' y' x y := by
  simp only [MANHATTAN, ABS]
  split <;> split <;> split <;> split <;> omega

/-- A twin that leaves from its base has the same way back. -/
theorem SentOn.wayBack (h : SentOn cfg m i s s₀)
    (hbase : (s.world.twins m.twin).StandsAt m.rescuer.x m.rescuer.y) :
    m.wayBack = m.distance := by
  rw [Mission.wayBack, h.distance, hbase.1, hbase.2, MANHATTAN_comm]

/-- **The life cycle of a mission.**  A twin is sent from its base to an emergency that is
`m.distance` cells away, with a stay of `m.stay` ticks; `k` is the quotient of the distance
and the speed, rounded up, and `n` the number of updates since.  The twin is on its way
until the update `k`, on the scene until the update `k + m.stay`, and at its base from the
update `2 * k + m.stay - 1` on.  Its updates have taken one from each counter of the
emergency, at the arrival and at the departure, and change nothing but the twin, these
counters and its slot. -/
theorem mission_life_cycle (hreach : Reachable cfg s) (hsent : SentOn cfg m i s s₀)
    (hbase : (s.world.twins m.twin).StandsAt m.rescuer.x m.rescuer.y) (hstay : 1 ≤ m.stay)
    (hrun : MissionRun cfg m s₀ s' log) :
    let k := ticksToWalk m.distance m.rescuer.speed
    let n : ℤ := s'.updates.length - s₀.updates.length
    let twin := s'.world.twins m.twin
    let slots := (s'.world.emergencies m.emergency).rescuerTwins
    (s'.systemFree = true →
      (n < k → twin.status = .enRouteToScene ∧ twin.emergency = some m.emergency ∧
        log.arrivals = 0 ∧ log.departures = 0) ∧
      (k ≤ n → n < k + m.stay → twin.status = .onScene ∧ twin.emergency = some m.emergency ∧
        twin.StandsAt m.x m.y ∧ log.arrivals = 1 ∧ log.departures = 0 ∧
        ∃ j : ℕ, slots[j]? = some (some m.twin)) ∧
      (k + m.stay ≤ n → twin.emergency = none ∧ log.arrivals = 1 ∧ log.departures = 1 ∧
        ∀ j : ℕ, slots[j]? ≠ some (some m.twin)) ∧
      (k + m.stay ≤ n → n < 2 * k + m.stay - 1 → twin.status = .returningToBase) ∧
      (2 * k + m.stay - 1 ≤ n → twin.status = .idle ∧ twin.emergency = none ∧
        twin.StandsAt m.rescuer.x m.rescuer.y)) ∧
    ∀ woken s'', treating m.twin s' = true → State.step cfg s' (.updater woken) = some s'' →
      OwnWork m s'.world s''.world ∧
        s'' = { s' with world := s''.world, updater := s''.updater } := by
  intro k n twin slots
  refine ⟨fun hfree => ?_, fun woken s'' => ownWork_of_run hreach hsent hrun⟩
  have hmission : OnMission m n twin log := settled_of_run hreach hsent hrun hfree
  have hslot := (reachable_invariant (underway_of_run hreach hsent hrun).reachable).links.slot_iff
    m.twin m.emergency
  have harrival : m.arrival = k := rfl
  have hk : 0 < k := m.arrival_pos
  have hdeparture : m.departure = k + m.stay := by
    rw [Mission.departure, max_eq_right hstay, harrival]
  have hhomecoming : m.homecoming = 2 * k + m.stay - 1 := by
    rw [Mission.homecoming, hsent.wayBack hbase, ← Mission.arrival, harrival, max_eq_right hk,
      hdeparture]
    ring
  -- the phase of the mission tells which of the bounds on `n` can hold
  cases hmission with
  | enRoute hn hstatus hemergency =>
      refine ⟨fun _ => ⟨hstatus, hemergency, rfl, rfl⟩, ?_, ?_, ?_, ?_⟩ <;> intros <;> omega
  | onScene hn hn' hstatus hemergency _ _ hstands =>
      have hserves : twin.serves m.emergency = true :=
        RescuerDigitalTwin.serves_iff.mpr ⟨hemergency, .inr hstatus⟩
      refine ⟨?_, fun _ _ => ⟨hstatus, hemergency, hstands, rfl, rfl, hslot.mpr hserves⟩,
        ?_, ?_, ?_⟩ <;> intros <;> omega
  | returning hn hn' hstatus hemergency =>
      have hserves : twin.serves m.emergency ≠ true := by
        simp [RescuerDigitalTwin.serves, hemergency]
      refine ⟨?_, ?_, fun _ => ⟨hemergency, rfl, rfl, fun j hj => hserves (hslot.mp ⟨j, hj⟩)⟩,
        fun _ _ => hstatus, ?_⟩ <;> intros <;> omega
  | home hn hstatus hemergency hstands =>
      have hserves : twin.serves m.emergency ≠ true := by
        simp [RescuerDigitalTwin.serves, hemergency]
      refine ⟨?_, ?_, fun _ => ⟨hemergency, rfl, rfl, fun j hj => hserves (hslot.mp ⟨j, hj⟩)⟩,
        ?_, fun _ => ⟨hstatus, hemergency, hstands⟩⟩ <;> intros <;> omega

/-- Two ticks of way, one on the scene, and the way back: the rescuer is at its base again
after four ticks. -/
theorem mission_life_cycle_four_ticks :
    let m : Mission := ⟨0, 3, exampleRescuerA, 27, 15, 12, 1, by decide, by decide⟩
    let s := stateAfter exampleServer (threadsStart ++ requestArrives "g 15 12 0" ++
      workerSteps 0 4)
    let s₀ := nextState exampleServer s (.worker 0)
    let s' := continueWith (Undiverted exampleServer m.twin) exampleServer s₀
      (clockTicks 22 ++ clockTicks 22 ++ clockTicks 21 ++ clockTicks 22)
    SentOn exampleServer m 0 s s₀ ∧ s'.updates.length = s₀.updates.length + 4 ∧
      ∃ log, MissionRun exampleServer m s₀ s' log ∧ (s'.world.twins m.twin).status = .idle ∧
        (s'.world.twins m.twin).StandsAt m.rescuer.x m.rescuer.y := by
  intro m s s₀ s'
  have hreach : Reachable exampleServer s := reachable_stateAfter _ _
  have hsent : SentOn exampleServer m 0 s s₀ :=
    ⟨by decide +kernel, step_nextState (by decide +kernel), by decide +kernel, by decide +kernel,
      by decide +kernel, by decide +kernel, by decide +kernel, by decide +kernel⟩
  have hbase : (s.world.twins m.twin).StandsAt m.rescuer.x m.rescuer.y := by decide +kernel
  have hrun : ReachableWith (State.step exampleServer) (Undiverted exampleServer m.twin) s₀ s' :=
    reachableWith_continueWith _ _ _ _
  obtain ⟨hfree, hticks⟩ : s'.systemFree = true ∧
      s'.updates.length = s₀.updates.length + 4 := by
    decide +kernel
  clear_value s s₀ s'
  obtain ⟨log, hlog⟩ := hrun.exists_history (missionRecord m) ⟨false, 0, 0⟩
  have hlast : 2 * ticksToWalk m.distance m.rescuer.speed + m.stay - 1 ≤
      (s'.updates.length : ℤ) - s₀.updates.length := by
    have hcycle : 2 * ticksToWalk m.distance m.rescuer.speed + m.stay - 1 = 4 := by decide
    omega
  obtain ⟨hidle, -, hhome⟩ := ((mission_life_cycle hreach hsent hbase (by decide) hlog).1
    hfree).2.2.2.2 hlast
  exact ⟨hsent, hticks, log, hlog, hidle, hhome⟩

/-! ## The filter of the search -/

/-- **Whether a twin arrives before the timeout** that the search has compared with its
estimate: if and only if the distance is at most the timer times the speed. -/
theorem on_scene_in_time_iff (hreach : Reachable cfg s) (hsent : SentOn cfg m i s s₀)
    (hrun : MissionRun cfg m s₀ s' log) (hfree : s'.systemFree = true)
    (hticks : (s'.updates.length : ℤ) = s₀.updates.length +
      (s.world.emergencies m.emergency).timeoutTimer) :
    log.onScene = true ↔
      m.distance ≤ (s.world.emergencies m.emergency).timeoutTimer * m.rescuer.speed := by
  have hmission := settled_of_run hreach hsent hrun hfree
  rw [hticks, add_sub_cancel_left] at hmission
  rw [← ticksToWalk_le_iff m.speed_pos]
  have hdeparture : m.arrival < m.departure := by
    rw [Mission.departure]
    omega
  have hhomecoming : m.departure ≤ m.homecoming := by
    rw [Mission.homecoming]
    omega
  change log.onScene = true ↔ m.arrival ≤ _
  cases hmission with
  | enRoute hn => simpa using hn
  | onScene hn => simpa using hn
  | returning hn => simpa using hdeparture.le.trans hn
  | home hn => simpa using hdeparture.le.trans (hhomecoming.trans hn)

/-- One rescuer of speed 2, and emergencies with a timeout of 30 ticks. -/
def slowRescuer : RescuerType := ⟨['A'], 1, 2, 0, 0, [0]⟩

def slowServer : Config where
  size := ⟨50, 50⟩
  rescuers := [slowRescuer]
  emergencies := [⟨2, ['g'], [⟨slowRescuer, 1, 1⟩]⟩]
  priorityLookupTable := defaultPriorityLookupTable
  mallocated := exampleServer.mallocated
  names_nodup := by decide
  speeds := by decide
  twins_nodup := by decide
  requests_mem := by decide
  priorityLookupTable_ne_nil := defaultPriorityLookupTable_ne_nil

/-- The rescuer is about to be searched for. -/
def slowSearch (message : String) : State :=
  stateAfter slowServer (threadsStart ++ requestArrives message ++ workerSteps 0 4)

/-- Thirty ticks after the search, `last` steps of the updater in the last one. -/
def thirtyTicks (s : State) (last : ℕ) : State :=
  continueWith (Undiverted slowServer 0) slowServer (nextState slowServer s (.worker 0))
    (clockTicks 21 ++ (List.replicate 28 (clockTicks 20)).flatten ++ clockTicks last)

theorem reachableWith_thirtyTicks (s : State) (last : ℕ) :
    ReachableWith (State.step slowServer) (Undiverted slowServer 0)
      (nextState slowServer s (.worker 0)) (thirtyTicks s last) :=
  reachableWith_continueWith _ _ _ _

/-- Sixty cells at speed 2: the rescuer arrives in the tick of the timeout. -/
theorem on_scene_in_time :
    let m : Mission := ⟨0, 1, slowRescuer, 60, 40, 20, 1, by decide, by decide⟩
    let s := slowSearch "g 40 20 0"
    let s₀ := nextState slowServer s (.worker 0)
    let s' := thirtyTicks s 21
    SentOn slowServer m 0 s s₀ ∧ (s.world.emergencies m.emergency).timeoutTimer = 30 ∧
      s'.updates.length = s₀.updates.length + 30 ∧
      ∃ log, MissionRun slowServer m s₀ s' log ∧ log.onScene = true := by
  intro m s s₀ s'
  have hreach : Reachable slowServer s := reachable_stateAfter _ _
  have hsent : SentOn slowServer m 0 s s₀ :=
    ⟨by decide +kernel, step_nextState (by decide +kernel), by decide +kernel, by decide +kernel,
      by decide +kernel, by decide +kernel, by decide +kernel, by decide +kernel⟩
  have htimeout : (s.world.emergencies m.emergency).timeoutTimer = 30 := by decide +kernel
  have hrun : ReachableWith (State.step slowServer) (Undiverted slowServer m.twin) s₀ s' :=
    reachableWith_thirtyTicks _ _
  obtain ⟨hfree, hticks⟩ : s'.systemFree = true ∧
      s'.updates.length = s₀.updates.length + 30 := by
    decide +kernel
  clear_value s s₀ s'
  obtain ⟨log, hlog⟩ := hrun.exists_history (missionRecord m) ⟨false, 0, 0⟩
  refine ⟨hsent, htimeout, hticks, log, hlog, ?_⟩
  refine (on_scene_in_time_iff hreach hsent hlog hfree ?_).mpr ?_
  · rw [htimeout, hticks]
    push_cast
    rfl
  · rw [htimeout]
    decide

/-- Sixty-one cells: the search estimates thirty ticks and takes the rescuer, who is still
on the way in the tick of the timeout. -/
theorem taken_and_late :
    let m : Mission := ⟨0, 1, slowRescuer, 61, 40, 21, 1, by decide, by decide⟩
    let s := slowSearch "g 40 21 0"
    let s₀ := nextState slowServer s (.worker 0)
    let s' := thirtyTicks s 20
    Reachable slowServer s ∧ SentOn slowServer m 0 s s₀ ∧
      (s.world.emergencies m.emergency).timeoutTimer = 30 ∧
      estimatedArrivalTime (s.world.emergencies m.emergency) (s.world.twins m.twin) = 30 ∧
      s'.systemFree = true ∧ s'.updates.length = s₀.updates.length + 30 ∧
      ∃ log, MissionRun slowServer m s₀ s' log ∧ log.onScene = false ∧
        (s'.world.twins m.twin).status = .enRouteToScene := by
  intro m s s₀ s'
  have hreach : Reachable slowServer s := reachable_stateAfter _ _
  have hsent : SentOn slowServer m 0 s s₀ :=
    ⟨by decide +kernel, step_nextState (by decide +kernel), by decide +kernel, by decide +kernel,
      by decide +kernel, by decide +kernel, by decide +kernel, by decide +kernel⟩
  have htimeout : (s.world.emergencies m.emergency).timeoutTimer = 30 := by decide +kernel
  have hestimate : estimatedArrivalTime (s.world.emergencies m.emergency)
      (s.world.twins m.twin) = 30 := by decide +kernel
  have hrun : ReachableWith (State.step slowServer) (Undiverted slowServer m.twin) s₀ s' :=
    reachableWith_thirtyTicks _ _
  obtain ⟨hfree, hticks, hroute⟩ : s'.systemFree = true ∧
      s'.updates.length = s₀.updates.length + 30 ∧
      (s'.world.twins m.twin).status = .enRouteToScene := by
    decide +kernel
  clear_value s s₀ s'
  obtain ⟨log, hlog⟩ := hrun.exists_history (missionRecord m) ⟨false, 0, 0⟩
  refine ⟨hreach, hsent, htimeout, hestimate, hfree, hticks, log, hlog, ?_, hroute⟩
  -- a twin on its way has not been on the scene
  cases settled_of_run hreach hsent hlog hfree with
  | enRoute => rfl
  | onScene _ _ hstatus | returning _ _ hstatus | home _ hstatus => simp [hstatus] at hroute

end EmergencyDispatch
