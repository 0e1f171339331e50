import EmergencyDispatch.Completion
import EmergencyDispatch.Missions
import EmergencyDispatch.SearchOptimality

/-!
# Missions in the runs of the server

Each section of the updater treats each twin once, so that between two sections the
number of updates a twin has had since it was sent is the number of ticks the updater
has treated since (`Progress`).  What the twin does besides depends on no other thread,
as long as no search dispatches it somewhere else (`Undiverted`).
-/

namespace EmergencyDispatch

open State TransitionSystem

variable {cfg : Config} {s s' : State} {a : Action} {t : TwinId} {e : EmergencyId}
  {w w' : World} {m : Mission} {log : MissionLog}

/-! ## Steps that are not an update of the twin -/

/-- No search dispatches the twin. -/
def Undiverted (cfg : Config) (t : TwinId) (s : State) : Action → Prop
  | .worker i =>
      match s.worker i with
      | .find e => EnoughRescuers cfg.priorityLookupTable s.world e →
          t ∉ (selectCandidates cfg.priorityLookupTable s.world e).candidates
      | _ => True
  | _ => True

instance (cfg : Config) (t : TwinId) (s : State) (a : Action) :
    Decidable (Undiverted cfg t s a) := by
  unfold Undiverted
  rcases a
  case worker i => dsimp only; generalize s.worker i = pc; rcases pc <;> infer_instance
  all_goals infer_instance

/-- The operations that are left of the updater's section. -/
def UpdaterPc.todo : UpdaterPc → List UpdateOp
  | .updating todo => todo
  | _ => []

/-- Those about the twin. -/
def UpdaterPc.workOn (t : TwinId) (pc : UpdaterPc) : List UpdateOp :=
  pc.todo.filter fun op => op.subject == some t

/-- The updater is about to treat the twin. -/
def treating (t : TwinId) (s : State) : Bool :=
  s.updater.todo.head?.bind UpdateOp.subject == some t

theorem todo_of_systemFree (h : s.systemFree = true) :
    s.updater.todo = [] ∧ s.updater ≠ .diverged := by
  cases hpc : s.updater <;> simp_all [UpdaterPc.todo, systemFree]

@[simp] theorem todo_wakeTick (pc : UpdaterPc) : (wakeTick pc).todo = pc.todo := by
  cases pc <;> rfl

theorem treating_of_head {op : UpdateOp} {rest : List UpdateOp}
    (hpc : s.updater = .updating (op :: rest)) (hop : op.subject = some t) :
    treating t s = true := by
  simp [treating, hpc, UpdaterPc.todo, hop]

theorem head_of_treating (h : treating t s = true) : ∃ op rest,
    s.updater = .updating (op :: rest) ∧ op.subject = some t := by
  cases hpc : s.updater with
  | updating todo =>
      cases todo with
      | nil => simp [treating, hpc, UpdaterPc.todo] at h
      | cons op rest => exact ⟨op, rest, rfl, by simpa [treating, hpc, UpdaterPc.todo] using h⟩
  | _ => simp [treating, hpc, UpdaterPc.todo] at h

@[simp] theorem workOn_nil : (UpdaterPc.updating []).workOn t = [] := rfl

theorem workOn_cons (op : UpdateOp) (rest : List UpdateOp) :
    (UpdaterPc.updating (op :: rest)).workOn t =
      if op.subject = some t then op :: (UpdaterPc.updating rest).workOn t
      else (UpdaterPc.updating rest).workOn t := by
  simp [UpdaterPc.workOn, UpdaterPc.todo, List.filter_cons]

theorem workOn_append (first second : List UpdateOp) :
    (UpdaterPc.updating (first ++ second)).workOn t =
      (UpdaterPc.updating first).workOn t ++ (UpdaterPc.updating second).workOn t := by
  simp [UpdaterPc.workOn, UpdaterPc.todo]

theorem workOn_of_todo {pc : UpdaterPc} (h : pc.todo = []) : pc.workOn t = [] := by
  simp [UpdaterPc.workOn, h]

theorem workOn_updateOps (cfg : Config) (ht : t ∈ cfg.twinIds) :
    (UpdaterPc.updating (updateOps cfg)).workOn t = [.twin t] := by
  have hslots : (UpdaterPc.updating
      ((List.finRange WORKER_THREADS_NUMBER).map .slot)).workOn t = [] := by
    simp [UpdaterPc.workOn, UpdaterPc.todo, List.filter_map, UpdateOp.subject, Function.comp_def]
  have htwins : (UpdaterPc.updating (cfg.twinIds.map .twin)).workOn t =
      (cfg.twinIds.filter fun u => u == t).map .twin := by
    simp [UpdaterPc.workOn, UpdaterPc.todo, List.filter_map, UpdateOp.subject, Function.comp_def]
  have hcount : cfg.twinIds.count t = 1 := List.count_eq_one_of_mem cfg.twins_nodup ht
  rw [updateOps, workOn_append, hslots, htwins, List.append_nil, List.filter_beq, hcount]
  rfl

theorem twin_of_other (hinv : Invariant cfg s) (hstep : State.step cfg s a = some s')
    (hguard : Undiverted cfg t s a) (hother : a.thread = some .updater → treating t s = false) :
    s'.world.twins t = s.world.twins t := by
  have hne : ∀ {op rest u}, a.thread = some .updater → s.updater = .updating (op :: rest) →
      op.subject = some u → t ≠ u := by
    rintro op rest u ha hpc hop rfl
    simp [treating_of_head hpc hop] at hother
    exact hother ha
  cases (step_effect hstep).2 with
  | quiet hq => rw [hq.world]
  | search i e w found worker hpc hfind hwoken =>
      cases hinv.findStep hpc hfind with
      | nothingMissing | notEnough => rfl
      | dispatched hmissing henough hnotDone hrun =>
          -- the search sends other twins: that is what the guard says
          simp only [Undiverted, hpc] at hguard
          exact hrun.twins_of_notMem (hguard henough)
  | stays u rest w hpc hupdate =>
      have hu := hne rfl hpc rfl
      have hcases := update_cases hinv.links cfg.size u
      rw [hupdate] at hcases
      cases hcases with
      | idle => rfl
      | stays => simp [tickStay, hu]
  | walked u rest w outside arrived hpc hupdate =>
      have hu := hne rfl hpc rfl
      have hcases := update_cases hinv.links cfg.size u
      rw [hupdate] at hcases
      cases hcases with
      | walked hstart hwalk =>
          rw [World.setTwin_twins_of_ne _ _ _ hu]
          exact (hstart.twins hinv.links).2 t hu
  | arrived u rest w hpc harrive =>
      have hu := hne rfl hpc rfl
      have hcases := arrival_cases hinv.links u
      rw [harrive] at hcases
      cases hcases with
      | onScene e hroute => simp [arriveOnScene, hu]
      | atBase => simp [hu]
  | fatal u rest w hpc harrive =>
      have hu := hne rfl hpc rfl
      have hcases := arrival_cases hinv.links u
      rw [harrive] at hcases
      cases hcases with
      | fatal => simp [hu]
  | _ => rfl

/-- After a walk the arrival is left, if there is one. -/
theorem workOn_afterWalk (outside arrived : Bool) {rest : List UpdateOp}
    (h : (UpdaterPc.updating rest).workOn t = []) :
    (UpdaterPc.updating (afterWalk t outside arrived rest)).workOn t =
      if arrived = true then [.arrive t] else [] := by
  rw [afterWalk, workOn_append, workOn_append, h]
  cases outside <;> cases arrived <;> simp [workOn_cons, UpdateOp.subject]

/-- How a step that is not an update of the twin changes what the updater has still to
do with it. -/
inductive WorkStep (cfg : Config) (t : TwinId) (s s' : State) : Prop
  | same (hupdates : s'.updates = s.updates) (hwork : s'.updater.workOn t = s.updater.workOn t)
  | begin (cycle : ℕ) (hupdates : s'.updates = s.updates ++ [cycle])
      (hbefore : s.updater.workOn t = []) (hbegin : s'.updater = .updating (updateOps cfg))
  | endless (h : s'.updater = .diverged)

/-- What an operation about another twin, or about none, adds to the section is not
about the twin. -/
theorem workStep_of_stepUpdate {op : UpdateOp} {rest : List UpdateOp}
    (hpc : s.updater = .updating (op :: rest)) (hop : op.subject ≠ some t)
    (hstep : s.stepUpdate cfg rest op = some s') : WorkStep cfg t s s' := by
  have hnext : ∀ more : List UpdateOp, (UpdaterPc.updating more).workOn t = [] →
      s'.updater = .updating (more ++ rest) → s'.updates = s.updates → WorkStep cfg t s s' := by
    intro more hmore hpc' hupdates
    refine .same hupdates ?_
    rw [hpc, hpc', workOn_append, hmore, workOn_cons, if_neg hop]
    rfl
  cases op with
  | twin u =>
      simp only [stepUpdate] at hstep
      split at hstep <;> obtain rfl := Option.some.inj hstep
      · exact hnext [] rfl rfl rfl
      · refine hnext _ ?_ rfl rfl
        rw [workOn_append]
        split <;> split <;>
          simp [UpdaterPc.workOn, UpdaterPc.todo, UpdateOp.subject] <;>
          simpa [UpdateOp.subject] using hop
      · exact .endless rfl
      · exact .same rfl rfl
  | arrive u =>
      simp only [stepUpdate] at hstep
      split at hstep <;> obtain rfl := Option.some.inj hstep
      · exact hnext [] rfl rfl rfl
      · exact hnext [.shutdown .request] rfl rfl rfl
      · exact .same rfl rfl
  | slot i =>
      simp only [stepUpdate] at hstep
      split at hstep <;> obtain rfl := Option.some.inj hstep <;> exact hnext [] rfl rfl rfl
  | shutdown op =>
      simp only [stepUpdate, Option.map_eq_some_iff, Prod.exists] at hstep
      obtain ⟨s₁, more, hshutdown, rfl⟩ := hstep
      refine hnext (more.map .shutdown) ?_ rfl ?_
      · simp [UpdaterPc.workOn, UpdaterPc.todo, List.filter_map, UpdateOp.subject,
          Function.comp_def]
      · exact ((shutdownOp_frame hshutdown).ticks (by simp) (by simp)).2.2

theorem workStep_of_stepUpdater {woken : Option Worker} (hother : treating t s = false)
    (hstep : s.stepUpdater cfg woken = some s') : WorkStep cfg t s s' := by
  -- a step from and to a place outside the section
  have hout : s.updater.todo = [] → s'.updater.todo = [] → s'.updates = s.updates →
      WorkStep cfg t s s' := by
    intro htodo htodo' hupdates
    exact .same hupdates (by rw [workOn_of_todo htodo, workOn_of_todo htodo'])
  cases hpc : s.updater with
  | begin cycle =>
      simp only [stepUpdater, hpc] at hstep
      obtain rfl := Option.some.inj hstep
      exact .begin cycle rfl (by rw [hpc]; rfl) rfl
  | updating todo =>
      cases todo with
      | nil =>
          simp only [stepUpdater, hpc] at hstep
          obtain rfl := Option.some.inj hstep
          exact hout (by simp [hpc, UpdaterPc.todo]) rfl rfl
      | cons op rest =>
          simp only [stepUpdater, hpc] at hstep
          refine workStep_of_stepUpdate hpc (fun hop => ?_) hstep
          simp [treating_of_head hpc hop] at hother
  | promoted e =>
      simp only [stepUpdater, hpc] at hstep
      obtain ⟨worker, -, -, rfl⟩ := pushEmergency_eq hstep
      exact hout (by simp [hpc, UpdaterPc.todo]) rfl rfl
  | loop =>
      simp only [stepUpdater, hpc] at hstep
      obtain rfl := Option.some.inj hstep
      refine hout (by simp [hpc, UpdaterPc.todo]) ?_ rfl
      dsimp only
      split <;> rfl
  | takeTick =>
      simp only [stepUpdater, hpc] at hstep
      split at hstep
      · obtain rfl := Option.some.inj hstep
        exact hout (by simp [hpc, UpdaterPc.todo]) rfl rfl
      · split at hstep <;> obtain rfl := Option.some.inj hstep <;>
          exact hout (by simp [hpc, UpdaterPc.todo]) rfl rfl
  | expire | promote =>
      simp only [stepUpdater, hpc] at hstep
      split at hstep <;> obtain rfl := Option.some.inj hstep <;>
        exact hout (by simp [hpc, UpdaterPc.todo]) rfl rfl
  | readCount | mapWaiting | expired e =>
      simp only [stepUpdater, hpc] at hstep
      obtain rfl := Option.some.inj hstep
      exact hout (by simp [hpc, UpdaterPc.todo]) rfl rfl
  | tickWait | diverged | exited => simp [stepUpdater, hpc] at hstep

theorem stepClock_updates (h : s.stepClock = some s') : s'.updates = s.updates := by
  cases hpc : s.clock <;> simp only [stepClock, hpc, reduceCtorEq] at h <;>
    obtain rfl := Option.some.inj h <;> rfl

theorem workStep_of_other (hstep : State.step cfg s a = some s')
    (hother : a.thread = some .updater → treating t s = false) : WorkStep cfg t s s' := by
  by_cases ha : a.thread = some .updater
  · obtain ⟨woken, -, hupdater⟩ := step_updater hstep ha
    exact workStep_of_stepUpdater (hother ha) hupdater
  · have hwork : s'.updater.workOn t = s.updater.workOn t := by
      rcases (step_frame hstep).updater ha with heq | heq <;> simp [heq, UpdaterPc.workOn]
    refine .same ?_ hwork
    by_cases hclock : a.thread = some .clock
    · cases (step_thread hstep).2 <;>
        simp only [Action.thread, Option.some.injEq, reduceCtorEq] at hclock
      case clock _ h => exact stepClock_updates h
    · exact ((step_frame hstep).ticks hclock ha).2.2

theorem diverged_step (h : s.updater = .diverged) (hstep : State.step cfg s a = some s') :
    s'.updater = .diverged := by
  by_cases ha : a.thread = some .updater
  · obtain ⟨woken, -, hupdater⟩ := step_updater hstep ha
    simp [stepUpdater, h] at hupdater
  · rcases (step_frame hstep).updater ha with heq | heq <;> rw [heq, h]
    rfl

/-! ## The progress of a mission -/

/-- Keep the log of a mission: the counters are compared in the steps in which the
updater treats the twin. -/
def missionRecord (m : Mission) (s s' : State) (log : MissionLog) : MissionLog :=
  if treating m.twin s = true then log.add m s.world s'.world
  else { log with onScene := log.onScene || (s'.world.twins m.twin).status == .onScene }

/-- How far a mission is that began after `start` updates: `n` is the number of times
the twin has been treated since. -/
inductive Progress (m : Mission) (start : ℕ) (s : State) (log : MissionLog) : Prop
  | endless (h : s.updater = .diverged)
  | waiting (n : ℕ) (hupdates : s.updates.length = start + n + 1)
      (hwork : s.updater.workOn m.twin = [.twin m.twin])
      (hmission : OnMission m n (s.world.twins m.twin) log)
  | arriving (n : ℕ) (hupdates : s.updates.length = start + n)
      (hwork : s.updater.workOn m.twin = [.arrive m.twin])
      (hmission : Arriving m n (s.world.twins m.twin) log)
  | settled (n : ℕ) (hupdates : s.updates.length = start + n)
      (hwork : s.updater.workOn m.twin = [])
      (hmission : OnMission m n (s.world.twins m.twin) log)

section progress

variable {start : ℕ}

theorem OnMission.logged {n : ℤ} {twin : RescuerDigitalTwin} (h : OnMission m n twin log)
    (hstatus : twin.status = .onScene) : log.onScene = true := by
  cases h with
  | enRoute hn hroute => simp [hroute] at hstatus
  | _ => rfl

theorem Arriving.logged {n : ℤ} {twin : RescuerDigitalTwin} (h : Arriving m n twin log)
    (hstatus : twin.status = .onScene) : log.onScene = true := by
  cases h with
  | onScene hn hroute => simp [hroute] at hstatus
  | home => rfl

theorem missionRecord_of_other (hother : a.thread = some .updater → treating m.twin s = false)
    (hlt : m.emergency < s.nextId) (hstep : State.step cfg s a = some s')
    (htwin : s'.world.twins m.twin = s.world.twins m.twin)
    (hlogged : (s.world.twins m.twin).status = .onScene → log.onScene = true) :
    missionRecord m s s' log = log := by
  rw [← htwin] at hlogged
  unfold missionRecord
  split
  · rename_i htreating
    have ha : a.thread ≠ some .updater := fun ha => by simp [hother ha] at htreating
    obtain ⟨op, rest, hpc, -⟩ := head_of_treating htreating
    have houtside := step_outside (by simp [systemFree, hpc]) ha hstep
    rw [MissionLog.add_eq _ hlogged]
    rw [houtside.emergencies _ hlt]
    exact ⟨rfl, rfl⟩
  · obtain ⟨onScene, arrivals, departures⟩ := log
    cases onScene with
    | true => rfl
    | false => simpa using hlogged

theorem Progress.other (h : Progress m start s log) (ht : m.twin ∈ cfg.twinIds)
    (hother : a.thread = some .updater → treating m.twin s = false)
    (hlt : m.emergency < s.nextId) (hstep : State.step cfg s a = some s')
    (htwin : s'.world.twins m.twin = s.world.twins m.twin) :
    Progress m start s' (missionRecord m s s' log) := by
  have hlog : ((s.world.twins m.twin).status = .onScene → log.onScene = true) →
      missionRecord m s s' log = log := missionRecord_of_other hother hlt hstep htwin
  have hwork := workStep_of_other hstep hother
  cases h with
  | endless hdiverged => exact .endless (diverged_step hdiverged hstep)
  | waiting n hupdates hleft hmission =>
      rw [hlog hmission.logged]
      cases hwork with
      | same hsame hsame' =>
          exact .waiting n (hsame ▸ hupdates) (hsame' ▸ hleft) (htwin ▸ hmission)
      | begin cycle _ hbefore => simp [hbefore] at hleft
      | endless h => exact .endless h
  | arriving n hupdates hleft hmission =>
      rw [hlog hmission.logged]
      cases hwork with
      | same hsame hsame' =>
          exact .arriving n (hsame ▸ hupdates) (hsame' ▸ hleft) (htwin ▸ hmission)
      | begin cycle _ hbefore => simp [hbefore] at hleft
      | endless h => exact .endless h
  | settled n hupdates hleft hmission =>
      rw [hlog hmission.logged]
      cases hwork with
      | same hsame hsame' =>
          exact .settled n (hsame ▸ hupdates) (hsame' ▸ hleft) (htwin ▸ hmission)
      | begin cycle hmore _ hbegin =>
          refine .waiting n ?_ (hbegin ▸ workOn_updateOps cfg ht) (htwin ▸ hmission)
          rw [hmore, List.length_append, hupdates]
          rfl
      | endless h => exact .endless h

theorem Progress.own {woken : Option Worker} (h : Progress m start s log) (hinv : Invariant cfg s)
    (hrescuer : (s.world.twins m.twin).rescuer = m.rescuer) (htreating : treating m.twin s = true)
    (hstep : State.step cfg s (.updater woken) = some s') :
    OwnWork m s.world s'.world ∧ s' = { s with world := s'.world, updater := s'.updater } ∧
      Progress m start s' (missionRecord m s s' log) := by
  obtain ⟨op, rest, hpc, hop⟩ := head_of_treating htreating
  have hwork : s.updater.workOn m.twin = op :: (UpdaterPc.updating rest).workOn m.twin := by
    rw [hpc, workOn_cons, if_pos hop]
  have hupdate : s.stepUpdate cfg rest op = some s' := by
    obtain ⟨woken', -, hupdater⟩ := step_updater hstep rfl
    simpa only [stepUpdater, hpc] using hupdater
  rw [missionRecord, if_pos htreating]
  cases h with
  | endless hdiverged => simp [hpc] at hdiverged
  | settled n hupdates hleft hmission => simp [hwork] at hleft
  | waiting n hupdates hleft hmission =>
      obtain ⟨rfl, hrest⟩ := List.cons.inj (hwork.symm.trans hleft)
      have hspec := hmission.update hinv.links hrescuer cfg.size
      simp only [stepUpdate] at hupdate
      generalize updateRescuerDigitalTwinState cfg.size s.world m.twin = result at hspec hupdate
      -- the twin stays where it is or walks; who arrives is treated by the next operation
      cases hspec with
      | stays hown hmission =>
          obtain rfl := Option.some.inj hupdate
          exact ⟨hown, rfl, .settled (n + 1) hupdates hrest (by exact_mod_cast hmission)⟩
      | @walked w outside arrived hown hmission =>
          obtain rfl := Option.some.inj hupdate
          refine ⟨hown, rfl, ?_⟩
          have hafter := workOn_afterWalk outside arrived hrest
          unfold AfterWalk at hmission
          split at hmission
          · rename_i harrived
            rw [if_pos harrived] at hafter
            exact .arriving (n + 1) hupdates hafter (by exact_mod_cast hmission)
          · rename_i harrived
            rw [if_neg harrived] at hafter
            exact .settled (n + 1) hupdates hafter (by exact_mod_cast hmission)
  | arriving n hupdates hleft hmission =>
      obtain ⟨rfl, hrest⟩ := List.cons.inj (hwork.symm.trans hleft)
      obtain ⟨w, harrive, hown, hmission⟩ := hmission.arrive
      simp only [stepUpdate, harrive] at hupdate
      obtain rfl := Option.some.inj hupdate
      exact ⟨hown, rfl, .settled n hupdates hrest hmission⟩

end progress

end EmergencyDispatch
