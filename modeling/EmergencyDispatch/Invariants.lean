import EmergencyDispatch.Phases
import Mathlib.Data.List.Pairwise

/-!
# The invariant of the server

Custody, links and phases are proved together, by one step lemma each, since
each of them needs the others in the state before the step: the links need the
phase of a worker that stores an emergency as completed, and the phases need the
links to know that nobody is taken from a completed emergency.
-/

namespace EmergencyDispatch

open State

variable {cfg : Config} {s s' : State} {i j : Worker} {e e' : EmergencyId}
  {table : List PriorityRule} {w w' : World}

/-! ## Searches -/

namespace FindStep

variable {found : Bool}

/-- A search pauses another emergency only by taking a twin from it. -/
theorem status (h : FindStep table w e (.ok (w', found))) (he : e' ≠ e) :
    (w'.emergencies e').status = (w.emergencies e').status ∨
      (w'.emergencies e').status = .paused ∧ ∃ t, (w.twins t).serves e' = true := by
  cases h with
  | nothingMissing => exact .inl rfl
  | notEnough => exact .inl rfl
  | dispatched _ _ _ hrun =>
      rcases hrun.status he with hsame | ⟨hpaused, t, -, hserves⟩
      · exact .inl (by simpa [clearMissing, he] using hsame)
      · exact .inr ⟨by simpa [clearMissing, he] using hpaused, t, hserves⟩

theorem status_self (h : FindStep table w e (.ok (w', found))) :
    (w'.emergencies e).status = (w.emergencies e).status := by
  cases h with
  | nothingMissing => rfl
  | notEnough => rfl
  | dispatched _ _ _ hrun => simpa [clearMissing] using hrun.status_self

/-- The emergencies whose status a search changes are signalled. -/
theorem announced (h : FindStep table w e (.ok (w', found))) (he : e' ≠ e) :
    (w'.emergencies e').status = (w.emergencies e').status ∨ e' ∈ w'.signals := by
  cases h with
  | nothingMissing | notEnough => exact .inl rfl
  | dispatched hmissing henough hnotDone hrun => simpa [clearMissing, he] using hrun.announced he

theorem active (h : FindStep table w e (.ok (w', found))) : w'.active = w.active := by
  cases h with
  | nothingMissing => rfl
  | notEnough => rfl
  | dispatched _ _ _ hrun => simpa [clearMissing] using hrun.active

end FindStep

/-- The search of a worker, as one of its outcomes. -/
theorem Invariant.findStep (h : Invariant cfg s) {found : Bool} (hpc : s.worker i = .find e)
    (hfind : findRescuersLoggingBlocking cfg.priorityLookupTable s.world e = .ok (w, found)) :
    FindStep cfg.priorityLookupTable s.world e (.ok (w, found)) := by
  have he : e < s.nextId := h.custody.worker_lt (i := i) (by rw [hpc]; rfl)
  have := (findRescuers_cases h.links he cfg.priorityLookupTable).1
  rwa [hfind] at this

/-! ## The links -/

theorem Phase.news_justified {reason : StoreReason} (hlinks : WellLinked cfg s.nextId s.world)
    (h : Phase s i (.store e reason)) :
    (reason.news = .completed → (s.world.emergencies e).rescuersNotDoneYet = 0) ∧
      reason.news ≠ .inProgress := by
  cases reason with
  | searchFailed => simp [StoreReason.news]
  | completed news =>
      obtain ⟨-, hcompleted, rfl⟩ := h
      exact ⟨fun _ => (hlinks.status e).2 hcompleted, by simp [StoreReason.news]⟩
  | canceled news => exact h.elim
  | stopping => simp [StoreReason.news]

/-- The statuses with which an emergency ends. -/
def terminalStatuses : List EmergencyStatus := [.completed, .canceled, .timeout]

theorem Phase.news_mem {reason : StoreReason} (h : Phase s i (.store e reason)) :
    reason.news ∈ terminalStatuses := by
  cases reason with
  | searchFailed => decide
  | completed news =>
      obtain ⟨-, -, rfl⟩ := h
      decide
  | canceled news => exact h.elim
  | stopping => decide

theorem effect_links {a : Action} (h : Invariant cfg s) (heffect : Effect cfg s a s') :
    WellLinked cfg s'.nextId s'.world := by
  have hl := h.links
  cases heffect with
  | quiet hq => rw [hq.world, hq.nextId]; exact hl
  | move i pc hmove => exact hl
  | pop i e queue hpc hpop => exact hl
  | openSlot i e hpc =>
      refine setEmergency_linked (w := s.world.setActive i (some e))
        (wellLinked_of_eq hl rfl rfl rfl) _ rfl rfl rfl rfl rfl rfl ?_
      simp [Emergency.StatusJustified]
  | search i e w found worker hpc hfind hwoken =>
      have he : e < s.nextId := h.custody.worker_lt (i := i) (by rw [hpc]; rfl)
      exact wellLinked_of_eq ((findRescuers_cases hl he _).2 w found hfind) rfl rfl rfl
  | store i e reason level hpc =>
      obtain ⟨hcompleted, hprogress⟩ := Phase.news_justified hl (hpc ▸ h.storage.phase i)
      refine wellLinked_of_eq (setEmergency_linked hl (e := e)
        { s.world.emergencies e with status := reason.news } rfl rfl rfl rfl rfl rfl ?_)
        rfl rfl rfl
      exact ⟨fun h' => absurd h' hprogress, hcompleted⟩
  | closeSlot i leaving hpc => exact wellLinked_of_eq hl rfl rfl rfl
  | stays t rest w hpc hupdate =>
      have hcases := update_cases hl cfg.size t
      rw [hupdate] at hcases
      cases hcases with
      | idle => exact hl
      | stays => exact tickStay_linked hl
  | walked t rest w outside arrived hpc hupdate =>
      have hcases := update_cases hl cfg.size t
      rw [hupdate] at hcases
      cases hcases with
      | walked hstart hwalk => exact walked_linked (walkStart_linked hl hstart) hwalk
  | arrived t rest w hpc harrive =>
      have hcases := arrival_cases hl t
      rw [harrive] at hcases
      cases hcases with
      | onScene e hroute => exact arriveOnScene_linked hl hroute
      | atBase hreturning => exact atBase_linked hl hreturning
  | fatal t rest w hpc harrive =>
      have hcases := arrival_cases hl t
      rw [harrive] at hcases
      cases hcases with
      | fatal => exact fatal_linked hl
  | slot i e rest worker hpc hactive hwoken =>
      exact wellLinked_of_eq (updateActive_linked hl e) rfl rfl rfl
  | mapWaiting hpc => exact mapWaiting_linked hl _
  | extract e queue pred pc hpc hextract hnext => exact hl
  | expire e level hpc =>
      exact setEmergency_linked hl _ rfl rfl rfl rfl rfl rfl (by simp [Emergency.StatusJustified])
  | promote e level worker hpc hwoken =>
      exact setEmergency_linked hl _ rfl rfl rfl rfl rfl rfl (hl.status e)
  | receive request emergency mq hpc hemergency => exact receive_linked hl hemergency
  | receiverPush e level worker hpc hwoken => exact hl

/-! ## What the other threads do to a worker -/

theorem stored_of_eq (hcompleted : s'.completedEmergencies = s.completedEmergencies)
    (hcanceled : s'.canceledEmergencies = s.canceledEmergencies) (e : EmergencyId) :
    s'.stored e = s.stored e := by
  simp [State.stored, hcompleted, hcanceled]

theorem count_push (cfg : Config) {q : Pq} (hopen : q.closed = false)
    (hlevels : q.lists.length = cfg.priorityLookupTable.length) (e e' : EmergencyId) (level : ℤ) :
    (q.push e level).contents.count e' = q.contents.count e' + if e' = e then 1 else 0 := by
  have hne : q.lists ≠ [] := by
    intro hnil
    rw [hnil] at hlevels
    exact cfg.priorityLookupTable_ne_nil (List.length_eq_zero_iff.mp hlevels.symm)
  rw [(Pq.contents_push_perm hopen hne e level).count_eq, List.count_cons]
  simp only [beq_iff_eq, eq_comm (a := e)]

/-- A store counts once, in one of the two queues. -/
theorem stored_store (h : Storage cfg s) (s' : State) {reason : StoreReason} {level : ℤ}
    (hcompleted : s'.completedEmergencies =
      if reason.toCompleted then s.completedEmergencies.push e level else s.completedEmergencies)
    (hcanceled : s'.canceledEmergencies =
      if reason.toCompleted then s.canceledEmergencies else s.canceledEmergencies.push e level)
    (e' : EmergencyId) : s'.stored e' = s.stored e' + if e' = e then 1 else 0 := by
  unfold State.stored
  rw [hcompleted, hcanceled]
  split
  · rw [count_push cfg h.completed_open h.completed_levels]
    omega
  · rw [count_push cfg h.canceled_open h.canceled_levels]
    omega

theorem Quiet.undisturbed (h : Quiet s s') (i : Worker) :
    Undisturbed s s' i (s.worker i) := by
  refine .of_same h.serverMustStop (by rw [h.world]) ?_ ?_ (h.worker i)
  · exact fun e _ => stored_of_eq h.completed h.canceled e
  · exact fun e _ => by rw [h.world]

theorem Invariant.not_serves_completed (h : Invariant cfg s)
    (hcompleted : (s.world.emergencies e).status = .completed) (t : TwinId) :
    (s.world.twins t).serves e = false :=
  h.links.not_serves_of_notDone ((h.links.status e).2 hcompleted) t

/-- The updater signals the condition variable when it completes the emergency. -/
theorem updateActive_signals {table : List PriorityRule} {em : Emergency}
    (h : (updateActiveEmergencyState table em).2 = false) :
    (updateActiveEmergencyState table em).1.status = em.status ∨
      (updateActiveEmergencyState table em).1.status = .inProgress := by
  unfold updateActiveEmergencyState at h ⊢
  split
  · split <;> exact .inl rfl
  · split
    · exact .inl rfl
    · split
      · rename_i hpromotion hpaused hdone
        simp [hpromotion, hpaused, hdone] at h
      · split
        · exact .inr rfl
        · exact .inl rfl

/-- A step wakes the other workers, or leaves them where they are. -/
theorem effect_woken {a : Action} (heffect : Effect cfg s a s') (ha : a ≠ .worker j) :
    Woken (s.worker j) (s'.worker j) := by
  have hupdate : ∀ {i : Worker} {worker : Worker → WorkerPc} (pc : WorkerPc),
      Action.worker i ≠ .worker j → Woken (s.worker j) (worker j) →
      Woken (s.worker j) (Function.update worker i pc j) := by
    intro i worker pc hi hwoken
    have hij : j ≠ i := by
      rintro rfl
      exact hi rfl
    rwa [Function.update_of_ne hij]
  cases heffect with
  | quiet hq => exact hq.worker j
  | move i pc hmove => exact hupdate pc ha (.same _)
  | pop i e queue hpc hpop => exact hupdate _ ha (.same _)
  | openSlot i e hpc => exact hupdate _ ha (.same _)
  | store i e reason level hpc => exact hupdate _ ha (.same _)
  | closeSlot i leaving hpc => exact hupdate _ ha (.same _)
  | search i e w found worker hpc hfind hwoken => exact hupdate _ ha (hwoken j)
  | slot i e rest worker hpc hactive hwoken => exact hwoken j
  | promote e level worker hpc hwoken => exact hwoken j
  | receiverPush e level worker hpc hwoken => exact hwoken j
  | _ => exact .same _

/-- A search pauses the emergency of another worker at most, and then wakes it. -/
theorem search_undisturbed {found : Bool} {worker : Worker → WorkerPc} (h : Invariant cfg s)
    (hpc : s.worker i = .find e)
    (hfind : findRescuersLoggingBlocking cfg.priorityLookupTable s.world e = .ok (w, found))
    (hwoken : ∀ j, Woken (s.worker j) (worker j))
    (hsignals : ∀ j e', worker j = .blocked e' → e' ∉ w.signals) (hij : j ≠ i) :
    Undisturbed s { s with
      world := { w with signals := [] }
      worker := Function.update worker i (if found then .wait e else .store e .searchFailed) }
      j (s.worker j) := by
  have hstep := h.findStep hpc hfind
  have hne : ∀ {e'}, (s.worker j).emergency = some e' → e' ≠ e := by
    rintro e' hj rfl
    exact hij (h.custody.worker_unique hj (by rw [hpc]; rfl))
  refine ⟨id, by simp [hstep.active], fun _ _ => rfl, fun e' he' => ?_, fun e' hblocked => ?_⟩
  · rcases hstep.status (hne he') with hsame | ⟨hpaused, t, ht⟩
    · simpa [hsame] using StatusMove.same _
    · -- a completed emergency has no twin that could be taken
      have hnot : (s.world.emergencies e').status ≠ .completed := by
        intro hcompleted
        simp [h.not_serves_completed hcompleted t] at ht
      simpa [hpaused] using StatusMove.pause hnot
  · have hblocked : worker j = .blocked e' := (Function.update_of_ne hij ..).symm.trans hblocked
    have he : (s.worker j).emergency = some e' := by
      rw [← (hwoken j).emergency, hblocked]
      rfl
    rcases hstep.announced (hne he) with hsame | hsignal
    · unfold Resumed
      rw [hsame]
      exact id
    · exact absurd hsignal (hsignals j e' hblocked)

/-- The update of an emergency that is completed wakes its worker. -/
theorem slot_undisturbed {updater : UpdaterPc} {worker : Worker → WorkerPc}
    (hsignals : (updateActiveEmergencyState cfg.priorityLookupTable
      (s.world.emergencies e)).2 = true → worker j ≠ .blocked e) :
    Undisturbed s { s with
      world := { s.world.setEmergency e (updateActiveEmergencyState cfg.priorityLookupTable
        (s.world.emergencies e)).1 with signals := [] }
      worker := worker
      updater := updater } j (s.worker j) := by
  refine ⟨id, rfl, fun _ _ => rfl, fun e' _ => ?_, fun e' hblocked hresumed => ?_⟩
  · by_cases he : e' = e
    · subst he
      simpa using updateActive_statusMove (s.world.emergencies e')
    · simpa [he] using StatusMove.same _
  · by_cases he : e' = e
    · subst he
      have hquiet : (updateActiveEmergencyState cfg.priorityLookupTable
          (s.world.emergencies e')).2 = false := by
        by_contra hsignal
        exact hsignals (by simpa using hsignal) hblocked
      unfold Resumed at hresumed ⊢
      simp only [World.setEmergency_self] at hresumed
      rcases updateActive_signals hquiet with hsame | hprogress
      · rwa [hsame] at hresumed
      · simp [hprogress] at hresumed
    · simpa [Resumed, he] using hresumed

/-- The updates of the twins touch neither a slot nor a status. -/
theorem twins_undisturbed {todo : List UpdateOp} (hactive : w.active = s.world.active)
    (hstatus : ∀ e, (w.emergencies e).status = (s.world.emergencies e).status) :
    Undisturbed s { s with world := w, updater := .updating todo } j (s.worker j) :=
  .of_same id (congrFun hactive j) (fun _ _ => rfl) (fun e _ => hstatus e) (.same _)

/-- A step disturbs no worker, the one that makes it apart. -/
theorem effect_undisturbed {a : Action} (h : Invariant cfg s) (heffect : Effect cfg s a s')
    (ha : a ≠ .worker j) :
    Undisturbed s s' j (s.worker j) ∧ Woken (s.worker j) (s'.worker j) := by
  have hl := h.links
  have hwoken := effect_woken heffect ha
  refine ⟨?_, hwoken⟩
  have hother : ∀ {i}, Action.worker i ≠ .worker j → j ≠ i := fun hi hij => hi (hij ▸ rfl)
  -- the emergency of `j` is not the one the acting worker or the updater handles
  have hne : ∀ {i e e'}, j ≠ i → (s.worker i).emergency = some e →
      (s.worker j).emergency = some e' → e' ≠ e := by
    rintro i e e' hij hi hj rfl
    exact hij (h.custody.worker_unique hj hi)
  have hupdater : ∀ {e e'}, s.updater.emergency = some e → (s.worker j).emergency = some e' →
      e' ≠ e := by
    rintro e e' hu hj rfl
    exact h.custody.worker_ne_updater hj hu
  cases heffect with
  | quiet hq => exact hq.undisturbed j
  | move i pc hmove => exact .of_same id rfl (fun _ _ => rfl) (fun _ _ => rfl) hwoken
  | pop i e queue hpc hpop => exact .of_same id rfl (fun _ _ => rfl) (fun _ _ => rfl) hwoken
  | openSlot i e hpc =>
      refine .of_same id ?_ (fun _ _ => rfl) (fun e' he' => ?_) hwoken
      · simp [openSlot, setWorker, hother ha]
      · have he : e' ≠ e := hne (hother ha) (by rw [hpc]; rfl) he'
        simp [openSlot, setWorker, he]
  | search i e w found worker hpc hfind hwakes hsignals =>
      exact search_undisturbed h hpc hfind hwakes hsignals (hother ha)
  | store i e reason level hpc =>
      have he : ∀ {e'}, (s.worker j).emergency = some e' → e' ≠ e :=
        fun he' => hne (hother ha) (by rw [hpc]; rfl) he'
      refine .of_same id ?_ (fun e' he' => ?_) (fun e' he' => ?_) hwoken
      · simp [storeWorld, hother ha]
      · rw [stored_store h.storage _ rfl rfl, if_neg (he he'), Nat.add_zero]
      · simp [storeWorld, he he']
  | closeSlot i leaving hpc =>
      refine .of_same id ?_ (fun _ _ => rfl) (fun _ _ => rfl) hwoken
      simp [setWorker, hother ha]
  | stays t rest w hpc hupdate =>
      have hcases := update_cases hl cfg.size t
      rw [hupdate] at hcases
      cases hcases with
      | idle => exact twins_undisturbed rfl fun _ => rfl
      | stays => exact twins_undisturbed rfl fun _ => rfl
  | walked t rest w outside arrived hpc hupdate =>
      have hcases := update_cases hl cfg.size t
      rw [hupdate] at hcases
      cases hcases with
      | walked hstart hwalk =>
          refine twins_undisturbed ?_ fun e => ?_
          · simp [hstart.active hl]
          · simp [hstart.status hl]
  | arrived t rest w hpc harrive =>
      have hcases := arrival_cases hl t
      rw [harrive] at hcases
      cases hcases with
      | onScene e hroute => exact twins_undisturbed rfl (arriveOnScene_status s.world t e)
      | atBase hreturning => exact twins_undisturbed rfl fun _ => rfl
  | fatal t rest w hpc harrive =>
      have hcases := arrival_cases hl t
      rw [harrive] at hcases
      cases hcases with
      | fatal => exact twins_undisturbed rfl fun _ => rfl
  | slot i e rest worker hpc hactive _ hsignals =>
      exact slot_undisturbed fun hsignal => hsignals hsignal j
  | mapWaiting hpc =>
      refine .of_same id rfl (fun _ _ => rfl) (fun e' _ => ?_) (.same _)
      dsimp only
      split <;> rfl
  | extract e queue pred pc hpc hextract hnext =>
      exact .of_same id rfl (fun _ _ => rfl) (fun _ _ => rfl) (.same _)
  | expire e level hpc =>
      have he : ∀ {e'}, (s.worker j).emergency = some e' → e' ≠ e :=
        fun he' => hupdater (by rw [hpc]; rfl) he'
      refine .of_same id rfl (fun e' he' => ?_) (fun e' he' => ?_) (.same _)
      · unfold State.stored
        dsimp only
        rw [count_push cfg h.storage.canceled_open h.storage.canceled_levels, if_neg (he he'),
          Nat.add_zero]
      · simp [he he']
  | promote e level worker hpc =>
      refine .of_same id rfl (fun _ _ => rfl) (fun e' he' => ?_) hwoken
      have he : e' ≠ e := hupdater (by rw [hpc]; rfl) he'
      simp [he]
  | receive request emergency mq hpc hemergency =>
      refine .of_same id rfl (fun _ _ => rfl) (fun e' he' => ?_) (.same _)
      have he : e' ≠ s.nextId := Nat.ne_of_lt (h.custody.worker_lt he')
      simp [he]
  | receiverPush e level worker hpc =>
      exact .of_same id rfl (fun _ _ => rfl) (fun _ _ => rfl) hwoken

/-! ## The storage -/

/-- The number of stores of an emergency changes only when its worker or the
updater stores it. -/
theorem effect_stored {a : Action} (h : Storage cfg s) (heffect : Effect cfg s a s')
    (e : EmergencyId) : s'.stored e = s.stored e ∨ s'.stored e = s.stored e + 1 ∧
      ((∃ i reason, a = .worker i ∧ s.worker i = .store e reason ∧
          (s'.worker i) = reason.next e) ∨
        s.updater = .expired e ∧ ∀ p, e ∈ s'.holds p → e ∈ s.holds p ∧ p ≠ .updater) := by
  cases heffect with
  | quiet hq => exact .inl (stored_of_eq hq.completed hq.canceled e)
  | store i e' reason level hpc =>
      have hstored := stored_store h { s with
        world := storeWorld s.world i e' reason
        completedEmergencies :=
          if reason.toCompleted then s.completedEmergencies.push e' level
          else s.completedEmergencies
        canceledEmergencies :=
          if reason.toCompleted then s.canceledEmergencies
          else s.canceledEmergencies.push e' level
        worker := Function.update s.worker i (reason.next e') } rfl rfl e
      by_cases he : e = e'
      · subst he
        rw [if_pos rfl] at hstored
        exact .inr ⟨hstored, .inl ⟨i, reason, rfl, hpc, by simp⟩⟩
      · rw [if_neg he] at hstored
        exact .inl hstored
  -- the updater drops an emergency in the step that stores it
  | expire e' level hpc =>
      have hcount := count_push cfg h.canceled_open h.canceled_levels e' e level
      by_cases he : e = e'
      · subst he
        rw [if_pos rfl] at hcount
        refine .inr ⟨?_, .inr ⟨hpc, fun p hp => ?_⟩⟩
        · simp only [State.stored, hcount]
          omega
        · cases p with
          | queue => exact ⟨hp, by simp⟩
          | receiver => exact ⟨hp, by simp⟩
          | worker i => exact ⟨hp, by simp⟩
          | updater => simp [State.holds, UpdaterPc.emergency] at hp
      · rw [if_neg he] at hcount
        refine .inl ?_
        simp only [State.stored, hcount, Nat.add_zero]
  | _ => exact .inl rfl

theorem effect_phase (h : Invariant cfg s) (heffect : Effect cfg s (.worker i) s') :
    Phase s' i (s'.worker i) := by
  have hphase := h.storage.phase i
  cases heffect with
  | quiet hq => exact ((hq.undisturbed i).phase hphase).of_woken (hq.worker i)
  | move _ pc hmove =>
      have hsame : Undisturbed s (s.setWorker i pc) i pc :=
        ⟨id, rfl, fun _ _ => rfl, fun _ _ => .same _, fun _ _ => id⟩
      rw [show (s.setWorker i pc).worker i = pc by simp [setWorker]]
      exact hsame.phase (hmove.phase hphase)
  | pop _ e queue hpc hpop =>
      rw [hpc] at hphase
      obtain ⟨hperm, -, -⟩ := Pq.pop_spec hpop
      -- what is in the queue is with no worker and has not been stored
      have he : e ∈ s.holds .queue := hperm.mem_iff.mpr (by simp)
      simp only [Function.update_self]
      exact ⟨h.storage.unstored .queue (by simp) e he, hphase⟩
  | openSlot _ e hpc =>
      rw [hpc] at hphase
      rw [show ((s.openSlot i e).setWorker i (.inner e)).worker i = .inner e by simp [setWorker]]
      exact ⟨hphase.1, by simp [openSlot, setWorker], by simp [openSlot, setWorker]⟩
  | search _ e w found worker hpc hfind hwoken =>
      have hstep := h.findStep hpc hfind
      rw [hpc] at hphase
      have hworking : Working { s with
          world := { w with signals := [] }
          worker := Function.update worker i (if found then .wait e else .store e .searchFailed) }
          i e :=
        ⟨hphase.stored, hstep.active ▸ hphase.active, by
          show (w.emergencies e).status ∈ _
          rw [hstep.status_self]
          exact hphase.status⟩
      simp only [Function.update_self]
      cases found
      · exact hworking
      · exact hworking
  | store _ e reason level hpc =>
      rw [hpc] at hphase
      have hstored := stored_store h.storage { s with
        world := storeWorld s.world i e reason
        completedEmergencies :=
          if reason.toCompleted then s.completedEmergencies.push e level
          else s.completedEmergencies
        canceledEmergencies :=
          if reason.toCompleted then s.canceledEmergencies
          else s.canceledEmergencies.push e level
        worker := Function.update s.worker i (reason.next e) } rfl rfl e
      rw [if_pos rfl] at hstored
      simp only [Function.update_self]
      -- the count goes from zero to one, or the server is stopping
      cases reason with
      | searchFailed => exact .inl ⟨hstored.trans (by rw [hphase.stored]), by simp [storeWorld]⟩
      | completed news =>
          obtain ⟨hworking, hcompleted, rfl⟩ := hphase
          exact ⟨⟨hstored.trans (by rw [hworking.stored]), by simp [storeWorld]⟩,
            by simp [storeWorld, StoreReason.news]⟩
      | canceled news => exact hphase.elim
      | stopping => exact World.setActive_self _ _ _
  | closeSlot _ leaving hpc =>
      have hnone : (s.world.setActive i none).active i = none := World.setActive_self _ _ _
      have hnext : ({ s with world := s.world.setActive i none }.setWorker i
          (if leaving = true then .exited else .loop)).worker i =
            if leaving = true then .exited else .loop := by simp [setWorker]
      rw [hnext]
      cases leaving
      · exact hnone
      · exact hnone

/-- What a place other than a worker holds was held by such a place, or is new. -/
theorem effect_held {a : Action} (h : InCustody cfg s) (heffect : Effect cfg s a s') {p : Place}
    (hp : ∀ i, p ≠ .worker i) (he : e ∈ s'.holds p) :
    e = s.nextId ∨ ∃ q, (∀ i, q ≠ .worker i) ∧ e ∈ s.holds q := by
  have hqueue : e ∈ s.holds .queue → e = s.nextId ∨ ∃ q, (∀ i, q ≠ .worker i) ∧ e ∈ s.holds q :=
    fun h => .inr ⟨.queue, by simp, h⟩
  have hreceiver : e ∈ s.holds .receiver →
      e = s.nextId ∨ ∃ q, (∀ i, q ≠ .worker i) ∧ e ∈ s.holds q :=
    fun h => .inr ⟨.receiver, by simp, h⟩
  have hupdater : e ∈ s.holds .updater →
      e = s.nextId ∨ ∃ q, (∀ i, q ≠ .worker i) ∧ e ∈ s.holds q :=
    fun h => .inr ⟨.updater, by simp, h⟩
  have hlevels := h.lists_ne_nil
  cases p with
  | worker i => exact absurd rfl (hp i)
  -- only a push brings something into the queue, from the hand of its thread
  | queue =>
      cases heffect with
      | quiet hq => exact hqueue (by simpa [State.holds, Pq.contents, hq.lists] using he)
      | pop i e' queue hpc hpop =>
          exact hqueue ((Pq.pop_spec hpop).1.mem_iff.mpr (List.mem_cons_of_mem _ he))
      | extract e' queue pred pc hpc hextract hnext =>
          exact hqueue ((Pq.extractFirst_spec hextract).2.1.mem_iff.mpr
            (List.mem_cons_of_mem _ he))
      | promote e' level worker hpc hwoken =>
          rcases Pq.mem_contents_push hlevels he with rfl | hold
          · exact hupdater (mem_holds_updater.mpr (by rw [hpc]; rfl))
          · exact hqueue hold
      | receiverPush e' level worker hpc hwoken =>
          rcases Pq.mem_contents_push hlevels he with rfl | hold
          · exact hreceiver (mem_holds_receiver.mpr (by rw [hpc]; rfl))
          · exact hqueue hold
      | _ => exact hqueue he
  | receiver =>
      cases heffect with
      | quiet hq => exact hreceiver (by simpa [State.holds, hq.receiver] using he)
      | receive request emergency mq hpc hemergency =>
          exact .inl (by simpa [State.holds, ReceiverPc.emergency] using he)
      | receiverPush e' level worker hpc hwoken =>
          simp [State.holds, ReceiverPc.emergency] at he
      | _ => exact hreceiver he
  | updater =>
      cases heffect with
      | quiet hq => exact hupdater (by simpa [State.holds, hq.updater] using he)
      | extract e' queue pred pc hpc hextract hnext =>
          have hpc' : pc.emergency = some e' := by rcases hnext with rfl | rfl <;> rfl
          obtain rfl : e = e' := by simpa [State.holds, hpc'] using he
          exact hqueue ((Pq.extractFirst_spec hextract).2.1.mem_iff.mpr (by simp))
      | stays | walked | arrived | fatal | slot | mapWaiting | expire | promote =>
          simp [State.holds, UpdaterPc.emergency] at he
      | _ => exact hupdater he

theorem effect_unstored {a : Action} (h : Invariant cfg s) (heffect : Effect cfg s a s')
    {p : Place} (hp : ∀ i, p ≠ .worker i) (he : e ∈ s'.holds p) : s'.stored e = 0 := by
  have hzero : s.stored e = 0 := by
    rcases effect_held h.custody heffect hp he with rfl | ⟨q, hq, he⟩
    · exact h.storage.fresh _ le_rfl
    · exact h.storage.unstored q hq e he
  rcases effect_stored h.storage heffect e with hsame | ⟨-, ⟨i, reason, -, hpc, -⟩ | ⟨hpc, hholds⟩⟩
  · exact hsame.trans hzero
  · -- the worker that stores `e` is the only place that holds it
    have hi : (s.worker i).emergency = some e := by rw [hpc]; rfl
    rcases effect_held h.custody heffect hp he with rfl | ⟨q, hq, he⟩
    · exact absurd (h.custody.worker_lt hi) (by simp)
    · exact absurd (h.custody.exclusive.unique he (mem_holds_worker.mpr hi)) (hq i)
  · obtain ⟨hp', hne⟩ := hholds p he
    exact absurd (h.custody.exclusive.unique hp' (mem_holds_updater.mpr (by rw [hpc]; rfl))) hne

theorem effect_storage {a : Action} (h : Invariant cfg s) (heffect : Effect cfg s a s') :
    Storage cfg s' where
  completed_open := by
    have := h.storage.completed_open
    cases heffect with
    | quiet hq => rw [hq.completed]; exact this
    | store i e reason level hpc => dsimp only; split <;> simpa using this
    | _ => exact this
  canceled_open := by
    have := h.storage.canceled_open
    cases heffect with
    | quiet hq => rw [hq.canceled]; exact this
    | store i e reason level hpc => dsimp only; split <;> simpa using this
    | expire e level hpc => simpa using this
    | _ => exact this
  completed_levels := by
    have := h.storage.completed_levels
    cases heffect with
    | quiet hq => rw [hq.completed]; exact this
    | store i e reason level hpc => dsimp only; split <;> simpa using this
    | _ => exact this
  canceled_levels := by
    have := h.storage.canceled_levels
    cases heffect with
    | quiet hq => rw [hq.canceled]; exact this
    | store i e reason level hpc => dsimp only; split <;> simpa using this
    | expire e level hpc => simpa using this
    | _ => exact this
  fresh e he := by
    have hnextId : s.nextId ≤ s'.nextId := by
      cases heffect with
      | quiet hq => rw [hq.nextId]
      | receive => exact Nat.le_succ _
      | _ => exact le_rfl
    have he' : s.nextId ≤ e := hnextId.trans he
    rcases effect_stored h.storage heffect e with hsame | ⟨-, ⟨i, reason, -, hpc, -⟩ | ⟨hpc, -⟩⟩
    · exact hsame.trans (h.storage.fresh e he')
    · exact absurd (h.custody.worker_lt (i := i) (by rw [hpc]; rfl)) (Nat.not_lt.mpr he')
    · have := h.custody.fresh .updater e (mem_holds_updater.mpr (by rw [hpc]; rfl))
      exact absurd this (Nat.not_lt.mpr he')
  unstored p hp e he := effect_unstored h heffect hp he
  phase i := by
    by_cases ha : a = .worker i
    · subst ha
      exact effect_phase h heffect
    · obtain ⟨hundisturbed, hwoken⟩ := effect_undisturbed h heffect ha
      exact (hundisturbed.phase (h.storage.phase i)).of_woken hwoken

/-! ## Every reachable state -/

theorem Config.rescuerOf_eq (cfg : Config) {r : RescuerType} (hr : r ∈ cfg.rescuers) {t : TwinId}
    (ht : t ∈ r.twins) : cfg.rescuerOf t = r := by
  obtain ⟨-, hdisjoint⟩ := List.nodup_flatMap.mp cfg.twins_nodup
  obtain ⟨r', hfind⟩ := Option.isSome_iff_exists.mp
    (List.find?_isSome.mpr ⟨r, hr, by simpa using ht⟩ :
      (cfg.rescuers.find? fun r => r.twins.contains t).isSome)
  have ht' : t ∈ r'.twins := by simpa using List.find?_some hfind
  rw [Config.rescuerOf, hfind, Option.getD_some]
  by_contra hne
  have : Std.Symm (Function.onFun List.Disjoint RescuerType.twins) := ⟨fun _ _ h _ ha hb => h hb ha⟩
  exact List.Pairwise.forall hdisjoint (List.mem_of_find?_eq_some hfind) hr hne ht' ht

theorem initial_links (cfg : Config) (n : EmergencyId) : WellLinked cfg n (initialWorld cfg) := by
  have hrest : ∀ t, ((initialWorld cfg).twins t).isAtRest := fun t => ⟨rfl, .inl rfl⟩
  have hempty : ∀ p : RescuerDigitalTwin → Bool,
      (∀ t : RescuerDigitalTwin, t.isAtRest → p t = false) → (initialWorld cfg).tally cfg p = 0 :=
    fun p hp => List.countP_eq_zero.mpr fun t _ => by simp [hp _ (hrest t)]
  have henRoute : ∀ e ρ, (initialWorld cfg).enRoute cfg e ρ = 0 := fun e ρ =>
    hempty _ fun t ht => by simp [RescuerDigitalTwin.isEnRouteTo_of_atRest ht]
  have honScene : ∀ e ρ, (initialWorld cfg).onScene cfg e ρ = 0 := fun e ρ =>
    hempty _ fun t ht => by simp [RescuerDigitalTwin.isOnSceneOf_of_atRest ht]
  refine ⟨fun r hr t ht => cfg.rescuerOf_eq hr ht, fun t => .inl (hrest t), fun t => rfl,
    fun t e ht => ?_, fun stay hstay => ?_,
    fun e => ?_, fun e => rfl, fun e => rfl, fun e => rfl, fun e request hrequest => ?_,
    fun e ρ => ?_, fun e => ?_, fun e => ?_, fun e => ?_⟩
  · simp [RescuerDigitalTwin.serves_of_atRest (hrest t)] at ht
  · simp [initialWorld] at hstay
  · simp [RescuerDigitalTwin.serves_of_atRest (hrest _)]
    rfl
  · exact absurd hrequest List.not_mem_nil
  · rw [henRoute, honScene]; rfl
  · rw [henRoute, honScene]; rfl
  · rw [henRoute]; rfl
  · exact ⟨(nomatch ·), (nomatch ·)⟩

theorem initial_invariant (cfg : Config) : Invariant cfg (initialState cfg) where
  custody := initial_inCustody cfg
  links := initial_links cfg _
  storage :=
    { completed_open := rfl
      canceled_open := rfl
      completed_levels := by simp [initialState, Pq.create]
      canceled_levels := by simp [initialState, Pq.create]
      fresh := fun e _ => by simp [State.stored, initialState]
      unstored := fun p hp e he => by simp [State.stored, initialState]
      phase := fun i => rfl }

/-- **The invariant.**  It holds in every reachable state. -/
theorem reachable_invariant (h : Reachable cfg s) : Invariant cfg s :=
  h.invariant (Invariant cfg) (initial_invariant cfg) fun _ _ _ _ hinv _ hstep =>
    have heffect := (step_effect hstep).2
    ⟨effect_inCustody hinv.custody heffect, effect_links hinv heffect,
      effect_storage hinv heffect⟩

end EmergencyDispatch
