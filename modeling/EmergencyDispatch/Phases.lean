import EmergencyDispatch.EmergencyCustody
import EmergencyDispatch.EmergencyLinks

/-!
# The phases of a worker

What is true of the emergency of a worker at each point of `thread_worker`: how
often it has been stored, whether it is in the worker's slot, and what its
status can be (`Phase`).  The other threads move the status of an emergency that
is being worked on in a few ways only (`StatusMove`), and none of them takes the
worker out of its phase (`Undisturbed`).
-/

namespace EmergencyDispatch

open State

/-- How many times an emergency has been stored. -/
def State.stored (s : State) (e : EmergencyId) : ℕ :=
  s.completedEmergencies.contents.count e + s.canceledEmergencies.contents.count e

/-- The emergency is in the worker's slot and has not been stored. -/
structure Working (s : State) (i : Worker) (e : EmergencyId) : Prop where
  stored : s.stored e = 0
  active : s.world.active i = some e
  status : (s.world.emergencies e).status ∈
    [EmergencyStatus.assigned, .inProgress, .paused, .completed]

/-- The emergency has been stored, and the slot is empty. -/
structure Stored (s : State) (i : Worker) (e : EmergencyId) : Prop where
  stored : s.stored e = 1
  active : s.world.active i = none

/-- The wait is over for a reason other than the shutdown. -/
def Resumed (s : State) (e : EmergencyId) : Prop :=
  (s.world.emergencies e).status = .paused ∨ (s.world.emergencies e).status = .completed

/-- What is true of worker `i` at each point of its program. -/
def Phase (s : State) (i : Worker) : WorkerPc → Prop
  | .loop | .pop | .popWait | .closing _ | .exited => s.world.active i = none
  | .popped e => s.stored e = 0 ∧ s.world.active i = none
  | .inner e | .find e | .wait e | .blocked e | .store e .searchFailed => Working s i e
  | .woken e => Working s i e ∧ (Resumed s e ∨ s.serverMustStop = true)
  | .testPaused e => Working s i e ∧ Resumed s e
  | .testCompleted e => Working s i e ∧ (s.world.emergencies e).status = .completed
  | .store e (.completed news) =>
      Working s i e ∧ (s.world.emergencies e).status = .completed ∧ news = .completed
  | .testCanceled e => Stored s i e ∧ (s.world.emergencies e).status = .completed
  | .store _ (.canceled _) => False
  | .ended e => Stored s i e ∨ Working s i e ∧ s.serverMustStop = true
  | .store e .stopping => s.serverMustStop = true ∧ (Stored s i e ∨ Working s i e)

variable {cfg : Config} {s s' : State} {i j : Worker} {e : EmergencyId}

/-! ## What the other threads can do -/

namespace StatusMove

variable {status status' : EmergencyStatus}

theorem working (h : StatusMove status status')
    (hstatus : status ∈ [EmergencyStatus.assigned, .inProgress, .paused, .completed]) :
    status' ∈ [EmergencyStatus.assigned, .inProgress, .paused, .completed] := by
  cases h with
  | same => exact hstatus
  | _ => decide

theorem completed (h : StatusMove status status') (hstatus : status = .completed) :
    status' = .completed := by
  cases h with
  | same => exact hstatus
  | pause hne => exact absurd hstatus hne
  | start => cases hstatus
  | complete => rfl

theorem resumed (h : StatusMove status status') (hstatus : status = .paused ∨ status = .completed) :
    status' = .paused ∨ status' = .completed := by
  cases h with
  | same => exact hstatus
  | pause => exact .inl rfl
  | start => rcases hstatus with h | h <;> cases h
  | complete => exact .inr rfl

end StatusMove

/-- What a step leaves to a worker `i` that is at `pc`.  A worker that stays blocked
has not missed the end of its wait. -/
structure Undisturbed (s s' : State) (i : Worker) (pc : WorkerPc) : Prop where
  stop : s.serverMustStop = true → s'.serverMustStop = true
  active : s'.world.active i = s.world.active i
  stored : ∀ e, pc.emergency = some e → s'.stored e = s.stored e
  status : ∀ e, pc.emergency = some e →
    StatusMove (s.world.emergencies e).status (s'.world.emergencies e).status
  awake : ∀ e, s'.worker i = .blocked e → Resumed s' e → Resumed s e

theorem Phase.of_woken {pc pc' : WorkerPc} (h : Phase s i pc) (hwoken : Woken pc pc') :
    Phase s i pc' := by
  cases hwoken with
  | same => exact h
  | pop => exact h
  | blocked e => exact h

namespace Undisturbed

variable {pc : WorkerPc}

/-- A step that leaves the status of the emergency alone. -/
theorem of_same (hstop : s.serverMustStop = true → s'.serverMustStop = true)
    (hactive : s'.world.active i = s.world.active i)
    (hstored : ∀ e, pc.emergency = some e → s'.stored e = s.stored e)
    (hstatus : ∀ e, pc.emergency = some e →
      (s'.world.emergencies e).status = (s.world.emergencies e).status)
    (hwoken : Woken pc (s'.worker i)) : Undisturbed s s' i pc where
  stop := hstop
  active := hactive
  stored := hstored
  status e he := by rw [hstatus e he]; exact .same _
  awake e hblocked hresumed := by
    have he : pc.emergency = some e := by
      rw [← hwoken.emergency, hblocked]
      rfl
    unfold Resumed at hresumed
    rwa [hstatus e he] at hresumed

theorem working (h : Undisturbed s s' i pc) (he : pc.emergency = some e)
    (hworking : Working s i e) : Working s' i e where
  stored := by rw [h.stored e he]; exact hworking.stored
  active := by rw [h.active]; exact hworking.active
  status := (h.status e he).working hworking.status

theorem stored_phase (h : Undisturbed s s' i pc) (he : pc.emergency = some e)
    (hstored : Stored s i e) : Stored s' i e where
  stored := by rw [h.stored e he]; exact hstored.stored
  active := by rw [h.active]; exact hstored.active

theorem phase (h : Undisturbed s s' i pc) (hphase : Phase s i pc) : Phase s' i pc := by
  cases pc with
  | loop | pop | popWait | exited => exact h.active.trans hphase
  | closing leaving => exact h.active.trans hphase
  | popped e => exact ⟨(h.stored e rfl).trans hphase.1, h.active.trans hphase.2⟩
  | inner e | find e | wait e | blocked e => exact h.working rfl hphase
  | woken e =>
      exact ⟨h.working rfl hphase.1, hphase.2.imp (h.status e rfl).resumed h.stop⟩
  | testPaused e => exact ⟨h.working rfl hphase.1, (h.status e rfl).resumed hphase.2⟩
  | testCompleted e => exact ⟨h.working rfl hphase.1, (h.status e rfl).completed hphase.2⟩
  | testCanceled e => exact ⟨h.stored_phase rfl hphase.1, (h.status e rfl).completed hphase.2⟩
  | ended e =>
      exact hphase.imp (h.stored_phase rfl) fun hw => ⟨h.working rfl hw.1, h.stop hw.2⟩
  | store e reason =>
      cases reason with
      | searchFailed => exact h.working rfl hphase
      | completed news =>
          exact ⟨h.working rfl hphase.1, (h.status e rfl).completed hphase.2.1, hphase.2.2⟩
      | canceled news => exact hphase.elim
      | stopping => exact ⟨h.stop hphase.1, hphase.2.imp (h.stored_phase rfl) (h.working rfl)⟩

end Undisturbed

theorem LocalMove.phase {pc pc' : WorkerPc} (h : LocalMove s pc pc') (hphase : Phase s i pc) :
    Phase s i pc' := by
  cases h with
  | leave | again | closed | empty => exact hphase
  | interrupted e hstop => exact .inr ⟨hphase, hstop⟩
  | search e hstop => exact hphase
  | block e => exact hphase
  | wake e hwake =>
      refine ⟨hphase, ?_⟩
      rcases hwake with hpaused | hcompleted | hstop
      · exact .inl (.inl hpaused)
      · exact .inl (.inr hcompleted)
      · exact .inr hstop
  | stopped e hstop => exact .inr ⟨hphase.1, hstop⟩
  | test e hstop =>
      refine ⟨hphase.1, hphase.2.resolve_right fun hstop' => ?_⟩
      rw [hstop] at hstop'
      cases hstop'
  | resume e hpaused => exact hphase.1
  | notPaused e hpaused => exact ⟨hphase.1, hphase.2.resolve_left hpaused⟩
  | complete e hcompleted => exact ⟨hphase.1, hcompleted, hcompleted⟩
  | notCompleted e hcompleted => exact absurd hphase.2 hcompleted
  | cancel e hcanceled =>
      have hcompleted := hphase.2
      rw [hcanceled] at hcompleted
      cases hcompleted
  | notCanceled e hcanceled => exact .inl hphase.1
  | stopping e hstop => exact ⟨hstop, hphase.imp id And.left⟩
  | finish e hstop =>
      rcases hphase with hs | ⟨-, hstop'⟩
      · exact hs.active
      · rw [hstop] at hstop'
        cases hstop'

/-! ## The storage -/

/-- The two queues of stored emergencies are open, and nothing is stored that is
not in the hands of a worker that stores it or was stored before. -/
structure Storage (cfg : Config) (s : State) : Prop where
  completed_open : s.completedEmergencies.closed = false
  canceled_open : s.canceledEmergencies.closed = false
  completed_levels : s.completedEmergencies.lists.length = cfg.priorityLookupTable.length
  canceled_levels : s.canceledEmergencies.lists.length = cfg.priorityLookupTable.length
  fresh : ∀ e, s.nextId ≤ e → s.stored e = 0
  unstored : ∀ p, (∀ i, p ≠ .worker i) → ∀ e ∈ s.holds p, s.stored e = 0
  phase : ∀ i, Phase s i (s.worker i)

theorem Storage.unstored_updater (h : Storage cfg s) (he : s.updater.emergency = some e) :
    s.stored e = 0 :=
  h.unstored .updater (by simp) e (mem_holds_updater.mpr he)

/-- What is proved of every reachable state, together. -/
structure Invariant (cfg : Config) (s : State) : Prop where
  custody : InCustody cfg s
  links : WellLinked cfg s.nextId s.world
  storage : Storage cfg s

namespace Invariant

theorem exists_working (h : Invariant cfg s) (he : s.world.active i ≠ none) :
    ∃ e', (s.worker i).emergency = some e' ∧ Working s i e' := by
  have hphase := h.storage.phase i
  cases hpc : s.worker i with
  | store e' reason =>
      rw [hpc] at hphase
      cases reason with
      | searchFailed => exact ⟨e', rfl, hphase⟩
      | completed news => exact ⟨e', rfl, hphase.1⟩
      | canceled news => exact hphase.elim
      | stopping => exact ⟨e', rfl, hphase.2.resolve_left fun hs => he hs.active⟩
  | ended e' =>
      rw [hpc] at hphase
      exact ⟨e', rfl, (hphase.resolve_left fun hs => he hs.active).1⟩
  | popped e' => rw [hpc] at hphase; exact absurd hphase.2 he
  | testCanceled e' => rw [hpc] at hphase; exact absurd hphase.1.active he
  | inner e' | find e' | wait e' | blocked e' => rw [hpc] at hphase; exact ⟨e', rfl, hphase⟩
  | woken e' | testPaused e' | testCompleted e' => rw [hpc] at hphase; exact ⟨e', rfl, hphase.1⟩
  | closing leaving => rw [hpc] at hphase; exact absurd hphase he
  | loop | pop | popWait | exited => rw [hpc] at hphase; exact absurd hphase he

theorem working_of_active (h : Invariant cfg s) (he : s.world.active i = some e) :
    Working s i e := by
  obtain ⟨e', -, hw⟩ := h.exists_working (i := i) (by simp [he])
  obtain rfl : e' = e := Option.some_injective _ (hw.active.symm.trans he)
  exact hw

theorem emergency_of_active (h : Invariant cfg s) (he : s.world.active i = some e) :
    (s.worker i).emergency = some e := by
  obtain ⟨e', hpc, hw⟩ := h.exists_working (i := i) (by simp [he])
  rw [hpc, ← hw.active, he]

end Invariant

/-! ## The statuses during a search -/

/-- A search changes the status of another emergency only by pausing it, and
only when a twin served it. -/
theorem DispatchStep.status {w w' : World} {k : ℕ} {t : TwinId} (h : DispatchStep e k t w w')
    {e' : EmergencyId} (he : e' ≠ e) :
    (w'.emergencies e').status = (w.emergencies e').status ∨
      (w'.emergencies e').status = .paused ∧ (w.twins t).serves e' = true := by
  cases h with
  | atRest request hrest => exact .inl (by simp [bindWorld, he])
  | preempting request old l missing hne hserves =>
      by_cases hold : e' = old
      · subst hold
        exact .inr ⟨by simp [bindWorld, preemptWorld, preempted, he], hserves⟩
      · exact .inl (by simp [bindWorld, preemptWorld, he, hold])

/-- After its dispatch a twin serves the emergency that searched, and no other. -/
theorem DispatchStep.serves {w w' : World} {k : ℕ} {t u : TwinId} (h : DispatchStep e k t w w')
    {e' : EmergencyId} (he : e' ≠ e) (hserves : (w'.twins u).serves e' = true) :
    (w.twins u).serves e' = true := by
  by_cases hu : u = t
  · subst hu
    have : (w'.twins u).serves e = true := by
      cases h <;> simp [bindWorld, RescuerDigitalTwin.serves]
    exact absurd (RescuerDigitalTwin.serves_unique hserves this) he
  · rwa [h.twins_of_ne hu] at hserves

theorem DispatchRun.serves {w w' : World} {candidates : List TwinId}
    (h : DispatchRun e candidates w w') {u : TwinId} {e' : EmergencyId} (he : e' ≠ e)
    (hserves : (w'.twins u).serves e' = true) : (w.twins u).serves e' = true := by
  induction h with
  | nil w => exact hserves
  | cons hstep hrun ih => exact hstep.serves he (ih hserves)

theorem DispatchRun.status {w w' : World} {candidates : List TwinId}
    (h : DispatchRun e candidates w w') {e' : EmergencyId} (he : e' ≠ e) :
    (w'.emergencies e').status = (w.emergencies e').status ∨
      (w'.emergencies e').status = .paused ∧ ∃ t ∈ candidates, (w.twins t).serves e' = true := by
  induction h with
  | nil w => exact .inl rfl
  | cons hstep hrun ih =>
      rcases ih with hsame | ⟨hpaused, t, ht, hserves⟩
      · rcases hstep.status he with hsame' | ⟨hpaused, hserves⟩
        · exact .inl (hsame.trans hsame')
        · exact .inr ⟨hsame.trans hpaused, _, by simp, hserves⟩
      · exact .inr ⟨hpaused, t, by simp [ht], hstep.serves he hserves⟩

/-- A dispatch forgets no signal, and signals the emergency it pauses. -/
theorem DispatchStep.announced {w w' : World} {k : ℕ} {t : TwinId} (h : DispatchStep e k t w w')
    {e' : EmergencyId} (he : e' ≠ e) :
    (e' ∈ w.signals → e' ∈ w'.signals) ∧
      ((w'.emergencies e').status = (w.emergencies e').status ∨ e' ∈ w'.signals) := by
  cases h with
  | atRest request hrest => exact ⟨id, .inl (by simp [bindWorld, he])⟩
  | preempting request old l missing hne hserves =>
      refine ⟨fun hin => ?_, ?_⟩
      · simp only [bindWorld, preemptWorld, World.setTwin_signals, World.setEmergency_signals]
        split
        · exact hin
        · exact List.mem_append_left _ hin
      · by_cases hold : e' = old
        · subst hold
          by_cases hpaused : (w.emergencies e').status = .paused
          · exact .inl (by simp [bindWorld, preemptWorld, preempted, he, hpaused])
          · exact .inr (by simp [bindWorld, preemptWorld, hpaused])
        · exact .inl (by simp [bindWorld, preemptWorld, he, hold])

theorem DispatchRun.announced {w w' : World} {candidates : List TwinId}
    (h : DispatchRun e candidates w w') {e' : EmergencyId} (he : e' ≠ e) :
    (w'.emergencies e').status = (w.emergencies e').status ∨ e' ∈ w'.signals := by
  suffices hboth : (e' ∈ w.signals → e' ∈ w'.signals) ∧
      ((w'.emergencies e').status = (w.emergencies e').status ∨ e' ∈ w'.signals) from hboth.2
  induction h with
  | nil w => exact ⟨id, .inl rfl⟩
  | cons hstep hrun ih =>
      obtain ⟨hkept, hstatus⟩ := hstep.announced he
      refine ⟨fun hin => ih.1 (hkept hin), ?_⟩
      rcases ih.2 with hsame | hsignal
      · rcases hstatus with hsame' | hsignal
        · exact .inl (hsame.trans hsame')
        · exact .inr (ih.1 hsignal)
      · exact .inr hsignal

theorem DispatchRun.status_self {w w' : World} {candidates : List TwinId}
    (h : DispatchRun e candidates w w') :
    (w'.emergencies e).status = (w.emergencies e).status := by
  induction h with
  | nil w => rfl
  | cons hstep hrun ih => rw [ih, hstep.emergencies_self]

theorem DispatchRun.active {w w' : World} {candidates : List TwinId}
    (h : DispatchRun e candidates w w') : w'.active = w.active := by
  induction h with
  | nil w => rfl
  | cons hstep hrun ih =>
      rw [ih]
      cases hstep <;> rfl

end EmergencyDispatch
