import EmergencyDispatch.Locking
import EmergencyDispatch.WorldEffects

/-!
# A search that fails

When `find_rescuers_logging_blocking` answers `false` the marks are the only thing
it has written, and they are gone: the world is the one it has found, whichever
request and whichever unit it failed at.  Between two sections no signal is
pending, so that nobody is woken either, and the caller is left with the two
releases of `unlock_system` to do.

The runs in which a fatal branch of an update requests the shutdown need no
condition.  From that request on the updater has the system locked and waits for
itself (`UpdaterPc.Doomed`), so a worker that searches has the locking discipline
on its side.
-/

namespace EmergencyDispatch

open State TransitionSystem OrderedLocking

variable {cfg : Config} {s s' : State} {guard : State → Action → Prop}
  {L L' : Locked State Thread Mutex}

/-! ## The world after a failed search -/

/-- Only a selection that fails makes the search answer `false`. -/
theorem findRescuers_failed {n : EmergencyId} {w w' : World} {e : EmergencyId}
    {table : List PriorityRule} (h : WellLinked cfg n w)
    (hfind : findRescuersLoggingBlocking table w e = .ok (w', false)) : w' = w := by
  unfold findRescuersLoggingBlocking at hfind
  split at hfind
  · simp at hfind
  · dsimp only at hfind
    split at hfind
    · cases hassign : assignCandidates e (List.range (w.emergencies e).rescuerCount)
          (selectCandidates table w e).candidates (selectCandidates table w e).world with
      | error fault => rw [hassign] at hfind; cases hfind
      | ok w₁ =>
          rw [hassign] at hfind
          have hanswer := congrArg Prod.snd (Except.ok.inj hfind)
          simp at hanswer
    · have hworld : (selectCandidates table w e).world = w' :=
        congrArg Prod.fst (Except.ok.inj hfind)
      rw [← hworld]
      exact (selectCandidates_spec h table e).1

theorem removeTwinFromItsEmergency_signals (w : World) (t : TwinId) :
    (removeTwinFromItsEmergency w t).signals = w.signals := by
  unfold removeTwinFromItsEmergency
  split
  · rfl
  · split <;> rfl

theorem WorldEffect.signals {a : Action} {w : World} (h : WorldEffect cfg s a w)
    (hs : s.world.signals = []) : w.signals = [] := by
  cases h with
  | search | slot => rfl
  | walk t w twin arrived hstart hwalk =>
      cases hstart with
      | travelling => exact hs
      | leaving e hscene => exact (removeTwinFromItsEmergency_signals _ t).trans hs
  | _ => exact hs

theorem signals_of_reachable (h : Reachable cfg s) : s.world.signals = [] := by
  refine h.invariant (fun s => s.world.signals = []) rfl ?_
  intro s a s' hreach hsignals _ hstep
  exact (world_effect (reachable_invariant hreach) (step_effect hstep).2).signals hsignals

/-- A worker whose search fails goes on to the store, and nothing else changes. -/
theorem stepWorker_failed (hreach : Reachable cfg s) {i : Worker} {e : EmergencyId} {w : World}
    (hpc : s.worker i = .find e)
    (hfind : findRescuersLoggingBlocking cfg.priorityLookupTable s.world e = .ok (w, false))
    (hstep : s.stepWorker cfg i = some s') : s' = s.setWorker i (.store e .searchFailed) := by
  obtain rfl := findRescuers_failed (reachable_invariant hreach).links hfind
  have hsignals := signals_of_reachable hreach
  have hquiet : s.deliverSignals = s := by
    have hworker : (fun j => wakeBlocked (fun e' => s.world.signals.contains e') (s.worker j)) =
        s.worker := by
      funext j
      cases hj : s.worker j <;> simp [wakeBlocked, hsignals]
    simp only [deliverSignals, hworker, ← hsignals]
  simp only [stepWorker, hpc] at hstep
  split at hstep
  · rw [hfind] at hstep
    obtain rfl := Option.some.inj hstep
    simp only [Bool.false_eq_true, if_false]
    exact congrArg (State.setWorker · i _) hquiet
  · simp at hstep

/-! ## Fatal updates -/

/-- The updater is on its way to `wake_everyone_now` inside its section. -/
def UpdaterPc.Doomed : UpdaterPc → Prop
  | .updating todo => ∃ (before : List ShutdownOp) (rest : List UpdateOp),
      (∀ op ∈ before, op = .raise ∨ op = .close ∨ op = .updated) ∧
        todo = before.map .shutdown ++ .shutdown .wake :: rest
  | _ => False

theorem UpdaterPc.Doomed.systemFree (h : s.updater.Doomed) : s.systemFree = false := by
  cases hpc : s.updater <;> simp_all [UpdaterPc.Doomed, State.systemFree]

/-- An update that requests the shutdown first goes to its end without a way out. -/
theorem doomed_of_request {a : Action} (hrequest : ¬NoFatalUpdate s a)
    (hstep : State.step cfg s a = some s') : s'.updater.Doomed := by
  cases a <;> simp only [NoFatalUpdate, requestsFromUpdate, not_true_eq_false] at hrequest
  rename_i woken
  split at hrequest
  · rename_i rest hpc
    have hexited : s.exited = false := by simpa using hrequest
    obtain ⟨woken', -, hupdater⟩ := step_updater hstep rfl
    simp only [stepUpdater, hpc, stepUpdate, shutdownOp, hexited, Bool.false_eq_true, if_false,
      Option.map_some, Option.some.injEq] at hupdater
    subst hupdater
    exact ⟨[.raise, .close, .updated], .shutdown .send :: rest, by simp, rfl⟩
  · exact absurd rfl hrequest

/-- No thread, and least of all the updater, gets it out of there. -/
theorem doomed_step {a : Action} (h : s.updater.Doomed) (hstep : State.step cfg s a = some s') :
    s'.updater.Doomed := by
  cases hpc : s.updater with
  | updating todo =>
      rw [hpc] at h
      obtain ⟨before, rest, hbefore, rfl⟩ := h
      by_cases ha : a.thread = some .updater
      · obtain ⟨woken, -, hupdater⟩ := step_updater hstep ha
        cases before with
        | nil =>
            -- `wake` needs the mutex that its own thread has
            simp [stepUpdater, hpc, stepUpdate, shutdownOp, systemFree] at hupdater
        | cons op before =>
            have hnext : s'.updater =
                .updating (before.map .shutdown ++ .shutdown .wake :: rest) := by
              rcases hbefore op List.mem_cons_self with rfl | rfl | rfl <;>
                simp only [stepUpdater, hpc, List.map_cons, List.cons_append, stepUpdate,
                  shutdownOp, Option.map_some, Option.some.injEq] at hupdater <;>
                subst hupdater <;> rfl
            rw [hnext]
            exact ⟨before, rest, fun op' hop' => hbefore op' (List.mem_cons_of_mem _ hop'), rfl⟩
      · rcases (step_frame hstep).updater ha with heq | heq <;> rw [heq, hpc] <;>
          exact ⟨before, rest, hbefore, rfl⟩
  | _ => rw [hpc] at h; exact h.elim

/-- In a run of the server with its mutexes the fatal updates are told by the updater. -/
theorem lockReachable_cases (h : LockReachable cfg guard L) :
    LockReachable cfg NoFatalUpdate L ∨ L.base.updater.Doomed := by
  refine h.invariant (fun L => LockReachable cfg NoFatalUpdate L ∨ L.base.updater.Doomed)
    (.inl .initial) ?_
  intro L a L' _ hL _ hstep
  have hmove := lockStep_iff.mp hstep
  rcases hL with hL | hdoomed
  · by_cases hguard : onBody NoFatalUpdate L a
    · exact .inl (lockReachable_next hL hmove hguard)
    · cases hmove with
      | begin | lock => exact absurd trivial hguard
      | environment a s hthread hs => exact .inr (doomed_of_request hguard hs)
      | body a t s leave hthread hcontrol hs => exact .inr (doomed_of_request hguard hs)
  · right
    cases hmove with
    | begin | lock => exact hdoomed
    | environment a s hthread hs => exact doomed_step hdoomed hs
    | body a t s leave hthread hcontrol hs => exact doomed_step hdoomed hs

/-! ## The mutexes of a search -/

/-- A worker in the body of its search has taken the mutexes of the system and nothing else. -/
theorem holds_of_searching {i : Worker} {e : EmergencyId} {leave : List (LockOp Mutex)}
    (hL : LockReachable cfg NoFatalUpdate L) (hpc : L.base.worker i = .find e)
    (hcontrol : L.control (.worker i) = ⟨[], some leave⟩) :
    leave = systemMutexes.map .release ∧ Holds L.owner (.worker i) systemMutexes := by
  obtain ⟨holding, final, hholds, hfollow, haim⟩ := (server_disciplined cfg).inTurn hL (.worker i)
  rw [hcontrol] at hfollow haim
  obtain rfl : holding = final := by simpa [follow] using hfollow
  obtain ⟨enter, hplan, henter⟩ := haim
  simp only [server, State.plan, hpc, WorkerPc.section, Option.ite_none_right_eq_some,
    Option.some.injEq] at hplan
  obtain ⟨rfl, rfl⟩ := Section.mk.inj hplan.2
  obtain rfl : systemMutexes = holding := Option.some.inj henter
  exact ⟨rfl, hholds⟩

theorem exists_searching (hreach : Reachable cfg s) {i : Worker} {e : EmergencyId}
    (hpc : s.worker i = .find e) (hstarted : 4 + i.val ≤ s.started) (hfree : s.systemFree = true) :
    ∃ L, LockReachable cfg (fun _ _ => True) L ∧ L.base = s ∧
      L.control (.worker i) = ⟨[], some (systemMutexes.map .release)⟩ := by
  obtain ⟨L, hL, rfl, hidle⟩ := exists_locked hreach
  have hplan : (server cfg).plan L.base (.worker i) = some (.locking lockSystem) := by
    simp [server, State.plan, hstarted, hpc, WorkerPc.section]
  have hothers : ∀ m, ∀ t ≠ Thread.worker i, L.owner m ≠ some t := by
    intro m t _ howner
    have hkept := ((hidle.holds t).mem m).mpr howner
    by_cases ht : t = .updater
    · subst ht
      simp [held_updater_of_systemFree hfree] at hkept
    · simp [held_of_ne ht] at hkept
  obtain ⟨owner, hentered, -, -⟩ := exists_done
    (lockReachable_next hL (.begin (.worker i) _ (hidle.control _) hplan) trivial)
    (Function.update_self _ _ _) (hidle.holds (.worker i))
    (show follow Mutex.rank _ _ = some systemMutexes from rfl) fun m _ => hothers m
  exact ⟨_, hentered, rfl, by simp [systemMutexes, Section.locking]⟩

/-- **A failed search changes nothing.**  In every state of the server with its
mutexes, a search that answers `false` leaves the world as it was, and emits no
signal.  When it is the search of a worker the step changes nothing but where the
worker is; the worker has the two mutexes of the system, and its next two
operations give them back. -/
theorem failed_search_changes_nothing {e : EmergencyId} {w' : World}
    (hL : LockReachable cfg (fun _ _ => True) L)
    (hfind : findRescuersLoggingBlocking cfg.priorityLookupTable L.base.world e =
      .ok (w', false)) :
    w' = L.base.world ∧ ∀ i L', L.base.worker i = .find e →
      (server cfg).lockStep L (.body (.worker i)) = some L' →
      L'.base = L.base.setWorker i (.store e .searchFailed) ∧
      (∀ m, L'.owner m = some (.worker i) ↔ m ∈ lockSystem) ∧
      ∃ L'', run (server cfg).lockStep L'
          (List.replicate lockSystem.length (.lock (.worker i))) = some L'' ∧
        L''.base = L'.base ∧ L''.control (.worker i) = .idle ∧
        ∀ m, L''.owner m = if m ∈ lockSystem then none else L'.owner m := by
  have hreach : Reachable cfg L.base := reachable_base hL
  refine ⟨findRescuers_failed (reachable_invariant hreach).links hfind, ?_⟩
  intro i L' hpc hbody
  cases lockStep_iff.mp hbody with
  | environment a s hthread _ => cases hthread
  | body a t s leave hthread hcontrol hstep =>
      obtain rfl : Thread.worker i = t := Option.some.inj hthread
      have hworker : L.base.stepWorker cfg i = some s := by
        cases (step_thread (a := .worker i) hstep).2 with
        | worker _ _ h => exact h
      obtain rfl := stepWorker_failed hreach hpc hfind hworker
      -- the updater does not have the system, so it is not in a fatal update
      have hfree : L.base.systemFree = true := by
        by_contra hfree
        simp [stepWorker, hpc, hfree] at hworker
      have hguarded : LockReachable cfg NoFatalUpdate L := by
        rcases lockReachable_cases hL with h | hdoomed
        · exact h
        · simp [hdoomed.systemFree] at hfree
      obtain ⟨rfl, hholds⟩ := holds_of_searching hguarded hpc hcontrol
      refine ⟨rfl, fun m => ?_, ?_⟩
      · rw [← hholds.mem]
        exact List.mem_reverse
      · obtain ⟨L'', hrun, hbase, hidle, howner⟩ := (server cfg).run_release systemMutexes
          (L := { L with
            base := L.base.setWorker i (.store e .searchFailed)
            control := Function.update L.control (.worker i)
              ⟨systemMutexes.map .release, none⟩ }) (t := .worker i) (by simp)
        refine ⟨L'', hrun, hbase, hidle, fun m => (howner m).trans ?_⟩
        simp [systemMutexes]

/-- The emergency `e` needs both rescuers, and `f` comes first and has one of them: the
search of `e` marks the other one and fails. -/
theorem failed_search_changes_nothing_marked :
    let s := stateAfter exampleServer (threadsStart ++ requestArrives "f 5 4 0" ++
      workerSteps 0 6 ++ requestArrives "e 3 4 0" ++ workerSteps 1 4)
    (selectCandidates defaultPriorityLookupTable s.world 4).candidates = [0] ∧
      ∃ L', LockReachable exampleServer (fun _ _ => True) L' ∧
        L'.base = s.setWorker 1 (.store 4 .searchFailed) := by
  intro s
  refine ⟨by decide +kernel, ?_⟩
  have hpc : s.worker 1 = .find 4 := by decide +kernel
  obtain ⟨L, hL, hbase, hcontrol⟩ := exists_searching (s := s)
    (reachable_stateAfter exampleServer _) hpc (by decide +kernel) (by decide +kernel)
  obtain ⟨s', hstep⟩ : ∃ s', State.step exampleServer s (.worker 1) = some s' :=
    Option.isSome_iff_exists.mp (by decide +kernel)
  have hfind : findRescuersLoggingBlocking defaultPriorityLookupTable s.world 4 =
      .ok (s.world, false) := by
    have hreach : Reachable exampleServer s := reachable_stateAfter exampleServer _
    have hlinks := (reachable_invariant hreach).links
    have hnotEnough : ¬EnoughRescuers defaultPriorityLookupTable s.world 4 := by decide +kernel
    have hcases := (findRescuers_cases (e := 4) hlinks (by decide +kernel)
      defaultPriorityLookupTable).1
    generalize findRescuersLoggingBlocking defaultPriorityLookupTable s.world 4 = outcome at hcases
    cases hcases with
    | nothingMissing hnothing => exact absurd hnothing (by decide +kernel)
    | notEnough => rfl
    | dispatched _ henough => exact absurd henough hnotEnough
    | outOfRange _ henough => exact absurd henough hnotEnough
  rw [← hbase] at hfind hstep hpc ⊢
  have hbody : (server exampleServer).lockStep L (.body (.worker 1)) = some _ :=
    lockStep_iff.mpr (.body _ _ s' _ rfl hcontrol hstep)
  obtain ⟨-, hafter⟩ := failed_search_changes_nothing hL hfind
  exact ⟨_, lockReachable_next hL (lockStep_iff.mp hbody) trivial, (hafter 1 _ hpc hbody).1⟩

end EmergencyDispatch
