import EmergencyDispatch.LogLines
import EmergencyDispatch.Library.Traces

/-!
# The names in the log

`log_event` asks for the name of its thread each time.  In a run the table of the
server changes only when one of its threads registers, so a thread has the name
that `ThreadNames.lean` reads off the registrations of the run.
-/

namespace EmergencyDispatch

open TransitionSystem

variable {switches : LogSwitches} {s s' : LogTextState} {a : LogTextAction} {t : LogThread}

/-- The registration of a thread of the server that an action is. -/
def LogTextAction.registration : LogTextAction → Option (LogThread × Option CString)
  | .register (.server n) name => some (.server n, name)
  | _ => none

/-- The registrations of a run, after that of `log_init`. -/
def registrations (actions : List LogTextAction) : List (LogThread × Option CString) :=
  (.server 0, some "SERVER".toList) :: actions.filterMap LogTextAction.registration

theorem stepThread_threadNames {seconds : ℤ} {nanoseconds : ℕ}
    (h : s.stepThread switches t seconds nanoseconds = some s') :
    s'.threadNames = s.threadNames := by
  have hexit : ∀ t, (s.exitProcess t).threadNames = s.threadNames := by
    intro t
    cases t <;> rfl
  unfold LogTextState.stepThread at h
  split at h
  · cases h
  · split at h
    · rw [assembleIn_eq] at h
      simp only at h
      split at h <;> obtain rfl := Option.some.inj h <;> rfl
    · obtain rfl := Option.some.inj h
      rfl
  · cases h
  · split at h
    · split at h
      · obtain rfl := Option.some.inj h
        rfl
      · cases h
    · obtain rfl := Option.some.inj h
      exact hexit t
  · cases t with
    | client n =>
        obtain rfl := Option.some.inj h
        rfl
    | server n =>
        simp only [LogTextState.finish] at h
        split at h
        · obtain rfl := Option.some.inj h
          rfl
        · split at h
          · obtain rfl := Option.some.inj h
            rfl
          · cases h
  · obtain rfl := Option.some.inj h
    exact hexit t

theorem stepLogger_threadNames (h : s.stepLogger switches = some s') :
    s'.threadNames = s.threadNames := by
  unfold LogTextState.stepLogger at h
  split at h
  · obtain rfl := Option.some.inj h
    rfl
  · split at h
    · cases h
    · split at h
      · simp only [LogTextState.loggerWriteLine, assembleIn_eq] at h
        split at h <;> obtain rfl := Option.some.inj h <;> rfl
      · obtain rfl := Option.some.inj h
        rfl
  · cases h

/-- Only a registration changes the table of the server. -/
theorem step_threadNames (h : s.step switches a = some s') : s'.threadNames .server =
    registerAll (s.threadNames .server) a.registration.toList := by
  cases a with
  | init n =>
      simp only [LogTextState.step] at h
      split at h
      · obtain rfl := Option.some.inj h
        simp [LogTextState.setTodo, LogTextAction.registration, registerAll]
      · cases h
  | call t c =>
      simp only [LogTextState.step] at h
      split at h
      · obtain rfl := Option.some.inj h
        rfl
      · cases h
  | register t name =>
      simp only [LogTextState.step] at h
      split at h
      · obtain rfl := Option.some.inj h
        cases t <;> simp [LogThread.process, LogTextAction.registration, registerAll]
      · cases h
  | step t seconds nanoseconds =>
      simp only [LogTextState.step] at h
      split at h
      · exact congrFun (stepThread_threadNames h) _
      · cases h
  | logger =>
      simp only [LogTextState.step] at h
      split at h
      · cases h
      · exact congrFun (stepLogger_threadNames h) _

/-- **The name in the lines of a thread.**  After any run, the name that a thread of the
server puts in the messages it makes is the first one it has registered, cut to the
length of the field, when fewer than `MAX_LOG_THREADS` threads registered before it, and
otherwise `unnamed thread`. -/
theorem thread_name_of_run {actions : List LogTextAction}
    (hrun : run (LogTextState.step switches) initialLogTextState actions = some s) (n : ℕ)
    (seconds : ℤ) (nanoseconds : ℕ) (madeBy : LogFunction) (id : ℤ) (eventType : LogEventType)
    (message : CString) :
    (s.makeMessage (.server n) seconds nanoseconds madeBy id eventType message).threadName =
      registeredName (registrations actions) (.server n) := by
  have hinit : initialLogTextState.threadNames .server =
      registerAll emptyThreadNames (registrations []) := by
    rw [registrations, List.filterMap_nil, initialLogTextState]
  have htable : s.threadNames .server =
      registerAll emptyThreadNames (registrations actions) := by
    refine run_invariant (fun past s => s.threadNames .server =
      registerAll emptyThreadNames (registrations past)) hinit ?_ hrun
    intro past s a s' _ hpast hstep
    rw [step_threadNames hstep, hpast, registrations, registrations, List.filterMap_append,
      registerAll, registerAll, registerAll, ← List.foldl_append]
    cases hregistration : a.registration <;> simp [hregistration]
  have hcut : ∀ name, snprintf MAX_THREAD_NAME_LENGTH (slotName name) = slotName name := by
    intro name
    rw [slotName, snprintf, snprintf, List.take_take, Nat.min_self]
  have hname : (s.makeMessage (.server n) seconds nanoseconds madeBy id eventType
      message).threadName = snprintf MAX_THREAD_NAME_LENGTH
        (logGetCurrentThreadName (s.threadNames .server) (.server n)) := rfl
  rw [hname, htable, logGetCurrentThreadName_registerAll, registeredName]
  split
  · exact hcut _
  · rfl

/-- The worker has registered, and then its messages have its name. -/
theorem thread_name_of_worker : ∃ s,
    run (LogTextState.step ⟨false, false, true, true⟩) initialLogTextState twoProcessesLog =
      some s ∧
    (s.makeMessage (.server 1) 0 0 .logEvent AUTOMATIC_LOG_ID .debug []).threadName =
      "WORKER #0".toList := by
  have hruns : (run (LogTextState.step ⟨false, false, true, true⟩) initialLogTextState
      twoProcessesLog).isSome = true := by decide +kernel
  obtain ⟨s, hrun⟩ := Option.isSome_iff_exists.mp hruns
  have hname : registeredName (registrations twoProcessesLog) (.server 1) =
      "WORKER #0".toList := by decide +kernel
  exact ⟨s, hrun, (thread_name_of_run hrun 1 0 0 .logEvent _ .debug []).trans hname⟩

end EmergencyDispatch
