import EmergencyDispatch.Storing
import EmergencyDispatch.Locking

/-!
# No accepted emergency is lost

An emergency that the receiver has accepted is in `emergency_queue`, in one of
the two queues of stored emergencies, or in the hands of one thread
(`Accounted`).  The one way to lose it is a `pq_push` on `emergency_queue` after
`pq_close`, which drops it in silence: the receiver can be between accepting an
emergency and pushing it, and the updater between taking it out of the queue to
promote it and pushing it again.
-/

namespace EmergencyDispatch

open State TransitionSystem

/-- The step is a push on `emergency_queue`, which has been closed. -/
def pushesOnClosedQueue (s : State) : Action → Bool
  | .receiver _ =>
      match s.receiver with
      | .push _ => s.emergencyQueue.closed
      | _ => false
  | .updater _ =>
      match s.updater with
      | .promoted _ => s.emergencyQueue.closed
      | _ => false
  | _ => false

/-- Nothing is pushed on `emergency_queue` after it has been closed. -/
def PushesInTime (s : State) (a : Action) : Prop := pushesOnClosedQueue s a = false

instance : ∀ s a, Decidable (PushesInTime s a) := fun s a =>
  inferInstanceAs (Decidable (pushesOnClosedQueue s a = false))

/-- The emergency is somewhere. -/
def Accounted (s : State) (e : EmergencyId) : Prop :=
  (∃ p, e ∈ s.holds p) ∨ 0 < s.stored e

variable {cfg : Config} {s s' : State} {a : Action} {e : EmergencyId}

/-- What is in the queue stays there or goes to a worker or to the updater. -/
theorem accounted_of_queued (hinv : Invariant cfg s) (heffect : Effect cfg s a s')
    (he : e ∈ s.emergencyQueue.contents) : Accounted s' e := by
  have hlevels := hinv.custody.lists_ne_nil
  cases heffect with
  | quiet hq =>
      refine .inl ⟨.queue, ?_⟩
      show e ∈ LeveledFifo.contents _
      rw [hq.lists]
      exact he
  | pop i x queue hpc hpop =>
      obtain ⟨hperm, -, -⟩ := Pq.pop_spec hpop
      rcases List.mem_cons.mp (hperm.mem_iff.mp he) with rfl | hrest
      · exact .inl ⟨.worker i, mem_holds_worker.mpr (by simp [WorkerPc.emergency])⟩
      · exact .inl ⟨.queue, hrest⟩
  | extract x queue pred pc hpc hextract hnext =>
      obtain ⟨-, hperm, -, -⟩ := Pq.extractFirst_spec hextract
      rcases List.mem_cons.mp (hperm.mem_iff.mp he) with rfl | hrest
      · refine .inl ⟨.updater, mem_holds_updater.mpr ?_⟩
        rcases hnext with rfl | rfl <;> rfl
      · exact .inl ⟨.queue, hrest⟩
  | promote x level worker hpc hwoken =>
      exact .inl ⟨.queue, Pq.mem_contents_push_of_mem hlevels he level⟩
  | receiverPush x level worker hpc hwoken =>
      exact .inl ⟨.queue, Pq.mem_contents_push_of_mem hlevels he level⟩
  | _ => exact .inl ⟨.queue, he⟩

/-- The receiver pushes what it has on the open queue. -/
theorem accounted_of_received (hinv : Invariant cfg s) (hguard : PushesInTime s a)
    (heffect : Effect cfg s a s') (he : s.receiver.emergency = some e) : Accounted s' e := by
  cases heffect with
  | quiet hq => exact .inl ⟨.receiver, mem_holds_receiver.mpr (hq.receiver.trans he)⟩
  | receive request emergency mq hpc => rw [hpc] at he; cases he
  | receiverPush x level worker hpc hwoken =>
      obtain rfl : x = e := by simpa [ReceiverPc.emergency, hpc] using he
      have hopen : s.emergencyQueue.closed = false := by
        simpa [PushesInTime, pushesOnClosedQueue, hpc] using hguard
      exact .inl ⟨.queue, Pq.mem_contents_push_self hopen hinv.custody.lists_ne_nil _ _⟩
  | _ => exact .inl ⟨.receiver, mem_holds_receiver.mpr he⟩

/-- The updater stores what has expired, and pushes what it has promoted on the
open queue. -/
theorem accounted_of_extracted (hinv : Invariant cfg s) (hguard : PushesInTime s a)
    (heffect : Effect cfg s a s') (he : s.updater.emergency = some e) : Accounted s' e := by
  have hupdating : ∀ todo, s.updater ≠ .updating todo := by
    intro todo hpc
    rw [hpc] at he
    cases he
  cases heffect with
  | quiet hq => exact .inl ⟨.updater, mem_holds_updater.mpr (hq.updater.trans he)⟩
  | extract x queue pred pc hpc => rw [hpc] at he; cases he
  | expire x level hpc =>
      obtain rfl : x = e := by simpa [UpdaterPc.emergency, hpc] using he
      refine .inr ?_
      have hcount := count_push cfg hinv.storage.canceled_open hinv.storage.canceled_levels x x
        level
      rw [if_pos rfl] at hcount
      simp only [State.stored, hcount]
      omega
  | promote x level worker hpc hwoken =>
      obtain rfl : x = e := by simpa [UpdaterPc.emergency, hpc] using he
      have hopen : s.emergencyQueue.closed = false := by
        simpa [PushesInTime, pushesOnClosedQueue, hpc] using hguard
      exact .inl ⟨.queue, Pq.mem_contents_push_self hopen hinv.custody.lists_ne_nil _ _⟩
  | mapWaiting hpc => rw [hpc] at he; cases he
  | stays t rest w hpc | walked t rest w outside arrived hpc | arrived t rest w hpc
  | fatal t rest w hpc | slot i e' rest worker hpc => exact absurd hpc (hupdating _)
  | _ => exact .inl ⟨.updater, mem_holds_updater.mpr he⟩

/-- A worker gives its emergency up only when it has been stored. -/
theorem accounted_of_worker (hinv : Invariant cfg s) (heffect : Effect cfg s a s') {i : Worker}
    (he : (s.worker i).emergency = some e) : Accounted s' e := by
  by_cases hkept : (s'.worker i).emergency = some e
  · exact .inl ⟨.worker i, mem_holds_worker.mpr hkept⟩
  · refine .inr ?_
    have hphase := hinv.storage.phase i
    rcases effect_giving_up hinv heffect he hkept with ⟨hpc, hstop, hsame⟩ | ⟨reason, -, hsucc⟩
    · rw [hpc] at hphase
      rcases hphase with hs | ⟨-, hstop'⟩
      · rw [hsame, hs.stored]
        exact Nat.one_pos
      · rw [hstop] at hstop'
        cases hstop'
    · omega

theorem accounted_of_stored (hinv : Invariant cfg s) (heffect : Effect cfg s a s')
    (he : 0 < s.stored e) : Accounted s' e := by
  refine .inr ?_
  rcases effect_stored hinv.storage heffect e with hsame | ⟨hsucc, -⟩ <;> omega

theorem accounted_step (hinv : Invariant cfg s) (hguard : PushesInTime s a)
    (heffect : Effect cfg s a s') (h : Accounted s e) : Accounted s' e := by
  rcases h with ⟨p, he⟩ | hstored
  · cases p with
    | queue => exact accounted_of_queued hinv heffect he
    | receiver => exact accounted_of_received hinv hguard heffect (mem_holds_receiver.mp he)
    | updater => exact accounted_of_extracted hinv hguard heffect (mem_holds_updater.mp he)
    | worker i => exact accounted_of_worker hinv heffect (mem_holds_worker.mp he)
  · exact accounted_of_stored hinv heffect hstored

/-! ## The numbers of the accepted emergencies -/

/-- `valid_count` counts the emergencies that have been made. -/
theorem nextId_of_reachable (hreach : Reachable cfg s) :
    s.nextId = cfg.emergencies.length + s.validCount := by
  refine hreach.invariant (fun s => s.nextId = cfg.emergencies.length + s.validCount) rfl ?_
  intro s a s' _ (hcount : s.nextId = _ + s.validCount) _ hstep
  show s'.nextId = _ + s'.validCount
  rcases step_accepted hstep with ⟨hid, hvalid⟩ | ⟨hid, hvalid, -⟩
  · rw [hid, hvalid, hcount]
  · rw [hid, hvalid, hcount, Nat.add_assoc]

/-- **Nothing is lost while pushes come in time.** -/
theorem accounted_of_reachable
    (hreach : ReachableWith (State.step cfg) PushesInTime (initialState cfg) s) :
    ∀ e, cfg.emergencies.length ≤ e → e < s.nextId → Accounted s e := by
  refine hreach.invariant
    (fun s => ∀ e, cfg.emergencies.length ≤ e → e < s.nextId → Accounted s e) ?_ ?_
  · intro e hge hlt
    exact absurd hge (Nat.not_le.mpr hlt)
  · intro s a s' hs ih hguard hstep e hge hlt
    have hinv := reachable_invariant hs.reachable
    have heffect := (step_effect hstep).2
    by_cases hold : e < s.nextId
    · exact accounted_step hinv hguard heffect (ih e hge hold)
    · rcases step_accepted hstep with ⟨hid, -⟩ | ⟨hid, -, hpc⟩
      · exact absurd (hid ▸ hlt) hold
      · obtain rfl : e = s.nextId := Nat.eq_of_lt_succ_of_not_lt (hid ▸ hlt) hold
        exact .inl ⟨.receiver, mem_holds_receiver.mpr (by rw [hpc]; rfl)⟩

/-! ## The end of a run -/

/-- The main thread has joined the others: the run is over. -/
def Over (s : State) : Prop := s.main = .closeServer ∨ s.main = .closed

instance (s : State) : Decidable (Over s) := inferInstanceAs (Decidable (_ ∨ _))

/-- A thread that was not created has not moved, and when the run is over those
that were created have ended. -/
structure Joined (s : State) : Prop where
  updater_idle : s.started < 2 → s.updater = .loop
  receiver_idle : s.started < 3 → s.receiver = .loop
  updater_over : Over s → s.started < 2 ∨ s.updater = .exited
  receiver_over : Over s → s.started < 3 ∨ s.receiver = .exited

/-- The main thread goes on only when all threads have ended. -/
theorem stepMain_over {ok : Bool} (h : s.stepMain ok = some s') (hover : Over s') :
    (s.main = .join ∧ s.allExited = true ∨ s.main = .closeServer) ∧
      s'.started = s.started ∧ s'.updater = s.updater ∧ s'.receiver = s.receiver := by
  cases hpc : s.main with
  | start =>
      simp only [stepMain, hpc] at h
      split at h <;> obtain rfl := Option.some.inj h <;> simp only [Over] at hover
      · split at hover <;> simp at hover
      · simp at hover
  | sigwait =>
      simp only [stepMain, hpc] at h
      obtain rfl := Option.some.inj h
      simp [Over] at hover
  | shutdown todo =>
      cases todo with
      | nil =>
          simp only [stepMain, hpc] at h
          obtain rfl := Option.some.inj h
          simp [Over] at hover
      | cons op rest =>
          simp only [stepMain, hpc, Option.map_eq_some_iff, Prod.exists] at h
          obtain ⟨s₁, more, -, rfl⟩ := h
          simp [Over] at hover
  | join =>
      simp only [stepMain, hpc] at h
      split at h
      · obtain rfl := Option.some.inj h
        exact ⟨.inl ⟨rfl, ‹_›⟩, rfl, rfl, rfl⟩
      · simp at h
  | closeServer =>
      simp only [stepMain, hpc, shutdownOp, Option.map_eq_some_iff, Prod.exists] at h
      obtain ⟨s₁, more, hop, rfl⟩ := h
      split at hop
      · obtain ⟨rfl, -⟩ := Prod.mk.inj (Option.some.inj hop)
        exact ⟨.inr rfl, rfl, rfl, rfl⟩
      · simp at hop
  | closed => simp [stepMain, hpc] at h

theorem allExited_spec (h : s.allExited = true) :
    (s.started < 2 ∨ s.updater = .exited) ∧ (s.started < 3 ∨ s.receiver = .exited) := by
  simp only [allExited, Bool.and_eq_true, Bool.or_eq_true, decide_eq_true_eq, beq_iff_eq] at h
  exact ⟨h.1.1.2, h.1.2⟩

/-- The updater and the receiver step only between their creation and their end. -/
theorem step_running (h : State.step cfg s a = some s') :
    (a.thread = some .updater → 2 ≤ s.started ∧ s.updater ≠ .exited) ∧
      (a.thread = some .receiver → 3 ≤ s.started ∧ s.receiver ≠ .exited) := by
  cases (step_thread h).2 with
  | updater woken hstarted h =>
      refine ⟨fun _ => ⟨hstarted, fun hpc => ?_⟩, by simp [Action.thread]⟩
      simp [stepUpdater, hpc] at h
  | receiver woken hstarted h =>
      refine ⟨by simp [Action.thread], fun _ => ⟨hstarted, fun hpc => ?_⟩⟩
      simp [stepReceiver, hpc] at h
  | _ => simp [Action.thread]

theorem joined_step (h : Joined s) (hstep : State.step cfg s a = some s') : Joined s' := by
  have hframe := step_frame hstep
  by_cases hmain : a.thread = some .main
  · obtain ⟨ok, rfl, hmainStep⟩ := step_main hstep hmain
    have hover : Over s' → (s'.started < 2 ∨ s'.updater = .exited) ∧
        (s'.started < 3 ∨ s'.receiver = .exited) := by
      intro hover
      obtain ⟨hpc, hstarted, hupdater, hreceiver⟩ := stepMain_over hmainStep hover
      rw [hstarted, hupdater, hreceiver]
      rcases hpc with ⟨-, hexited⟩ | hpc
      · exact allExited_spec hexited
      · exact ⟨h.updater_over (.inl hpc), h.receiver_over (.inl hpc)⟩
    refine ⟨fun hlt => ?_, fun hlt => ?_, fun ho => (hover ho).1, fun ho => (hover ho).2⟩
    · have hpc := h.updater_idle (hframe.started.trans_lt hlt)
      rcases hframe.updater (by simp [Action.thread]) with heq | heq <;> rw [heq, hpc]
      rfl
    · rw [hframe.receiver (by simp [Action.thread])]
      exact h.receiver_idle (hframe.started.trans_lt hlt)
  · have hstarted := hframe.created hmain
    have hover : Over s' → Over s := by
      unfold Over
      rw [hframe.main hmain]
      exact id
    obtain ⟨hupdater, hreceiver⟩ := step_running hstep
    -- a thread that is not created, or that has exited, makes no step
    have hloop : s.updater = .loop → s.started < 2 → s'.updater = .loop := by
      intro hpc hlt
      have hmover : a.thread ≠ some .updater := fun hm => absurd (hupdater hm).1 (by omega)
      rcases hframe.updater hmover with heq | heq <;> rw [heq, hpc]
      rfl
    have hexited : s.updater = .exited → s'.updater = .exited := by
      intro hpc
      have hmover : a.thread ≠ some .updater := fun hm => (hupdater hm).2 hpc
      rcases hframe.updater hmover with heq | heq <;> rw [heq, hpc]
      rfl
    refine ⟨fun hlt => ?_, fun hlt => ?_, fun ho => ?_, fun ho => ?_⟩
    · rw [hstarted] at hlt
      exact hloop (h.updater_idle hlt) hlt
    · rw [hstarted] at hlt
      rw [hframe.receiver fun hm => absurd (hreceiver hm).1 (by omega)]
      exact h.receiver_idle hlt
    · rw [hstarted]
      exact (h.updater_over (hover ho)).imp id hexited
    · rw [hstarted]
      refine (h.receiver_over (hover ho)).imp id fun hpc => ?_
      rw [hframe.receiver fun hm => (hreceiver hm).2 hpc, hpc]

theorem joined_of_reachable (hreach : Reachable cfg s) : Joined s := by
  refine hreach.invariant Joined ⟨fun _ => rfl, fun _ => rfl, ?_, ?_⟩ ?_
  · rintro (h | h) <;> cases h
  · rintro (h | h) <;> cases h
  · intro s a s' _ hjoined _ hstep
    exact joined_step hjoined hstep

/-- When the run is over neither the receiver nor the updater has an emergency. -/
theorem Joined.none_between (h : Joined s) (hover : Over s) :
    s.receiver.emergency = none ∧ s.updater.emergency = none := by
  constructor
  · rcases h.receiver_over hover with hlt | hpc
    · rw [h.receiver_idle hlt]; rfl
    · rw [hpc]; rfl
  · rcases h.updater_over hover with hlt | hpc
    · rw [h.updater_idle hlt]; rfl
    · rw [hpc]; rfl

/-- An accepted emergency is with the threads or in a queue. -/
def Kept (s : State) (e : EmergencyId) : Prop :=
  e ∈ s.emergencyQueue.contents ∨ e ∈ s.completedEmergencies.contents ∨
    e ∈ s.canceledEmergencies.contents ∨ ∃ i, (s.worker i).emergency = some e

instance (s : State) (e : EmergencyId) : Decidable (Kept s e) := by
  unfold Kept; infer_instance

theorem Accounted.kept (h : Accounted s e) (hreceiver : s.receiver.emergency ≠ some e)
    (hupdater : s.updater.emergency ≠ some e) : Kept s e := by
  rcases h with ⟨p, he⟩ | hstored
  · cases p with
    | queue => exact .inl he
    | receiver => exact absurd (mem_holds_receiver.mp he) hreceiver
    | updater => exact absurd (mem_holds_updater.mp he) hupdater
    | worker i => exact .inr (.inr (.inr ⟨i, mem_holds_worker.mp he⟩))
  · unfold State.stored at hstored
    by_cases hcompleted : e ∈ s.completedEmergencies.contents
    · exact .inr (.inl hcompleted)
    · have hzero := List.count_eq_zero_of_not_mem hcompleted
      exact .inr (.inr (.inl (List.count_pos_iff.mp (by omega))))

/-- **No accepted emergency is lost.**  In every run in which nothing is pushed on
`emergency_queue` after it has been closed, the emergencies counted in
`valid_count` are in the queues, with the workers, or between two queues in the
hands of the receiver or of the updater; and the latter hold none when the run is
over. -/
theorem accepted_emergencies_kept
    (hreach : ReachableWith (State.step cfg) PushesInTime (initialState cfg) s) :
    s.nextId = cfg.emergencies.length + s.validCount ∧
      ∀ e, cfg.emergencies.length ≤ e → e < s.nextId →
        (Kept s e ∨ s.receiver.emergency = some e ∨ s.updater.emergency = some e) ∧
          (Over s → Kept s e) := by
  refine ⟨nextId_of_reachable hreach.reachable, fun e hge hlt => ?_⟩
  have haccounted := accounted_of_reachable hreach e hge hlt
  refine ⟨?_, fun hover => ?_⟩
  · by_cases hreceiver : s.receiver.emergency = some e
    · exact .inr (.inl hreceiver)
    by_cases hupdater : s.updater.emergency = some e
    · exact .inr (.inr hupdater)
    · exact .inl (haccounted.kept hreceiver hupdater)
  · obtain ⟨hreceiver, hupdater⟩ :=
      (joined_of_reachable hreach.reachable).none_between hover
    apply haccounted.kept
    · rw [hreceiver]; simp
    · rw [hupdater]; simp

/-- A request is accepted, but not yet pushed. -/
def requestAccepted (message : String) : List Action :=
  [.client message.toList, .receiver none, .receiver none]

/-- The main thread receives a signal and closes `emergency_queue`. -/
def queueCloses : List Action := List.replicate 4 (.main true)

/-- The rest of the shutdown: all threads end, no worker having popped anything. -/
def serverEnds : List Action :=
  List.replicate 3 (.main true) ++ [.receiver none, .clock, .clock, .updater none] ++
    (List.finRange WORKER_THREADS_NUMBER).map .worker ++ List.replicate 2 (.main true)

/-- A request that is pushed before the queue is closed is in it at the end. -/
theorem accepted_emergencies_kept_pushed :
    let s := stateAfterWith PushesInTime exampleServer
      (threadsStart ++ requestAccepted "g 5 4 0" ++ [.receiver none] ++ queueCloses ++ serverEnds)
    s.validCount = 1 ∧ s.main = .closed ∧ Kept s 3 := by
  intro s
  have hclosed : s.main = .closed := by decide +kernel
  refine ⟨by decide +kernel, hclosed, ?_⟩
  exact ((accepted_emergencies_kept (reachableWith_stateAfterWith _ exampleServer _)).2 3
    (by decide) (by decide +kernel)).2 (.inr hclosed)

/-- The queue is closed between the acceptance of a request and its push: the
emergency is counted and nowhere. -/
theorem accepted_emergency_lost :
    let s := stateAfter exampleServer
      (threadsStart ++ requestAccepted "g 5 4 0" ++ queueCloses ++ [.receiver none] ++ serverEnds)
    Reachable exampleServer s ∧ s.main = .closed ∧ s.validCount = 1 ∧ s.nextId = 4 ∧ ¬Kept s 3 :=
  ⟨reachable_stateAfter _ _, by decide +kernel, by decide +kernel, by decide +kernel,
    by decide +kernel⟩

end EmergencyDispatch
