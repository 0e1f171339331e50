import EmergencyDispatch.Locking

/-!
# Ticks and updates

The clock sets a flag and adds one to a counter; the updater takes the flag down,
releases the mutex of the clock, and reads the counter after that.  An update has
the number of its tick when the clock ticks only after the updater has taken the
last tick and read its number (`TicksTaken`): then the updates are numbered
`1, 2, 3, …`, and each tick has its update or is still to be taken.  A tick that
comes too early is merged with the one before it, or gives two updates its number.
-/

namespace EmergencyDispatch

open TransitionSystem State

variable {cfg : Config} {s s' : State} {a : Action}

/-- The clock is about to tick. -/
def ClockPc.ticking : ClockPc → Bool
  | .tick | .lastTick => true
  | .loop | .exited => false

/-- When the clock ticks, the updater has taken the last tick and read its number. -/
def TicksTaken (s : State) : Action → Prop
  | .clock => s.clock.ticking = true → s.tick = false ∧ s.updater ≠ .readCount
  | _ => True

instance (s : State) (a : Action) : Decidable (TicksTaken s a) := by
  unfold TicksTaken
  split <;> infer_instance

/-- The updater has taken a tick and not yet begun its update. -/
def UpdaterPc.taken : UpdaterPc → ℕ
  | .readCount | .begin _ => 1
  | _ => 0

/-- The ticks whose updates have not begun. -/
def State.ticksLeft (s : State) : ℕ := s.updater.taken + if s.tick then 1 else 0

/-- The updates and the counter. -/
structure InStep (s : State) : Prop where
  updates : s.updates = List.range' 1 s.updates.length
  count : s.tickCountSinceStart = s.updates.length + s.ticksLeft
  reading : s.updater = .readCount → s.tick = false
  number : ∀ cycle, s.updater = .begin cycle → cycle = s.updates.length + 1

/-! ## Steps -/

@[simp] theorem taken_wakeTick (pc : UpdaterPc) : (wakeTick pc).taken = pc.taken := by
  cases pc <;> rfl

theorem wakeTick_eq_readCount {pc : UpdaterPc} (h : wakeTick pc = .readCount) :
    pc = .readCount := by
  cases pc <;> simp_all [wakeTick]

theorem wakeTick_eq_begin {pc : UpdaterPc} {cycle : ℕ} (h : wakeTick pc = .begin cycle) :
    pc = .begin cycle := by
  cases pc <;> simp_all [wakeTick]

namespace InStep

/-- A step that leaves the clock alone, and the updater too or wakes it. -/
theorem of_frame (h : InStep s) (htick : s'.tick = s.tick)
    (hcount : s'.tickCountSinceStart = s.tickCountSinceStart) (hupdates : s'.updates = s.updates)
    (hupdater : s'.updater = s.updater ∨ s'.updater = wakeTick s.updater) : InStep s' where
  updates := by rw [hupdates]; exact h.updates
  count := by
    have htaken : s'.updater.taken = s.updater.taken := by
      rcases hupdater with heq | heq <;> simp [heq]
    rw [ticksLeft, hcount, hupdates, htick, htaken, h.count, ticksLeft]
  reading hpc := by
    rw [htick]
    rcases hupdater with heq | heq
    · exact h.reading (heq ▸ hpc)
    · exact h.reading (wakeTick_eq_readCount (heq ▸ hpc))
  number cycle hpc := by
    rw [hupdates]
    rcases hupdater with heq | heq
    · exact h.number cycle (heq ▸ hpc)
    · exact h.number cycle (wakeTick_eq_begin (heq ▸ hpc))

/-- The updater moves, with no tick in its hands before or after. -/
theorem of_idle (h : InStep s) (htick : s'.tick = s.tick)
    (hcount : s'.tickCountSinceStart = s.tickCountSinceStart) (hupdates : s'.updates = s.updates)
    (hbefore : s.updater.taken = 0) (hafter : s'.updater.taken = 0) : InStep s' where
  updates := by rw [hupdates]; exact h.updates
  count := by rw [ticksLeft, hcount, hupdates, htick, hafter, h.count, ticksLeft, hbefore]
  reading hpc := by simp [hpc, UpdaterPc.taken] at hafter
  number cycle hpc := by simp [hpc, UpdaterPc.taken] at hafter

theorem doTick (h : InStep s) (htick : s.tick = false) (hpc : s.updater ≠ .readCount)
    (pc : ClockPc) : InStep { s.doTick with clock := pc } where
  updates := h.updates
  count := by
    have hcount := h.count
    simp only [ticksLeft, htick, State.doTick, taken_wakeTick] at hcount ⊢
    simp only [Bool.false_eq_true, if_false, if_true] at hcount ⊢
    omega
  reading hread := absurd (wakeTick_eq_readCount hread) hpc
  number cycle hbegin := h.number cycle (wakeTick_eq_begin hbegin)

theorem stepClock (h : InStep s) (hguard : TicksTaken s .clock)
    (hstep : s.stepClock = some s') : InStep s' := by
  cases hpc : s.clock <;> simp only [State.stepClock, hpc, reduceCtorEq] at hstep <;>
    obtain rfl := Option.some.inj hstep
  case loop => exact h.of_frame rfl rfl rfl (.inl rfl)
  case tick | lastTick =>
    obtain ⟨htick, hread⟩ := hguard (by rw [hpc]; rfl)
    exact h.doTick htick hread _

theorem take (h : InStep s) (hpc : s.updater = .takeTick) (htick : s.tick = true) :
    InStep { s with tick := false, updater := .readCount } where
  updates := h.updates
  count := by simpa [ticksLeft, UpdaterPc.taken, hpc, htick] using h.count
  reading _ := rfl
  number cycle hbegin := by cases hbegin

theorem read (h : InStep s) (hpc : s.updater = .readCount) :
    InStep { s with updater := .begin s.tickCountSinceStart } where
  updates := h.updates
  count := by simpa [ticksLeft, UpdaterPc.taken, hpc] using h.count
  reading hread := by cases hread
  number cycle hbegin := by
    obtain rfl := UpdaterPc.begin.inj hbegin
    have hcount := h.count
    simpa [ticksLeft, UpdaterPc.taken, hpc, h.reading hpc] using hcount

theorem begin {cycle : ℕ} (h : InStep s) (hpc : s.updater = .begin cycle) {pc : UpdaterPc}
    (hafter : pc.taken = 0) : InStep { s with updates := s.updates ++ [cycle], updater := pc } where
  updates := by
    show s.updates ++ [cycle] = List.range' 1 (s.updates ++ [cycle]).length
    -- the new number is the next one
    rw [List.length_append, List.length_singleton, List.range'_concat, ← h.updates,
      h.number cycle hpc]
    simp [Nat.add_comm]
  count := by
    have hcount := h.count
    simp only [ticksLeft, hpc, UpdaterPc.taken] at hcount
    simp only [ticksLeft, hafter, List.length_append, List.length_singleton]
    omega
  reading hread := by
    obtain rfl : pc = .readCount := hread
    simp [UpdaterPc.taken] at hafter
  number cycle' hbegin := by
    obtain rfl : pc = .begin cycle' := hbegin
    simp [UpdaterPc.taken] at hafter

end InStep

/-- Inside its section the updater leaves the ticks alone. -/
theorem stepUpdate_ticks {op : UpdateOp} {rest : List UpdateOp}
    (h : s.stepUpdate cfg rest op = some s') : s'.tick = s.tick ∧
      s'.tickCountSinceStart = s.tickCountSinceStart ∧ s'.updates = s.updates ∧
      (s'.updater = s.updater ∨ s'.updater.taken = 0) := by
  cases op with
  | twin t | arrive t =>
      simp only [stepUpdate] at h
      split at h <;> obtain rfl := Option.some.inj h <;>
        exact ⟨rfl, rfl, rfl, by simp [UpdaterPc.taken, crash]⟩
  | slot i =>
      simp only [stepUpdate] at h
      split at h <;> obtain rfl := Option.some.inj h <;>
        exact ⟨rfl, rfl, rfl, .inr rfl⟩
  | shutdown op =>
      simp only [stepUpdate, Option.map_eq_some_iff, Prod.exists] at h
      obtain ⟨s₁, more, hop, rfl⟩ := h
      obtain ⟨htick, hcount, hupdates⟩ := (shutdownOp_frame hop).ticks (by simp) (by simp)
      exact ⟨htick, hcount, hupdates, .inr rfl⟩

theorem InStep.stepUpdater {woken : Option Worker} (h : InStep s)
    (hstep : s.stepUpdater cfg woken = some s') : InStep s' := by
  cases hpc : s.updater with
  | tickWait | diverged | exited => simp [State.stepUpdater, hpc] at hstep
  | takeTick =>
      simp only [State.stepUpdater, hpc] at hstep
      split at hstep
      · obtain rfl := Option.some.inj hstep
        exact h.of_idle rfl rfl rfl (by rw [hpc]; rfl) rfl
      · rename_i hticked
        split at hstep <;> obtain rfl := Option.some.inj hstep
        · exact h.of_idle rfl rfl rfl (by rw [hpc]; rfl) rfl
        · rename_i hstop
          -- the flag is down and the wait is over, so there is a tick
          refine h.take hpc ?_
          cases htick : s.tick with
          | true => rfl
          | false => exact absurd ⟨htick, by simpa using hstop⟩ hticked
  | readCount =>
      simp only [State.stepUpdater, hpc] at hstep
      obtain rfl := Option.some.inj hstep
      exact h.read hpc
  | begin cycle =>
      simp only [State.stepUpdater, hpc] at hstep
      obtain rfl := Option.some.inj hstep
      exact h.begin hpc rfl
  | updating todo =>
      have hbefore : s.updater.taken = 0 := by rw [hpc]; rfl
      cases todo with
      | nil =>
          simp only [State.stepUpdater, hpc] at hstep
          obtain rfl := Option.some.inj hstep
          exact h.of_idle rfl rfl rfl hbefore rfl
      | cons op rest =>
          simp only [State.stepUpdater, hpc] at hstep
          obtain ⟨htick, hcount, hupdates, hupdater⟩ := stepUpdate_ticks hstep
          refine h.of_idle htick hcount hupdates hbefore ?_
          rcases hupdater with hsame | hafter
          · rw [hsame, hbefore]
          · exact hafter
  | expire | promote =>
      simp only [State.stepUpdater, hpc] at hstep
      split at hstep <;> obtain rfl := Option.some.inj hstep <;>
        exact h.of_idle rfl rfl rfl (by rw [hpc]; rfl) rfl
  | promoted e =>
      simp only [State.stepUpdater, hpc] at hstep
      obtain ⟨worker, -, -, rfl⟩ := pushEmergency_eq hstep
      exact h.of_idle rfl rfl rfl (by rw [hpc]; rfl) rfl
  | loop =>
      simp only [State.stepUpdater, hpc] at hstep
      obtain rfl := Option.some.inj hstep
      refine h.of_idle rfl rfl rfl (by rw [hpc]; rfl) ?_
      show (if s.serverMustStop then UpdaterPc.exited else .takeTick).taken = 0
      split <;> rfl
  | mapWaiting | expired e =>
      simp only [State.stepUpdater, hpc] at hstep
      obtain rfl := Option.some.inj hstep
      exact h.of_idle rfl rfl rfl (by rw [hpc]; rfl) rfl

/-- **Step lemma.** -/
theorem InStep.step (h : InStep s) (hguard : TicksTaken s a)
    (hstep : State.step cfg s a = some s') : InStep s' := by
  have hframe := step_frame hstep
  by_cases hclock : a.thread = some .clock
  · cases (step_thread hstep).2 <;>
      simp only [Action.thread, Option.some.injEq, reduceCtorEq] at hclock
    case clock _ hstep => exact h.stepClock hguard hstep
  by_cases hupdater : a.thread = some .updater
  · obtain ⟨woken, rfl, hupdate⟩ := step_updater hstep hupdater
    exact h.stepUpdater hupdate
  · obtain ⟨htick, hcount, hupdates⟩ := hframe.ticks hclock hupdater
    exact h.of_frame htick hcount hupdates (hframe.updater hupdater)

/-- **The updates are numbered in order.**  In every run in which the clock ticks
only after the updater has taken the last tick and read its number, the `k`-th
update has the number `k`, and the ticks are the updates and those still to be
taken: none is merged with another. -/
theorem updates_in_order
    (hreach : ReachableWith (State.step cfg) TicksTaken (initialState cfg) s) :
    s.updates = List.range' 1 s.updates.length ∧
      s.tickCountSinceStart = s.updates.length + s.ticksLeft := by
  have h : InStep s := by
    refine hreach.invariant InStep ⟨rfl, rfl, fun _ => rfl, nofun⟩ ?_
    intro s a s' _ h hguard hstep
    exact h.step hguard hstep
  exact ⟨h.updates, h.count⟩

/-- Three ticks, each with its update. -/
theorem updates_in_order_three :
    let s := stateAfterWith TicksTaken exampleServer
      (threadsStart ++ clockTicks 21 ++ clockTicks 21 ++ clockTicks 21)
    s.serverMustStop = false ∧ s.updates = [1, 2, 3] ∧
      s.tickCountSinceStart = s.updates.length + s.ticksLeft := by
  intro s
  refine ⟨by decide +kernel, by decide +kernel, ?_⟩
  exact (updates_in_order (reachableWith_stateAfterWith TicksTaken exampleServer _)).2

/-- The clock ticks. -/
def clockTick : List Action := [.clock, .clock]

/-- The updater makes `n` steps. -/
def updaterSteps (n : ℕ) : List Action := List.replicate n (.updater none)

/-- The second tick comes when the updater has taken the first one and not yet read
its number; the third and the fourth one come during an update. -/
theorem updates_out_of_order :
    let s := stateAfter exampleServer (threadsStart ++ clockTick ++ updaterSteps 2 ++ clockTick ++
      updaterSteps 18 ++ updaterSteps 10 ++ clockTick ++ clockTick ++ updaterSteps 10 ++
      updaterSteps 20)
    Reachable exampleServer s ∧ s.serverMustStop = false ∧ s.tickCountSinceStart = 4 ∧
      s.ticksLeft = 0 ∧ s.updates = [2, 2, 4] :=
  ⟨reachable_stateAfter _ _, by decide +kernel, by decide +kernel, by decide +kernel,
    by decide +kernel⟩

end EmergencyDispatch
