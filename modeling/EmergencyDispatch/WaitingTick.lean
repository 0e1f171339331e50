import EmergencyDispatch.Countdowns
import EmergencyDispatch.QueuePasses
import EmergencyDispatch.Library.FifoDrain

/-!
# A tick in the queue

What `update_waiting_emergencies_states`, `remove_expired_waiting_emergencies_logging` and
`promote_needing_waiting_emergencies` make of `emergency_queue`, told from its content at the
start: who times out, who is promoted and who stays (`Emergency.timesOut`,
`Emergency.isPromoted`, `Emergency.stays`).

Both loops take out the first emergency that matches, in the order of service.  `Passes`
says where they are: which emergencies they have taken out, and what they have left.  The
loop of promotions scans what it has pushed again, but the timers that it has set run, so
that nobody is promoted twice and the loop ends.
-/

namespace EmergencyDispatch

open State TransitionSystem LeveledFifo

/-! ## The table -/

/-- The rows are in the order of their numbers, and no time in them is over before it begins. -/
structure RunningTable (table : List PriorityRule) : Prop where
  sorted : table.Pairwise fun rule rule' => rule.number < rule'.number
  timeouts : ∀ rule ∈ table, rule.timeBeforeTimeout = NO_TIMEOUT ∨ 1 ≤ rule.timeBeforeTimeout
  promotions : ∀ rule ∈ table,
    rule.timeBeforePromotion = NO_PROMOTION ∨ 1 ≤ rule.timeBeforePromotion

example : RunningTable defaultPriorityLookupTable := by constructor <;> decide

namespace RunningTable

variable {table : List PriorityRule}

theorem legal (h : RunningTable table) : LegalTable table where
  sorted := h.sorted
  timeouts rule hrule := (h.timeouts rule hrule).imp_right (le_trans zero_le_one)
  promotions rule hrule := (h.promotions rule hrule).imp_right (le_trans zero_le_one)

theorem level_getNextPriority (h : RunningTable table) (hne : table ≠ []) (p : ℤ) :
    priorityToLevel table (getNextPriority table p) =
      min (priorityToLevel table p + 1) (table.length - 1) := by
  have hlt := priorityToLevel_lt hne p
  unfold getNextPriority
  split
  · omega
  · rw [AscendingTable.level_levelToPriority h.legal.sorted (by omega)]
    omega

theorem timersFrom_promote (h : RunningTable table) (hne : table ≠ []) (em : Emergency) :
    (promoteEmergency table em).TimersFrom 1 1 :=
  ⟨h.timeouts _ (ruleAt_mem hne _), h.promotions _ (ruleAt_mem hne _)⟩

end RunningTable

/-! ## One emergency -/

namespace Emergency

variable {em : Emergency} {table : List PriorityRule}

/-- This tick is the last one before the timeout. -/
def timesOut (em : Emergency) : Bool := em.timeoutTimer == 1

/-- This tick is the last one before the promotion, and not before the timeout. -/
def isPromoted (em : Emergency) : Bool := em.timeoutTimer != 1 && em.promotionTimer == 1

/-- The emergency waits on. -/
def stays (em : Emergency) : Bool := em.timeoutTimer != 1 && em.promotionTimer != 1

/-- A timer that runs comes to its end when it was at one. -/
theorem guarded_over {sentinel timer : ℤ} (hsentinel : sentinel < 0)
    (h : timer = sentinel ∨ 1 ≤ timer) :
    ((if timer ≠ sentinel then timer - 1 else timer) ≠ sentinel ∧
      (if timer ≠ sentinel then timer - 1 else timer) ≤ 0) ↔ timer = 1 := by
  by_cases htimer : timer = sentinel
  · rw [if_neg (not_not.mpr htimer)]
    omega
  · rw [if_pos htimer]
    omega

theorem guarded_eq (sentinel timer : ℤ) : (if timer ≠ sentinel then timer - 1 else timer) =
    if timer = sentinel then sentinel else timer - 1 := by
  by_cases htimer : timer = sentinel
  · simp [htimer]
  · simp [htimer]

theorem hasExpired_updateWaiting (h : em.TimersFrom 1 1) :
    emergencyHasExpired (updateWaitingEmergencyState em) = em.timesOut := by
  have hover := guarded_over (by decide) h.timeout
  rw [Bool.eq_iff_iff]
  simpa [emergencyHasExpired, updateWaitingEmergencyState, timesOut] using hover

theorem isToPromote_updateWaiting (h : em.TimersFrom 1 1) :
    emergencyIsToPromote (updateWaitingEmergencyState em) = (em.promotionTimer == 1) := by
  have hover := guarded_over (by decide) h.promotion
  rw [Bool.eq_iff_iff]
  simpa [emergencyIsToPromote, updateWaitingEmergencyState] using hover

theorem TimersFrom.not_over (h : em.TimersFrom 1 1) :
    emergencyHasExpired em = false ∧ emergencyIsToPromote em = false := by
  obtain ⟨htimeout, hpromotion⟩ := h
  simp only [emergencyHasExpired, emergencyIsToPromote, Bool.and_eq_false_iff,
    bne_eq_false_iff_eq, decide_eq_false_iff_not]
  omega

end Emergency

/-! ## Where the passes are -/

namespace State

/-- The emergencies of the queue that time out, in the order of service. -/
def timedOut (s : State) : List EmergencyId :=
  (servingOrder s.emergencyQueue.lists).filter fun e => (s.world.emergencies e).timesOut

/-- The emergencies of the queue that are promoted, in the order of service. -/
def promoted (s : State) : List EmergencyId :=
  (servingOrder s.emergencyQueue.lists).filter fun e => (s.world.emergencies e).isPromoted

/-- The level an emergency is promoted to. -/
def nextLevel (cfg : Config) (s : State) (e : EmergencyId) : ℕ :=
  min (priorityToLevel cfg.priorityLookupTable (s.world.emergencies e).priority + 1)
    (cfg.priorityLookupTable.length - 1)

/-- The levels when all that has timed out is gone. -/
def survivors (s : State) : Levels EmergencyId := keep (· ∉ s.timedOut) s.emergencyQueue.lists

/-- The levels when the emergencies `up` are promoted and `held` is on its way. -/
def promotedLevels (cfg : Config) (s : State) (up held : List EmergencyId) : Levels EmergencyId :=
  pushAll (s.nextLevel cfg) (keep (· ∉ up ++ held) s.survivors) up

/-- An emergency when `out` are removed and `up` are promoted. -/
def tickRecord (cfg : Config) (s : State) (out up : List EmergencyId) (e : EmergencyId) :
    Emergency :=
  let waited := updateWaitingEmergencyState (s.world.emergencies e)
  if e ∈ out then { waited with status := .timeout }
  else if e ∈ up then promoteEmergency cfg.priorityLookupTable waited
  else waited

end State

/-- A point of the passes that began in `s₀`: the program counter of the updater, the levels
of the queue, the emergencies, those removed, and the number of steps made. -/
inductive Passes (cfg : Config) (s₀ : State) : UpdaterPc → Levels EmergencyId →
    (EmergencyId → Emergency) → List EmergencyId → ℕ → Prop
  | start : Passes cfg s₀ .mapWaiting s₀.emergencyQueue.lists s₀.world.emergencies [] 0
  | expire (out left : List EmergencyId) (h : s₀.timedOut = out ++ left) :
      Passes cfg s₀ .expire (keep (· ∉ out) s₀.emergencyQueue.lists)
        (s₀.tickRecord cfg out []) out (1 + 2 * out.length)
  | expired (out left : List EmergencyId) (e : EmergencyId) (h : s₀.timedOut = out ++ e :: left) :
      Passes cfg s₀ (.expired e) (keep (· ∉ out ++ [e]) s₀.emergencyQueue.lists)
        (s₀.tickRecord cfg out []) out (2 + 2 * out.length)
  | promote (up left : List EmergencyId) (h : s₀.promoted = up ++ left) :
      Passes cfg s₀ .promote (s₀.promotedLevels cfg up [])
        (s₀.tickRecord cfg s₀.timedOut up) s₀.timedOut
        (2 + 2 * s₀.timedOut.length + 2 * up.length)
  | promoted (up left : List EmergencyId) (e : EmergencyId) (h : s₀.promoted = up ++ e :: left) :
      Passes cfg s₀ (.promoted e) (s₀.promotedLevels cfg up [e])
        (s₀.tickRecord cfg s₀.timedOut up) s₀.timedOut
        (3 + 2 * s₀.timedOut.length + 2 * up.length)
  | finished : Passes cfg s₀ .loop (s₀.promotedLevels cfg s₀.promoted [])
        (s₀.tickRecord cfg s₀.timedOut s₀.promoted) s₀.timedOut
        (3 + 2 * s₀.timedOut.length + 2 * s₀.promoted.length)

/-- The queue at the start of the passes: each emergency is in it once, at the level of its
priority, and its timers run. -/
structure WaitingContent (cfg : Config) (s : State) : Prop where
  updater : s.updater = .mapWaiting
  queueOpen : s.emergencyQueue.closed = false
  canceledOpen : s.canceledEmergencies.closed = false
  queueLevels : s.emergencyQueue.lists.length = cfg.priorityLookupTable.length
  canceledLevels : s.canceledEmergencies.lists.length = cfg.priorityLookupTable.length
  once : s.emergencyQueue.contents.Nodup
  level : ∀ l, ∀ e ∈ itemsAt s.emergencyQueue.lists l,
    priorityToLevel cfg.priorityLookupTable (s.world.emergencies e).priority = l
  timers : ∀ e ∈ s.emergencyQueue.contents, (s.world.emergencies e).TimersFrom 1 1

/-- What is true of the queue while the passes that began in `s₀` are made. -/
structure InPasses (cfg : Config) (s₀ s : State) (record : EmergencyId → Emergency)
    (out : List EmergencyId) (n : ℕ) : Prop where
  passes : Passes cfg s₀ s.updater s.emergencyQueue.lists record out n
  queueOpen : s.emergencyQueue.closed = false
  canceledOpen : s.canceledEmergencies.closed = false
  canceledLevels : s.canceledEmergencies.lists.length = cfg.priorityLookupTable.length
  records : ∀ e ∈ s₀.emergencyQueue.contents, s.world.emergencies e = record e
  canceled : ∀ e ∈ s₀.emergencyQueue.contents, s.canceledEmergencies.contents.count e =
    s₀.canceledEmergencies.contents.count e + if e ∈ out then 1 else 0

variable {cfg : Config} {s₀ s s' : State} {a : Action} {e : EmergencyId} {n : ℕ}

theorem WaitingContent.start (h : WaitingContent cfg s₀) :
    InPasses cfg s₀ s₀ s₀.world.emergencies [] 0 where
  passes := h.updater ▸ .start
  queueOpen := h.queueOpen
  canceledOpen := h.canceledOpen
  canceledLevels := h.canceledLevels
  records e _ := rfl
  canceled e _ := by simp

/-! ## The emergencies that leave the queue -/

namespace State

variable {s : State}

theorem mem_timedOut :
    e ∈ s.timedOut ↔ e ∈ s.emergencyQueue.contents ∧ (s.world.emergencies e).timesOut = true := by
  rw [timedOut, List.mem_filter, mem_servingOrder]
  rfl

theorem mem_promoted : e ∈ s.promoted ↔
    e ∈ s.emergencyQueue.contents ∧ (s.world.emergencies e).isPromoted = true := by
  rw [promoted, List.mem_filter, mem_servingOrder]
  rfl

theorem not_timedOut_of_promoted (h : e ∈ s.promoted) : e ∉ s.timedOut := by
  intro htimedOut
  have hpromoted := (mem_promoted.mp h).2
  have hover := (mem_timedOut.mp htimedOut).2
  simp only [Emergency.isPromoted, Emergency.timesOut, beq_iff_eq] at hpromoted hover
  simp [hover] at hpromoted

theorem mem_survivors :
    e ∈ contents s.survivors ↔ e ∈ s.emergencyQueue.contents ∧ e ∉ s.timedOut := by
  rw [survivors, mem_contents_keep]
  simp [Pq.contents]

/-- The emergencies that are promoted, told from those that are left after the removal. -/
theorem promoted_eq : s.promoted =
    (servingOrder s.survivors).filter fun e => (s.world.emergencies e).promotionTimer == 1 := by
  rw [survivors, servingOrder_keep, List.filter_filter, promoted]
  refine List.filter_congr fun e he => ?_
  have hmem : e ∈ s.emergencyQueue.contents := mem_servingOrder.mp he
  have hover : (e ∈ s.timedOut) ↔ (s.world.emergencies e).timesOut = true := by
    rw [mem_timedOut]
    exact and_iff_right hmem
  rw [Bool.eq_iff_iff]
  simp [hover, Emergency.isPromoted, Emergency.timesOut, and_comm]

section tickRecord

variable {out up : List EmergencyId} {x : EmergencyId}

theorem tickRecord_timedOut (hout : e ∈ out) : s.tickRecord cfg out up e =
    { updateWaitingEmergencyState (s.world.emergencies e) with status := .timeout } :=
  if_pos hout

theorem tickRecord_promoted (hout : e ∉ out) (hup : e ∈ up) : s.tickRecord cfg out up e =
    promoteEmergency cfg.priorityLookupTable
      (updateWaitingEmergencyState (s.world.emergencies e)) := by
  rw [tickRecord, if_neg hout, if_pos hup]

theorem tickRecord_waited (hout : e ∉ out) (hup : e ∉ up) :
    s.tickRecord cfg out up e = updateWaitingEmergencyState (s.world.emergencies e) := by
  rw [tickRecord, if_neg hout, if_neg hup]

/-- A removal or a promotion concerns one emergency. -/
theorem tickRecord_of_ne (hne : e ≠ x) :
    s.tickRecord cfg (out ++ [x]) up e = s.tickRecord cfg out up e ∧
      s.tickRecord cfg out (up ++ [x]) e = s.tickRecord cfg out up e := by
  constructor <;> simp [tickRecord, hne]

end tickRecord

end State

/-! ## The first match -/

section extract

variable {out up left : List EmergencyId}

theorem extract_timedOut (hcontent : WaitingContent cfg s₀) (hout : s₀.timedOut = out ++ left)
    (hrecords : ∀ e ∈ s₀.emergencyQueue.contents,
      s.world.emergencies e = s₀.tickRecord cfg out [] e) :
    extractFirst (fun e => emergencyHasExpired (s.world.emergencies e))
        (keep (· ∉ out) s₀.emergencyQueue.lists) =
      left.head?.map fun e => (e, keep (· ∉ out ++ [e]) s₀.emergencyQueue.lists) := by
  rw [← extractFirst_keep hcontent.once hout]
  refine extractFirst_congr fun e he => ?_
  obtain ⟨hmem, hnot⟩ := mem_contents_keep.mp he
  rw [hrecords e hmem, tickRecord_waited (by simpa using hnot) List.not_mem_nil]
  exact Emergency.hasExpired_updateWaiting (hcontent.timers e hmem)

/-- The loop of promotions takes out the next emergency that is promoted: those that it has
pushed are passed over. -/
theorem extract_promoted (htable : RunningTable cfg.priorityLookupTable)
    (hcontent : WaitingContent cfg s₀) (hup : s₀.promoted = up ++ left)
    (hrecords : ∀ e ∈ s₀.emergencyQueue.contents,
      s.world.emergencies e = s₀.tickRecord cfg s₀.timedOut up e) :
    extractFirst (fun e => emergencyIsToPromote (s.world.emergencies e))
        (s₀.promotedLevels cfg up []) =
      left.head?.map fun e => (e, s₀.promotedLevels cfg up [e]) := by
  have hpushed : ∀ e ∈ up, emergencyIsToPromote (s.world.emergencies e) = false := by
    intro e he
    have hpromoted : e ∈ s₀.promoted := hup ▸ List.mem_append_left _ he
    have hnot := not_timedOut_of_promoted hpromoted
    rw [hrecords e (mem_promoted.mp hpromoted).1, tickRecord_promoted hnot he]
    exact (htable.timersFrom_promote cfg.priorityLookupTable_ne_nil _).not_over.2
  have hwaiting : ∀ e ∈ contents (keep (· ∉ up) s₀.survivors),
      emergencyIsToPromote (s.world.emergencies e) =
        ((s₀.world.emergencies e).promotionTimer == 1) := by
    intro e he
    obtain ⟨hleft, hnot⟩ := mem_contents_keep.mp he
    obtain ⟨hmem, htimedOut⟩ := mem_survivors.mp hleft
    rw [hrecords e hmem, tickRecord_waited htimedOut (by simpa using hnot)]
    exact Emergency.isToPromote_updateWaiting (hcontent.timers e hmem)
  have honce : (contents s₀.survivors).Nodup := nodup_keep hcontent.once _
  rw [promoted_eq] at hup
  rw [promotedLevels, extractFirst_pushAll hpushed, List.append_nil, extractFirst_congr hwaiting,
    extractFirst_keep honce hup, Option.map_map]
  rfl

end extract

/-! ## The steps of the updater -/

/-- A push on an open queue wakes a worker if one waits, and is never blocked. -/
theorem pushEmergency_isSome (hopen : s.emergencyQueue.closed = false) :
    ∃ woken s', s.pushEmergency cfg e woken = some s' := by
  simp only [pushEmergency, hopen, Bool.false_eq_true, if_false]
  by_cases hwaits : ∃ i, s.worker i = .popWait
  · obtain ⟨i, hi⟩ := hwaits
    exact ⟨some i, _, if_pos hi⟩
  · exact ⟨none, _, if_neg hwaits⟩

namespace InPasses

variable {record : EmergencyId → Emergency} {out up left : List EmergencyId}
  {woken : Option Worker}

/-- `update_waiting_emergencies_states`. -/
theorem start_step (h : InPasses cfg s₀ s s₀.world.emergencies [] 0)
    (hpc : s.updater = .mapWaiting) (hlists : s.emergencyQueue.lists = s₀.emergencyQueue.lists)
    (hstep : s.stepUpdater cfg woken = some s') :
    InPasses cfg s₀ s' (s₀.tickRecord cfg [] []) [] 1 := by
  simp only [stepUpdater, hpc] at hstep
  obtain rfl := Option.some.inj hstep
  refine { h with passes := ?_, records := fun e he => ?_ }
  · have hall : keep (· ∉ ([] : List EmergencyId)) s₀.emergencyQueue.lists =
        s₀.emergencyQueue.lists := keep_eq_self (by simp)
    have hstart : Passes cfg s₀ .expire _ _ _ _ := .expire [] s₀.timedOut rfl
    rw [hall] at hstart
    exact hlists ▸ hstart
  · have hmem : e ∈ s.emergencyQueue.contents := by rwa [Pq.contents, hlists]
    rw [tickRecord_waited List.not_mem_nil List.not_mem_nil, ← h.records e he]
    exact if_pos hmem

/-- The `pq_extract_first` of `remove_expired_waiting_emergencies_logging`. -/
theorem expire_step (hcontent : WaitingContent cfg s₀)
    (h : InPasses cfg s₀ s (s₀.tickRecord cfg out []) out (1 + 2 * out.length))
    (hpc : s.updater = .expire)
    (hlists : s.emergencyQueue.lists = keep (· ∉ out) s₀.emergencyQueue.lists)
    (hout : s₀.timedOut = out ++ left) (hstep : s.stepUpdater cfg woken = some s') :
    InPasses cfg s₀ s' (s₀.tickRecord cfg out []) out (2 + 2 * out.length) := by
  have hextract := extract_timedOut hcontent hout h.records
  rw [← hlists] at hextract
  simp only [stepUpdater, hpc, Pq.extractFirst, hextract] at hstep
  cases left with
  | nil =>
      -- nobody has expired any more
      obtain rfl := Option.some.inj hstep
      rw [List.append_nil] at hout
      subst hout
      refine { h with passes := ?_ }
      have hall : s₀.promotedLevels cfg [] [] = s.emergencyQueue.lists := by
        rw [hlists]
        exact keep_eq_self (by simp)
      have hstart : Passes cfg s₀ .promote _ _ _ _ := .promote [] s₀.promoted rfl
      exact hall ▸ hstart
  | cons e left =>
      obtain rfl := Option.some.inj hstep
      exact { h with passes := .expired out left e hout }

/-- The rest of a round of `remove_expired_waiting_emergencies_logging`. -/
theorem expired_step (hcontent : WaitingContent cfg s₀)
    (h : InPasses cfg s₀ s (s₀.tickRecord cfg out []) out (2 + 2 * out.length))
    (hpc : s.updater = .expired e)
    (hlists : s.emergencyQueue.lists = keep (· ∉ out ++ [e]) s₀.emergencyQueue.lists)
    (hout : s₀.timedOut = out ++ e :: left) (hstep : s.stepUpdater cfg woken = some s') :
    InPasses cfg s₀ s' (s₀.tickRecord cfg (out ++ [e]) []) (out ++ [e])
      (3 + 2 * out.length) := by
  have hnew : e ∉ out := not_served_before hcontent.once hout
  simp only [stepUpdater, hpc] at hstep
  obtain rfl := Option.some.inj hstep
  refine ⟨?_, h.queueOpen, ?_, ?_, fun x hx => ?_, fun x hx => ?_⟩
  · have hrest : s₀.timedOut = (out ++ [e]) ++ left := by rw [hout, List.append_cons]
    have hpasses : Passes cfg s₀ .expire _ _ _ _ := .expire (out ++ [e]) left hrest
    have hlength : 1 + 2 * (out ++ [e]).length = 3 + 2 * out.length := by
      rw [List.length_append, List.length_singleton]
      omega
    rw [hlength] at hpasses
    exact hlists ▸ hpasses
  · exact (Pq.push_closed _ _ _).trans h.canceledOpen
  · exact (Pq.length_lists_push _ _ _).trans h.canceledLevels
  · by_cases hxe : x = e
    · subst hxe
      have hwaited := h.records x hx
      rw [tickRecord_waited hnew List.not_mem_nil] at hwaited
      rw [tickRecord_timedOut (by simp), ← hwaited]
      exact World.setEmergency_self ..
    · rw [(tickRecord_of_ne hxe).1, ← h.records x hx]
      exact World.setEmergency_of_ne _ _ _ hxe
  · have hcount := count_push cfg h.canceledOpen h.canceledLevels e x
    dsimp only
    rw [hcount, h.canceled x hx]
    by_cases hxe : x = e
    · subst hxe
      simp [hnew]
    · simp [hxe]

/-- The `pq_extract_first` of `promote_needing_waiting_emergencies`. -/
theorem promote_step (htable : RunningTable cfg.priorityLookupTable)
    (hcontent : WaitingContent cfg s₀)
    (h : InPasses cfg s₀ s (s₀.tickRecord cfg s₀.timedOut up) s₀.timedOut n)
    (hn : n = 2 + 2 * s₀.timedOut.length + 2 * up.length) (hpc : s.updater = .promote)
    (hlists : s.emergencyQueue.lists = s₀.promotedLevels cfg up [])
    (hup : s₀.promoted = up ++ left) (hstep : s.stepUpdater cfg woken = some s') :
    InPasses cfg s₀ s' (s₀.tickRecord cfg s₀.timedOut up) s₀.timedOut (n + 1) := by
  have hextract := extract_promoted htable hcontent hup h.records
  rw [← hlists] at hextract
  simp only [stepUpdater, hpc, Pq.extractFirst, hextract] at hstep
  have hsteps : n + 1 = 3 + 2 * s₀.timedOut.length + 2 * up.length := by omega
  rw [hsteps]
  cases left with
  | nil =>
      -- nobody is to be promoted any more
      obtain rfl := Option.some.inj hstep
      rw [List.append_nil] at hup
      subst hup
      exact { h with passes := hlists ▸ .finished }
  | cons e left =>
      obtain rfl := Option.some.inj hstep
      exact { h with passes := .promoted up left e hup }

/-- The rest of a round of `promote_needing_waiting_emergencies`. -/
theorem promoted_step (htable : RunningTable cfg.priorityLookupTable)
    (hcontent : WaitingContent cfg s₀)
    (h : InPasses cfg s₀ s (s₀.tickRecord cfg s₀.timedOut up) s₀.timedOut n)
    (hn : n = 3 + 2 * s₀.timedOut.length + 2 * up.length) (hpc : s.updater = .promoted e)
    (hlists : s.emergencyQueue.lists = s₀.promotedLevels cfg up [e])
    (hup : s₀.promoted = up ++ e :: left) (hstep : s.stepUpdater cfg woken = some s') :
    InPasses cfg s₀ s' (s₀.tickRecord cfg s₀.timedOut (up ++ [e])) s₀.timedOut (n + 1) := by
  have hne := cfg.priorityLookupTable_ne_nil
  have hpromoted : e ∈ s₀.promoted := hup ▸ List.mem_append_right _ List.mem_cons_self
  have hnot := not_timedOut_of_promoted hpromoted
  have hnew : e ∉ up := not_served_before hcontent.once hup
  have hwaited := h.records e (mem_promoted.mp hpromoted).1
  rw [tickRecord_waited hnot hnew] at hwaited
  simp only [stepUpdater, hpc] at hstep
  obtain ⟨worker, -, -, rfl⟩ := pushEmergency_eq hstep
  -- of the records only that of the promoted emergency changes
  have hrecord : ∀ x ∈ s₀.emergencyQueue.contents,
      (s.world.setEmergency e (promoteEmergency cfg.priorityLookupTable
        (s.world.emergencies e))).emergencies x =
          s₀.tickRecord cfg s₀.timedOut (up ++ [e]) x := by
    intro x hx
    by_cases hxe : x = e
    · subst hxe
      rw [tickRecord_promoted hnot (by simp), ← hwaited]
      exact World.setEmergency_self ..
    · rw [(tickRecord_of_ne hxe).2, ← h.records x hx]
      exact World.setEmergency_of_ne _ _ _ hxe
  refine ⟨?_, (Pq.push_closed _ _ _).trans h.queueOpen, h.canceledOpen, h.canceledLevels, hrecord,
    h.canceled⟩
  -- it goes to the end of its new level
  have hpushed : (s.emergencyQueue.push e (s₀.nextLevel cfg e)).lists =
      s₀.promotedLevels cfg (up ++ [e]) [] := by
    have hlevel : s₀.nextLevel cfg e < s.emergencyQueue.lists.length := by
      have hpos := List.length_pos_iff.mpr hne
      rw [hlists, promotedLevels, length_pushAll, length_keep, survivors, length_keep,
        hcontent.queueLevels, nextLevel]
      omega
    calc (s.emergencyQueue.push e (s₀.nextLevel cfg e)).lists
        = pushBack s.emergencyQueue.lists (s₀.nextLevel cfg e) e :=
          Pq.lists_push h.queueOpen hlevel e
      _ = pushBack (s₀.promotedLevels cfg up [e]) (s₀.nextLevel cfg e) e := by rw [hlists]
      _ = s₀.promotedLevels cfg (up ++ [e]) [] := by
          rw [promotedLevels, promotedLevels, pushAll_concat, List.append_nil]
  have hlevel : priorityToLevel cfg.priorityLookupTable
      (promoteEmergency cfg.priorityLookupTable (s.world.emergencies e)).priority =
        s₀.nextLevel cfg e := by
    rw [hwaited]
    exact htable.level_getNextPriority hne _
  have hrest : s₀.promoted = (up ++ [e]) ++ left := by rw [hup, List.append_cons]
  have hpasses : Passes cfg s₀ .promote _ _ _ _ := .promote (up ++ [e]) left hrest
  have hlength : 2 + 2 * s₀.timedOut.length + 2 * (up ++ [e]).length = n + 1 := by
    rw [List.length_append, List.length_singleton]
    omega
  rw [hlength, ← hpushed, ← hlevel] at hpasses
  simpa [levelOf] using hpasses

/-- **Step lemma** of the updater: each of its steps brings the passes forward. -/
theorem updater_step (htable : RunningTable cfg.priorityLookupTable)
    (hcontent : WaitingContent cfg s₀) (h : InPasses cfg s₀ s record out n)
    (hnot : s.updater ≠ .loop) (hstep : s.stepUpdater cfg woken = some s') :
    ∃ record' out', InPasses cfg s₀ s' record' out' (n + 1) := by
  have hpasses := h.passes
  generalize hpc : s.updater = pc at hpasses
  generalize hlists : s.emergencyQueue.lists = lists at hpasses
  cases hpasses with
  | start => exact ⟨_, _, h.start_step hpc hlists hstep⟩
  | expire out left hout =>
      have hnext := h.expire_step hcontent hpc hlists hout hstep
      have hsteps : 2 + 2 * out.length = 1 + 2 * out.length + 1 := by omega
      exact ⟨_, _, hsteps ▸ hnext⟩
  | expired out left e hout =>
      have hnext := h.expired_step hcontent hpc hlists hout hstep
      have hsteps : 3 + 2 * out.length = 2 + 2 * out.length + 1 := by omega
      exact ⟨_, _, hsteps ▸ hnext⟩
  | promote up left hup => exact ⟨_, _, h.promote_step htable hcontent rfl hpc hlists hup hstep⟩
  | promoted up left e hup =>
      exact ⟨_, _, h.promoted_step htable hcontent rfl hpc hlists hup hstep⟩
  | finished => exact absurd hpc hnot

theorem awake (h : InPasses cfg s₀ s record out n) : s.updater ≠ .tickWait := by
  have hpasses := h.passes
  intro hpc
  rw [hpc] at hpasses
  cases hpasses

/-- **Step lemma** of the other threads: what leaves the queue alone leaves the passes alone. -/
theorem other_step (h : InPasses cfg s₀ s record out n) (hreach : Reachable cfg s)
    (hunpopped : ∀ e ∈ s₀.emergencyQueue.contents, Unpopped s e)
    (hother : a.thread ≠ some .updater) (hleaves : LeavesQueue s a)
    (hstep : State.step cfg s a = some s') : InPasses cfg s₀ s' record out n := by
  have hinv := reachable_invariant hreach
  have hinv' := reachable_invariant (hreach.next trivial hstep)
  have hserves := servesPopped_of_reachable hreach
  have hqueue := step_queue hother hleaves hstep
  have hupdater : s'.updater = s.updater := by
    by_contra hmoved
    exact hother (thread_of_moved hstep hmoved h.awake)
  refine ⟨by rw [hupdater, hqueue]; exact h.passes, hqueue ▸ h.queueOpen,
    hinv'.storage.canceled_open, hinv'.storage.canceled_levels, fun e he => ?_, fun e he => ?_⟩
  · rw [step_record hinv hserves hother (hunpopped e he) hstep, h.records e he]
  · rw [step_canceled hinv hother (hunpopped e he) hstep, h.canceled e he]

/-- Until they are over the updater can go on. -/
theorem progress (h : InPasses cfg s₀ s record out n) (hnot : s.updater ≠ .loop) :
    ∃ woken s', s.stepUpdater cfg woken = some s' := by
  have hpasses := h.passes
  generalize hpc : s.updater = pc at hpasses
  generalize s.emergencyQueue.lists = lists at hpasses
  cases hpasses with
  | start | expired =>
      refine ⟨none, ?_⟩
      simp only [stepUpdater, hpc]
      exact ⟨_, rfl⟩
  | expire | promote =>
      refine ⟨none, ?_⟩
      simp only [stepUpdater, hpc]
      split <;> exact ⟨_, rfl⟩
  | promoted up left e hup =>
      simp only [stepUpdater, hpc]
      exact pushEmergency_isSome h.queueOpen
  | finished => exact absurd hpc hnot

end InPasses

/-! ## Runs -/

/-- How many steps the updater has made. -/
def countMoves (s s' : State) (n : ℕ) : ℕ := if s'.updater = s.updater then n else n + 1

/-- The steps of the updater until the passes are over, and, in a run of the server, those of
the other threads that leave the queue alone. -/
def DuringPasses (cfg : Config) (s₀ s : State) (a : Action) : Prop :=
  s.updater ≠ .loop ∧ (a.thread = some .updater ∨ Reachable cfg s₀ ∧ LeavesQueue s a)

/-- The passes that began in `s₀` are in `s` after `n` steps of the updater. -/
abbrev PassesRun (cfg : Config) (s₀ s : State) (n : ℕ) : Prop :=
  ReachableWith (withHistory (State.step cfg) countMoves) (fun p a => DuringPasses cfg s₀ p.1 a)
    (s₀, 0) (s, n)

namespace Passes

variable {pc : UpdaterPc} {lists lists' : Levels EmergencyId}
  {record record' : EmergencyId → Emergency} {out out' : List EmergencyId}

theorem not_succ (h : Passes cfg s₀ pc lists record out n)
    (h' : Passes cfg s₀ pc lists' record' out' (n + 1)) : False := by
  generalize hm : n + 1 = m at h'
  cases h <;> cases h' <;> omega

/-- They are over after as many steps as there are emergencies to remove and to promote. -/
theorem bound (h : Passes cfg s₀ pc lists record out n) :
    n ≤ 3 + 2 * s₀.timedOut.length + 2 * s₀.promoted.length ∧
      (pc = .loop ↔ n = 3 + 2 * s₀.timedOut.length + 2 * s₀.promoted.length) := by
  cases h with
  | start =>
      simp only [reduceCtorEq, false_iff]
      omega
  -- what has been done is a part of what is to be done
  | expire done left h | expired done left e h | promote done left h | promoted done left e h =>
      have hlength := congrArg List.length h
      simp only [List.length_append, List.length_cons] at hlength
      simp only [reduceCtorEq, false_iff]
      omega
  | finished => simp

end Passes

/-- **Run lemma.** -/
theorem inPasses_of_run (htable : RunningTable cfg.priorityLookupTable)
    (hcontent : WaitingContent cfg s₀) (hrun : PassesRun cfg s₀ s n) :
    ∃ record out, InPasses cfg s₀ s record out n := by
  suffices hall : (∃ record out, InPasses cfg s₀ s record out n) ∧ (Reachable cfg s₀ →
      Reachable cfg s ∧ ∀ e ∈ s₀.emergencyQueue.contents, Unpopped s e) from hall.1
  refine hrun.invariant (fun p => (∃ record out, InPasses cfg s₀ p.1 record out p.2) ∧
    (Reachable cfg s₀ → Reachable cfg p.1 ∧
      ∀ e ∈ s₀.emergencyQueue.contents, Unpopped p.1 e)) ?_ ?_
  · refine ⟨⟨_, _, hcontent.start⟩, fun hreach => ⟨hreach, fun e he => ?_⟩⟩
    have hcustody := (reachable_invariant hreach).custody
    exact ⟨hcustody.fresh .queue e he, hcustody.not_popped (p := .queue) he (by simp)⟩
  · rintro ⟨s, n⟩ a ⟨s', n'⟩ - ⟨⟨record, out, h⟩, hothers⟩ ⟨hnot, hguard⟩ hhistory
    obtain ⟨s'', hstep, heq⟩ := Option.map_eq_some_iff.mp hhistory
    obtain ⟨rfl, rfl⟩ := Prod.mk.inj heq
    have hkept : LeavesQueue s a → Reachable cfg s₀ → Reachable cfg s'' ∧
        ∀ e ∈ s₀.emergencyQueue.contents, Unpopped s'' e := by
      intro hleaves hreach
      obtain ⟨hs, hunpopped⟩ := hothers hreach
      exact ⟨hs.next trivial hstep, fun e he => (hunpopped e he).step hleaves hstep⟩
    by_cases hupdater : a.thread = some .updater
    · obtain ⟨woken, rfl, hupdate⟩ := step_updater hstep hupdater
      obtain ⟨record', out', h'⟩ := h.updater_step htable hcontent hnot hupdate
      have hmoved : s''.updater ≠ s.updater := by
        intro hsame
        have hpasses' := h'.passes
        rw [hsame] at hpasses'
        exact h.passes.not_succ hpasses'
      refine ⟨⟨record', out', ?_⟩, hkept trivial⟩
      simpa only [countMoves, if_neg hmoved] using h'
    · obtain ⟨hreach, hleaves⟩ := hguard.resolve_left hupdater
      obtain ⟨hs, hunpopped⟩ := hothers hreach
      have h' := h.other_step hs hunpopped hupdater hleaves hstep
      have hsame : s''.updater = s.updater := by
        by_contra hmoved
        exact hupdater (thread_of_moved hstep hmoved h.awake)
      refine ⟨⟨record, out, ?_⟩, hkept hleaves⟩
      simpa only [countMoves, if_pos hsame] using h'

/-! ## What the passes leave -/

section ticked

theorem nextLevel_lt (hcontent : WaitingContent cfg s₀) (e : EmergencyId) :
    s₀.nextLevel cfg e < (keep (· ∉ s₀.promoted ++ []) s₀.survivors).length := by
  have hpos := List.length_pos_iff.mpr cfg.priorityLookupTable_ne_nil
  rw [length_keep, survivors, length_keep, hcontent.queueLevels, nextLevel]
  omega

theorem contents_promotedLevels (hcontent : WaitingContent cfg s₀) :
    (contents (s₀.promotedLevels cfg s₀.promoted [])).Nodup ∧
      ∀ e, e ∈ contents (s₀.promotedLevels cfg s₀.promoted []) ↔
        e ∈ s₀.emergencyQueue.contents ∧ e ∉ s₀.timedOut := by
  have hperm := contents_pushAll_perm fun e (_ : e ∈ s₀.promoted) => nextLevel_lt hcontent e
  have hpromoted : s₀.promoted.Nodup := (nodup_servingOrder.mpr hcontent.once).filter _
  have hkept : (contents (keep (· ∉ s₀.promoted ++ []) s₀.survivors)).Nodup :=
    nodup_keep (nodup_keep hcontent.once _) _
  have hmem : ∀ e, e ∈ contents (keep (· ∉ s₀.promoted ++ []) s₀.survivors) ↔
      (e ∈ s₀.emergencyQueue.contents ∧ e ∉ s₀.timedOut) ∧ e ∉ s₀.promoted := by
    intro e
    rw [mem_contents_keep, mem_survivors, List.append_nil]
    simp
  constructor
  · refine hperm.nodup_iff.mpr (hkept.append hpromoted fun e he hup => ?_)
    exact ((hmem e).mp he).2 hup
  · intro e
    rw [promotedLevels, hperm.mem_iff, List.mem_append, hmem]
    constructor
    · rintro (⟨hwaiting, -⟩ | hup)
      · exact hwaiting
      · exact ⟨(mem_promoted.mp hup).1, not_timedOut_of_promoted hup⟩
    · intro hwaiting
      by_cases hup : e ∈ s₀.promoted
      · exact .inr hup
      · exact .inl ⟨hwaiting, hup⟩

/-- On every level those that stay come first, in their order, and then those that are
promoted to it, in the order of service. -/
theorem itemsAt_promotedLevels (hcontent : WaitingContent cfg s₀) (l : ℕ) :
    itemsAt (s₀.promotedLevels cfg s₀.promoted []) l =
      ((itemsAt s₀.emergencyQueue.lists l).filter fun e => (s₀.world.emergencies e).stays) ++
        s₀.promoted.filter fun e => s₀.nextLevel cfg e = l := by
  rw [promotedLevels, itemsAt_pushAll fun e _ => nextLevel_lt hcontent e, itemsAt_keep, survivors,
    itemsAt_keep, List.filter_filter]
  congr 1
  refine List.filter_congr fun e he => ?_
  have hmem : e ∈ s₀.emergencyQueue.contents := mem_contents_iff.mpr ⟨l, he⟩
  rw [Bool.eq_iff_iff]
  simp only [Bool.and_eq_true, decide_eq_true_eq, List.append_nil, mem_promoted, mem_timedOut, hmem,
    true_and, Emergency.timesOut, Emergency.isPromoted, Emergency.stays, bne_iff_ne, beq_iff_eq]
  tauto

/-- What a tick leaves of the queue `s₀`: every emergency in one place, with the timers that
it should have. -/
structure Ticked (cfg : Config) (s₀ s : State) : Prop where
  /-- Those that time out are in `canceled_emergencies`, once more than before. -/
  timedOut : ∀ e ∈ s₀.emergencyQueue.contents, (s₀.world.emergencies e).timeoutTimer = 1 →
    (s.world.emergencies e).status = .timeout ∧ e ∉ s.emergencyQueue.contents ∧
      s.canceledEmergencies.contents.count e = s₀.canceledEmergencies.contents.count e + 1
  /-- Those that are promoted are on the next level, with its timers. -/
  promoted : ∀ l, ∀ e ∈ itemsAt s₀.emergencyQueue.lists l,
    (s₀.world.emergencies e).timeoutTimer ≠ 1 → (s₀.world.emergencies e).promotionTimer = 1 →
    let next := min (l + 1) (cfg.priorityLookupTable.length - 1)
    let rule := ruleAt cfg.priorityLookupTable next
    s.world.emergencies e =
        { s₀.world.emergencies e with
          priority := getNextPriority cfg.priorityLookupTable (s₀.world.emergencies e).priority
          timeoutTimer := rule.timeBeforeTimeout
          promotionTimer := rule.timeBeforePromotion
          howManyTimesWasPromoted := (s₀.world.emergencies e).howManyTimesWasPromoted + 1 } ∧
      priorityToLevel cfg.priorityLookupTable (s.world.emergencies e).priority = next ∧
      e ∈ itemsAt s.emergencyQueue.lists next ∧ s.emergencyQueue.contents.count e = 1 ∧
      s.canceledEmergencies.contents.count e = s₀.canceledEmergencies.contents.count e
  /-- The others are where they were, and their timers have run on. -/
  stayed : ∀ l, ∀ e ∈ itemsAt s₀.emergencyQueue.lists l,
    (s₀.world.emergencies e).timeoutTimer ≠ 1 → (s₀.world.emergencies e).promotionTimer ≠ 1 →
    s.world.emergencies e =
        { s₀.world.emergencies e with
          timeoutTimer := if (s₀.world.emergencies e).timeoutTimer = NO_TIMEOUT then NO_TIMEOUT
            else (s₀.world.emergencies e).timeoutTimer - 1
          promotionTimer := if (s₀.world.emergencies e).promotionTimer = NO_PROMOTION then
            NO_PROMOTION else (s₀.world.emergencies e).promotionTimer - 1 } ∧
      e ∈ itemsAt s.emergencyQueue.lists l ∧ s.emergencyQueue.contents.count e = 1 ∧
      s.canceledEmergencies.contents.count e = s₀.canceledEmergencies.contents.count e
  /-- On every level those that stay come first, then those that are promoted to it. -/
  order : ∀ l, itemsAt s.emergencyQueue.lists l =
    ((itemsAt s₀.emergencyQueue.lists l).filter fun e => (s₀.world.emergencies e).stays) ++
      (servingOrder s₀.emergencyQueue.lists).filter fun e =>
        (s₀.world.emergencies e).isPromoted && s₀.nextLevel cfg e == l
  /-- Nobody else gets into the queue, and no timer in it is over. -/
  running : ∀ e ∈ s.emergencyQueue.contents, e ∈ s₀.emergencyQueue.contents ∧
    emergencyHasExpired (s.world.emergencies e) = false ∧
      emergencyIsToPromote (s.world.emergencies e) = false

/-- The state when the passes are over. -/
structure AtEnd (cfg : Config) (s₀ s : State) : Prop where
  once : s.emergencyQueue.contents.Nodup
  mem : ∀ e, e ∈ s.emergencyQueue.contents ↔ e ∈ s₀.emergencyQueue.contents ∧ e ∉ s₀.timedOut
  order : ∀ l, itemsAt s.emergencyQueue.lists l =
    ((itemsAt s₀.emergencyQueue.lists l).filter fun e => (s₀.world.emergencies e).stays) ++
      s₀.promoted.filter fun e => s₀.nextLevel cfg e = l
  records : ∀ e ∈ s₀.emergencyQueue.contents,
    s.world.emergencies e = s₀.tickRecord cfg s₀.timedOut s₀.promoted e
  canceled : ∀ e ∈ s₀.emergencyQueue.contents, s.canceledEmergencies.contents.count e =
    s₀.canceledEmergencies.contents.count e + if e ∈ s₀.timedOut then 1 else 0

theorem InPasses.atEnd {record : EmergencyId → Emergency} {out : List EmergencyId}
    (hcontent : WaitingContent cfg s₀) (h : InPasses cfg s₀ s record out n)
    (hover : s.updater = .loop) : AtEnd cfg s₀ s := by
  have hpasses := h.passes
  rw [hover] at hpasses
  generalize hlists : s.emergencyQueue.lists = lists at hpasses
  cases hpasses with
  | finished =>
      obtain ⟨honce, hmem⟩ := contents_promotedLevels hcontent
      have horder := itemsAt_promotedLevels hcontent
      rw [← hlists] at honce hmem horder
      exact ⟨honce, hmem, horder, h.records, h.canceled⟩

namespace AtEnd

theorem not_timedOut (htimer : (s₀.world.emergencies e).timeoutTimer ≠ 1) : e ∉ s₀.timedOut := by
  intro hout
  exact htimer (by simpa [Emergency.timesOut] using (mem_timedOut.mp hout).2)

theorem queued (h : AtEnd cfg s₀ s) (he : e ∈ s₀.emergencyQueue.contents)
    (hnot : e ∉ s₀.timedOut) : s.emergencyQueue.contents.count e = 1 ∧
      s.canceledEmergencies.contents.count e = s₀.canceledEmergencies.contents.count e := by
  constructor
  · exact List.count_eq_one_of_mem h.once ((h.mem e).mpr ⟨he, hnot⟩)
  · rw [h.canceled e he, if_neg hnot, Nat.add_zero]

theorem timedOut (h : AtEnd cfg s₀ s) (he : e ∈ s₀.emergencyQueue.contents)
    (htimer : (s₀.world.emergencies e).timeoutTimer = 1) :
    (s.world.emergencies e).status = .timeout ∧ e ∉ s.emergencyQueue.contents ∧
      s.canceledEmergencies.contents.count e =
        s₀.canceledEmergencies.contents.count e + 1 := by
  have hout : e ∈ s₀.timedOut := mem_timedOut.mpr ⟨he, by simp [Emergency.timesOut, htimer]⟩
  refine ⟨?_, fun hin => ((h.mem e).mp hin).2 hout, ?_⟩
  · rw [h.records e he, tickRecord_timedOut hout]
  · rw [h.canceled e he, if_pos hout]

theorem promoted (h : AtEnd cfg s₀ s) (htable : RunningTable cfg.priorityLookupTable)
    (hcontent : WaitingContent cfg s₀) {l : ℕ} (hl : e ∈ itemsAt s₀.emergencyQueue.lists l)
    (htimeout : (s₀.world.emergencies e).timeoutTimer ≠ 1)
    (hpromotion : (s₀.world.emergencies e).promotionTimer = 1) :
    let next := min (l + 1) (cfg.priorityLookupTable.length - 1)
    let rule := ruleAt cfg.priorityLookupTable next
    s.world.emergencies e =
        { s₀.world.emergencies e with
          priority := getNextPriority cfg.priorityLookupTable (s₀.world.emergencies e).priority
          timeoutTimer := rule.timeBeforeTimeout
          promotionTimer := rule.timeBeforePromotion
          howManyTimesWasPromoted := (s₀.world.emergencies e).howManyTimesWasPromoted + 1 } ∧
      priorityToLevel cfg.priorityLookupTable (s.world.emergencies e).priority = next ∧
      e ∈ itemsAt s.emergencyQueue.lists next := by
  intro next rule
  have he : e ∈ s₀.emergencyQueue.contents := mem_contents_iff.mpr ⟨l, hl⟩
  have hup : e ∈ s₀.promoted :=
    mem_promoted.mpr ⟨he, by simp [Emergency.isPromoted, htimeout, hpromotion]⟩
  have hnext : priorityToLevel cfg.priorityLookupTable (getNextPriority cfg.priorityLookupTable
      (s₀.world.emergencies e).priority) = next := by
    rw [htable.level_getNextPriority cfg.priorityLookupTable_ne_nil, hcontent.level l e hl]
  have hrecord := h.records e he
  rw [tickRecord_promoted (not_timedOut htimeout) hup] at hrecord
  refine ⟨?_, ?_, ?_⟩
  · rw [hrecord, promoteEmergency, priorityToTimeoutTimer, priorityToPromotionTimer]
    dsimp only [updateWaitingEmergencyState]
    rw [hnext]
  · rw [hrecord]
    exact hnext
  · have hlevel : s₀.nextLevel cfg e = next := by rw [nextLevel, hcontent.level l e hl]
    rw [h.order, List.mem_append]
    exact .inr (List.mem_filter.mpr ⟨hup, decide_eq_true hlevel⟩)

theorem stayed (h : AtEnd cfg s₀ s) {l : ℕ} (hl : e ∈ itemsAt s₀.emergencyQueue.lists l)
    (htimeout : (s₀.world.emergencies e).timeoutTimer ≠ 1)
    (hpromotion : (s₀.world.emergencies e).promotionTimer ≠ 1) :
    s.world.emergencies e =
        { s₀.world.emergencies e with
          timeoutTimer := if (s₀.world.emergencies e).timeoutTimer = NO_TIMEOUT then NO_TIMEOUT
            else (s₀.world.emergencies e).timeoutTimer - 1
          promotionTimer := if (s₀.world.emergencies e).promotionTimer = NO_PROMOTION then
            NO_PROMOTION else (s₀.world.emergencies e).promotionTimer - 1 } ∧
      e ∈ itemsAt s.emergencyQueue.lists l := by
  have he : e ∈ s₀.emergencyQueue.contents := mem_contents_iff.mpr ⟨l, hl⟩
  have hup : e ∉ s₀.promoted := by
    intro hup
    have := (mem_promoted.mp hup).2
    simp [Emergency.isPromoted, hpromotion] at this
  constructor
  · rw [h.records e he, tickRecord_waited (not_timedOut htimeout) hup, updateWaitingEmergencyState,
      Emergency.guarded_eq, Emergency.guarded_eq]
  · rw [h.order, List.mem_append, List.mem_filter]
    exact .inl ⟨hl, by simp [Emergency.stays, htimeout, hpromotion]⟩

theorem running (h : AtEnd cfg s₀ s) (htable : RunningTable cfg.priorityLookupTable)
    (hcontent : WaitingContent cfg s₀) (he : e ∈ s.emergencyQueue.contents) :
    emergencyHasExpired (s.world.emergencies e) = false ∧
      emergencyIsToPromote (s.world.emergencies e) = false := by
  obtain ⟨hold, hout⟩ := (h.mem e).mp he
  by_cases hup : e ∈ s₀.promoted
  · rw [h.records e hold, tickRecord_promoted hout hup]
    exact (htable.timersFrom_promote cfg.priorityLookupTable_ne_nil _).not_over
  · have htimers := hcontent.timers e hold
    rw [h.records e hold, tickRecord_waited hout hup, Emergency.hasExpired_updateWaiting htimers,
      Emergency.isToPromote_updateWaiting htimers]
    rw [mem_timedOut, and_iff_right hold] at hout
    rw [mem_promoted, and_iff_right hold] at hup
    simp only [Emergency.timesOut, Emergency.isPromoted, beq_iff_eq] at hout hup
    simp only [Emergency.timesOut, beq_eq_false_iff_ne]
    exact ⟨hout, by simpa [hout] using hup⟩

end AtEnd

end ticked

/-- In a run of the server only the levels and the timers are left to be known. -/
theorem WaitingContent.of_reachable (hreach : Reachable cfg s) (hpc : s.updater = .mapWaiting)
    (hopen : s.emergencyQueue.closed = false)
    (hlevel : ∀ l, ∀ e ∈ itemsAt s.emergencyQueue.lists l,
      priorityToLevel cfg.priorityLookupTable (s.world.emergencies e).priority = l)
    (htimers : ∀ e ∈ s.emergencyQueue.contents, (s.world.emergencies e).TimersFrom 1 1) :
    WaitingContent cfg s := by
  have hinv := reachable_invariant hreach
  exact {
    updater := hpc
    queueOpen := hopen
    canceledOpen := hinv.storage.canceled_open
    queueLevels := hinv.custody.queue_levels
    canceledLevels := hinv.storage.canceled_levels
    once := hinv.custody.exclusive.nodup .queue
    level := hlevel
    timers := htimers }

/-- **A tick in the queue.**  The passes are over after two steps of the updater for each
emergency that times out or is promoted and three more, and until then the updater can go on.
When they are over every emergency is in one place, with the timers that it should have. -/
theorem waiting_emergencies_ticked (htable : RunningTable cfg.priorityLookupTable)
    (hcontent : WaitingContent cfg s₀) (hrun : PassesRun cfg s₀ s n) :
    n ≤ 3 + 2 * s₀.timedOut.length + 2 * s₀.promoted.length ∧
      (s.updater = .loop ↔ n = 3 + 2 * s₀.timedOut.length + 2 * s₀.promoted.length) ∧
      (s.updater ≠ .loop → ∃ woken s', s.stepUpdater cfg woken = some s') ∧
      (s.updater = .loop → Ticked cfg s₀ s) := by
  obtain ⟨record, out, h⟩ := inPasses_of_run htable hcontent hrun
  obtain ⟨hbound, hlast⟩ := h.passes.bound
  refine ⟨hbound, hlast, h.progress, fun hover => ?_⟩
  have hend := h.atEnd hcontent hover
  constructor
  · intro e he htimer
    exact hend.timedOut he htimer
  · intro l e hl htimeout hpromotion
    have he : e ∈ s₀.emergencyQueue.contents := mem_contents_iff.mpr ⟨l, hl⟩
    obtain ⟨hrecord, hlevel, hplace⟩ := hend.promoted htable hcontent hl htimeout hpromotion
    exact ⟨hrecord, hlevel, hplace, hend.queued he (AtEnd.not_timedOut htimeout)⟩
  · intro l e hl htimeout hpromotion
    have he : e ∈ s₀.emergencyQueue.contents := mem_contents_iff.mpr ⟨l, hl⟩
    obtain ⟨hrecord, hplace⟩ := hend.stayed hl htimeout hpromotion
    exact ⟨hrecord, hplace, hend.queued he (AtEnd.not_timedOut htimeout)⟩
  · intro l
    rw [hend.order, promoted, List.filter_filter]
    congr 1
    exact List.filter_congr fun e _ => Bool.and_comm _ _
  · intro e he
    exact ⟨((hend.mem e).mp he).1, hend.running htable hcontent he⟩

/-- A server whose times are short. -/
def quickServer : Config :=
  { exampleServer with
    priorityLookupTable := [⟨1, 1, NO_TIMEOUT⟩, ⟨2, NO_PROMOTION, 2⟩]
    priorityLookupTable_ne_nil := by decide }

/-- The emergency 3 waits for its second tick, the emergencies 4 and 5 for their first one. -/
def beforePasses : State :=
  stateAfter quickServer (threadsStart ++ requestArrives "f 3 4 0" ++ clockTicks 21 ++
    requestArrives "e 3 4 0" ++ requestArrives "g 5 4 0" ++ clockTicks 16)

theorem waitingContent_beforePasses : WaitingContent quickServer beforePasses := by
  have hreach : Reachable quickServer beforePasses := reachable_stateAfter _ _
  obtain ⟨hpc, hopen, hlists, hcontents⟩ : beforePasses.updater = .mapWaiting ∧
      beforePasses.emergencyQueue.closed = false ∧
      beforePasses.emergencyQueue.lists = [[4], [3, 5]] ∧
      beforePasses.emergencyQueue.contents = [4, 3, 5] := by
    decide +kernel
  obtain ⟨h3, h4, h5⟩ : ((beforePasses.world.emergencies 3).priority = 2 ∧
        (beforePasses.world.emergencies 3).timeoutTimer = 1 ∧
        (beforePasses.world.emergencies 3).promotionTimer = NO_PROMOTION) ∧
      ((beforePasses.world.emergencies 4).priority = 1 ∧
        (beforePasses.world.emergencies 4).timeoutTimer = NO_TIMEOUT ∧
        (beforePasses.world.emergencies 4).promotionTimer = 1) ∧
      ((beforePasses.world.emergencies 5).priority = 2 ∧
        (beforePasses.world.emergencies 5).timeoutTimer = 2 ∧
        (beforePasses.world.emergencies 5).promotionTimer = NO_PROMOTION) := by
    decide +kernel
  refine .of_reachable hreach hpc hopen ?_ ?_
  · rw [hlists]
    intro l e he
    match l, he with
    | 0, he =>
        obtain rfl : e = 4 := List.mem_singleton.mp he
        rw [h4.1]
        decide
    | 1, he =>
        have hcases : e = 3 ∨ e = 5 := by simpa using he
        rcases hcases with rfl | rfl
        · rw [h3.1]
          decide
        · rw [h5.1]
          decide
    | l + 2, he => simp at he
  · rw [hcontents]
    intro e he
    have hcases : e = 4 ∨ e = 3 ∨ e = 5 := by simpa using he
    rcases hcases with rfl | rfl | rfl
    · exact ⟨.inl h4.2.1, .inr h4.2.2.ge⟩
    · exact ⟨.inr h3.2.1.ge, .inl h3.2.2⟩
    · exact ⟨.inr (by rw [h5.2.1]; decide), .inl h5.2.2⟩

/-- The emergency 3 times out, 4 is promoted and 5 stays, while the clock, a worker and a client
run on. -/
theorem waiting_emergencies_ticked_quick :
    let s := continueWith (fun s a => s.updater ≠ .loop ∧
        (a.thread = some .updater ∨ LeavesQueue s a)) quickServer beforePasses
      [.updater none, .clock, .updater none, .worker 0, .updater none, .client "x".toList,
        .updater none, .updater none, .updater none, .updater none]
    s.updater = .loop ∧ s.emergencyQueue.lists = [[], [5, 4]] ∧
      s.canceledEmergencies.lists = [[], [3]] ∧
      PassesRun quickServer beforePasses s 7 ∧ Ticked quickServer beforePasses s := by
  intro s
  have hreach : Reachable quickServer beforePasses := reachable_stateAfter _ _
  have htable : RunningTable quickServer.priorityLookupTable := by
    constructor <;> decide
  obtain ⟨n, hrun⟩ : ∃ n, PassesRun quickServer beforePasses s n := by
    refine ((reachableWith_continueWith _ quickServer beforePasses _).mono ?_).exists_history
      countMoves 0
    exact fun s a h => ⟨h.1, h.2.imp_right fun hleaves => ⟨hreach, hleaves⟩⟩
  obtain ⟨hover, hlists, hcanceled⟩ : s.updater = .loop ∧
      s.emergencyQueue.lists = [[], [5, 4]] ∧ s.canceledEmergencies.lists = [[], [3]] := by
    decide +kernel
  obtain ⟨htimedOut, hpromoted⟩ : beforePasses.timedOut.length = 1 ∧
      beforePasses.promoted.length = 1 := by
    decide +kernel
  clear_value s
  obtain ⟨-, hsteps, -, hticked⟩ :=
    waiting_emergencies_ticked htable waitingContent_beforePasses hrun
  obtain rfl : n = 7 := by
    rw [hsteps.mp hover, htimedOut, hpromoted]
  exact ⟨hover, hlists, hcanceled, hrun, hticked hover⟩

end EmergencyDispatch
