import EmergencyDispatch.DispatchOrder
import EmergencyDispatch.PriorityTable

/-!
# Timers and their sentinels

`NO_TIMEOUT` and `NO_PROMOTION` lie in the range of the counters.  The timers of
a queued emergency run down only once before what has expired is removed and
what has waited long enough is promoted, and the promotion timer of an emergency
in a slot only once after it is zero: they stay above the sentinel.  The timeout
timer of a paused emergency in a slot runs on at every tick, unguarded, and
passes the sentinel unless the pause ends in time.
-/

namespace EmergencyDispatch

open State TransitionSystem

/-! ## Tables of priorities -/

/-- The rows are in the order of their numbers, and the times that are not a
sentinel are not negative. -/
structure LegalTable (table : List PriorityRule) : Prop where
  sorted : table.Pairwise fun rule rule' => rule.number < rule'.number
  timeouts : ∀ rule ∈ table, rule.timeBeforeTimeout = NO_TIMEOUT ∨ 0 ≤ rule.timeBeforeTimeout
  promotions : ∀ rule ∈ table,
    rule.timeBeforePromotion = NO_PROMOTION ∨ 0 ≤ rule.timeBeforePromotion

theorem legal_defaultPriorityLookupTable : LegalTable defaultPriorityLookupTable := by
  constructor <;> decide

namespace LegalTable

variable {table : List PriorityRule} {p : ℤ}

theorem timeout (h : LegalTable table) (hne : table ≠ []) (p : ℤ) :
    priorityToTimeoutTimer table p = NO_TIMEOUT ∨ 0 ≤ priorityToTimeoutTimer table p :=
  h.timeouts _ (ruleAt_mem hne _)

theorem promotion (h : LegalTable table) (hne : table ≠ []) (p : ℤ) :
    priorityToPromotionTimer table p = NO_PROMOTION ∨ 0 ≤ priorityToPromotionTimer table p :=
  h.promotions _ (ruleAt_mem hne _)

end LegalTable

/-! ## One emergency -/

/-- The timers of the emergency that are not a sentinel are at least these values. -/
structure Emergency.TimersFrom (em : Emergency) (timeout promotion : ℤ) : Prop where
  timeout : em.timeoutTimer = NO_TIMEOUT ∨ timeout ≤ em.timeoutTimer
  promotion : em.promotionTimer = NO_PROMOTION ∨ promotion ≤ em.promotionTimer

/-- The timers are a sentinel exactly when the rule of the current priority has one. -/
structure Emergency.Ruled (table : List PriorityRule) (em : Emergency) : Prop where
  timeout : em.timeoutTimer = NO_TIMEOUT ↔ priorityToTimeoutTimer table em.priority = NO_TIMEOUT
  promotion : em.promotionTimer = NO_PROMOTION ↔
    priorityToPromotionTimer table em.priority = NO_PROMOTION

namespace Emergency

variable {table : List PriorityRule} {em em' : Emergency} {t p t' p' : ℤ}

theorem SameUrgency.timersFrom (h : em.SameUrgency em') (hfrom : em.TimersFrom t p) :
    em'.TimersFrom t p := by
  constructor
  · rw [h.timeoutTimer]; exact hfrom.timeout
  · rw [h.promotionTimer]; exact hfrom.promotion

theorem SameUrgency.ruled (h : em.SameUrgency em') (hruled : em.Ruled table) :
    em'.Ruled table := by
  constructor
  · rw [h.timeoutTimer, h.priority]; exact hruled.timeout
  · rw [h.promotionTimer, h.priority]; exact hruled.promotion

theorem TimersFrom.mono (h : em.TimersFrom t p) (ht : t' ≤ t) (hp : p' ≤ p) :
    em.TimersFrom t' p' :=
  ⟨h.timeout.imp_right ht.trans, h.promotion.imp_right hp.trans⟩

theorem ruled_of_eq (htimeout : em.timeoutTimer = priorityToTimeoutTimer table em.priority)
    (hpromotion : em.promotionTimer = priorityToPromotionTimer table em.priority) :
    em.Ruled table := by
  constructor
  · rw [htimeout]
  · rw [hpromotion]

theorem timersFrom_of_eq (hlegal : LegalTable table) (hne : table ≠ [])
    (htimeout : em.timeoutTimer = priorityToTimeoutTimer table em.priority)
    (hpromotion : em.promotionTimer = priorityToPromotionTimer table em.priority) :
    em.TimersFrom 0 0 := by
  constructor
  · rw [htimeout]; exact hlegal.timeout hne _
  · rw [hpromotion]; exact hlegal.promotion hne _

theorem ruled_promote (em : Emergency) : (promoteEmergency table em).Ruled table :=
  ruled_of_eq rfl rfl

theorem timersFrom_promote (hlegal : LegalTable table) (hne : table ≠ []) (em : Emergency) :
    (promoteEmergency table em).TimersFrom 0 0 :=
  timersFrom_of_eq hlegal hne rfl rfl

/-- A tick that the sentinel guards, on a timer that has not expired before. -/
theorem guarded_tick {sentinel timer : ℤ} (hsentinel : sentinel < -1)
    (h : timer = sentinel ∨ 0 ≤ timer) :
    ((if timer ≠ sentinel then timer - 1 else timer) = sentinel ∨
        -1 ≤ (if timer ≠ sentinel then timer - 1 else timer)) ∧
      ((if timer ≠ sentinel then timer - 1 else timer) = sentinel ↔ timer = sentinel) := by
  by_cases htimer : timer = sentinel
  · simp [htimer]
  · rw [if_pos htimer]
    omega

theorem TimersFrom.updateWaiting (h : em.TimersFrom 0 0) :
    (updateWaitingEmergencyState em).TimersFrom (-1) (-1) :=
  ⟨(guarded_tick (by decide) h.timeout).1, (guarded_tick (by decide) h.promotion).1⟩

theorem Ruled.updateWaiting (h : em.Ruled table) (hfrom : em.TimersFrom 0 0) :
    (updateWaitingEmergencyState em).Ruled table where
  timeout := (guarded_tick (by decide) hfrom.timeout).2.trans h.timeout
  promotion := (guarded_tick (by decide) hfrom.promotion).2.trans h.promotion

/-- The update in a slot takes a tick from the timeout timer, which would arrive at the
sentinel or leave it. -/
def CrossesTimeout (em : Emergency) : Prop :=
  em.promotionTimer = NO_PROMOTION ∧ em.status = .paused ∧
    (em.timeoutTimer = NO_TIMEOUT + 1 ∨ em.timeoutTimer = NO_TIMEOUT)

instance (em : Emergency) : Decidable em.CrossesTimeout := inferInstanceAs (Decidable (_ ∧ _))

theorem Ruled.updateActive (h : em.Ruled table) (hcrosses : ¬em.CrossesTimeout) :
    (updateActiveEmergencyState table em).1.Ruled table := by
  have hp := h.promotion
  have ht := h.timeout
  simp only [updateActiveEmergencyState]
  by_cases hnone : em.promotionTimer = NO_PROMOTION
  · rw [if_neg (by simpa using hnone)]
    by_cases hpaused : em.status = .paused
    · -- the timer that runs unguarded
      rw [if_pos hpaused]
      refine ⟨?_, hp⟩
      have hnot : ¬(em.timeoutTimer = NO_TIMEOUT + 1 ∨ em.timeoutTimer = NO_TIMEOUT) :=
        fun h => hcrosses ⟨hnone, hpaused, h⟩
      show em.timeoutTimer - 1 = NO_TIMEOUT ↔ _
      rw [← ht]
      omega
    · rw [if_neg hpaused]
      split
      · exact ⟨ht, hp⟩
      · split <;> exact ⟨ht, hp⟩
  · rw [if_pos hnone]
    by_cases hexpired : em.promotionTimer ≤ 0
    · rw [if_pos hexpired]
      exact ruled_promote _
    · rw [if_neg hexpired]
      refine ⟨ht, ?_⟩
      show em.promotionTimer - 1 = NO_PROMOTION ↔ _
      rw [← hp]
      simp only [NO_PROMOTION] at hnone ⊢
      omega

theorem updateActive_priority (table : List PriorityRule) (em : Emergency) :
    (updateActiveEmergencyState table em).1.priority = em.priority ∨
      (updateActiveEmergencyState table em).1.priority = getNextPriority table em.priority := by
  simp only [updateActiveEmergencyState]
  split
  · split
    · exact .inr rfl
    · exact .inl rfl
  · left
    split
    · rfl
    · split
      · rfl
      · split <;> rfl

end Emergency

/-! ## The rounds of the updater -/

/-- How far the timeout timer of a queued emergency can have run: below zero only
until what has expired is removed. -/
def UpdaterPc.timeoutFloor : UpdaterPc → ℤ
  | .expire | .expired _ => -1
  | _ => 0

/-- The same for the promotion timer. -/
def UpdaterPc.promotionFloor : UpdaterPc → ℤ
  | .expire | .expired _ | .promote | .promoted _ => -1
  | _ => 0

section phases

variable {cfg : Config} {s s' : State} {a : Action} {e : EmergencyId} {em : Emergency}

theorem UpdaterPc.floors_nonpos (pc : UpdaterPc) :
    pc.timeoutFloor ≤ 0 ∧ pc.promotionFloor ≤ 0 := by
  cases pc <;> simp [UpdaterPc.timeoutFloor, UpdaterPc.promotionFloor]

theorem floors_wakeTick (pc : UpdaterPc) :
    (wakeTick pc).timeoutFloor = pc.timeoutFloor ∧
      (wakeTick pc).promotionFloor = pc.promotionFloor := by
  cases pc <;> exact ⟨rfl, rfl⟩

/-- The emergency meets the bounds of what is queued. -/
def State.TimersMeet (s : State) (em : Emergency) : Prop :=
  em.TimersFrom s.updater.timeoutFloor s.updater.promotionFloor

theorem Emergency.TimersFrom.meet (h : em.TimersFrom 0 0) (s : State) : s.TimersMeet em := by
  obtain ⟨htimeout, hpromotion⟩ := s.updater.floors_nonpos
  exact h.mono htimeout hpromotion

/-- The removal and the promotion leave nothing in the queue whose time is over. -/
theorem stepUpdater_floors {woken : Option Worker} (hstep : s.stepUpdater cfg woken = some s')
    (he : e ∈ s.emergencyQueue.contents) (h : s.TimersMeet (s.world.emergencies e)) :
    s'.TimersMeet (s.world.emergencies e) := by
  cases hpc : s.updater with
  | expire =>
      simp only [State.TimersMeet, hpc, UpdaterPc.timeoutFloor, UpdaterPc.promotionFloor] at h
      simp only [stepUpdater, hpc] at hstep
      split at hstep <;> obtain rfl := Option.some.inj hstep
      · exact h
      · rename_i hextract
        -- nothing has expired any more: the round of removals is over
        have hrunning := Pq.not_of_extractFirst hextract he
        simp only [emergencyHasExpired, Bool.and_eq_false_iff, bne_eq_false_iff_eq,
          decide_eq_false_iff_not, not_le] at hrunning
        exact ⟨hrunning.imp_right le_of_lt, h.promotion⟩
  | expired x =>
      simp only [State.TimersMeet, hpc, UpdaterPc.timeoutFloor, UpdaterPc.promotionFloor] at h
      simp only [stepUpdater, hpc] at hstep
      obtain rfl := Option.some.inj hstep
      exact h
  | promote =>
      simp only [State.TimersMeet, hpc, UpdaterPc.timeoutFloor, UpdaterPc.promotionFloor] at h
      simp only [stepUpdater, hpc] at hstep
      split at hstep <;> obtain rfl := Option.some.inj hstep
      · exact h
      · rename_i hextract
        -- and nothing is to be promoted any more
        have hrunning := Pq.not_of_extractFirst hextract he
        simp only [emergencyIsToPromote, Bool.and_eq_false_iff, bne_eq_false_iff_eq,
          decide_eq_false_iff_not, not_le] at hrunning
        exact ⟨h.timeout, hrunning.imp_right le_of_lt⟩
  | promoted x =>
      simp only [State.TimersMeet, hpc, UpdaterPc.timeoutFloor, UpdaterPc.promotionFloor] at h
      simp only [stepUpdater, hpc] at hstep
      obtain ⟨worker, -, -, rfl⟩ := pushEmergency_eq hstep
      exact h
  | _ =>
      simp only [State.TimersMeet, hpc, UpdaterPc.timeoutFloor, UpdaterPc.promotionFloor] at h
      exact h.meet s'

theorem step_floors (hstep : State.step cfg s a = some s') (he : e ∈ s.emergencyQueue.contents)
    (h : s.TimersMeet (s.world.emergencies e)) : s'.TimersMeet (s.world.emergencies e) := by
  by_cases hupdater : a.thread = some .updater
  · obtain ⟨woken, rfl, hupdate⟩ := step_updater hstep hupdater
    exact stepUpdater_floors hupdate he h
  · unfold State.TimersMeet
    obtain ⟨htimeout, hpromotion⟩ := floors_wakeTick s.updater
    rcases (step_frame hstep).updater hupdater with hsame | hwoken
    · rw [hsame]
      exact h
    · rw [hwoken, htimeout, hpromotion]
      exact h

/-- What gets into the queue comes from the updater, promoted, or from the receiver, as it is. -/
theorem effect_entered (hcustody : InCustody cfg s) (heffect : Effect cfg s a s')
    (he : e ∈ s'.emergencyQueue.contents) :
    e ∈ s.emergencyQueue.contents ∨
      s.updater = .promoted e ∧ s'.world.emergencies e =
        promoteEmergency cfg.priorityLookupTable (s.world.emergencies e) ∨
      s.receiver = .push e ∧ s'.world.emergencies e = s.world.emergencies e := by
  have hlevels := hcustody.lists_ne_nil
  cases heffect with
  | quiet hq =>
      left
      simpa [Pq.contents, hq.lists] using he
  | pop i x queue hpc hpop =>
      left
      exact (Pq.pop_spec hpop).1.mem_iff.mpr (List.mem_cons_of_mem _ he)
  | extract x queue pred pc hpc hextract =>
      left
      exact (Pq.extractFirst_spec hextract).2.1.mem_iff.mpr (List.mem_cons_of_mem _ he)
  | promote x level worker hpc =>
      rcases Pq.mem_contents_push hlevels he with rfl | hold
      · exact .inr (.inl ⟨hpc, World.setEmergency_self ..⟩)
      · exact .inl hold
  | receiverPush x level worker hpc =>
      rcases Pq.mem_contents_push hlevels he with rfl | hold
      · exact .inr (.inr ⟨hpc, rfl⟩)
      · exact .inl hold
  | _ => exact .inl he

/-- The receiver has had what it has, unless it has just made it. -/
theorem effect_received (heffect : Effect cfg s a s') (hlt : e < s.nextId)
    (he : s'.receiver.emergency = some e) : s.receiver.emergency = some e := by
  cases heffect with
  | quiet hq => rwa [← hq.receiver]
  | receive request emergency mq hpc =>
      obtain rfl : s.nextId = e := Option.some.inj he
      exact absurd hlt (lt_irrefl _)
  | receiverPush x level worker hpc => cases he
  | _ => exact he

/-! ## The invariant -/

/-- No update of an emergency in a slot takes its timeout timer to the sentinel or
past it. -/
def NoTimeoutCrossed (s : State) : Action → Prop
  | .updater _ =>
      match s.updater with
      | .updating (.slot i :: _) =>
          ∀ e ∈ s.world.active i, ¬(s.world.emergencies e).CrossesTimeout
      | _ => True
  | _ => True

instance (s : State) (a : Action) : Decidable (NoTimeoutCrossed s a) := by
  unfold NoTimeoutCrossed
  rcases a
  case updater woken =>
    dsimp only
    generalize s.updater = pc
    rcases pc
    case updating ops => rcases ops with _ | ⟨_ | _, _⟩ <;> infer_instance
    all_goals infer_instance
  all_goals infer_instance

/-- The timers follow the rules. -/
structure TimersRuled (cfg : Config) (s : State) : Prop where
  start : cfg.emergencies.length ≤ s.nextId
  listed : ∀ e, cfg.emergencies.length ≤ e → e < s.nextId →
    Listed cfg.priorityLookupTable (s.world.emergencies e).priority
  ruled : ∀ e, cfg.emergencies.length ≤ e → e < s.nextId →
    (s.world.emergencies e).Ruled cfg.priorityLookupTable
  queued : ∀ e ∈ s.emergencyQueue.contents, s.TimersMeet (s.world.emergencies e)
  received : ∀ e, s.receiver.emergency = some e → (s.world.emergencies e).TimersFrom 0 0

namespace TimersRuled

theorem ruled_old (h : TimersRuled cfg s) (hinv : Invariant cfg s) (hguard : NoTimeoutCrossed s a)
    (hstep : State.step cfg s a = some s') (hstart : cfg.emergencies.length ≤ e)
    (he : e < s.nextId) :
    Listed cfg.priorityLookupTable (s'.world.emergencies e).priority ∧
      (s'.world.emergencies e).Ruled cfg.priorityLookupTable := by
  have hne := cfg.priorityLookupTable_ne_nil
  have hlisted := h.listed e hstart he
  have hruled := h.ruled e hstart he
  cases effect_urgency hinv (step_effect hstep).2 e with
  | same hsame => exact ⟨by rwa [hsame.priority], hsame.ruled hruled⟩
  | active i hactive hem rest hpc woken ha =>
      subst ha
      rw [hem]
      simp only [NoTimeoutCrossed, hpc] at hguard
      refine ⟨?_, hruled.updateActive (hguard e hactive)⟩
      rcases Emergency.updateActive_priority cfg.priorityLookupTable (s.world.emergencies e) with
        hsame | hnext
      · rwa [hsame]
      · rw [hnext]
        exact hlisted.getNextPriority hne
  | waiting hpc hwaiting hem woken ha =>
      have hqueued := h.queued e hwaiting
      -- the timers of the queue start a tick at zero or more, so the guard keeps the sentinel
      simp only [State.TimersMeet, hpc] at hqueued
      rw [hem]
      exact ⟨hlisted, hruled.updateWaiting hqueued⟩
  | promoted hpc hem =>
      rw [hem]
      exact ⟨hlisted.getNextPriority hne, Emergency.ruled_promote _⟩
  | made hid => exact absurd he (by rw [hid]; exact lt_irrefl _)

theorem queued_step (h : TimersRuled cfg s) (hlegal : LegalTable cfg.priorityLookupTable)
    (hinv : Invariant cfg s) (hstep : State.step cfg s a = some s')
    (he : e ∈ s'.emergencyQueue.contents) : s'.TimersMeet (s'.world.emergencies e) := by
  rcases effect_entered hinv.custody (step_effect hstep).2 he with hold | ⟨-, hem⟩ | ⟨hpc, hem⟩
  · rcases queued_urgency hinv hstep hold with hsame | ⟨hmap, hexpire, hem⟩
    · exact hsame.timersFrom (step_floors hstep hold (h.queued e hold))
    · have hqueued := h.queued e hold
      simp only [State.TimersMeet, hmap] at hqueued
      simp only [State.TimersMeet, hexpire, hem]
      exact hqueued.updateWaiting
  · rw [hem]
    exact (Emergency.timersFrom_promote hlegal cfg.priorityLookupTable_ne_nil _).meet s'
  · rw [hem]
    exact (h.received e (by rw [hpc]; rfl)).meet s'

theorem received_step (h : TimersRuled cfg s) (hlegal : LegalTable cfg.priorityLookupTable)
    (hinv : Invariant cfg s) (hstep : State.step cfg s a = some s')
    (he : s'.receiver.emergency = some e) : (s'.world.emergencies e).TimersFrom 0 0 := by
  have heffect := (step_effect hstep).2
  by_cases hlt : e < s.nextId
  · -- the receiver has it already, and nobody else does anything to it
    have hold : s.receiver.emergency = some e := effect_received heffect hlt he
    have hheld : e ∈ s.holds .receiver := mem_holds_receiver.mpr hold
    cases effect_urgency hinv heffect e with
    | same hsame => exact hsame.timersFrom (h.received e hold)
    | active i hactive => exact absurd hactive (hinv.not_active (by simp) hheld i)
    | waiting hpc hwaiting =>
        have := hinv.custody.exclusive.unique hheld (q := .queue) hwaiting
        cases this
    | promoted hpc =>
        have hupdater : e ∈ s.holds .updater := mem_holds_updater.mpr (by rw [hpc]; rfl)
        have := hinv.custody.exclusive.unique hheld hupdater
        cases this
    | made hid => exact absurd hlt (by rw [hid]; exact lt_irrefl _)
  -- the receiver has just made it
  · have hnew := (effect_inCustody hinv.custody heffect).fresh .receiver e
      (mem_holds_receiver.mpr he)
    obtain ⟨-, type, -, hpriority, htimeout, hpromotion⟩ :=
      effect_made heffect (not_lt.mp hlt) hnew
    rw [← hpriority] at htimeout hpromotion
    exact Emergency.timersFrom_of_eq hlegal cfg.priorityLookupTable_ne_nil htimeout hpromotion

/-- **Step lemma.** -/
theorem step (h : TimersRuled cfg s) (hlegal : LegalTable cfg.priorityLookupTable)
    (hlisted : cfg.PrioritiesListed) (hinv : Invariant cfg s) (hguard : NoTimeoutCrossed s a)
    (hstep : State.step cfg s a = some s') : TimersRuled cfg s' := by
  have hmade : ∀ e, ¬e < s.nextId → e < s'.nextId →
      Listed cfg.priorityLookupTable (s'.world.emergencies e).priority ∧
        (s'.world.emergencies e).Ruled cfg.priorityLookupTable := by
    intro e he hnew
    obtain ⟨-, type, htype, hpriority, htimeout, hpromotion⟩ :=
      effect_made (step_effect hstep).2 (not_lt.mp he) hnew
    refine ⟨by rw [hpriority]; exact hlisted type htype, ?_⟩
    rw [← hpriority] at htimeout hpromotion
    exact Emergency.ruled_of_eq htimeout hpromotion
  constructor
  · rcases step_accepted hstep with ⟨hnextId, -⟩ | ⟨hnextId, -⟩
    · rw [hnextId]; exact h.start
    · rw [hnextId]; exact h.start.trans (Nat.le_succ _)
  · intro e hstart he
    by_cases hlt : e < s.nextId
    · exact (h.ruled_old hinv hguard hstep hstart hlt).1
    · exact (hmade e hlt he).1
  · intro e hstart he
    by_cases hlt : e < s.nextId
    · exact (h.ruled_old hinv hguard hstep hstart hlt).2
    · exact (hmade e hlt he).2
  · intro e he
    exact h.queued_step hlegal hinv hstep he
  · intro e he
    exact h.received_step hlegal hinv hstep he

end TimersRuled

theorem timersRuled_of_reachable (hlegal : LegalTable cfg.priorityLookupTable)
    (hlisted : cfg.PrioritiesListed)
    (hreach : ReachableWith (State.step cfg) NoTimeoutCrossed (initialState cfg) s) :
    TimersRuled cfg s := by
  refine hreach.invariant (TimersRuled cfg) ?_ ?_
  · have hnone := holds_initialState cfg
    refine ⟨le_rfl, fun e hstart he => absurd he (not_lt.mpr hstart),
      fun e hstart he => absurd he (not_lt.mpr hstart), fun e he => ?_, nofun⟩
    have hqueue := hnone .queue
    exact absurd he (by rw [show (initialState cfg).emergencyQueue.contents = [] from hqueue]; simp)
  · intro s a s' hs h hguard hstep
    exact h.step hlegal hlisted (reachable_invariant hs.reachable) hguard hstep

/-- **The sentinels are kept.**  In every run in which no update of a paused emergency
takes its timeout timer to `NO_TIMEOUT` or past it, the timers of every emergency are the
sentinels exactly when the rule of its current priority has no timeout or no promotion. -/
theorem sentinels_kept (hlegal : LegalTable cfg.priorityLookupTable)
    (hlisted : cfg.PrioritiesListed)
    (hreach : ReachableWith (State.step cfg) NoTimeoutCrossed (initialState cfg) s)
    (hstart : cfg.emergencies.length ≤ e) (he : e < s.nextId) :
    ∃ rule ∈ cfg.priorityLookupTable, rule.number = (s.world.emergencies e).priority ∧
      ((s.world.emergencies e).timeoutTimer = NO_TIMEOUT ↔ rule.timeBeforeTimeout = NO_TIMEOUT) ∧
      ((s.world.emergencies e).promotionTimer = NO_PROMOTION ↔
        rule.timeBeforePromotion = NO_PROMOTION) := by
  have h := timersRuled_of_reachable hlegal hlisted hreach
  obtain ⟨rule, hrule, hnumber⟩ := (h.listed e hstart he).exists_rule
  have hat := AscendingTable.ruleAt_number hlegal.sorted hrule
  rw [hnumber] at hat
  refine ⟨rule, hrule, hnumber, ?_, ?_⟩
  · rw [← hat]
    exact (h.ruled e hstart he).timeout
  · rw [← hat]
    exact (h.ruled e hstart he).promotion

/-- The paused emergency `e` runs towards its timeout. -/
theorem sentinels_kept_paused :
    let s := stateAfterWith NoTimeoutCrossed exampleServer (rescuerTaken ++ clockTicks 22)
    (s.world.emergencies 3).status = .paused ∧ (s.world.emergencies 3).timeoutTimer = 59 ∧
      ∃ rule ∈ exampleServer.priorityLookupTable,
        rule.number = (s.world.emergencies 3).priority ∧
        ((s.world.emergencies 3).timeoutTimer = NO_TIMEOUT ↔
          rule.timeBeforeTimeout = NO_TIMEOUT) ∧
        ((s.world.emergencies 3).promotionTimer = NO_PROMOTION ↔
          rule.timeBeforePromotion = NO_PROMOTION) := by
  intro s
  have hlisted : exampleServer.PrioritiesListed := by decide
  refine ⟨by decide +kernel, by decide +kernel, ?_⟩
  exact sentinels_kept legal_defaultPriorityLookupTable hlisted
    (reachableWith_stateAfterWith NoTimeoutCrossed exampleServer _) (by decide) (by decide +kernel)

/-- This many ticks, each with its update. -/
def tickRounds : ℕ → List Action
  | 0 => []
  | n + 1 => tickRounds n ++ clockTicks 21

/-- The rescuer comes back from `g` and the search of `e` succeeds, but `e` stays paused: in the
update of number 70 its timeout timer arrives at the sentinel. -/
theorem timeout_timer_at_sentinel :
    let s := stateAfter exampleServer (rescuerTaken ++ clockTicks 22 ++ clockTicks 21 ++
      workerSteps 0 5 ++ tickRounds 68)
    Reachable exampleServer s ∧ s.updates.length = 70 ∧ s.world.active 0 = some 3 ∧
      s.stored 3 = 0 ∧ (s.world.emergencies 3).priority = 1 ∧
      (s.world.emergencies 3).timeoutTimer = NO_TIMEOUT ∧
      ∃ rule ∈ exampleServer.priorityLookupTable, rule.number = 1 ∧
        rule.timeBeforeTimeout = 60 :=
  ⟨reachable_stateAfter _ _, by decide +kernel⟩

end phases

end EmergencyDispatch
