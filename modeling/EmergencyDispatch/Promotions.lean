import EmergencyDispatch.Completion
import EmergencyDispatch.Countdowns

/-!
# When an emergency is promoted

The countdown to a promotion is implemented twice: the queue counts down and then tests
for zero, a slot tests for zero and then counts down.  While an emergency is not
promoted, its timer is what the ticks in which the updater has seen it have left of the
time of its priority (`Counting`).  In the queue it is promoted in the last of these
ticks; an emergency that a worker has taken before is promoted one tick later.
-/

namespace EmergencyDispatch

open State TransitionSystem

variable {cfg : Config} {s s₀ s' : State} {a : Action} {w w' : World} {e : EmergencyId}

/-- How many times the emergency was promoted. -/
def State.promotions (s : State) (e : EmergencyId) : ℕ :=
  (s.world.emergencies e).howManyTimesWasPromoted

/-! ## What counts down and what promotes -/

theorem promotions_setEmergency (w : World) (x : EmergencyId) (em : Emergency)
    (h : em.howManyTimesWasPromoted = (w.emergencies x).howManyTimesWasPromoted)
    (e : EmergencyId) : ((w.setEmergency x em).emergencies e).howManyTimesWasPromoted =
      (w.emergencies e).howManyTimesWasPromoted := by
  by_cases he : e = x
  · subst he; simpa using h
  · simp [he]

theorem DispatchStep.promotions {k : ℕ} {t : TwinId} {x : EmergencyId}
    (h : DispatchStep x k t w w') (e : EmergencyId) :
    (w'.emergencies e).howManyTimesWasPromoted = (w.emergencies e).howManyTimesWasPromoted := by
  have hbind : ∀ (w : World) (request : RescuerRequest),
      ((bindWorld w t x k request).emergencies e).howManyTimesWasPromoted =
        (w.emergencies e).howManyTimesWasPromoted := by
    intro w request
    refine promotions_setEmergency w x _ ?_ e
    rfl
  cases h with
  | atRest request hrest => exact hbind w request
  | preempting request old l missing =>
      have hpreempt : ((preemptWorld w t old l missing).emergencies e).howManyTimesWasPromoted =
          (w.emergencies e).howManyTimesWasPromoted := by
        refine promotions_setEmergency w old _ ?_ e
        rfl
      exact (hbind _ request).trans hpreempt

theorem DispatchRun.promotions {candidates : List TwinId} {x : EmergencyId}
    (h : DispatchRun x candidates w w') (e : EmergencyId) :
    (w'.emergencies e).howManyTimesWasPromoted = (w.emergencies e).howManyTimesWasPromoted := by
  induction h with
  | nil w => rfl
  | cons hstep _ ih => exact ih.trans (hstep.promotions e)

theorem FindStep.promotions {table : List PriorityRule} {found : Bool} {x : EmergencyId}
    (h : FindStep table w x (.ok (w', found))) (e : EmergencyId) :
    (w'.emergencies e).howManyTimesWasPromoted = (w.emergencies e).howManyTimesWasPromoted := by
  cases h with
  | nothingMissing | notEnough => rfl
  | dispatched hmissing h hnotDone hrun =>
      refine (promotions_setEmergency _ x _ ?_ e).trans (hrun.promotions e)
      rfl

/-- What a step does to the countdown of an emergency that is there. -/
inductive CountdownStep (cfg : Config) (s : State) (a : Action) (e : EmergencyId)
    (em : Emergency) : Prop
  | same (htimer : em.promotionTimer = (s.world.emergencies e).promotionTimer)
      (hcount : em.howManyTimesWasPromoted = s.promotions e)
  | active (i : Worker) (hactive : s.world.active i = some e)
      (h : em = (updateActiveEmergencyState cfg.priorityLookupTable (s.world.emergencies e)).1)
      (rest : List UpdateOp) (hpc : s.updater = .updating (.slot i :: rest))
      (woken : Option Worker) (ha : a = .updater woken)
  | waiting (hpc : s.updater = .mapWaiting) (hwaiting : e ∈ s.emergencyQueue.contents)
      (h : em = updateWaitingEmergencyState (s.world.emergencies e))
      (woken : Option Worker) (ha : a = .updater woken)
  | promoted (hpc : s.updater = .promoted e)
      (h : em = promoteEmergency cfg.priorityLookupTable (s.world.emergencies e))

theorem Emergency.SameOrders.promotions {em em' : Emergency} (h : em.SameOrders em') :
    em'.howManyTimesWasPromoted = em.howManyTimesWasPromoted := by
  obtain ⟨slots, notArrived, notDone, rfl⟩ := h
  rfl

theorem step_countdown (hinv : Invariant cfg s) (hstep : State.step cfg s a = some s')
    (he : e < s.nextId) : CountdownStep cfg s a e (s'.world.emergencies e) := by
  cases effect_urgency hinv (step_effect hstep).2 e with
  | active i hactive h rest hpc woken ha => exact .active i hactive h rest hpc woken ha
  | waiting hpc hwaiting h woken ha => exact .waiting hpc hwaiting h woken ha
  | promoted hpc h => exact .promoted hpc h
  | made hid => exact absurd he (by rw [hid]; exact lt_irrefl _)
  | same hsame =>
      -- the timer stays, and so does the count, but for the steps that promote `e`
      have hsame : (s'.world.emergencies e).howManyTimesWasPromoted = s.promotions e →
          CountdownStep cfg s a e (s'.world.emergencies e) := .same hsame.promotionTimer
      cases (step_effect hstep).2 with
      | quiet hq => exact hsame (by rw [hq.world]; rfl)
      | openSlot i x hpc => exact hsame (by refine promotions_setEmergency _ x _ ?_ e; rfl)
      | search i x w found worker hpc hfind hwoken =>
          exact hsame ((hinv.findStep hpc hfind).promotions e)
      | store i x reason level hpc =>
          exact hsame (by refine promotions_setEmergency s.world x _ ?_ e; rfl)
      | stays t rest w hpc hupdate =>
          have hcases := update_cases hinv.links cfg.size t
          rw [hupdate] at hcases
          cases hcases <;> exact hsame rfl
      | walked t rest w outside arrived hpc hupdate =>
          have hcases := update_cases hinv.links cfg.size t
          rw [hupdate] at hcases
          cases hcases with
          | walked hstart hwalk => exact hsame (hstart.sameOrders hinv.links e).promotions
      | arrived t rest w hpc harrive =>
          have hcases := arrival_cases hinv.links t
          rw [harrive] at hcases
          cases hcases with
          | onScene x hroute => exact hsame (arriveOnScene_sameOrders s.world t x e).promotions
          | atBase => exact hsame rfl
      | fatal t rest w hpc harrive =>
          have hcases := arrival_cases hinv.links t
          rw [harrive] at hcases
          cases hcases with
          | fatal => exact hsame rfl
      | slot i x rest worker hpc hactive hwoken =>
          by_cases hx : e = x
          · subst hx
            exact .active i hactive (World.setEmergency_self ..) rest hpc _ rfl
          · exact hsame (by simp [hx, State.promotions])
      | mapWaiting hpc => exact hsame (by dsimp only; split <;> rfl)
      | expire x level hpc => exact hsame (by refine promotions_setEmergency s.world x _ ?_ e; rfl)
      | promote x level worker hpc hwoken =>
          by_cases hx : e = x
          · subst hx
            exact .promoted hpc (World.setEmergency_self ..)
          · exact hsame (by simp [hx, State.promotions])
      | receive request emergency mq hpc hemergency =>
          exact hsame (by simp [Nat.ne_of_lt he, State.promotions])
      | _ => exact hsame rfl

/-! ## Sightings -/

/-- The ticks in which the updater has seen an emergency, in the queue and in a slot. -/
structure Sightings where
  waiting : ℕ
  active : ℕ
  deriving DecidableEq

/-- In this step the updater counts the emergency down in the queue. -/
def seesWaiting (e : EmergencyId) (s s' : State) : Bool :=
  s.updater == .mapWaiting && s'.updater == .expire && s.emergencyQueue.contents.contains e

/-- In this step it treats the emergency in a slot. -/
def seesActive (e : EmergencyId) (s s' : State) : Bool :=
  match s.updater with
  | .updating (.slot i :: rest) => s'.updater == .updating rest && s.world.active i == some e
  | _ => false

/-- Keep count of the sightings. -/
def recordSightings (e : EmergencyId) (s s' : State) (log : Sightings) : Sightings where
  waiting := log.waiting + (seesWaiting e s s').toNat
  active := log.active + (seesActive e s s').toNat

theorem seesWaiting_iff : seesWaiting e s s' = true ↔
    s.updater = .mapWaiting ∧ s'.updater = .expire ∧ e ∈ s.emergencyQueue.contents := by
  simp [seesWaiting, and_assoc]

theorem seesActive_iff : seesActive e s s' = true ↔ ∃ i rest,
    s.updater = .updating (.slot i :: rest) ∧ s'.updater = .updating rest ∧
      s.world.active i = some e := by
  unfold seesActive
  split
  · rename_i i rest hpc
    simp [hpc]
  · rename_i hother
    simp only [Bool.false_eq_true, false_iff]
    rintro ⟨i, rest, hpc, -⟩
    exact hother i rest hpc

theorem updater_of_moved (hstep : State.step cfg s a = some s') (hmoved : s'.updater ≠ s.updater)
    (hawake : s.updater ≠ .tickWait) : ∃ woken, s.stepUpdater cfg woken = some s' := by
  obtain ⟨woken, -, hupdater⟩ := step_updater hstep (thread_of_moved hstep hmoved hawake)
  exact ⟨woken, hupdater⟩

/-- What a step does to an emergency, told by whether the updater sees it. -/
inductive SeenStep (cfg : Config) (e : EmergencyId) (s s' : State) : Prop
  | unseen (hwaiting : seesWaiting e s s' = false) (hactive : seesActive e s s' = false)
      (htimer : (s'.world.emergencies e).promotionTimer = (s.world.emergencies e).promotionTimer)
      (hcount : s'.promotions e = s.promotions e)
  | waiting (hwaiting : seesWaiting e s s' = true) (hactive : seesActive e s s' = false)
      (h : s'.world.emergencies e = updateWaitingEmergencyState (s.world.emergencies e))
  | active (hwaiting : seesWaiting e s s' = false) (hactive : seesActive e s s' = true)
      (h : s'.world.emergencies e =
        (updateActiveEmergencyState cfg.priorityLookupTable (s.world.emergencies e)).1)
  | promoted (hwaiting : seesWaiting e s s' = false) (hactive : seesActive e s s' = false)
      (hpc : s.updater = .promoted e)
      (h : s'.world.emergencies e =
        promoteEmergency cfg.priorityLookupTable (s.world.emergencies e))

theorem seen_step (hinv : Invariant cfg s) (hstep : State.step cfg s a = some s')
    (he : e < s.nextId) : SeenStep cfg e s s' := by
  by_cases hwaiting : seesWaiting e s s' = true
  · obtain ⟨hpc, hpc', hqueued⟩ := seesWaiting_iff.mp hwaiting
    obtain ⟨woken, hupdater⟩ := updater_of_moved hstep (by simp [hpc, hpc']) (by simp [hpc])
    refine .waiting hwaiting (by simp [seesActive, hpc]) ?_
    simp only [stepUpdater, hpc] at hupdater
    obtain rfl := Option.some.inj hupdater
    simp [hqueued]
  rw [Bool.not_eq_true] at hwaiting
  by_cases hactive : seesActive e s s' = true
  · obtain ⟨i, rest, hpc, hpc', hslot⟩ := seesActive_iff.mp hactive
    obtain ⟨woken, hupdater⟩ := updater_of_moved hstep (by simp [hpc, hpc']) (by simp [hpc])
    refine .active hwaiting hactive ?_
    simp only [stepUpdater, hpc] at hupdater
    cases (stepUpdate_slot hupdater).2.2 with
    | empty h => simp [hslot] at h
    | treated x h hemergencies =>
        obtain rfl : e = x := Option.some.inj (hslot.symm.trans h)
        rw [hemergencies, Function.update_self]
  rw [Bool.not_eq_true] at hactive
  -- the updater does not see the emergency
  cases step_countdown hinv hstep he with
  | same htimer hcount => exact .unseen hwaiting hactive htimer hcount
  | promoted hpc h => exact .promoted hwaiting hactive hpc h
  | active i hslot h rest hpc woken ha =>
      subst ha
      obtain ⟨woken', -, hupdater⟩ := step_updater hstep rfl
      simp only [stepUpdater, hpc] at hupdater
      have hseen := seesActive_iff.mpr ⟨i, rest, hpc, (stepUpdate_slot hupdater).1, hslot⟩
      simp [hactive] at hseen
  | waiting hpc hqueued h woken ha =>
      subst ha
      obtain ⟨woken', -, hupdater⟩ := step_updater hstep rfl
      simp only [stepUpdater, hpc] at hupdater
      have hpc' : s'.updater = .expire := by rw [← Option.some.inj hupdater]
      have hseen := seesWaiting_iff.mpr ⟨hpc, hpc', hqueued⟩
      simp [hwaiting] at hseen

/-! ## The countdown -/

/-- An emergency that has not been promoted since it entered a priority with the promotion
time `time`. -/
structure Counting (time : ℤ) (e : EmergencyId) (s : State) (log : Sightings) : Prop where
  known : e < s.nextId
  timer : (s.world.emergencies e).promotionTimer = time - (log.waiting + log.active)
  notLate : log.waiting + log.active ≤ time
  queued : e ∈ s.emergencyQueue.contents →
    log.active = 0 ∧ (s.updater.promotionFloor = 0 → log.waiting < time)
  received : s.receiver.emergency = some e → log = ⟨0, 0⟩
  promoting : s.updater = .promoted e → log.active = 0 ∧ log.waiting = time

theorem stepUpdate_not_promoted {op : UpdateOp} {rest : List UpdateOp}
    (hpc : s.updater = .updating (op :: rest)) (h : s.stepUpdate cfg rest op = some s') :
    s'.updater ≠ .promoted e := by
  have hsame : s.updater ≠ .promoted e := by simp [hpc]
  cases op with
  | twin t | arrive t =>
      simp only [stepUpdate] at h
      split at h <;> obtain rfl := Option.some.inj h <;> first | exact hsame | simp
  | slot i => simp [(stepUpdate_slot h).1]
  | shutdown op =>
      simp only [stepUpdate, Option.map_eq_some_iff, Prod.exists] at h
      obtain ⟨s₁, more, -, rfl⟩ := h
      simp

/-- The promotions extract what is to be promoted, and leave none of it behind. -/
theorem promotions_step (hstep : State.step cfg s a = some s') :
    (s'.updater.promotionFloor = 0 → s.updater.promotionFloor = 0 ∨
      ∀ e ∈ s.emergencyQueue.contents, emergencyIsToPromote (s.world.emergencies e) = false) ∧
    ∀ e, s'.updater = .promoted e → s.updater = .promoted e ∨
      e ∈ s.emergencyQueue.contents ∧ emergencyIsToPromote (s.world.emergencies e) = true := by
  by_cases ha : a.thread = some .updater
  swap
  · rcases (step_frame hstep).updater ha with hsame | hwoken
    · rw [hsame]
      exact ⟨.inl, fun e => .inl⟩
    · rw [hwoken, (floors_wakeTick s.updater).2]
      refine ⟨.inl, fun e hpc => .inl ?_⟩
      cases hpc' : s.updater <;> simp_all [wakeTick]
  obtain ⟨woken, -, hupdater⟩ := step_updater hstep ha
  -- from outside the passes the updater gets to no promotion at once
  have hother : s.updater.promotionFloor = 0 → (∀ e, s'.updater ≠ .promoted e) →
      (s'.updater.promotionFloor = 0 → s.updater.promotionFloor = 0 ∨
        ∀ e ∈ s.emergencyQueue.contents, emergencyIsToPromote (s.world.emergencies e) = false) ∧
      ∀ e, s'.updater = .promoted e → s.updater = .promoted e ∨
        e ∈ s.emergencyQueue.contents ∧ emergencyIsToPromote (s.world.emergencies e) = true :=
    fun hfloor hnot => ⟨fun _ => .inl hfloor, fun e hpc => absurd hpc (hnot e)⟩
  cases hpc : s.updater with
  | updating todo =>
      rw [← hpc]
      cases todo with
      | nil =>
          simp only [stepUpdater, hpc] at hupdater
          obtain rfl := Option.some.inj hupdater
          exact hother (by rw [hpc]; rfl) (by simp)
      | cons op rest =>
          simp only [stepUpdater, hpc] at hupdater
          exact hother (by rw [hpc]; rfl) fun e => stepUpdate_not_promoted hpc hupdater
  | loop =>
      simp only [stepUpdater, hpc] at hupdater
      obtain rfl := Option.some.inj hupdater
      rw [← hpc]
      exact hother (by rw [hpc]; rfl) fun e => by dsimp only; split <;> simp
  | takeTick =>
      rw [← hpc]
      refine hother (by rw [hpc]; rfl) fun e => ?_
      simp only [stepUpdater, hpc] at hupdater
      split at hupdater
      · rw [← Option.some.inj hupdater]
        simp
      · split at hupdater <;> rw [← Option.some.inj hupdater] <;> simp
  | readCount | begin cycle | mapWaiting =>
      rw [← hpc]
      refine hother (by rw [hpc]; rfl) fun e => ?_
      simp only [stepUpdater, hpc] at hupdater
      rw [← Option.some.inj hupdater]
      simp
  | expire =>
      simp only [stepUpdater, hpc] at hupdater
      split at hupdater <;> rw [← Option.some.inj hupdater] <;> simp [UpdaterPc.promotionFloor]
  | expired x =>
      simp only [stepUpdater, hpc] at hupdater
      rw [← Option.some.inj hupdater]
      simp [UpdaterPc.promotionFloor]
  | promote =>
      simp only [stepUpdater, hpc] at hupdater
      split at hupdater <;> rw [← Option.some.inj hupdater]
      · rename_i x queue hextract
        refine ⟨by simp [UpdaterPc.promotionFloor], fun e hpromoted => .inr ?_⟩
        obtain rfl := UpdaterPc.promoted.inj hpromoted
        obtain ⟨hpred, hperm, -⟩ := Pq.extractFirst_spec hextract
        exact ⟨hperm.mem_iff.mpr List.mem_cons_self, hpred⟩
      · rename_i hextract
        refine ⟨fun _ => .inr fun e he => Pq.not_of_extractFirst hextract he, ?_⟩
        simp
  | promoted x =>
      simp only [stepUpdater, hpc] at hupdater
      obtain ⟨worker, -, -, rfl⟩ := pushEmergency_eq hupdater
      simp [UpdaterPc.promotionFloor]
  | tickWait | diverged | exited => simp [stepUpdater, hpc] at hupdater

theorem promotions_promote {table : List PriorityRule} (em : Emergency) :
    (promoteEmergency table em).howManyTimesWasPromoted = em.howManyTimesWasPromoted + 1 := rfl

/-- A slot tests for zero before it counts down. -/
theorem updateActive_pending (table : List PriorityRule) {em : Emergency}
    (h : 0 ≤ em.promotionTimer) :
    (em.promotionTimer = 0 → (updateActiveEmergencyState table em).1 =
        promoteEmergency table { em with promotionTimer := -1 }) ∧
      (0 < em.promotionTimer → (updateActiveEmergencyState table em).1 =
        { em with promotionTimer := em.promotionTimer - 1 }) := by
  have hne : em.promotionTimer ≠ NO_PROMOTION := by
    simp only [NO_PROMOTION]
    omega
  unfold updateActiveEmergencyState
  rw [if_pos hne]
  refine ⟨fun hzero => ?_, fun hpos => ?_⟩
  · rw [if_pos hzero.le, hzero]
    rfl
  · rw [if_neg (not_le.mpr hpos)]

/-- Who is in a slot is neither in the queue nor with the receiver. -/
theorem elsewhere_of_active (hinv : Invariant cfg s) (hactive : seesActive e s s' = true) :
    e ∉ s.emergencyQueue.contents ∧ s.receiver.emergency ≠ some e ∧
      ∀ x, s.updater ≠ .promoted x := by
  obtain ⟨i, rest, hpc, -, hslot⟩ := seesActive_iff.mp hactive
  refine ⟨fun he => ?_, fun he => ?_, by simp [hpc]⟩
  · exact hinv.not_active (p := .queue) (by simp) he i hslot
  · exact hinv.not_active (p := .receiver) (by simp) (mem_holds_receiver.mpr he) i hslot

namespace Counting

variable {time : ℤ} {log : Sightings}

/-- The emergency is to be promoted when it has been seen long enough. -/
theorem isToPromote_iff (h : Counting time e s log) :
    emergencyIsToPromote (s.world.emergencies e) = true ↔
      (log.waiting + log.active : ℤ) = time := by
  have htimer := h.timer
  have hlate := h.notLate
  simp only [emergencyIsToPromote, Bool.and_eq_true, bne_iff_ne, decide_eq_true_eq, NO_PROMOTION]
  omega

theorem nonneg (h : Counting time e s log) : 0 ≤ (s.world.emergencies e).promotionTimer := by
  rw [h.timer, sub_nonneg]
  exact h.notLate

theorem known_step (h : Counting time e s log) (hstep : State.step cfg s a = some s') :
    e < s'.nextId := by
  rcases step_accepted hstep with ⟨hid, -⟩ | ⟨hid, -⟩ <;> rw [hid]
  · exact h.known
  · exact Nat.lt_succ_of_lt h.known

theorem unseen (h : Counting time e s log) (hpos : 0 < time) (hinv : Invariant cfg s)
    (hstep : State.step cfg s a = some s')
    (htimer : (s'.world.emergencies e).promotionTimer = (s.world.emergencies e).promotionTimer)
    (hnotPromoted : s'.world.emergencies e ≠
      promoteEmergency cfg.priorityLookupTable (s.world.emergencies e)) :
    Counting time e s' log := by
  have heffect := (step_effect hstep).2
  obtain ⟨hfloor, hpromoted⟩ := promotions_step hstep
  refine ⟨h.known_step hstep, htimer.trans h.timer, h.notLate, fun he => ?_,
    fun he => h.received (effect_received heffect h.known he), fun hpc => ?_⟩
  · rcases effect_entered hinv.custody heffect he with hold | ⟨-, heq⟩ | ⟨hpc, -⟩
    · obtain ⟨hnone, hlt⟩ := h.queued hold
      refine ⟨hnone, fun hzero => ?_⟩
      rcases hfloor hzero with hzero | hnothing
      · exact hlt hzero
      -- the promotions are over, and have left it in the queue
      · have hnot := mt h.isToPromote_iff.mpr (by simp [hnothing e hold])
        have hlate := h.notLate
        rw [hnone] at hnot hlate
        push_cast at hnot hlate
        omega
    · exact absurd heq hnotPromoted
    · have hzero := h.received (by rw [hpc]; rfl)
      rw [hzero]
      exact ⟨rfl, fun _ => by simpa using hpos⟩
  · rcases hpromoted e hpc with hold | ⟨hqueued, hready⟩
    · exact h.promoting hold
    · obtain ⟨hnone, -⟩ := h.queued hqueued
      have hall := h.isToPromote_iff.mp hready
      rw [hnone] at hall
      exact ⟨hnone, by simpa using hall⟩

theorem seenWaiting (h : Counting time e s log) (hinv : Invariant cfg s)
    (hstep : State.step cfg s a = some s') (hwaiting : seesWaiting e s s' = true)
    (heq : s'.world.emergencies e = updateWaitingEmergencyState (s.world.emergencies e)) :
    Counting time e s' ⟨log.waiting + 1, log.active⟩ := by
  obtain ⟨hpc, hpc', hqueued⟩ := seesWaiting_iff.mp hwaiting
  obtain ⟨hnone, hlt⟩ := h.queued hqueued
  have hlt := hlt (by rw [hpc]; rfl)
  have htimer := h.timer
  have hrunning : (s.world.emergencies e).promotionTimer ≠ NO_PROMOTION := by
    simp only [NO_PROMOTION]
    omega
  refine ⟨h.known_step hstep, ?_, ?_, fun _ => ⟨hnone, ?_⟩, fun he => ?_, ?_⟩
  · rw [heq, updateWaitingEmergencyState]
    dsimp only
    rw [if_pos hrunning, htimer]
    push_cast
    omega
  · rw [hnone]
    push_cast
    omega
  · simp [hpc', UpdaterPc.promotionFloor]
  · have hheld : e ∈ s.holds .receiver :=
      mem_holds_receiver.mpr (effect_received (step_effect hstep).2 h.known he)
    have hplace := hinv.custody.exclusive.unique hheld (q := .queue) hqueued
    cases hplace
  · simp [hpc']

theorem seenActive (h : Counting time e s log) (hinv : Invariant cfg s)
    (hstep : State.step cfg s a = some s') (hactive : seesActive e s s' = true)
    (heq : s'.world.emergencies e = { s.world.emergencies e with
      promotionTimer := (s.world.emergencies e).promotionTimer - 1 })
    (hrunning : 0 < (s.world.emergencies e).promotionTimer) :
    Counting time e s' ⟨log.waiting, log.active + 1⟩ := by
  obtain ⟨hnotQueued, hnotReceived, hnotPc⟩ := elsewhere_of_active hinv hactive
  have heffect := (step_effect hstep).2
  have htimer := h.timer
  refine ⟨h.known_step hstep, ?_, ?_, fun he => ?_, fun he => ?_, fun hpc => ?_⟩
  · rw [heq]
    dsimp only
    rw [htimer]
    push_cast
    omega
  · push_cast
    omega
  · rcases effect_entered hinv.custody heffect he with hold | ⟨hpc, -⟩ | ⟨hpc, -⟩
    · exact absurd hold hnotQueued
    · exact absurd hpc (hnotPc e)
    · exact absurd (by rw [hpc]; rfl) hnotReceived
  · exact absurd (effect_received heffect h.known he) hnotReceived
  · rcases (promotions_step hstep).2 e hpc with hold | ⟨hqueued, -⟩
    · exact absurd hold (hnotPc e)
    · exact absurd hqueued hnotQueued

/-- **Step lemma**, for a step that does not promote the emergency. -/
theorem step (h : Counting time e s log) (hpos : 0 < time) (hinv : Invariant cfg s)
    (hstep : State.step cfg s a = some s') (hsame : s'.promotions e = s.promotions e) :
    Counting time e s' (recordSightings e s s' log) := by
  have hnotPromoted : ∀ em, em.howManyTimesWasPromoted = s.promotions e →
      s'.world.emergencies e ≠ promoteEmergency cfg.priorityLookupTable em := by
    intro em hem heq
    rw [State.promotions, heq, promotions_promote, hem] at hsame
    exact absurd hsame (Nat.succ_ne_self _)
  cases seen_step hinv hstep h.known with
  | promoted _ _ _ heq => exact absurd heq (hnotPromoted _ rfl)
  | unseen hwaiting hactive htimer hcount =>
      have hlog : recordSightings e s s' log = log := by
        simp [recordSightings, hwaiting, hactive]
      rw [hlog]
      exact h.unseen hpos hinv hstep htimer (hnotPromoted _ rfl)
  | waiting hwaiting hactive heq =>
      have hlog : recordSightings e s s' log = ⟨log.waiting + 1, log.active⟩ := by
        simp [recordSightings, hwaiting, hactive]
      rw [hlog]
      exact h.seenWaiting hinv hstep hwaiting heq
  | active hwaiting hactive heq =>
      have hlog : recordSightings e s s' log = ⟨log.waiting, log.active + 1⟩ := by
        simp [recordSightings, hwaiting, hactive]
      rw [hlog]
      have hnonneg := h.nonneg
      obtain ⟨hzero, hrunning⟩ := updateActive_pending cfg.priorityLookupTable hnonneg
      rcases hnonneg.eq_or_lt with heq' | hleft
      · exact absurd (heq.trans (hzero heq'.symm)) (hnotPromoted _ rfl)
      · exact h.seenActive hinv hstep hactive (heq.trans (hrunning hleft)) hleft

/-- **The promotion**: in the queue after `time` sightings, in a slot after one more. -/
theorem promoted (h : Counting time e s log) (hinv : Invariant cfg s)
    (hstep : State.step cfg s a = some s') (hpromoted : s'.promotions e ≠ s.promotions e) :
    (s'.world.emergencies e).priority =
        getNextPriority cfg.priorityLookupTable (s.world.emergencies e).priority ∧
      ((recordSightings e s s' log).active = 0 ∧
          (recordSightings e s s' log).waiting = time ∨
        0 < (recordSightings e s s' log).active ∧ ((recordSightings e s s' log).waiting +
          (recordSightings e s s' log).active : ℤ) = time + 1) := by
  cases seen_step hinv hstep h.known with
  | unseen _ _ _ hcount => exact absurd hcount hpromoted
  | waiting _ _ heq => exact absurd (by rw [State.promotions, heq]; rfl) hpromoted
  | promoted hwaiting hactive hpc heq =>
      refine ⟨by rw [heq]; rfl, .inl ?_⟩
      simpa [recordSightings, hwaiting, hactive] using h.promoting hpc
  | active hwaiting hactive heq =>
      obtain ⟨hzero, hrunning⟩ := updateActive_pending cfg.priorityLookupTable h.nonneg
      rcases h.nonneg.eq_or_lt with hover | hleft
      · refine ⟨by rw [heq, hzero hover.symm]; rfl, .inr ?_⟩
        have htimer := h.timer
        simp only [recordSightings, hwaiting, hactive, Bool.toNat_true, Bool.toNat_false]
        push_cast
        omega
      · exact absurd (by rw [State.promotions, heq, hrunning hleft]; rfl) hpromoted

end Counting

/-! ## Entering a priority -/

/-- In this step the emergency enters a priority: it is made, or it is promoted. -/
def Enters (e : EmergencyId) (s s' : State) : Prop :=
  s.nextId ≤ e ∧ e < s'.nextId ∨ e < s.nextId ∧ s'.promotions e ≠ s.promotions e

theorem updater_of_promoted (hinv : Invariant cfg s) (hstep : State.step cfg s a = some s')
    (he : e < s.nextId) (hpromoted : s'.promotions e ≠ s.promotions e) :
    ∃ woken, s.stepUpdater cfg woken = some s' := by
  suffices ha : a.thread = some .updater by
    obtain ⟨woken, -, hupdater⟩ := step_updater hstep ha
    exact ⟨woken, hupdater⟩
  by_contra ha
  refine hpromoted ?_
  have heffect := world_effect hinv (step_effect hstep).2
  unfold State.promotions
  generalize s'.world = w at heffect ⊢
  cases heffect with
  | same => rfl
  | openSlot i x hpc =>
      refine promotions_setEmergency (s.world.setActive i (some x)) x _ ?_ e
      rfl
  | search i x w found hpc hfind => exact hfind.promotions e
  | store i x reason hpc =>
      refine promotions_setEmergency s.world x _ ?_ e
      rfl
  | closeSlot => rfl
  | receive request emergency hemergency => simp [Nat.ne_of_lt he]
  | _ => exact absurd rfl ha

theorem updateActive_promotes {table : List PriorityRule} {em : Emergency}
    (h : (updateActiveEmergencyState table em).1.howManyTimesWasPromoted ≠
      em.howManyTimesWasPromoted) :
    (updateActiveEmergencyState table em).1 =
      promoteEmergency table { em with promotionTimer := em.promotionTimer - 1 } := by
  unfold updateActiveEmergencyState at h ⊢
  split
  · rename_i hpending
    rw [if_pos hpending] at h
    split
    · rfl
    · rename_i hrunning
      simp [hrunning] at h
  · rename_i hnone
    rw [if_neg hnone] at h
    refine absurd ?_ h
    split
    · rfl
    · split
      · rfl
      · split <;> rfl

theorem counting_of_enters (hreach : Reachable cfg s) (hstep : State.step cfg s a = some s')
    (henters : Enters e s s')
    (hpos : 0 < priorityToPromotionTimer cfg.priorityLookupTable
      (s'.world.emergencies e).priority) :
    Counting (priorityToPromotionTimer cfg.priorityLookupTable
      (s'.world.emergencies e).priority) e s' ⟨0, 0⟩ := by
  have hinv := reachable_invariant hreach
  -- it has the timer of its priority, and is not about to be promoted again
  suffices h : (s'.world.emergencies e).promotionTimer = priorityToPromotionTimer
      cfg.priorityLookupTable (s'.world.emergencies e).priority ∧
      e < s'.nextId ∧ s'.updater ≠ .promoted e by
    obtain ⟨htimer, hknown, hpc⟩ := h
    refine ⟨hknown, by simpa using htimer, by simpa using hpos.le, fun _ => ⟨rfl, fun _ => ?_⟩,
      fun _ => rfl, fun h => absurd h hpc⟩
    simpa using hpos
  rcases henters with ⟨hnew, hknown⟩ | ⟨hknown, hpromoted⟩
  · obtain ⟨-, type, -, hpriority, -, htimer⟩ := effect_made (step_effect hstep).2 hnew hknown
    refine ⟨by rw [htimer, hpriority], hknown, fun hpc => ?_⟩
    have hheld : ∃ p, e ∈ s.holds p := by
      rcases (promotions_step hstep).2 e hpc with hold | ⟨hqueued, -⟩
      · exact ⟨.updater, mem_holds_updater.mpr (by rw [hold]; rfl)⟩
      · exact ⟨.queue, hqueued⟩
    obtain ⟨p, hp⟩ := hheld
    exact absurd (hinv.custody.fresh p e hp) (not_lt.mpr hnew)
  · have hknown' : e < s'.nextId := by
      rcases step_accepted hstep with ⟨hid, -⟩ | ⟨hid, -⟩ <;> rw [hid]
      · exact hknown
      · exact Nat.lt_succ_of_lt hknown
    cases seen_step hinv hstep hknown with
    | unseen _ _ _ hcount => exact absurd hcount hpromoted
    | waiting _ _ heq => exact absurd (by rw [State.promotions, heq]; rfl) hpromoted
    | active _ hactive heq =>
        obtain ⟨i, rest, -, hpc', -⟩ := seesActive_iff.mp hactive
        rw [State.promotions, heq] at hpromoted
        refine ⟨?_, hknown', by simp [hpc']⟩
        rw [heq, updateActive_promotes hpromoted]
        rfl
    | promoted _ _ hpc heq =>
        obtain ⟨woken, hupdater⟩ := updater_of_promoted hinv hstep hknown hpromoted
        simp only [stepUpdater, hpc] at hupdater
        obtain ⟨worker, -, -, rfl⟩ := pushEmergency_eq hupdater
        refine ⟨?_, hknown', by simp⟩
        rw [heq]
        rfl

/-- A run in which the emergency is not promoted, with its sightings. -/
abbrev WaitingRun (cfg : Config) (e : EmergencyId) (s₀ s : State) (log : Sightings) : Prop :=
  ReachableWith (withHistory (State.step cfg) (recordSightings e))
    (fun p _ => p.1.promotions e = s₀.promotions e) (s₀, ⟨0, 0⟩) (s, log)

/-- **Run lemma.** -/
theorem counting_of_run {time : ℤ} {log : Sightings} (hpos : 0 < time) (hreach : Reachable cfg s₀)
    (h : Counting time e s₀ ⟨0, 0⟩) (hrun : WaitingRun cfg e s₀ s' log)
    (hsame : s'.promotions e = s₀.promotions e) :
    Reachable cfg s' ∧ Counting time e s' log := by
  suffices hall : ∀ p : State × Sightings,
      ReachableWith (withHistory (State.step cfg) (recordSightings e))
        (fun p _ => p.1.promotions e = s₀.promotions e) (s₀, ⟨0, 0⟩) p →
      Reachable cfg p.1 ∧ (p.1.promotions e = s₀.promotions e → Counting time e p.1 p.2) from
    ⟨(hall _ hrun).1, (hall _ hrun).2 hsame⟩
  intro p hp
  refine hp.invariant (fun p => Reachable cfg p.1 ∧
    (p.1.promotions e = s₀.promotions e → Counting time e p.1 p.2)) ⟨hreach, fun _ => h⟩ ?_
  rintro ⟨s₁, log₁⟩ a ⟨s₂, log₂⟩ - ⟨hreach₁, hcounting⟩ hguard hstep
  obtain ⟨s₃, hstep₁, hpair⟩ := Option.map_eq_some_iff.mp hstep
  obtain ⟨rfl, rfl⟩ := Prod.mk.inj hpair
  refine ⟨hreach₁.next trivial hstep₁, fun hsame₂ => ?_⟩
  exact (hcounting hguard).step hpos (reachable_invariant hreach₁) hstep₁ (hsame₂.trans hguard.symm)

/-- **Whether an emergency is promoted on time.**  An emergency enters a priority with a
promotion time.  When it is promoted, the updater has seen it for that time in all if and
only if it has not seen it in a slot; and as long as it is not promoted, it has not been
seen for longer, and not for so long and left in the queue after the promotions. -/
theorem promoted_on_time_iff {b : Action} {s₁ s₂ : State} {log : Sightings}
    (hreach : Reachable cfg s) (hstep : State.step cfg s a = some s₀) (henters : Enters e s s₀)
    (hpos : 0 < priorityToPromotionTimer cfg.priorityLookupTable
      (s₀.world.emergencies e).priority)
    (hrun : WaitingRun cfg e s₀ s₁ log) (hwaits : s₁.promotions e = s₀.promotions e)
    (hnext : State.step cfg s₁ b = some s₂) :
    let time := priorityToPromotionTimer cfg.priorityLookupTable (s₀.world.emergencies e).priority
    let seen := recordSightings e s₁ s₂ log
    (s₂.promotions e ≠ s₁.promotions e → (s₂.world.emergencies e).priority =
        getNextPriority cfg.priorityLookupTable (s₁.world.emergencies e).priority ∧
      ((seen.waiting + seen.active : ℤ) = time ↔ seen.active = 0)) ∧
    (s₂.promotions e = s₁.promotions e → (seen.waiting + seen.active : ℤ) ≤ time ∧
      (s₂.updater.promotionFloor = 0 → e ∈ s₂.emergencyQueue.contents →
        (seen.waiting + seen.active : ℤ) < time)) := by
  intro time seen
  have hbegins := counting_of_enters hreach hstep henters hpos
  obtain ⟨hreach₁, hcounting⟩ :=
    counting_of_run hpos (hreach.next trivial hstep) hbegins hrun hwaits
  have hinv := reachable_invariant hreach₁
  refine ⟨fun hpromoted => ?_, fun hsame => ?_⟩
  · obtain ⟨hpriority, hseen⟩ := hcounting.promoted hinv hnext hpromoted
    refine ⟨hpriority, ?_⟩
    -- promoted in the queue it has never been in a slot; promoted in a slot it comes a tick late
    rcases hseen with ⟨hactive, hwaiting⟩ | ⟨hactive, hall⟩
    · change seen.active = 0 at hactive
      change (seen.waiting : ℤ) = time at hwaiting
      simp [hactive, hwaiting]
    · change 0 < seen.active at hactive
      change (seen.waiting + seen.active : ℤ) = time + 1 at hall
      constructor <;> intro h <;> omega
  · have hstill := hcounting.step hpos hinv hnext hsame
    refine ⟨hstill.notLate, fun hfloor hqueued => ?_⟩
    obtain ⟨hactive, hwaiting⟩ := hstill.queued hqueued
    change seen.active = 0 at hactive
    simpa [hactive] using hwaiting hfloor

/-- A server with emergencies of priority 0 has received one, and is about to make it. -/
def promotionStart : State :=
  stateAfter lowPriorityServer (threadsStart ++ [.client "p 5 4 0".toList, .receiver none])

/-- It enters the server, and is to be promoted after sixty ticks. -/
theorem promotionStart_enters :
    let s₀ := nextState lowPriorityServer promotionStart (.receiver none)
    State.step lowPriorityServer promotionStart (.receiver none) = some s₀ ∧
      Enters 1 promotionStart s₀ ∧ priorityToPromotionTimer
        lowPriorityServer.priorityLookupTable (s₀.world.emergencies 1).priority = 60 := by
  intro s₀
  refine ⟨step_nextState (by decide +kernel), .inl ⟨by decide +kernel, by decide +kernel⟩, ?_⟩
  decide +kernel

/-- The emergency 1 is made, and runs on until it is promoted. -/
def beforePromotion (actions : List Action) : State :=
  continueWith (fun s _ => s.promotions 1 = 0) lowPriorityServer
    (nextState lowPriorityServer promotionStart (.receiver none)) actions

theorem waitingRun_beforePromotion (actions : List Action) : ∃ log,
    WaitingRun lowPriorityServer 1
      (nextState lowPriorityServer promotionStart (.receiver none)) (beforePromotion actions)
      log := by
  have hguard : ∀ s : State, ∀ a : Action, s.promotions 1 = 0 → s.promotions 1 =
      (nextState lowPriorityServer promotionStart (.receiver none)).promotions 1 := by
    have hzero :
        (nextState lowPriorityServer promotionStart (.receiver none)).promotions 1 = 0 := by
      decide +kernel
    intro s a h
    rw [h, hzero]
  exact ((reachableWith_continueWith _ _ _ _).mono hguard).exists_history
    (recordSightings 1) ⟨0, 0⟩

/-- The emergency waits in the queue for sixty ticks, and is promoted in the last one. -/
theorem promoted_in_queue :
    let s₀ := nextState lowPriorityServer promotionStart (.receiver none)
    let s₁ := beforePromotion (.receiver none :: clockTicks 22 ++ tickRounds 58 ++ clockTicks 19)
    let s₂ := nextState lowPriorityServer s₁ (.updater none)
    s₂.promotions 1 = 1 ∧ (s₂.world.emergencies 1).priority = 1 ∧ s₂.updates.length = 60 ∧
      ∃ log, WaitingRun lowPriorityServer 1 s₀ s₁ log ∧
        (((recordSightings 1 s₁ s₂ log).waiting + (recordSightings 1 s₁ s₂ log).active : ℤ) = 60 ↔
          (recordSightings 1 s₁ s₂ log).active = 0) := by
  intro s₀ s₁ s₂
  have hreach : Reachable lowPriorityServer promotionStart := reachable_stateAfter _ _
  obtain ⟨hstep, henters, htime⟩ :
      State.step lowPriorityServer promotionStart (.receiver none) = some s₀ ∧
        Enters 1 promotionStart s₀ ∧ priorityToPromotionTimer
          lowPriorityServer.priorityLookupTable (s₀.world.emergencies 1).priority = 60 :=
    promotionStart_enters
  have hzero : s₀.promotions 1 = 0 := by decide +kernel
  obtain ⟨hpossible, hwaits, hpromoted, hpriority, hticks⟩ :
      (State.step lowPriorityServer s₁ (.updater none)).isSome = true ∧ s₁.promotions 1 = 0 ∧
      s₂.promotions 1 = 1 ∧ (s₂.world.emergencies 1).priority = 1 ∧ s₂.updates.length = 60 := by
    decide +kernel
  have hnext : State.step lowPriorityServer s₁ (.updater none) = some s₂ :=
    step_nextState hpossible
  have hruns : ∃ log, WaitingRun lowPriorityServer 1 s₀ s₁ log := waitingRun_beforePromotion _
  clear_value s₀ s₁ s₂
  obtain ⟨log, hrun⟩ := hruns
  refine ⟨hpromoted, hpriority, hticks, log, hrun, ?_⟩
  have honTime := (promoted_on_time_iff hreach hstep henters (by rw [htime]; decide) hrun
    (hwaits.trans hzero.symm) hnext).1 (by simp [hwaits, hpromoted])
  rw [htime] at honTime
  exact honTime.2

/-- A worker takes the emergency before the first tick: the updater has seen it for its sixty
ticks, the updates of the last one are over, and it is not promoted. -/
theorem not_promoted_in_slot :
    let s₀ := nextState lowPriorityServer promotionStart (.receiver none)
    let s₁ := beforePromotion ([.receiver none] ++ workerSteps 0 6 ++ clockTicks 23 ++
      clockTicks 22 ++ tickRounds 58)
    Reachable lowPriorityServer promotionStart ∧
      State.step lowPriorityServer promotionStart (.receiver none) = some s₀ ∧
      Enters 1 promotionStart s₀ ∧ priorityToPromotionTimer
        lowPriorityServer.priorityLookupTable (s₀.world.emergencies 1).priority = 60 ∧
      s₁.updates.length = 60 ∧ s₁.updater = .tickWait ∧ s₁.world.active 0 = some 1 ∧
      s₁.promotions 1 = s₀.promotions 1 ∧
      ∃ log, WaitingRun lowPriorityServer 1 s₀ s₁ log ∧ (log.waiting + log.active : ℤ) = 60 := by
  intro s₀ s₁
  have hreach : Reachable lowPriorityServer promotionStart := reachable_stateAfter _ _
  obtain ⟨hstep, henters, htime⟩ :
      State.step lowPriorityServer promotionStart (.receiver none) = some s₀ ∧
        Enters 1 promotionStart s₀ ∧ priorityToPromotionTimer
          lowPriorityServer.priorityLookupTable (s₀.world.emergencies 1).priority = 60 :=
    promotionStart_enters
  obtain ⟨hticks, hover, hslot, hsame, htimer⟩ : s₁.updates.length = 60 ∧
      s₁.updater = .tickWait ∧ s₁.world.active 0 = some 1 ∧
      s₁.promotions 1 = s₀.promotions 1 ∧ (s₁.world.emergencies 1).promotionTimer = 0 := by
    decide +kernel
  have hruns : ∃ log, WaitingRun lowPriorityServer 1 s₀ s₁ log := waitingRun_beforePromotion _
  clear_value s₀ s₁
  obtain ⟨log, hrun⟩ := hruns
  refine ⟨hreach, hstep, henters, htime, hticks, hover, hslot, hsame, log, hrun, ?_⟩
  have hpos : 0 < priorityToPromotionTimer lowPriorityServer.priorityLookupTable
      (s₀.world.emergencies 1).priority := by rw [htime]; decide
  have hcounting := (counting_of_run hpos (hreach.next trivial hstep)
    (counting_of_enters hreach hstep henters hpos) hrun hsame).2.timer
  rw [htime, htimer] at hcounting
  exact (sub_eq_zero.mp hcounting.symm).symm

end EmergencyDispatch
