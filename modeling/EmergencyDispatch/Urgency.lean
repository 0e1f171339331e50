import EmergencyDispatch.WorldEffects

/-!
# The priority and the timers of an emergency

How urgent an emergency is: its current priority and its two timers.  The
receiver sets them, and only the updater changes them (`UrgencyStep`): while the
emergency is in a slot, while it waits in `emergency_queue`, and when it is
promoted.  The searches of the workers and the work on the twins leave them
alone.
-/

namespace EmergencyDispatch

open State

variable {cfg : Config} {s s' : State} {w w' : World} {e e' : EmergencyId}

/-- Two emergencies with the same priority and the same timers. -/
structure Emergency.SameUrgency (em em' : Emergency) : Prop where
  priority : em'.priority = em.priority
  timeoutTimer : em'.timeoutTimer = em.timeoutTimer
  promotionTimer : em'.promotionTimer = em.promotionTimer

namespace Emergency.SameUrgency

variable {em em' em'' : Emergency}

theorem refl (em : Emergency) : em.SameUrgency em := ⟨rfl, rfl, rfl⟩

theorem trans (h : em.SameUrgency em') (h' : em'.SameUrgency em'') : em.SameUrgency em'' :=
  ⟨h'.priority.trans h.priority, h'.timeoutTimer.trans h.timeoutTimer,
    h'.promotionTimer.trans h.promotionTimer⟩

theorem setEmergency (w : World) (e : EmergencyId) (em : Emergency)
    (h : (w.emergencies e).SameUrgency em) (e' : EmergencyId) :
    (w.emergencies e').SameUrgency ((w.setEmergency e em).emergencies e') := by
  by_cases he : e' = e
  · subst he; simpa using h
  · simpa [he] using refl (w.emergencies e')

end Emergency.SameUrgency

theorem Emergency.SameOrders.sameUrgency {em em' : Emergency} (h : em.SameOrders em') :
    em.SameUrgency em' := by
  obtain ⟨slots, notArrived, notDone, rfl⟩ := h
  exact ⟨rfl, rfl, rfl⟩

/-! ## Searches -/

theorem DispatchStep.sameUrgency {k : ℕ} {t : TwinId} (h : DispatchStep e k t w w')
    (e' : EmergencyId) : (w.emergencies e').SameUrgency (w'.emergencies e') := by
  have hbind : ∀ (w : World) (request : RescuerRequest),
      (w.emergencies e').SameUrgency ((bindWorld w t e k request).emergencies e') := by
    intro w request
    refine Emergency.SameUrgency.setEmergency w e _ ?_ e'
    exact ⟨rfl, rfl, rfl⟩
  cases h with
  | atRest request hrest => exact hbind w request
  | preempting request old l missing hne hserves =>
      have hpreempt : (w.emergencies e').SameUrgency
          ((preemptWorld w t old l missing).emergencies e') := by
        refine Emergency.SameUrgency.setEmergency w old _ ?_ e'
        exact ⟨rfl, rfl, rfl⟩
      exact hpreempt.trans (hbind _ request)

theorem DispatchRun.sameUrgency {candidates : List TwinId} (h : DispatchRun e candidates w w')
    (e' : EmergencyId) : (w.emergencies e').SameUrgency (w'.emergencies e') := by
  induction h with
  | nil w => exact .refl _
  | cons hstep hrun ih => exact (hstep.sameUrgency e').trans ih

theorem FindStep.sameUrgency {table : List PriorityRule} {found : Bool}
    (h : FindStep table w e (.ok (w', found))) (e' : EmergencyId) :
    (w.emergencies e').SameUrgency (w'.emergencies e') := by
  cases h with
  | nothingMissing => exact .refl _
  | notEnough => exact .refl _
  | dispatched hmissing h hnotDone hrun =>
      refine (hrun.sameUrgency e').trans (Emergency.SameUrgency.setEmergency _ e _ ?_ e')
      exact ⟨rfl, rfl, rfl⟩

/-! ## Steps -/

/-- What a step does to the priority and the timers of `e`. -/
inductive UrgencyStep (cfg : Config) (s : State) (a : Action) (e : EmergencyId)
    (em : Emergency) : Prop
  | same (h : (s.world.emergencies e).SameUrgency em)
  | active (i : Worker) (hactive : s.world.active i = some e)
      (h : em = (updateActiveEmergencyState cfg.priorityLookupTable (s.world.emergencies e)).1)
      (rest : List UpdateOp) (hpc : s.updater = .updating (.slot i :: rest))
      (woken : Option Worker) (ha : a = .updater woken)
  | waiting (hpc : s.updater = .mapWaiting) (hwaiting : e ∈ s.emergencyQueue.contents)
      (h : em = updateWaitingEmergencyState (s.world.emergencies e))
      (woken : Option Worker) (ha : a = .updater woken)
  | promoted (hpc : s.updater = .promoted e)
      (h : em = promoteEmergency cfg.priorityLookupTable (s.world.emergencies e))
  | made (he : e = s.nextId) (type : EmergencyType) (htype : type ∈ cfg.emergencies)
      (hpriority : em.priority = type.priority)
      (htimeout : em.timeoutTimer = priorityToTimeoutTimer cfg.priorityLookupTable type.priority)
      (hpromotion :
        em.promotionTimer = priorityToPromotionTimer cfg.priorityLookupTable type.priority)

theorem mallocateEmergency_urgency {table : List PriorityRule} {types : List EmergencyType}
    {request : EmergencyRequest} {tick : ℕ} {em : Emergency}
    (h : mallocateEmergency table types request tick = some em) : ∃ type ∈ types,
      em.priority = type.priority ∧ em.timeoutTimer = priorityToTimeoutTimer table type.priority ∧
        em.promotionTimer = priorityToPromotionTimer table type.priority := by
  simp only [mallocateEmergency, Option.map_eq_some_iff] at h
  obtain ⟨type, htype, rfl⟩ := h
  exact ⟨type, List.mem_of_find?_eq_some htype, rfl, rfl, rfl⟩

/-- **Step lemma.** -/
theorem effect_urgency {a : Action} (hinv : Invariant cfg s) (heffect : Effect cfg s a s')
    (e : EmergencyId) : UrgencyStep cfg s a e (s'.world.emergencies e) := by
  -- most steps write one emergency `x`; only when it is `e` is there anything to show
  have hset : ∀ (x : EmergencyId) (em : Emergency), (e = x → UrgencyStep cfg s a e em) →
      UrgencyStep cfg s a e ((s.world.setEmergency x em).emergencies e) := by
    intro x em h
    by_cases he : e = x
    · subst he
      simpa using h rfl
    · rw [World.setEmergency_of_ne _ _ _ he]
      exact .same (.refl _)
  cases heffect with
  | quiet hq => rw [hq.world]; exact .same (.refl _)
  | move i pc hmove => exact .same (.refl _)
  | pop i x queue hpc hpop => exact .same (.refl _)
  | openSlot i x hpc => exact hset x _ (by rintro rfl; exact .same ⟨rfl, rfl, rfl⟩)
  | search i x w found worker hpc hfind hwoken =>
      exact .same ((hinv.findStep hpc hfind).sameUrgency e)
  | store i x reason level hpc => exact hset x _ (by rintro rfl; exact .same ⟨rfl, rfl, rfl⟩)
  | closeSlot i leaving hpc => exact .same (.refl _)
  | stays t rest w hpc hupdate =>
      have hcases := update_cases hinv.links cfg.size t
      rw [hupdate] at hcases
      cases hcases <;> exact .same (.refl _)
  | walked t rest w outside arrived hpc hupdate =>
      have hcases := update_cases hinv.links cfg.size t
      rw [hupdate] at hcases
      cases hcases with
      | walked hstart hwalk => exact .same (hstart.sameOrders hinv.links e).sameUrgency
  | arrived t rest w hpc harrive =>
      have hcases := arrival_cases hinv.links t
      rw [harrive] at hcases
      cases hcases with
      | onScene x hroute => exact .same (arriveOnScene_sameOrders s.world t x e).sameUrgency
      | atBase => exact .same (.refl _)
  | fatal t rest w hpc harrive =>
      have hcases := arrival_cases hinv.links t
      rw [harrive] at hcases
      cases hcases with
      | fatal => exact .same (.refl _)
  | slot i x rest worker hpc hactive hwoken =>
      exact hset x _ (by rintro rfl; exact .active i hactive rfl rest hpc _ rfl)
  | mapWaiting hpc =>
      dsimp only
      split
      · exact .waiting hpc ‹_› rfl _ rfl
      · exact .same (.refl _)
  | extract x queue pred pc hpc hextract hnext => exact .same (.refl _)
  | expire x level hpc => exact hset x _ (by rintro rfl; exact .same ⟨rfl, rfl, rfl⟩)
  | promote x level worker hpc hwoken =>
      exact hset x _ (by rintro rfl; exact .promoted hpc rfl)
  | receive request emergency mq hpc hemergency =>
      obtain ⟨type, htype, hpriority, htimeout, hpromotion⟩ :=
        mallocateEmergency_urgency hemergency
      exact hset s.nextId _ (by
        rintro rfl
        exact .made rfl type htype hpriority htimeout hpromotion)
  | receiverPush x level worker hpc hwoken => exact .same (.refl _)

/-- The only new emergency of a step is `s.nextId`, with the priority and the timers of
its type. -/
theorem effect_made {a : Action} (heffect : Effect cfg s a s') (he : s.nextId ≤ e)
    (hnew : e < s'.nextId) : e = s.nextId ∧ ∃ type ∈ cfg.emergencies,
      (s'.world.emergencies e).priority = type.priority ∧
        (s'.world.emergencies e).timeoutTimer =
          priorityToTimeoutTimer cfg.priorityLookupTable type.priority ∧
        (s'.world.emergencies e).promotionTimer =
          priorityToPromotionTimer cfg.priorityLookupTable type.priority := by
  have hnone : s'.nextId ≠ s.nextId := by
    intro hsame
    rw [hsame] at hnew
    exact absurd hnew (not_lt.mpr he)
  cases heffect with
  | quiet hq => exact absurd hq.nextId hnone
  | receive request emergency mq hpc hemergency =>
      obtain rfl : e = s.nextId := Nat.le_antisymm (Nat.le_of_lt_succ hnew) he
      obtain ⟨type, htype, hurgency⟩ := mallocateEmergency_urgency hemergency
      exact ⟨rfl, type, htype, by simpa using hurgency⟩
  | _ => exact absurd rfl hnone

theorem Invariant.not_active (hinv : Invariant cfg s) {p : Place} (hp : ∀ i, p ≠ .worker i)
    (he : e ∈ s.holds p) (i : Worker) : s.world.active i ≠ some e := by
  intro hactive
  have hworker := mem_holds_worker.mpr (hinv.emergency_of_active hactive)
  exact hp i (hinv.custody.exclusive.unique he hworker)

/-- The timers of a queued emergency run in `update_waiting_emergencies_states` only. -/
theorem queued_urgency {a : Action} (hinv : Invariant cfg s) (hstep : State.step cfg s a = some s')
    (he : e ∈ s.emergencyQueue.contents) :
    (s.world.emergencies e).SameUrgency (s'.world.emergencies e) ∨
      s.updater = .mapWaiting ∧ s'.updater = .expire ∧
        s'.world.emergencies e = updateWaitingEmergencyState (s.world.emergencies e) := by
  have hqueue : e ∈ s.holds .queue := he
  cases effect_urgency hinv (step_effect hstep).2 e with
  | same h => exact .inl h
  -- the emergency is in the queue, so no worker and no other thread has it
  | active i hactive => exact absurd hactive (hinv.not_active (by simp) hqueue i)
  | waiting hpc hwaiting h woken ha =>
      subst ha
      refine .inr ⟨hpc, ?_, h⟩
      cases (step_thread hstep).2 with
      | updater _ _ hstep =>
          simp only [stepUpdater, hpc] at hstep
          rw [← Option.some.inj hstep]
  | promoted hpc h =>
      have hupdater : e ∈ s.holds .updater := mem_holds_updater.mpr (by rw [hpc]; rfl)
      have := hinv.custody.exclusive.unique hqueue hupdater
      cases this
  | made hid => exact absurd (hinv.custody.fresh _ e hqueue) (by rw [hid]; exact lt_irrefl _)

end EmergencyDispatch
