import EmergencyDispatch.Locking
import EmergencyDispatch.WorldEffects

/-!
# When an emergency is completed

The updater treats all twins and then all slots in one section, and no other
thread touches an emergency in the meantime (`step_outside`).  The twin that
finishes last therefore leaves the scene before the slot of its emergency is
treated, and that treatment decides whether the tick completes the emergency.
`update_active_emergency_state_logging_blocked` looks at the promotion timer
first: while a promotion is pending it looks no further.
-/

namespace EmergencyDispatch

open State TransitionSystem

variable {cfg : Config} {s s' : State} {a : Action} {i : Worker} {e : EmergencyId}

/-! ## The other threads during the section of the updater -/

/-- What the other threads leave alone while the updater holds the system. -/
structure Outside (s s' : State) : Prop where
  updater : s'.updater = s.updater
  active : s'.world.active = s.world.active
  emergencies : ∀ e, e < s.nextId → s'.world.emergencies e = s.world.emergencies e
  blocked : ∀ i e, s'.worker i = .blocked e → s.worker i = .blocked e

theorem Woken.eq_blocked {pc : WorkerPc} (h : Woken pc (.blocked e)) : pc = .blocked e := by
  cases h
  rfl

theorem Quiet.outside (h : Quiet s s') (hupdater : s'.updater = s.updater) : Outside s s' where
  updater := hupdater
  active := by rw [h.world]
  emergencies _ _ := by rw [h.world]
  blocked i e hpc := Woken.eq_blocked (hpc ▸ h.worker i)

theorem wakeTick_of_locked (h : s.systemFree = false) : wakeTick s.updater = s.updater := by
  cases hpc : s.updater with
  | tickWait => simp [systemFree, hpc] at h
  | _ => rfl

/-- A worker neither blocks nor enters a section while the updater holds the system. -/
theorem stepWorker_outside (hlocked : s.systemFree = false) (h : s.stepWorker cfg i = some s') :
    Outside s s' := by
  have hmove : ∀ pc : WorkerPc, (∀ e, pc ≠ .blocked e) → Outside s (s.setWorker i pc) := by
    refine fun pc hpc => ⟨rfl, rfl, fun _ _ => rfl, fun j e hj => ?_⟩
    by_cases hji : j = i
    · subst hji
      exact absurd (by simpa [setWorker] using hj) (hpc e)
    · simpa [setWorker, hji] using hj
  cases hpc : s.worker i <;> simp only [stepWorker, hpc, hlocked, reduceCtorEq, if_false,
    Bool.false_eq_true] at h
  case pop =>
    split at h <;> obtain rfl := Option.some.inj h
    · exact { hmove (.popped _) (by simp) with }
    · apply hmove
      intro e
      split <;> simp
  all_goals
    obtain rfl := Option.some.inj h
    apply hmove
    intro e
    split <;> simp

/-- The receiver makes a new emergency at most. -/
theorem stepReceiver_outside {woken : Option Worker} (hupdater : s'.updater = s.updater)
    (h : s.stepReceiver cfg woken = some s') : Outside s s' := by
  cases stepReceiver_effect h with
  | quiet hq => exact hq.outside hupdater
  | receive request emergency mq hpc =>
      refine ⟨rfl, rfl, fun e he => ?_, fun _ _ hpc => hpc⟩
      exact World.setEmergency_of_ne _ _ _ (Nat.ne_of_lt he)
  | receiverPush e level worker hpc hwoken =>
      exact ⟨rfl, rfl, fun _ _ => rfl, fun i e hi => Woken.eq_blocked (hi ▸ hwoken i)⟩

/-- **Only the updater** touches the emergencies while it holds the system. -/
theorem step_outside (hlocked : s.systemFree = false) (ha : a.thread ≠ some .updater)
    (h : State.step cfg s a = some s') : Outside s s' := by
  have hupdater : s'.updater = s.updater := by
    rcases (step_frame h).updater ha with heq | heq <;> rw [heq]
    exact wakeTick_of_locked hlocked
  cases (step_thread h).2 with
  | clock _ h => exact (stepClock_quiet h).outside hupdater
  | updater woken _ h => exact absurd rfl ha
  | receiver woken _ h => exact stepReceiver_outside hupdater h
  | worker i _ h => exact stepWorker_outside hlocked h
  | main ok h => exact (stepMain_quiet h).outside hupdater
  | client message _ => exact Quiet.outside { Quiet.refl s with } hupdater
  | wakeWorker i h => exact (stepWakeWorker_quiet h).outside hupdater
  | wakeUpdater hpc => simp [systemFree, hpc] at hlocked

/-! ## The order of the operations in the section -/

/-- An operation that is not about a slot. -/
def UpdateOp.BeforeSlots (op : UpdateOp) : Prop := ∀ i, op ≠ .slot i

/-- What is left of the section: operations on twins, then slots, all of them as
long as a twin is left. -/
structure Schedule (todo ops : List UpdateOp) (slots : List Worker) : Prop where
  eq : todo = ops ++ slots.map .slot
  before : ∀ op ∈ ops, op.BeforeSlots
  nodup : slots.Nodup
  all : ops ≠ [] → slots = List.finRange WORKER_THREADS_NUMBER

theorem schedule_updateOps (cfg : Config) :
    Schedule (updateOps cfg) (cfg.twinIds.map .twin) (List.finRange WORKER_THREADS_NUMBER) where
  eq := rfl
  before op hop i := by
    obtain ⟨t, -, rfl⟩ := List.mem_map.mp hop
    simp
  nodup := List.nodup_finRange _
  all _ := rfl

namespace Schedule

variable {op : UpdateOp} {rest ops : List UpdateOp} {slots : List Worker}

theorem of_before (h : Schedule (op :: rest) ops slots) (hop : op.BeforeSlots) :
    ∃ ops', ops = op :: ops' ∧ rest = ops' ++ slots.map .slot ∧
      slots = List.finRange WORKER_THREADS_NUMBER := by
  cases ops with
  | nil =>
      cases slots with
      | nil => simpa using h.eq
      | cons i slots =>
          have heq := h.eq
          simp only [List.nil_append, List.map_cons, List.cons.injEq] at heq
          exact absurd heq.1 (hop i)
  | cons op' ops' =>
      have heq := h.eq
      simp only [List.cons_append, List.cons.injEq] at heq
      obtain ⟨rfl, hrest⟩ := heq
      exact ⟨ops', rfl, hrest, h.all (by simp)⟩

theorem replace (h : Schedule (op :: rest) ops slots) (hop : op.BeforeSlots)
    {more : List UpdateOp} (hmore : ∀ op' ∈ more, op'.BeforeSlots) :
    ∃ ops', Schedule (more ++ rest) ops' slots := by
  obtain ⟨ops', rfl, rfl, hall⟩ := h.of_before hop
  refine ⟨more ++ ops', by simp, fun op' hop' => ?_, h.nodup, fun _ => hall⟩
  rcases List.mem_append.mp hop' with hin | hin
  · exact hmore op' hin
  · exact h.before op' (List.mem_cons_of_mem _ hin)

theorem of_slot {i : Worker} (h : Schedule (.slot i :: rest) ops slots) :
    ∃ slots', slots = i :: slots' ∧ Schedule rest [] slots' := by
  cases ops with
  | nil =>
      cases slots with
      | nil => simpa using h.eq
      | cons j slots =>
          have heq := h.eq
          -- the operations before the slots are over, and `i` is the next slot
          simp only [List.nil_append, List.map_cons, List.cons.injEq, UpdateOp.slot.injEq] at heq
          obtain ⟨rfl, hrest⟩ := heq
          exact ⟨slots, rfl, hrest, by simp, (List.nodup_cons.mp h.nodup).2, by simp⟩
  | cons op' ops' =>
      have heq := h.eq
      simp only [List.cons_append, List.cons.injEq] at heq
      exact absurd heq.1.symm (h.before op' (by simp) i)

end Schedule

/-! ## The operations before the slots -/

/-- What the work on a twin leaves of the slots and of the emergencies. -/
structure TwinWork (w w' : World) : Prop where
  active : w'.active = w.active
  orders : ∀ e, (w.emergencies e).SameOrders (w'.emergencies e)
  notDone : ∀ e, (w'.emergencies e).rescuersNotDoneYet ≤ (w.emergencies e).rescuersNotDoneYet

namespace TwinWork

variable {w w' : World} {t : TwinId} {n : EmergencyId}

theorem refl (w : World) : TwinWork w w := ⟨rfl, fun _ => .refl _, fun _ => le_rfl⟩

theorem setTwin (h : TwinWork w w') (t : TwinId) (twin : RescuerDigitalTwin) :
    TwinWork w (w'.setTwin t twin) :=
  ⟨h.active, h.orders, h.notDone⟩

theorem of_walkStart (h : WellLinked cfg n w) (hstart : WalkStart w t w') : TwinWork w w' where
  active := hstart.active h
  orders := hstart.sameOrders h
  notDone e := by
    cases hstart with
    | travelling => exact le_rfl
    -- the end of a stay is the only decrement
    | leaving e' hscene =>
        obtain ⟨i, -, hw⟩ := leaveScene_spec (tickStay_linked h)
          ((isOnSceneOf_tickStay w t e').trans hscene)
        rw [hw]
        by_cases he : e = e'
        · subst he
          simp only [tickStay, World.setTwin_emergencies, Function.update_self]
          omega
        · simp [tickStay, he]

theorem of_arrival (w : World) (t : TwinId) (e : EmergencyId) :
    TwinWork w (arriveOnScene w t e) where
  active := rfl
  orders := arriveOnScene_sameOrders w t e
  notDone e' := by
    by_cases he : e' = e
    · subst he; simp [arriveOnScene]
    · simp [arriveOnScene, he]

end TwinWork

/-- Where the updater stands after an operation that is not about a slot: it
goes on, perhaps with something more to do before the rest, or it never does. -/
def GoesOn (s s' : State) (rest : List UpdateOp) : Prop :=
  s'.updater = s.updater ∨ s'.updater = .diverged ∨
    ∃ more, (∀ op ∈ more, op.BeforeSlots) ∧ s'.updater = .updating (more ++ rest)

theorem goesOn_rest {rest : List UpdateOp} (h : s'.updater = .updating rest) : GoesOn s s' rest :=
  .inr (.inr ⟨[], by simp, h⟩)

/-- **The work before the slots** changes two counters and the slots of emergencies. -/
theorem stepUpdate_before (hinv : Invariant cfg s) {op : UpdateOp} {rest : List UpdateOp}
    (hop : op.BeforeSlots) (h : s.stepUpdate cfg rest op = some s') :
    TwinWork s.world s'.world ∧ GoesOn s s' rest := by
  cases op with
  | slot i => exact absurd rfl (hop i)
  | twin t =>
      have hcases := update_cases hinv.links cfg.size t
      simp only [stepUpdate] at h
      split at h <;> obtain rfl := Option.some.inj h
      · rename_i w hupdate
        rw [hupdate] at hcases
        refine ⟨?_, goesOn_rest rfl⟩
        cases hcases with
        | idle => exact .refl _
        | stays => exact (TwinWork.refl s.world).setTwin t _
      -- an exit from the map and an arrival are done before the rest
      · rename_i w outside arrived hupdate
        rw [hupdate] at hcases
        cases hcases with
        | walked hstart hwalk =>
            refine ⟨(TwinWork.of_walkStart hinv.links hstart).setTwin t _,
              .inr (.inr ⟨_, fun op hop' j => ?_, rfl⟩)⟩
            rintro rfl
            simp only [List.mem_append] at hop'
            rcases hop' with hin | hin <;> split at hin <;> simp at hin
      · exact ⟨.refl _, .inr (.inl rfl)⟩
      · exact ⟨.refl _, .inl rfl⟩
  | arrive t =>
      have hcases := arrival_cases hinv.links t
      simp only [stepUpdate] at h
      split at h <;> obtain rfl := Option.some.inj h
      · rename_i w harrive
        rw [harrive] at hcases
        refine ⟨?_, goesOn_rest rfl⟩
        cases hcases with
        | onScene e hroute => exact .of_arrival s.world t e
        | atBase => exact (TwinWork.refl s.world).setTwin t _
      · rename_i w harrive
        rw [harrive] at hcases
        refine ⟨?_, .inr (.inr ⟨[.shutdown .request], by simp [UpdateOp.BeforeSlots], rfl⟩)⟩
        cases hcases with
        | fatal => exact (TwinWork.refl s.world).setTwin t _
      · exact ⟨.refl _, .inl rfl⟩
  | shutdown op =>
      simp only [stepUpdate, Option.map_eq_some_iff, Prod.exists] at h
      obtain ⟨s₁, more, hshutdown, rfl⟩ := h
      refine ⟨?_, .inr (.inr ⟨more.map .shutdown, fun op hop' j => ?_, rfl⟩)⟩
      · have hworld := (shutdownOp_quiet hshutdown).world
        dsimp only
        rw [hworld]
        exact .refl _
      · obtain ⟨op, -, rfl⟩ := List.mem_map.mp hop'
        simp

theorem stepUpdate_blocked {op : UpdateOp} {rest : List UpdateOp}
    (h : s.stepUpdate cfg rest op = some s') (hpc : s'.worker i = .blocked e) :
    s.worker i = .blocked e :=
  Woken.eq_blocked (hpc ▸ (stepUpdate_frame h).worker i (by simp))

/-! ## The treatment of a slot -/

/-- What the treatment of a slot does. -/
inductive SlotStep (cfg : Config) (s : State) (i : Worker) (s' : State) : Prop
  | empty (h : s.world.active i = none) (hemergencies : s'.world.emergencies = s.world.emergencies)
  | treated (e : EmergencyId) (h : s.world.active i = some e)
      (hemergencies : s'.world.emergencies = Function.update s.world.emergencies e
        (updateActiveEmergencyState cfg.priorityLookupTable (s.world.emergencies e)).1)
      (hsignal : (updateActiveEmergencyState cfg.priorityLookupTable (s.world.emergencies e)).2 =
        true → ∀ j, s'.worker j ≠ .blocked e)

theorem stepUpdate_slot {rest : List UpdateOp} (h : s.stepUpdate cfg rest (.slot i) = some s') :
    s'.updater = .updating rest ∧ s'.world.active = s.world.active ∧ SlotStep cfg s i s' := by
  simp only [stepUpdate] at h
  split at h <;> obtain rfl := Option.some.inj h
  · rename_i hactive
    exact ⟨rfl, rfl, .empty hactive rfl⟩
  · rename_i e hactive
    refine ⟨rfl, rfl, .treated e hactive rfl fun hsignal j => ?_⟩
    simp only [deliverSignals, hsignal, if_true]
    cases s.worker j with
    | blocked e' =>
        simp only [wakeBlocked]
        split
        · simp
        · rename_i hne
          intro heq
          obtain rfl := WorkerPc.blocked.inj heq
          simp at hne
    | _ => simp [wakeBlocked]

/-- An emergency whose promotion is not pending, and that nobody has still to
finish, is completed; while its promotion is pending its status stays. -/
theorem updateActiveEmergencyState_done (table : List PriorityRule) {em : Emergency}
    (hpaused : em.status ≠ .paused) (hdone : em.rescuersNotDoneYet ≤ 0) :
    (em.promotionTimer = NO_PROMOTION →
      updateActiveEmergencyState table em = ({ em with status := .completed }, true)) ∧
    (em.promotionTimer ≠ NO_PROMOTION →
      (updateActiveEmergencyState table em).1.status = em.status) := by
  constructor <;> intro htimer
  · rw [updateActiveEmergencyState, if_neg (by simpa using htimer), if_neg hpaused, if_pos hdone]
  · rw [updateActiveEmergencyState, if_pos htimer]
    dsimp only
    split <;> rfl

/-! ## The tick in which the last rescuer leaves -/

/-- The tick in which nobody is left on the scene of `e`, the emergency in slot
`i`; `timer` is its promotion timer before the tick. -/
inductive LastTick (s : State) (i : Worker) (e : EmergencyId) (timer : ℤ) : Prop
  | free (h : s.systemFree = true)
  | endless (h : s.updater = .diverged)
  | ready {todo ops : List UpdateOp} {slots : List Worker} (hpc : s.updater = .updating todo)
      (hleft : Schedule todo ops slots) (hi : i ∈ slots) (hactive : s.world.active i = some e)
      (htimer : (s.world.emergencies e).promotionTimer = timer)
      (hpaused : (s.world.emergencies e).status ≠ .paused)
      (hcompleted : (s.world.emergencies e).status ≠ .completed)
      (hdone : (s.world.emergencies e).rescuersNotDoneYet ≤ 0)
  | settled {todo ops : List UpdateOp} {slots : List Worker} (hpc : s.updater = .updating todo)
      (hleft : Schedule todo ops slots) (hi : i ∉ slots) (hactive : s.world.active i = some e)
      (hcompleted : timer = NO_PROMOTION →
        (s.world.emergencies e).status = .completed ∧ ∀ j, s.worker j ≠ .blocked e)
      (hpending : timer ≠ NO_PROMOTION → (s.world.emergencies e).status ≠ .completed)

namespace LastTick

variable {timer : ℤ}

theorem of_outside (h : LastTick s i e timer) (houtside : Outside s s') (hlt : e < s.nextId) :
    LastTick s' i e timer := by
  have hsame := houtside.emergencies e hlt
  cases h with
  | free h =>
      refine .free ?_
      rw [systemFree, houtside.updater]
      exact h
  | endless h => exact .endless (houtside.updater.trans h)
  | ready hpc hleft hi hactive htimer hpaused hcompleted hdone =>
      refine .ready (houtside.updater.trans hpc) hleft hi ?_ ?_ ?_ ?_ ?_
      · rw [houtside.active, hactive]
      all_goals rwa [hsame]
  | settled hpc hleft hi hactive hcompleted hpending =>
      refine .settled (houtside.updater.trans hpc) hleft hi ?_ (fun h => ?_) fun h => ?_
      · rw [houtside.active, hactive]
      · rw [hsame]
        exact ⟨(hcompleted h).1, fun j hj => (hcompleted h).2 j (houtside.blocked j e hj)⟩
      · rw [hsame]
        exact hpending h

theorem of_before (h : LastTick s i e timer) (hinv : Invariant cfg s) {op : UpdateOp}
    {rest : List UpdateOp} (hpc : s.updater = .updating (op :: rest)) (hop : op.BeforeSlots)
    (hstep : s.stepUpdate cfg rest op = some s') : LastTick s' i e timer := by
  obtain ⟨hwork, hgoes⟩ := stepUpdate_before hinv hop hstep
  obtain ⟨slots', notArrived, notDone, hsame⟩ := hwork.orders e
  have hnotDone := hwork.notDone e
  -- the slots that are left stay the same, unless the updater never comes to them
  have hnext : ∀ {todo ops slots}, s.updater = .updating todo → Schedule todo ops slots →
      s'.updater = .diverged ∨ ∃ todo' ops', s'.updater = .updating todo' ∧
        Schedule todo' ops' slots := by
    intro todo ops slots hpc' hleft
    obtain rfl : op :: rest = todo := UpdaterPc.updating.inj (hpc.symm.trans hpc')
    rcases hgoes with hcrash | hdiverged | ⟨more, hmore, hpc''⟩
    · exact .inr ⟨_, ops, hcrash.trans hpc, hleft⟩
    · exact .inl hdiverged
    · obtain ⟨ops', hleft'⟩ := hleft.replace hop hmore
      exact .inr ⟨_, ops', hpc'', hleft'⟩
  cases h with
  | free h => simp [systemFree, hpc] at h
  | endless h => simp [hpc] at h
  | ready hpc' hleft hi hactive htimer hpaused hcompleted hdone =>
      rcases hnext hpc' hleft with hdiverged | ⟨todo', ops', hpc'', hleft'⟩
      · exact .endless hdiverged
      · refine .ready hpc'' hleft' hi (by rw [hwork.active, hactive]) ?_ ?_ ?_
          (hnotDone.trans hdone)
        all_goals rwa [hsame]
  | settled hpc' hleft hi hactive hcompleted hpending =>
      rcases hnext hpc' hleft with hdiverged | ⟨todo', ops', hpc'', hleft'⟩
      · exact .endless hdiverged
      · refine .settled hpc'' hleft' hi (by rw [hwork.active, hactive]) (fun h => ?_) fun h => ?_
        · rw [hsame]
          exact ⟨(hcompleted h).1, fun j hj => (hcompleted h).2 j (stepUpdate_blocked hstep hj)⟩
        · rw [hsame]
          exact hpending h

/-- The treatment of the slot settles it; that of another slot is about another
emergency. -/
theorem of_slot (h : LastTick s i e timer) (hinv : Invariant cfg s) {j : Worker}
    {rest : List UpdateOp} (hpc : s.updater = .updating (.slot j :: rest))
    (hstep : s.stepUpdate cfg rest (.slot j) = some s') : LastTick s' i e timer := by
  obtain ⟨hpc', hactive', hslot⟩ := stepUpdate_slot hstep
  -- two workers never have the same emergency in their slots
  have hother : s.world.active i = some e → j ≠ i →
      s'.world.emergencies e = s.world.emergencies e := by
    intro hactive hji
    cases hslot with
    | empty _ hemergencies => rw [hemergencies]
    | treated e' hj hemergencies _ =>
        have hne : e ≠ e' := by
          rintro rfl
          exact hji (hinv.custody.worker_unique (hinv.emergency_of_active hj)
            (hinv.emergency_of_active hactive))
        rw [hemergencies, Function.update_of_ne hne]
  cases h with
  | free h => simp [systemFree, hpc] at h
  | endless h => simp [hpc] at h
  | ready hpc₀ hleft hi hactive htimer hpaused hcompleted hdone =>
      obtain rfl := UpdaterPc.updating.inj (hpc.symm.trans hpc₀)
      obtain ⟨slots', rfl, hleft'⟩ := hleft.of_slot
      have hactive'' := (congrFun hactive' i).trans hactive
      -- the slot of `e` itself: the emergency is completed unless a promotion is pending
      by_cases hji : j = i
      · subst hji
        have hnot := (List.nodup_cons.mp hleft.nodup).1
        obtain ⟨hnone, hsome⟩ :=
          updateActiveEmergencyState_done cfg.priorityLookupTable hpaused hdone
        cases hslot with
        | empty hj _ => simp [hj] at hactive
        | treated e' hj hemergencies hsignal =>
            obtain rfl : e' = e := Option.some.inj (hj.symm.trans hactive)
            refine .settled hpc' hleft' hnot hactive'' (fun h => ?_) fun h => ?_
            · rw [htimer] at hnone
              rw [hnone h] at hsignal
              rw [hemergencies, Function.update_self, hnone h]
              exact ⟨rfl, hsignal rfl⟩
            · rw [htimer] at hsome
              rw [hemergencies, Function.update_self, hsome h]
              exact hcompleted
      · have hi' : i ∈ slots' := (List.mem_cons.mp hi).resolve_left (Ne.symm hji)
        have hsame := hother hactive hji
        refine .ready hpc' hleft' hi' hactive'' ?_ ?_ ?_ ?_ <;> rwa [hsame]
  | settled hpc₀ hleft hi hactive hcompleted hpending =>
      obtain rfl := UpdaterPc.updating.inj (hpc.symm.trans hpc₀)
      obtain ⟨slots', rfl, hleft'⟩ := hleft.of_slot
      have hji : j ≠ i := fun h => hi (by simp [h])
      have hsame := hother hactive hji
      refine .settled hpc' hleft' (fun h => hi (List.mem_cons_of_mem _ h))
        ((congrFun hactive' i).trans hactive) (fun h => ?_) fun h => ?_
      · rw [hsame]
        exact ⟨(hcompleted h).1, fun k hk => (hcompleted h).2 k (stepUpdate_blocked hstep hk)⟩
      · rw [hsame]
        exact hpending h

/-- **Step lemma.** -/
theorem step (h : LastTick s i e timer) (hinv : Invariant cfg s) (hlt : e < s.nextId)
    (hlocked : s.systemFree = false) (hstep : State.step cfg s a = some s') :
    LastTick s' i e timer := by
  by_cases ha : a.thread = some .updater
  · obtain ⟨woken, rfl, hupdate⟩ := step_updater hstep ha
    cases hpc : s.updater with
    | updating todo =>
        cases todo with
        | nil =>
            simp only [stepUpdater, hpc] at hupdate
            obtain rfl := Option.some.inj hupdate
            exact .free rfl
        | cons op rest =>
            simp only [stepUpdater, hpc] at hupdate
            by_cases hop : op.BeforeSlots
            · exact h.of_before hinv hpc hop hupdate
            · obtain ⟨j, hj⟩ : ∃ j, op = .slot j := by
                simpa [UpdateOp.BeforeSlots] using hop
              subst hj
              exact h.of_slot hinv hpc hupdate
    | diverged => simp [stepUpdater, hpc] at hupdate
    | _ => simp [systemFree, hpc] at hlocked
  · exact h.of_outside (step_outside hlocked ha hstep) hlt

end LastTick

theorem stepUpdater_scheduled (hinv : Invariant cfg s)
    (h : ∀ todo, s.updater = .updating todo → ∃ ops slots, Schedule todo ops slots)
    {woken : Option Worker} (hstep : s.stepUpdater cfg woken = some s') {todo : List UpdateOp}
    (hpc : s'.updater = .updating todo) : ∃ ops slots, Schedule todo ops slots := by
  cases hold : s.updater with
  | begin cycle =>
      simp only [stepUpdater, hold] at hstep
      obtain rfl := Option.some.inj hstep
      obtain rfl := UpdaterPc.updating.inj hpc
      exact ⟨_, _, schedule_updateOps cfg⟩
  | updating todo₀ =>
      obtain ⟨ops, slots, hleft⟩ := h todo₀ hold
      cases todo₀ with
      | nil =>
          simp only [stepUpdater, hold] at hstep
          obtain rfl := Option.some.inj hstep
          simp at hpc
      | cons op rest =>
          simp only [stepUpdater, hold] at hstep
          -- the twins come first, and then only slots are left
          by_cases hop : op.BeforeSlots
          · rcases (stepUpdate_before hinv hop hstep).2 with
              hcrash | hdiverged | ⟨more, hmore, hpc'⟩
            · obtain rfl := UpdaterPc.updating.inj (hpc.symm.trans (hcrash.trans hold))
              exact ⟨ops, slots, hleft⟩
            · simp [hdiverged] at hpc
            · obtain rfl := UpdaterPc.updating.inj (hpc.symm.trans hpc')
              obtain ⟨ops', hleft'⟩ := hleft.replace hop hmore
              exact ⟨ops', slots, hleft'⟩
          · obtain ⟨j, hj⟩ : ∃ j, op = .slot j := by simpa [UpdateOp.BeforeSlots] using hop
            subst hj
            obtain rfl := UpdaterPc.updating.inj (hpc.symm.trans (stepUpdate_slot hstep).1)
            obtain ⟨slots', -, hleft'⟩ := hleft.of_slot
            exact ⟨_, _, hleft'⟩
  | promoted e =>
      simp only [stepUpdater, hold] at hstep
      obtain ⟨worker, -, -, rfl⟩ := pushEmergency_eq hstep
      simp at hpc
  | loop =>
      simp only [stepUpdater, hold] at hstep
      obtain rfl := Option.some.inj hstep
      split at hpc <;> simp at hpc
  | takeTick =>
      simp only [stepUpdater, hold] at hstep
      split at hstep
      · obtain rfl := Option.some.inj hstep
        simp at hpc
      · split at hstep <;> obtain rfl := Option.some.inj hstep <;> simp at hpc
  | expire | promote =>
      simp only [stepUpdater, hold] at hstep
      split at hstep <;> obtain rfl := Option.some.inj hstep <;> simp at hpc
  | readCount | mapWaiting | expired e =>
      simp only [stepUpdater, hold] at hstep
      obtain rfl := Option.some.inj hstep
      simp at hpc
  | tickWait | diverged | exited => simp [stepUpdater, hold] at hstep

/-- The updater goes through the twins and then through the slots. -/
theorem scheduled_of_reachable (hreach : Reachable cfg s) {todo : List UpdateOp}
    (hpc : s.updater = .updating todo) : ∃ ops slots, Schedule todo ops slots := by
  refine hreach.invariant
    (fun s => ∀ todo, s.updater = .updating todo → ∃ ops slots, Schedule todo ops slots) ?_ ?_
    todo hpc
  · intro todo hpc
    simp [initialState] at hpc
  · intro s a s' hs ih _ hstep todo hpc
    by_cases ha : a.thread = some .updater
    · obtain ⟨woken, rfl, hupdate⟩ := step_updater hstep ha
      exact stepUpdater_scheduled (reachable_invariant hs) ih hupdate hpc
    · rcases (step_frame hstep).updater ha with heq | heq
      · exact ih todo (heq ▸ hpc)
      · refine ih todo ?_
        rw [heq] at hpc
        cases hold : s.updater <;> simp [hold, wakeTick] at hpc ⊢
        exact hpc

/-- The counter of those who have to finish changes in the work on a twin only. -/
theorem effect_notDone {woken : Option Worker} (heffect : Effect cfg s (.updater woken) s')
    (hne : (s'.world.emergencies e).rescuersNotDoneYet ≠
      (s.world.emergencies e).rescuersNotDoneYet) :
    ∃ op rest, s.updater = .updating (op :: rest) ∧ op.BeforeSlots := by
  cases heffect with
  | quiet hq => exact absurd (by rw [hq.world]) hne
  | stays t rest w hpc => exact ⟨_, rest, hpc, by simp [UpdateOp.BeforeSlots]⟩
  | walked t rest w outside arrived hpc => exact ⟨_, rest, hpc, by simp [UpdateOp.BeforeSlots]⟩
  | arrived t rest w hpc => exact ⟨_, rest, hpc, by simp [UpdateOp.BeforeSlots]⟩
  | fatal t rest w hpc => exact ⟨_, rest, hpc, by simp [UpdateOp.BeforeSlots]⟩
  | slot i e' rest worker hpc hactive hwoken =>
      obtain ⟨-, -, -, -, -, hnotDone, -, -⟩ :=
        updateActiveEmergencyState_spec cfg.priorityLookupTable (s.world.emergencies e')
      refine absurd ?_ hne
      by_cases he : e = e'
      · subst he; simpa using hnotDone
      · simp [he]
  | mapWaiting hpc =>
      refine absurd ?_ hne
      dsimp only
      split <;> rfl
  | extract e' queue pred pc hpc hextract hnext => exact absurd rfl hne
  | expire e' level hpc =>
      refine absurd ?_ hne
      by_cases he : e = e'
      · subst he; simp
      · simp [he]
  | promote e' level worker hpc hwoken =>
      refine absurd ?_ hne
      by_cases he : e = e'
      · subst he; simp [promoteEmergency]
      · simp [he]

/-- The rest of the tick, from the step in which the last rescuer leaves. -/
theorem lastTick_of_step (hreach : Reachable cfg s) (hactive : s.world.active i = some e)
    (hpaused : (s.world.emergencies e).status ≠ .paused) {woken : Option Worker}
    (hstep : State.step cfg s (.updater woken) = some s')
    (hbefore : 0 < (s.world.emergencies e).rescuersNotDoneYet)
    (hafter : (s'.world.emergencies e).rescuersNotDoneYet = 0) :
    LastTick s' i e (s.world.emergencies e).promotionTimer := by
  have hinv := reachable_invariant hreach
  obtain ⟨op, rest, hpc, hop⟩ := effect_notDone (step_effect hstep).2 (e := e) (by omega)
  cases (step_thread hstep).2 with
  | updater woken _ h =>
      simp only [stepUpdater, hpc] at h
      obtain ⟨hwork, hgoes⟩ := stepUpdate_before hinv hop h
      obtain ⟨slots', notArrived, notDone, hsame⟩ := hwork.orders e
      obtain ⟨ops, slots, hleft⟩ := scheduled_of_reachable hreach hpc
      have hi : i ∈ slots := by
        obtain ⟨-, -, -, hall⟩ := hleft.of_before hop
        rw [hall]
        exact List.mem_finRange i
      have hcompleted : (s.world.emergencies e).status ≠ .completed := by
        intro h
        have := (hinv.links.status e).2 h
        omega
      -- the slot of the emergency is among those that this update has still to visit
      have hready : ∀ {todo ops'}, s'.updater = .updating todo → Schedule todo ops' slots →
          LastTick s' i e (s.world.emergencies e).promotionTimer := by
        intro todo ops' hpc' hleft'
        refine .ready hpc' hleft' hi (by rw [hwork.active, hactive]) ?_ ?_ ?_ hafter.le
        · rw [hsame]
        · rwa [hsame]
        · rwa [hsame]
      rcases hgoes with hcrash | hdiverged | ⟨more, hmore, hpc'⟩
      · exact hready (hcrash.trans hpc) hleft
      · exact .endless hdiverged
      · obtain ⟨ops', hleft'⟩ := hleft.replace hop hmore
        exact hready hpc' hleft'

theorem lastTick_of_run {timer : ℤ} (hreach : Reachable cfg s) (h : LastTick s i e timer)
    (hlt : e < s.nextId)
    (hsection : ReachableWith (State.step cfg) (fun s _ => s.systemFree = false) s s') :
    LastTick s' i e timer := by
  have hkept : LastTick s' i e timer ∧ e < s'.nextId := by
    refine hsection.invariant (fun s => LastTick s i e timer ∧ e < s.nextId) ⟨h, hlt⟩ ?_
    intro s₁ a s₂ hs ⟨ih, hlt₁⟩ hlocked hstep
    have hinv := reachable_invariant (hreach.trans hs.reachable)
    refine ⟨ih.step hinv hlt₁ hlocked hstep, ?_⟩
    rcases step_accepted hstep with ⟨hid, -⟩ | ⟨hid, -⟩ <;> rw [hid]
    · exact hlt₁
    · exact Nat.lt_succ_of_lt hlt₁
  exact hkept.1

/-- **Completion in the same tick.**  In the tick in which the last rescuer of an
active emergency that is not paused leaves the scene, the updater completes the
emergency and signals its worker if and only if no promotion of the emergency is
pending. -/
theorem completed_in_last_tick_iff (hreach : Reachable cfg s)
    (hactive : s.world.active i = some e) (hpaused : (s.world.emergencies e).status ≠ .paused)
    {woken : Option Worker} (hstep : State.step cfg s (.updater woken) = some s')
    (hbefore : 0 < (s.world.emergencies e).rescuersNotDoneYet)
    (hafter : (s'.world.emergencies e).rescuersNotDoneYet = 0) {sEnd : State}
    (hsection : ReachableWith (State.step cfg) (fun s _ => s.systemFree = false) s' sEnd)
    (hend : sEnd.updater = .updating []) :
    ((sEnd.world.emergencies e).status = .completed ∧ ∀ j, sEnd.worker j ≠ .blocked e) ↔
      (s.world.emergencies e).promotionTimer = NO_PROMOTION := by
  have hlast := lastTick_of_step hreach hactive hpaused hstep hbefore hafter
  have hlt : e < s'.nextId := by
    have hold := (reachable_invariant hreach).custody.worker_lt
      ((reachable_invariant hreach).emergency_of_active hactive)
    rcases step_accepted hstep with ⟨hid, -⟩ | ⟨hid, -⟩ <;> rw [hid]
    · exact hold
    · exact Nat.lt_succ_of_lt hold
  have hlastEnd := lastTick_of_run (hreach.next trivial hstep) hlast hlt hsection
  cases hlastEnd with
  | free h => simp [systemFree, hend] at h
  | endless h => simp [hend] at h
  | ready hpc hleft hi =>
      obtain rfl := UpdaterPc.updating.inj (hend.symm.trans hpc)
      have heq := hleft.eq
      simp only [List.nil_eq, List.append_eq_nil_iff, List.map_eq_nil_iff] at heq
      simp [heq.2] at hi
  | settled hpc hleft hi hactive' hcompleted hpending =>
      refine ⟨fun h => ?_, hcompleted⟩
      by_contra hne
      exact hpending hne h.1

/-- A server with one type of emergencies, of the lowest priority. -/
def lowPriorityServer : Config :=
  { exampleServer with
    emergencies := [⟨0, ['p'], [⟨exampleRescuerA, 1, 1⟩]⟩]
    requests_mem := by decide }

/-- An emergency gets its only rescuer, who arrives in the first tick; in the
second one the updater is about to treat this rescuer. -/
def lastStay (message : String) : List Action :=
  threadsStart ++ requestArrives message ++ workerSteps 0 6 ++ clockTicks 21 ++ clockTicks 4

/-- The rest of the section of the updater, from there on. -/
def sectionEnd (cfg : Config) (s : State) : State :=
  continueWith (fun s _ => s.systemFree = false) cfg s (List.replicate 12 (.updater none))

/-- Priority 2 has no promotion: the emergency is completed in the tick in which
its rescuer leaves. -/
theorem completed_in_last_tick :
    let s := stateAfter exampleServer (lastStay "g 5 4 0")
    let s' := nextState exampleServer s (.updater none)
    let sEnd := sectionEnd exampleServer s'
    (s.world.emergencies 3).promotionTimer = NO_PROMOTION ∧
      (sEnd.world.emergencies 3).status = .completed ∧ ∀ j, sEnd.worker j ≠ .blocked 3 := by
  intro s s' sEnd
  have htimer : (s.world.emergencies 3).promotionTimer = NO_PROMOTION := by decide +kernel
  refine ⟨htimer, ?_⟩
  have hstep : State.step exampleServer s (.updater none) = some s' :=
    step_nextState (by decide +kernel)
  have hactive : s.world.active 0 = some 3 := by decide +kernel
  have hpaused : (s.world.emergencies 3).status ≠ .paused := by decide +kernel
  have hbefore : 0 < (s.world.emergencies 3).rescuersNotDoneYet := by decide +kernel
  have hafter : (s'.world.emergencies 3).rescuersNotDoneYet = 0 := by decide +kernel
  have hend : sEnd.updater = .updating [] := by decide +kernel
  have hreach : Reachable exampleServer s := reachable_stateAfter _ _
  have hsection : ReachableWith (State.step exampleServer) (fun s _ => s.systemFree = false) s'
      sEnd := reachableWith_continueWith _ _ _ _
  exact (completed_in_last_tick_iff hreach hactive hpaused hstep hbefore hafter hsection
    hend).mpr htimer

/-- A promotion of the emergency is pending: in the tick in which its only
rescuer leaves, it stays as it is and its worker stays blocked. -/
theorem not_completed_in_last_tick :
    let s := stateAfter lowPriorityServer (lastStay "p 5 4 0")
    let s' := nextState lowPriorityServer s (.updater none)
    let sEnd := sectionEnd lowPriorityServer s'
    Reachable lowPriorityServer s ∧
      State.step lowPriorityServer s (.updater none) = some s' ∧
      ReachableWith (State.step lowPriorityServer) (fun s _ => s.systemFree = false) s' sEnd ∧
      sEnd.updater = .updating [] ∧ s.world.active 0 = some 1 ∧
      (s.world.emergencies 1).status = .assigned ∧
      (s.world.emergencies 1).rescuersNotDoneYet = 1 ∧
      (s'.world.emergencies 1).rescuersNotDoneYet = 0 ∧
      (sEnd.world.emergencies 1).status ≠ .completed ∧ sEnd.worker 0 = .blocked 1 := by
  intro s s' sEnd
  refine ⟨reachable_stateAfter _ _, step_nextState (by decide +kernel),
    reachableWith_continueWith _ _ _ _, by decide +kernel, by decide +kernel, ?_⟩
  exact ⟨by decide +kernel, by decide +kernel, by decide +kernel, by decide +kernel,
    by decide +kernel⟩

end EmergencyDispatch
