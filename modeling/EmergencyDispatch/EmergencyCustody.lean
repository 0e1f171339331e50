import EmergencyDispatch.Effects
import EmergencyDispatch.Library.Custody

/-!
# Who has an emergency

An emergency is in `emergency_queue` or in the hands of one thread: the
receiver that has made it, the updater that has taken it out of the queue, the
worker that has popped it.  Custody is exclusive, and once a worker has popped
an emergency nobody else ever has it (`InCustody`).
-/

namespace EmergencyDispatch

open State

/-- Where an emergency can be. -/
inductive Place
  | queue
  | receiver
  | updater
  | worker (i : Worker)
  deriving DecidableEq

/-- The emergencies at a place. -/
def State.holds (s : State) : Place → List EmergencyId
  | .queue => s.emergencyQueue.contents
  | .receiver => s.receiver.emergency.toList
  | .updater => s.updater.emergency.toList
  | .worker i => (s.worker i).emergency.toList

/-- Custody is exclusive, of emergencies that exist, and final for a worker. -/
structure InCustody (cfg : Config) (s : State) : Prop where
  exclusive : Custody.Exclusive s.holds
  fresh : ∀ p, ∀ e ∈ s.holds p, e < s.nextId
  popped_fresh : ∀ i e, (i, e) ∈ s.popped → e < s.nextId
  popped_place : ∀ i e, (i, e) ∈ s.popped → ∀ p, e ∈ s.holds p → p = .worker i
  popped_of_worker : ∀ i e, (s.worker i).emergency = some e → (i, e) ∈ s.popped
  queue_levels : s.emergencyQueue.lists.length = cfg.priorityLookupTable.length

variable {cfg : Config} {s s' : State}

theorem mem_holds_worker {i : Worker} {e : EmergencyId} :
    e ∈ s.holds (.worker i) ↔ (s.worker i).emergency = some e := by
  simp [State.holds]

theorem mem_holds_receiver {e : EmergencyId} :
    e ∈ s.holds .receiver ↔ s.receiver.emergency = some e := by
  simp [State.holds]

theorem mem_holds_updater {e : EmergencyId} :
    e ∈ s.holds .updater ↔ s.updater.emergency = some e := by
  simp [State.holds]

theorem holds_initialState (cfg : Config) (p : Place) : (initialState cfg).holds p = [] := by
  cases p <;> simp [State.holds, initialState, ReceiverPc.emergency, UpdaterPc.emergency,
    WorkerPc.emergency]

theorem initial_inCustody (cfg : Config) : InCustody cfg (initialState cfg) := by
  have hnone := holds_initialState cfg
  refine ⟨⟨fun p => ?_, fun {p} _ _ h => ?_⟩, fun p e h => ?_, ?_, ?_, ?_, ?_⟩
  · rw [hnone p]; exact List.nodup_nil
  · simp [hnone p] at h
  · simp [hnone p] at h
  · simp [initialState]
  · simp [initialState]
  · simp [initialState, WorkerPc.emergency]
  · simp [initialState, Pq.create]

namespace InCustody

/-- What is not with a worker has never been popped. -/
theorem not_popped (h : InCustody cfg s) {p : Place} {e : EmergencyId} (he : e ∈ s.holds p)
    (hp : ∀ i, p ≠ .worker i) (i : Worker) : (i, e) ∉ s.popped :=
  fun hpopped => hp i (h.popped_place i e hpopped p he)

theorem worker_unique (h : InCustody cfg s) {i j : Worker} {e : EmergencyId}
    (hi : (s.worker i).emergency = some e) (hj : (s.worker j).emergency = some e) : i = j := by
  have := h.exclusive.unique (mem_holds_worker.mpr hi) (mem_holds_worker.mpr hj)
  exact Place.worker.inj this

theorem worker_lt (h : InCustody cfg s) {i : Worker} {e : EmergencyId}
    (hi : (s.worker i).emergency = some e) : e < s.nextId :=
  h.fresh _ _ (mem_holds_worker.mpr hi)

theorem worker_ne_updater (h : InCustody cfg s) {i : Worker} {e : EmergencyId}
    (hi : (s.worker i).emergency = some e) : s.updater.emergency ≠ some e := by
  intro hu
  have := h.exclusive.unique (mem_holds_worker.mpr hi) (mem_holds_updater.mpr hu)
  simp at this

theorem lists_ne_nil (h : InCustody cfg s) : s.emergencyQueue.lists ≠ [] := by
  intro hnil
  have hlength := h.queue_levels
  rw [hnil] at hlength
  exact cfg.priorityLookupTable_ne_nil (List.length_eq_zero_iff.mp hlength.symm)

/-! ## Steps that move no emergency, or drop one -/

theorem of_subperm (h : InCustody cfg s) (hsub : ∀ p, (s'.holds p).Subperm (s.holds p))
    (hnextId : s'.nextId = s.nextId) (hpopped : s'.popped = s.popped)
    (hworker : ∀ i e, (s'.worker i).emergency = some e → (s.worker i).emergency = some e)
    (hlevels : s'.emergencyQueue.lists.length = s.emergencyQueue.lists.length) :
    InCustody cfg s' where
  exclusive := h.exclusive.of_subperm hsub
  fresh p e he := by rw [hnextId]; exact h.fresh p e ((hsub p).subset he)
  popped_fresh i e he := by rw [hnextId]; exact h.popped_fresh i e (hpopped ▸ he)
  popped_place i e he p hp := h.popped_place i e (hpopped ▸ he) p ((hsub p).subset hp)
  popped_of_worker i e he := by rw [hpopped]; exact h.popped_of_worker i e (hworker i e he)
  queue_levels := hlevels.trans h.queue_levels

/-! ## Steps that move an emergency that no worker has -/

/-- An emergency passes between the queue, the receiver and the updater. -/
theorem of_move (h : InCustody cfg s) {p q : Place} {e : EmergencyId} (hpq : p ≠ q)
    (hworker : ∀ i, p ≠ .worker i) (hp : (s.holds p).Perm (e :: s'.holds p))
    (hq : (s'.holds q).Perm (e :: s.holds q))
    (hother : ∀ r, r ≠ p → r ≠ q → (s'.holds r).Perm (s.holds r))
    (hnextId : s'.nextId = s.nextId) (hpopped : s'.popped = s.popped)
    (hworkers : ∀ i, (s'.worker i).emergency = (s.worker i).emergency)
    (hlevels : s'.emergencyQueue.lists.length = s.emergencyQueue.lists.length) :
    InCustody cfg s' := by
  have he : e ∈ s.holds p := hp.mem_iff.mpr (by simp)
  have hmem : ∀ r x, x ∈ s'.holds r → x = e ∨ x ∈ s.holds r := by
    intro r x hx
    by_cases hrp : r = p
    · subst hrp; exact .inr (hp.mem_iff.mpr (List.mem_cons_of_mem _ hx))
    · by_cases hrq : r = q
      · subst hrq; simpa using hq.mem_iff.mp hx
      · exact .inr ((hother r hrp hrq).mem_iff.mp hx)
  refine ⟨h.exclusive.move hpq hp hq hother, fun r x hx => ?_, fun i x hx => ?_,
    fun i x hx r hr => ?_, fun i x hx => ?_, hlevels.trans h.queue_levels⟩
  · rw [hnextId]
    rcases hmem r x hx with rfl | hx
    · exact h.fresh p x he
    · exact h.fresh r x hx
  · rw [hnextId]; exact h.popped_fresh i x (hpopped ▸ hx)
  · rw [hpopped] at hx
    rcases hmem r x hr with rfl | hr
    · exact absurd hx (h.not_popped he hworker i)
    · exact h.popped_place i x hx r hr
  · rw [hpopped]; exact h.popped_of_worker i x (hworkers i ▸ hx)

/-- Nobody gets an emergency, and some thread may drop the one it has. -/
theorem of_keep (h : InCustody cfg s) (hlists : s'.emergencyQueue.lists = s.emergencyQueue.lists)
    (hreceiver : s'.receiver.emergency = s.receiver.emergency ∨ s'.receiver.emergency = none)
    (hupdater : s'.updater.emergency = s.updater.emergency ∨ s'.updater.emergency = none)
    (hworker : ∀ i, (s'.worker i).emergency = (s.worker i).emergency ∨
      (s'.worker i).emergency = none)
    (hnextId : s'.nextId = s.nextId) (hpopped : s'.popped = s.popped) : InCustody cfg s' := by
  have hoption : ∀ x y : Option EmergencyId, x = y ∨ x = none → x.toList.Subperm y.toList := by
    rintro x y (rfl | rfl)
    · exact .refl _
    · exact List.nil_subperm
  refine h.of_subperm (fun p => ?_) hnextId hpopped (fun i e he => ?_) (by rw [hlists])
  · cases p with
    | queue =>
        have hcontents : s'.emergencyQueue.contents = s.emergencyQueue.contents := by
          simp [Pq.contents, hlists]
        simpa [State.holds, hcontents] using List.Subperm.refl s.emergencyQueue.contents
    | receiver => exact hoption _ _ hreceiver
    | updater => exact hoption _ _ hupdater
    | worker i => exact hoption _ _ (hworker i)
  · rcases hworker i with hsame | hnone
    · rwa [← hsame]
    · simp [hnone] at he

/-- A thread that is not a worker pushes its emergency on the queue, which a
closed queue drops. -/
theorem of_push (h : InCustody cfg s) {p : Place} {e : EmergencyId} {level : ℤ}
    (hp : p = .receiver ∨ p = .updater)
    (hfrom : s.holds p = [e]) (hto : s'.holds p = [])
    (hqueue : s'.emergencyQueue = s.emergencyQueue.push e level)
    (hreceiver : p = .updater → s'.receiver.emergency = s.receiver.emergency)
    (hupdater : p = .receiver → s'.updater.emergency = s.updater.emergency)
    (hworker : ∀ i, (s'.worker i).emergency = (s.worker i).emergency)
    (hnextId : s'.nextId = s.nextId) (hpopped : s'.popped = s.popped) : InCustody cfg s' := by
  cases hclosed : s.emergencyQueue.closed with
  | true =>
      -- a closed queue drops the emergency, which is then held nowhere
      rw [Pq.push_of_closed hclosed] at hqueue
      refine h.of_keep (by rw [hqueue]) ?_ ?_ (fun i => .inl (hworker i)) hnextId hpopped
      · rcases hp with rfl | rfl
        · exact .inr (by simpa [State.holds] using hto)
        · exact .inl (hreceiver rfl)
      · rcases hp with rfl | rfl
        · exact .inl (hupdater rfl)
        · exact .inr (by simpa [State.holds] using hto)
  | false =>
      have hlevels := h.lists_ne_nil
      refine h.of_move (p := p) (q := .queue) (e := e) (by rcases hp with rfl | rfl <;> simp)
        (by rcases hp with rfl | rfl <;> simp) (by rw [hfrom, hto]) ?_ (fun r hrp hrq => ?_)
        hnextId hpopped hworker (by rw [hqueue, Pq.length_lists_push])
      · simpa [State.holds, hqueue] using Pq.contents_push_perm hclosed hlevels e level
      · refine List.Perm.of_eq ?_
        cases r with
        | queue => exact absurd rfl hrq
        | receiver =>
            rcases hp with rfl | rfl
            · exact absurd rfl hrp
            · simp [State.holds, hreceiver]
        | updater =>
            rcases hp with rfl | rfl
            · simp [State.holds, hupdater]
            · exact absurd rfl hrp
        | worker i => simp [State.holds, hworker]

theorem of_pop (h : InCustody cfg s) {i : Worker} {e : EmergencyId} {queue : Pq}
    (hpc : s.worker i = .pop) (hpop : s.emergencyQueue.pop = some (e, queue))
    (hqueue : s'.emergencyQueue = queue) (hreceiver : s'.receiver = s.receiver)
    (hupdater : s'.updater = s.updater)
    (hworker : s'.worker = Function.update s.worker i (.popped e))
    (hnextId : s'.nextId = s.nextId) (hpopped : s'.popped = s.popped ++ [(i, e)]) :
    InCustody cfg s' := by
  obtain ⟨hperm, -, hlength⟩ := Pq.pop_spec hpop
  rw [← hqueue] at hperm hlength
  have he : e ∈ s.holds .queue := hperm.mem_iff.mpr (by simp)
  have hexclusive : Custody.Exclusive s'.holds := by
    refine h.exclusive.move (p := .queue) (q := .worker i) (a := e) (by simp) hperm
      (by simp [State.holds, hworker, hpc, WorkerPc.emergency]) fun r hrp hrq => ?_
    refine List.Perm.of_eq ?_
    cases r with
    | queue => exact absurd rfl hrp
    | worker j =>
        have hj : j ≠ i := fun hj => hrq (hj ▸ rfl)
        simp [State.holds, hworker, hj]
    | receiver => simp [State.holds, hreceiver]
    | updater => simp [State.holds, hupdater]
  -- what is held was held there before, except `e` at the worker
  have hmem : ∀ r x, x ∈ s'.holds r → (x = e ∧ r = .worker i) ∨ x ∈ s.holds r := by
    intro r x hx
    cases r with
    | queue => exact .inr (hperm.mem_iff.mpr (List.mem_cons_of_mem _ hx))
    | worker j =>
        rw [mem_holds_worker, hworker] at hx
        by_cases hj : j = i
        · subst hj
          exact .inl ⟨by simpa [WorkerPc.emergency] using hx.symm, rfl⟩
        · exact .inr (mem_holds_worker.mpr (by simpa [hj] using hx))
    | receiver => exact .inr (by simpa [State.holds, hreceiver] using hx)
    | updater => exact .inr (by simpa [State.holds, hupdater] using hx)
  refine ⟨hexclusive, fun r x hx => ?_, fun j x hx => ?_, fun j x hx r hr => ?_, fun j x hx => ?_,
    hlength.trans h.queue_levels⟩
  · rw [hnextId]
    rcases hmem r x hx with ⟨rfl, -⟩ | hx
    · exact h.fresh _ _ he
    · exact h.fresh r x hx
  · rw [hnextId]
    rw [hpopped, List.mem_append, List.mem_singleton, Prod.mk.injEq] at hx
    rcases hx with hx | ⟨-, rfl⟩
    · exact h.popped_fresh j x hx
    · exact h.fresh _ _ he
  · rw [hpopped, List.mem_append, List.mem_singleton, Prod.mk.injEq] at hx
    rcases hx with hx | ⟨rfl, rfl⟩
    · rcases hmem r x hr with ⟨rfl, rfl⟩ | hr
      · exact (h.not_popped he (by simp) j hx).elim
      · exact h.popped_place j x hx r hr
    · exact hexclusive.unique hr (mem_holds_worker.mpr (by simp [hworker, WorkerPc.emergency]))
  · rw [hpopped, List.mem_append, List.mem_singleton, Prod.mk.injEq]
    rw [hworker] at hx
    by_cases hj : j = i
    · subst hj
      exact .inr ⟨rfl, by simpa [WorkerPc.emergency] using hx.symm⟩
    · exact .inl (h.popped_of_worker j x (by simpa [hj] using hx))

theorem of_receive (h : InCustody cfg s) (hpc : s.receiver.emergency = none)
    (hqueue : s'.emergencyQueue = s.emergencyQueue)
    (hreceiver : s'.receiver.emergency = some s.nextId) (hupdater : s'.updater = s.updater)
    (hworker : s'.worker = s.worker) (hnextId : s'.nextId = s.nextId + 1)
    (hpopped : s'.popped = s.popped) : InCustody cfg s' := by
  -- the numbers in custody are smaller than the next one
  have hnew : ∀ p, s.nextId ∉ s.holds p := fun p hp => absurd (h.fresh p _ hp) (by simp)
  have hsame : ∀ r, r ≠ .receiver → s'.holds r = s.holds r := by
    intro r hr
    cases r with
    | receiver => exact absurd rfl hr
    | queue => simp [State.holds, hqueue]
    | updater => simp [State.holds, hupdater]
    | worker j => simp [State.holds, hworker]
  have hmem : ∀ r x, x ∈ s'.holds r → (x = s.nextId ∧ r = .receiver) ∨ x ∈ s.holds r := by
    intro r x hx
    by_cases hr : r = .receiver
    · subst hr
      rw [mem_holds_receiver, hreceiver] at hx
      exact .inl ⟨(Option.some.inj hx).symm, rfl⟩
    · exact .inr (hsame r hr ▸ hx)
  refine ⟨h.exclusive.create (p := .receiver) hnew ?_ fun r hr => .of_eq (hsame r hr),
    fun r x hx => ?_, fun j x hx => ?_, fun j x hx r hr => ?_, fun j x hx => ?_, ?_⟩
  · simp [State.holds, hreceiver, hpc]
  · rw [hnextId]
    rcases hmem r x hx with ⟨rfl, -⟩ | hx
    · exact Nat.lt_succ_self _
    · exact Nat.lt_succ_of_lt (h.fresh r x hx)
  · rw [hnextId]
    exact Nat.lt_succ_of_lt (h.popped_fresh j x (hpopped ▸ hx))
  · rw [hpopped] at hx
    rcases hmem r x hr with ⟨rfl, -⟩ | hr
    · exact absurd (h.popped_fresh j _ hx) (by simp)
    · exact h.popped_place j x hx r hr
  · rw [hpopped]
    exact h.popped_of_worker j x (hworker ▸ hx)
  · rw [hqueue, h.queue_levels]

end InCustody

/-! ## Every step keeps custody -/

theorem LocalMove.emergency {pc pc' : WorkerPc} (h : LocalMove s pc pc') :
    pc'.emergency = pc.emergency ∨ pc'.emergency = none := by
  cases h <;> first | exact .inl rfl | exact .inr rfl

theorem StoreReason.next_emergency (e : EmergencyId) (reason : StoreReason) :
    (reason.next e).emergency = some e ∨ (reason.next e).emergency = none := by
  cases reason <;> first | exact .inl rfl | exact .inr rfl

/-- The program counters after a step of worker `i`. -/
theorem emergency_update {worker : Worker → WorkerPc} {i : Worker} {pc : WorkerPc}
    (hother : ∀ j, Woken (s.worker j) (worker j))
    (hi : pc.emergency = (s.worker i).emergency ∨ pc.emergency = none) (j : Worker) :
    (Function.update worker i pc j).emergency = (s.worker j).emergency ∨
      (Function.update worker i pc j).emergency = none := by
  by_cases hj : j = i
  · subst hj; simpa using hi
  · rw [Function.update_of_ne hj]
    exact .inl (hother j).emergency

theorem effect_inCustody {a : Action} (h : InCustody cfg s) (heffect : Effect cfg s a s') :
    InCustody cfg s' := by
  have hsame : ∀ j, Woken (s.worker j) (s.worker j) := fun j => .same _
  cases heffect with
  | quiet hq =>
      exact h.of_keep hq.lists (.inl hq.receiver) (.inl hq.updater)
        (fun i => .inl (hq.worker i).emergency) hq.nextId hq.popped
  -- a worker keeps its emergency or drops it
  | move i pc hmove =>
      exact h.of_keep rfl (.inl rfl) (.inl rfl) (emergency_update hsame hmove.emergency) rfl rfl
  | pop i e queue hpc hpop =>
      exact h.of_pop hpc hpop rfl rfl rfl rfl rfl rfl
  | openSlot i e hpc =>
      exact h.of_keep rfl (.inl rfl) (.inl rfl)
        (emergency_update hsame (.inl (by rw [hpc]; rfl))) rfl rfl
  | search i e w found worker hpc hfind hwoken =>
      refine h.of_keep rfl (.inl rfl) (.inl rfl) (emergency_update hwoken (.inl ?_)) rfl rfl
      rw [hpc]
      split <;> rfl
  | store i e reason level hpc =>
      exact h.of_keep rfl (.inl rfl) (.inl rfl)
        (emergency_update hsame (by rw [hpc]; exact reason.next_emergency e)) rfl rfl
  | closeSlot i leaving hpc =>
      refine h.of_keep rfl (.inl rfl) (.inl rfl) (emergency_update hsame (.inr ?_)) rfl rfl
      split <;> rfl
  -- in its update the updater has no emergency in its hands
  | stays t rest w hpc hupdate =>
      exact h.of_keep rfl (.inl rfl) (.inr rfl) (fun i => .inl rfl) rfl rfl
  | walked t rest w outside arrived hpc hupdate =>
      exact h.of_keep rfl (.inl rfl) (.inr rfl) (fun i => .inl rfl) rfl rfl
  | arrived t rest w hpc harrive =>
      exact h.of_keep rfl (.inl rfl) (.inr rfl) (fun i => .inl rfl) rfl rfl
  | fatal t rest w hpc harrive =>
      exact h.of_keep rfl (.inl rfl) (.inr rfl) (fun i => .inl rfl) rfl rfl
  | slot i e rest worker hpc hactive hwoken =>
      exact h.of_keep rfl (.inl rfl) (.inr rfl) (fun i => .inl (hwoken i).emergency) rfl rfl
  | mapWaiting hpc => exact h.of_keep rfl (.inl rfl) (.inr rfl) (fun i => .inl rfl) rfl rfl
  | extract e queue pred pc hpc hextract hnext =>
      obtain ⟨-, hperm, -, hlength⟩ := Pq.extractFirst_spec hextract
      have hpc' : pc.emergency = some e := by rcases hnext with rfl | rfl <;> rfl
      refine h.of_move (p := .queue) (q := .updater) (e := e) (by simp) (by simp) hperm ?_
        (fun r hrp hrq => ?_) rfl rfl (fun i => rfl) hlength
      · simp [State.holds, hpc, hpc']
      · cases r with
        | queue => exact absurd rfl hrp
        | updater => exact absurd rfl hrq
        | receiver => exact .refl _
        | worker i => exact .refl _
  | expire e level hpc => exact h.of_keep rfl (.inl rfl) (.inr rfl) (fun i => .inl rfl) rfl rfl
  | promote e level worker hpc hwoken =>
      exact h.of_push (.inr rfl)
        (by simp [State.holds, hpc, UpdaterPc.emergency])
        (by simp [State.holds, UpdaterPc.emergency]) rfl (fun _ => rfl) (by simp)
        (fun i => (hwoken i).emergency) rfl rfl
  | receive request emergency mq hpc hemergency =>
      exact h.of_receive hpc rfl rfl rfl rfl rfl rfl
  | receiverPush e level worker hpc hwoken =>
      exact h.of_push (.inl rfl)
        (by simp [State.holds, hpc, ReceiverPc.emergency])
        (by simp [State.holds, ReceiverPc.emergency]) rfl (by simp) (fun _ => rfl)
        (fun i => (hwoken i).emergency) rfl rfl

end EmergencyDispatch
