import EmergencyDispatch.Accounting
import EmergencyDispatch.Locking
import Mathlib.Data.Finset.Card
import Mathlib.Data.Fintype.Basic

/-!
# No wake-up is lost

A worker waits on two condition variables: on `not_empty` in `pq_pop`, and on
`e->cond` until its emergency is paused or completed or the server stops.

* Whoever pauses or completes an emergency signals it in the same section, and the
  worker tests the status under the same mutex before it blocks.
* A push wakes one worker only, so the workers that have been woken and have not
  popped yet (`recordWakes`, a history) are counted: as long as a worker waits in
  `pq_pop` there are at least as many of them as items.
* The shutdown raises `server_must_stop` before it wakes the workers of the slots,
  and a blocked worker has its emergency in its slot.
-/

namespace EmergencyDispatch

open State TransitionSystem

variable {cfg : Config} {s s' : State} {a : Action} {i j : Worker} {e : EmergencyId}

/-! ## Blocked workers -/

theorem Woken.of_blocked {pc : WorkerPc} (h : Woken pc (.blocked e)) : pc = .blocked e := by
  cases h with
  | same => rfl

theorem Woken.of_popWait {pc : WorkerPc} (h : Woken pc .popWait) : pc = .popWait := by
  cases h with
  | same => rfl

theorem Woken.of_pop {pc : WorkerPc} (h : Woken .pop pc) : pc = .pop := by
  cases h with
  | same => rfl

theorem effect_block (hinv : Invariant cfg s) (heffect : Effect cfg s a s')
    (hblocked : s'.worker i = .blocked e) :
    (s.worker i = .blocked e ∧ (Resumed s' e → Resumed s e)) ∨
      (¬Resumed s' e ∧ s.serverMustStop = false) := by
  by_cases ha : a = .worker i
  · subst ha
    cases heffect with
    | quiet hq =>
        have hbefore : s.worker i = .blocked e := (hblocked ▸ hq.worker i).of_blocked
        exact .inl ⟨hbefore, (hq.undisturbed i).awake e hblocked⟩
    | move _ pc hmove =>
        obtain rfl : pc = .blocked e := by simpa [setWorker] using hblocked
        generalize s.worker i = before at hmove
        cases hmove with
        | block _ h => exact .inr ⟨fun hresumed => hresumed.elim h.1 h.2.1, h.2.2⟩
    | pop _ e' queue hpc hpop => simp at hblocked
    | openSlot _ e' hpc => simp [setWorker] at hblocked
    | search _ e' w found worker hpc hfind hwoken => cases found <;> simp at hblocked
    | store _ e' reason level hpc => cases reason <;> simp [StoreReason.next] at hblocked
    | closeSlot _ leaving hpc => cases leaving <;> simp [setWorker] at hblocked
  · obtain ⟨hundisturbed, hwoken⟩ := effect_undisturbed hinv heffect ha
    rw [hblocked] at hwoken
    exact .inl ⟨hwoken.of_blocked, hundisturbed.awake e hblocked⟩

/-- A closed queue has no waiting worker, and nobody sleeps through the end of its wait. -/
structure Awake (s : State) : Prop where
  resumed : ∀ i e, s.worker i = .blocked e → ¬Resumed s e
  closed : s.emergencyQueue.closed = true → ∀ i, s.worker i ≠ .popWait

/-- The queue of requests is closed once and for all, and all waiting workers are woken. -/
theorem effect_closed (heffect : Effect cfg s a s') :
    s'.emergencyQueue.closed = s.emergencyQueue.closed ∨
      s'.emergencyQueue.closed = true ∧ ∀ i, s'.worker i ≠ .popWait := by
  cases heffect with
  | quiet hq => exact hq.closed
  | pop i e queue hpc hpop => exact .inl (Pq.pop_spec hpop).2.1
  | extract e queue pred pc hpc hextract => exact .inl (Pq.extractFirst_spec hextract).2.2.1
  | promote e level worker | receiverPush e level worker => exact .inl (Pq.push_closed ..)
  | _ => exact .inl rfl

theorem effect_popWait (hinv : Invariant cfg s) (heffect : Effect cfg s a s')
    (hwait : s'.worker i = .popWait) : s.worker i = .popWait ∨
      (s.emergencyQueue.closed = false ∧ s.emergencyQueue.pop = none ∧
        s'.emergencyQueue = s.emergencyQueue) := by
  by_cases ha : a = .worker i
  · subst ha
    cases heffect with
    | quiet hq => exact .inl (hwait ▸ hq.worker i).of_popWait
    | move _ pc hmove =>
        obtain rfl : pc = .popWait := by simpa [setWorker] using hwait
        generalize s.worker i = before at hmove
        cases hmove with
        | empty hempty hopen => exact .inr ⟨hopen, hempty, rfl⟩
    | pop _ e' queue hpc hpop => simp at hwait
    | openSlot _ e' hpc => simp [setWorker] at hwait
    | search _ e' w found worker hpc hfind hwoken => cases found <;> simp at hwait
    | store _ e' reason level hpc => cases reason <;> simp [StoreReason.next] at hwait
    | closeSlot _ leaving hpc => cases leaving <;> simp [setWorker] at hwait
  · have hwoken := (effect_undisturbed hinv heffect ha).2
    rw [hwait] at hwoken
    exact .inl hwoken.of_popWait

theorem Awake.step (h : Awake s) (hinv : Invariant cfg s) (heffect : Effect cfg s a s') :
    Awake s' where
  resumed i e hblocked hresumed := by
    rcases effect_block hinv heffect hblocked with ⟨hbefore, hkept⟩ | ⟨hnot, -⟩
    · exact h.resumed i e hbefore (hkept hresumed)
    · exact hnot hresumed
  closed hclosed i hwait := by
    rcases effect_closed heffect with hsame | ⟨-, hnobody⟩
    · rw [hsame] at hclosed
      rcases effect_popWait hinv heffect hwait with hbefore | ⟨hopen, -⟩
      · exact h.closed hclosed i hbefore
      · rw [hopen] at hclosed
        cases hclosed
    · exact hnobody i hwait

/-! ## Waiting for an item -/

/-- The workers that have been woken in `pq_pop` and have not taken the mutex since. -/
def recordWakes (s s' : State) (pending : Finset Worker) : Finset Worker :=
  Finset.univ.filter fun i => s'.worker i = .pop ∧ (s.worker i = .popWait ∨ i ∈ pending)

/-- As long as workers wait for an item, there is a pending wake-up for every item. -/
structure Served (s : State) (pending : Finset Worker) : Prop where
  woken : ∀ i ∈ pending, s.worker i = .pop
  enough : (∃ i, s.worker i = .popWait) → s.emergencyQueue.contents.length ≤ pending.card

namespace Served

variable {pending : Finset Worker}

theorem woken_recordWakes (s s' : State) (pending : Finset Worker) :
    ∀ i ∈ recordWakes s s' pending, s'.worker i = .pop := by
  intro i hi
  exact (Finset.mem_filter.mp hi).2.1

/-- A wake-up is pending as long as the worker does not move. -/
theorem subset_recordWakes (hkept : ∀ i ∈ pending, s'.worker i = .pop) :
    pending ⊆ recordWakes s s' pending := by
  intro i hi
  exact Finset.mem_filter.mpr ⟨Finset.mem_univ i, hkept i hi, .inr hi⟩

/-- No item comes, no worker leaves `pq_pop` or comes to wait there. -/
theorem of_kept (h : Served s pending)
    (hwait : (∃ i, s'.worker i = .popWait) → ∃ i, s.worker i = .popWait)
    (hlength : s'.emergencyQueue.contents.length ≤ s.emergencyQueue.contents.length)
    (hkept : ∀ i, s.worker i = .pop → s'.worker i = .pop) :
    Served s' (recordWakes s s' pending) where
  woken := woken_recordWakes s s' pending
  enough hsome := by
    have hsubset : pending ⊆ recordWakes s s' pending :=
      subset_recordWakes fun i hi => hkept i (h.woken i hi)
    calc s'.emergencyQueue.contents.length
        ≤ s.emergencyQueue.contents.length := hlength
      _ ≤ pending.card := h.enough (hwait hsome)
      _ ≤ (recordWakes s s' pending).card := Finset.card_le_card hsubset

theorem of_woken (h : Served s pending) (hwoken : ∀ i, Woken (s.worker i) (s'.worker i))
    (hlength : s'.emergencyQueue.contents.length ≤ s.emergencyQueue.contents.length) :
    Served s' (recordWakes s s' pending) := by
  refine h.of_kept ?_ hlength ?_
  · rintro ⟨i, hi⟩
    exact ⟨i, (hi ▸ hwoken i).of_popWait⟩
  · intro i hi
    exact (hi ▸ hwoken i).of_pop

/-- A worker that is not in `pq_pop` moves, and comes not to wait there. -/
theorem of_move (h : Served s pending) (hpc : s.worker i ≠ .pop) (hpc' : s'.worker i ≠ .popWait)
    (hwoken : ∀ j, j ≠ i → Woken (s.worker j) (s'.worker j))
    (hqueue : s'.emergencyQueue = s.emergencyQueue) :
    Served s' (recordWakes s s' pending) := by
  refine h.of_kept ?_ (by rw [hqueue]) ?_
  · rintro ⟨j, hj⟩
    have hji : j ≠ i := fun hji => hpc' (hji ▸ hj)
    exact ⟨j, (hj ▸ hwoken j hji).of_popWait⟩
  · intro j hj
    have hji : j ≠ i := fun hji => hpc (hji ▸ hj)
    exact (hj ▸ hwoken j hji).of_pop

theorem of_empty (hempty : s'.emergencyQueue.contents = []) :
    Served s' (recordWakes s s' pending) where
  woken := woken_recordWakes s s' pending
  enough _ := by simp [hempty]

theorem pop (h : Served s pending) {queue : Pq} (hpop : s.emergencyQueue.pop = some (e, queue)) :
    Served { s with
        emergencyQueue := queue
        popped := s.popped ++ [(i, e)]
        worker := Function.update s.worker i (.popped e) }
      (recordWakes s { s with
        emergencyQueue := queue
        popped := s.popped ++ [(i, e)]
        worker := Function.update s.worker i (.popped e) } pending) where
  woken := woken_recordWakes _ _ _
  enough := by
    rintro ⟨j, hj⟩
    have hji : j ≠ i := by
      rintro rfl
      simp at hj
    have hbefore := h.enough ⟨j, by simpa [hji] using hj⟩
    have hlength := (Pq.pop_spec hpop).1.length_eq
    have hsubset : pending.erase i ⊆ recordWakes s { s with
        emergencyQueue := queue
        popped := s.popped ++ [(i, e)]
        worker := Function.update s.worker i (.popped e) } pending := by
      intro k hk
      obtain ⟨hki, hk⟩ := Finset.mem_erase.mp hk
      refine Finset.mem_filter.mpr ⟨Finset.mem_univ k, ?_, .inr hk⟩
      simpa [hki] using h.woken k hk
    have hcard := Finset.card_le_card hsubset
    have herase := Finset.pred_card_le_card_erase (s := pending) (a := i)
    simp only [List.length_cons] at hlength
    show queue.contents.length ≤ _
    omega

theorem push (h : Served s pending) (hlevels : s.emergencyQueue.lists ≠ []) {level : ℤ}
    (hqueue : s'.emergencyQueue = s.emergencyQueue.push e level)
    (hwoken : ∀ i, Woken (s.worker i) (s'.worker i)) (hsignal : PushSignals s s'.worker) :
    Served s' (recordWakes s s' pending) := by
  cases hclosed : s.emergencyQueue.closed with
  | true =>
      rw [Pq.push_of_closed hclosed] at hqueue
      exact h.of_woken hwoken (by rw [hqueue])
  | false =>
      refine ⟨woken_recordWakes s s' pending, fun hsome => ?_⟩
      rcases hsignal hsome with hclosed' | ⟨i, hwait, hpop⟩
      · rw [hclosed] at hclosed'
        cases hclosed'
      · have hnew : i ∉ pending := by
          intro hi
          rw [h.woken i hi] at hwait
          cases hwait
        have hsubset : insert i pending ⊆ recordWakes s s' pending := by
          intro j hj
          rcases Finset.mem_insert.mp hj with rfl | hj
          · exact Finset.mem_filter.mpr ⟨Finset.mem_univ j, hpop, .inl hwait⟩
          · refine Finset.mem_filter.mpr ⟨Finset.mem_univ j, ?_, .inr hj⟩
            exact (h.woken j hj ▸ hwoken j).of_pop
        have hbefore := h.enough ⟨i, hwait⟩
        have hlength := (Pq.contents_push_perm hclosed hlevels e level).length_eq
        have hcard := Finset.card_le_card hsubset
        rw [Finset.card_insert_of_notMem hnew] at hcard
        simp only [List.length_cons] at hlength
        rw [hqueue]
        omega

theorem step (h : Served s pending) (hinv : Invariant cfg s) (heffect : Effect cfg s a s') :
    Served s' (recordWakes s s' pending) := by
  have hothers : ∀ i, a = .worker i → ∀ j, j ≠ i → Woken (s.worker j) (s'.worker j) := by
    rintro i rfl j hji
    exact (effect_undisturbed hinv heffect fun hij => hji (Action.worker.inj hij).symm).2
  cases heffect with
  | quiet hq => exact h.of_woken hq.worker (by rw [Pq.contents, Pq.contents, hq.lists])
  | move i pc hmove =>
      have hself : (s.setWorker i pc).worker i = pc := by simp [setWorker]
      generalize hpc : s.worker i = before at hmove
      cases hmove with
      | closed hempty _ | empty hempty _ => exact of_empty (Pq.contents_eq_nil_of_pop hempty)
      | _ =>
          refine h.of_move (i := i) ?_ ?_ (hothers i rfl) rfl
          · simp [hpc]
          · simp [hself]
  | pop i e queue hpc hpop => exact h.pop hpop
  | openSlot i e hpc =>
      refine h.of_move (i := i) ?_ ?_ (hothers i rfl) rfl
      · simp [hpc]
      · simp [setWorker]
  | search i e w found worker hpc hfind hwoken =>
      refine h.of_move (i := i) ?_ ?_ (hothers i rfl) rfl
      · simp [hpc]
      · cases found <;> simp
  | store i e reason level hpc =>
      refine h.of_move (i := i) ?_ ?_ (hothers i rfl) rfl
      · simp [hpc]
      · cases reason <;> simp [StoreReason.next]
  | closeSlot i leaving hpc =>
      refine h.of_move (i := i) ?_ ?_ (hothers i rfl) rfl
      · simp [hpc]
      · cases leaving <;> simp [setWorker]
  | stays | walked | arrived | fatal | mapWaiting | expire | receive =>
      exact h.of_woken (fun _ => .same _) le_rfl
  | slot i e rest worker hpc hactive hwoken => exact h.of_woken hwoken le_rfl
  | extract e queue pred pc hpc hextract =>
      refine h.of_woken (fun _ => .same _) ?_
      have hlength := (Pq.extractFirst_spec hextract).2.1.length_eq
      simp only [List.length_cons] at hlength
      show queue.contents.length ≤ _
      omega
  | promote e level worker hpc hwoken _ hsignal =>
      exact h.push hinv.custody.lists_ne_nil rfl hwoken hsignal
  | receiverPush e level worker hpc hwoken _ hsignal =>
      exact h.push hinv.custody.lists_ne_nil rfl hwoken hsignal

end Served

/-! ## The waking phase of the shutdown -/

/-- What the main thread does in its shutdown: it requests it, or it raises the flag
before it wakes the workers. -/
def RaisesFirst (todo : List ShutdownOp) : Prop :=
  todo = [.request] ∨
    .request ∉ todo ∧ .raise ∉ todo.tail ∧ (.wake ∉ todo → .raise ∉ todo)

theorem RaisesFirst.rest {op : ShutdownOp} {rest : List ShutdownOp}
    (h : RaisesFirst (op :: rest)) (hop : op ≠ .request) : RaisesFirst rest := by
  rcases h with hrequest | ⟨hnot, hraise, -⟩
  · exact absurd (List.cons.inj hrequest).1 hop
  · have hraise : .raise ∉ rest := hraise
    refine .inr ⟨fun hin => hnot (List.mem_cons_of_mem op hin), ?_, fun _ => hraise⟩
    exact fun hin => hraise (List.mem_of_mem_tail hin)

/-- The main thread has raised `server_must_stop`. -/
def MainPc.hasRaised : MainPc → Prop
  | .start | .sigwait => False
  | .shutdown todo => .request ∉ todo ∧ .raise ∉ todo
  | .join | .closeServer | .closed => True

/-- The main thread has been through the waking phase of its shutdown. -/
def MainPc.hasWoken : MainPc → Prop
  | .start | .sigwait => False
  | .shutdown todo => .request ∉ todo ∧ .wake ∉ todo
  | .join | .closeServer | .closed => True

/-- Where the main thread is in its shutdown, and what it has done. -/
structure WakingPhase (s : State) : Prop where
  first : s.main = .start ∨ s.main = .shutdown [.request] → s.exited = false
  order : ∀ todo, s.main = .shutdown todo → RaisesFirst todo
  raised : s.main.hasRaised → s.serverMustStop = true
  woken : s.main.hasWoken → ∀ i e, s.worker i ≠ .blocked e

theorem WakingPhase.hasRaised (h : WakingPhase s) (hwoken : s.main.hasWoken) :
    s.main.hasRaised := by
  cases hpc : s.main with
  | shutdown todo =>
      rw [hpc] at hwoken
      rcases h.order todo hpc with rfl | ⟨hrequest, -, hraise⟩
      · exact absurd List.mem_cons_self hwoken.1
      · exact ⟨hrequest, hraise hwoken.2⟩
  | start | sigwait => rw [hpc] at hwoken; cases hwoken
  | join | closeServer | closed => trivial

/-- Only a request of the shutdown writes `exited`. -/
theorem shutdownOp_exited {op : ShutdownOp} {more : List ShutdownOp}
    (h : s.shutdownOp op = some (s', more)) (hop : op ≠ .request) :
    s'.exited = s.exited ∧ more = [] := by
  cases op <;> simp only [shutdownOp] at h
  case request => exact absurd rfl hop
  case wake | send =>
    split at h
    · obtain ⟨rfl, rfl⟩ := Prod.mk.inj (Option.some.inj h)
      exact ⟨rfl, rfl⟩
    · simp at h
  case raise | close | updated =>
    obtain ⟨rfl, rfl⟩ := Prod.mk.inj (Option.some.inj h)
    exact ⟨rfl, rfl⟩

theorem stepUpdater_exited {woken : Option Worker} (hguard : NoFatalUpdate s (.updater woken))
    (h : s.stepUpdater cfg woken = some s') : s'.exited = s.exited := by
  cases hpc : s.updater with
  | updating todo =>
      rcases todo with - | ⟨op, rest⟩
      · simp only [stepUpdater, hpc] at h
        obtain rfl := Option.some.inj h
        rfl
      · simp only [stepUpdater, hpc] at h
        cases op with
        | twin t | arrive t | slot i =>
            simp only [stepUpdate] at h
            split at h <;> obtain rfl := Option.some.inj h <;> rfl
        | shutdown op =>
            simp only [stepUpdate, Option.map_eq_some_iff, Prod.exists] at h
            obtain ⟨s₁, more, hop, rfl⟩ := h
            by_cases hrequest : op = .request
            · subst hrequest
              have hexited : s.exited = true := by
                simpa [NoFatalUpdate, requestsFromUpdate, hpc] using hguard
              simp only [shutdownOp, hexited, if_true] at hop
              obtain ⟨rfl, -⟩ := Prod.mk.inj (Option.some.inj hop)
              rfl
            · exact (shutdownOp_exited hop hrequest).1
  | promoted e =>
      simp only [stepUpdater, hpc] at h
      obtain ⟨worker, -, -, rfl⟩ := pushEmergency_eq h
      rfl
  | tickWait | diverged | exited => simp [stepUpdater, hpc] at h
  | takeTick =>
      simp only [stepUpdater, hpc] at h
      split at h
      · obtain rfl := Option.some.inj h
        rfl
      · split at h <;> obtain rfl := Option.some.inj h <;> rfl
  | expire | promote =>
      simp only [stepUpdater, hpc] at h
      split at h <;> obtain rfl := Option.some.inj h <;> rfl
  | loop | readCount | begin cycle | mapWaiting | expired e =>
      simp only [stepUpdater, hpc] at h
      obtain rfl := Option.some.inj h
      rfl

theorem stepWorker_exited (h : s.stepWorker cfg i = some s') : s'.exited = s.exited := by
  cases hpc : s.worker i <;> simp only [stepWorker, hpc, reduceCtorEq] at h
  case pop =>
    split at h <;> obtain rfl := Option.some.inj h <;> rfl
  case find e =>
    split at h
    · split at h <;> obtain rfl := Option.some.inj h <;> rfl
    · simp at h
  case wait e =>
    split at h
    · split at h <;> obtain rfl := Option.some.inj h <;> rfl
    · simp at h
  case store e reason =>
    split at h
    · obtain rfl := Option.some.inj h
      obtain ⟨level, heq⟩ := changeStatusStoreClose_eq cfg s i e reason
      rw [heq]
      rfl
    · simp at h
  case popped e | closing leaving =>
    split at h
    · obtain rfl := Option.some.inj h
      rfl
    · simp at h
  all_goals
    obtain rfl := Option.some.inj h
    rfl

theorem stepReceiver_exited {woken : Option Worker} (h : s.stepReceiver cfg woken = some s') :
    s'.exited = s.exited := by
  cases hpc : s.receiver with
  | loop =>
      simp only [stepReceiver, hpc] at h
      obtain rfl := Option.some.inj h
      rfl
  | receive =>
      simp only [stepReceiver, hpc] at h
      split at h
      · simp at h
      · split at h
        · obtain rfl := Option.some.inj h
          rfl
        · split at h
          · obtain rfl := Option.some.inj h
            rfl
          · split at h <;> obtain rfl := Option.some.inj h <;> rfl
  | push e =>
      simp only [stepReceiver, hpc] at h
      obtain ⟨worker, -, -, rfl⟩ := pushEmergency_eq h
      rfl
  | exited => simp [stepReceiver, hpc] at h

/-- Without a fatal update only the main thread requests the shutdown. -/
theorem step_exited (hguard : NoFatalUpdate s a) (hmain : a.thread ≠ some .main)
    (h : State.step cfg s a = some s') : s'.exited = s.exited := by
  cases (step_thread h).2 with
  | clock _ h =>
      cases hpc : s.clock <;> simp only [stepClock, hpc, reduceCtorEq] at h <;>
        obtain rfl := Option.some.inj h <;> rfl
  | updater woken _ h => exact stepUpdater_exited hguard h
  | receiver woken _ h => exact stepReceiver_exited h
  | worker i _ h => exact stepWorker_exited h
  | main ok h => exact absurd rfl hmain
  | client message _ => rfl
  | wakeWorker i h =>
      cases hpc : s.worker i <;> simp only [stepWakeWorker, hpc, reduceCtorEq] at h <;>
        obtain rfl := Option.some.inj h <;> rfl
  | wakeUpdater hpc => rfl

namespace WakingPhase

theorem nobody_blocks (h : WakingPhase s) (hinv : Invariant cfg s) (heffect : Effect cfg s a s')
    (hwoken : s.main.hasWoken) (i : Worker) (e : EmergencyId) : s'.worker i ≠ .blocked e := by
  intro hblocked
  rcases effect_block hinv heffect hblocked with ⟨hbefore, -⟩ | ⟨-, hstop⟩
  · exact h.woken hwoken i e hbefore
  · rw [h.raised (h.hasRaised hwoken)] at hstop
    cases hstop

theorem past (h : WakingPhase s) (hinv : Invariant cfg s) (heffect : Effect cfg s a s')
    (hwoken : s.main.hasWoken)
    (hmain : s'.main = .join ∨ s'.main = .closeServer ∨ s'.main = .closed) : WakingPhase s' where
  first hfirst := by
    rcases hmain with hmain | hmain | hmain <;> rw [hmain] at hfirst <;>
      rcases hfirst with hfirst | hfirst <;> cases hfirst
  order todo htodo := by
    rcases hmain with hmain | hmain | hmain <;> rw [hmain] at htodo <;> cases htodo
  raised _ := heffect.serverMustStop (h.raised (h.hasRaised hwoken))
  woken _ := h.nobody_blocks hinv heffect hwoken

theorem shutdown (h : WakingPhase s) (hinv : Invariant cfg s) (heffect : Effect cfg s a s')
    {op : ShutdownOp} {rest more : List ShutdownOp} (hpc : s.main = .shutdown (op :: rest))
    {s₁ : State} (hop : s.shutdownOp op = some (s₁, more))
    (hs' : s' = { s₁ with main := .shutdown (more ++ rest) }) : WakingPhase s' := by
  have horder := h.order _ hpc
  by_cases hrequest : op = .request
  · subst hrequest
    have hrest : rest = [] := by
      rcases horder with heq | ⟨hnot, -⟩
      · exact (List.cons.inj heq).2
      · exact absurd List.mem_cons_self hnot
    subst hrest
    simp only [shutdownOp, h.first (.inr hpc), Bool.false_eq_true, if_false] at hop
    obtain ⟨rfl, rfl⟩ := Prod.mk.inj (Option.some.inj hop)
    subst hs'
    -- nobody has requested a shutdown before, so the request puts all its operations first
    refine ⟨fun hmain => ?_, fun todo htodo => ?_, fun hraised => ?_, fun hwoken => ?_⟩
    · rcases hmain with hmain | hmain <;> cases hmain
    · obtain rfl := MainPc.shutdown.inj htodo
      exact .inr (by decide)
    · exact absurd (by decide) hraised.2
    · exact absurd (by decide) hwoken.2
  · obtain ⟨-, rfl⟩ := shutdownOp_exited hop hrequest
    have hrest := horder.rest hrequest
    have hmain : s'.main = .shutdown rest := by rw [hs']; rfl
    have hstop : s.serverMustStop = true → s'.serverMustStop = true := heffect.serverMustStop
    have hnot : .request ∉ op :: rest := by
      rcases horder with heq | ⟨hnot, -⟩
      · exact absurd (List.cons.inj heq).1 hrequest
      · exact hnot
    have hraised : .raise ∉ rest → s'.serverMustStop = true := by
      intro hraise
      -- the flag is raised by this operation or by an earlier one
      by_cases hop' : op = .raise
      · subst hop'
        simp only [shutdownOp] at hop
        obtain ⟨rfl, -⟩ := Prod.mk.inj (Option.some.inj hop)
        rw [hs']
      · refine hstop (h.raised ?_)
        rw [hpc]
        refine ⟨hnot, fun hin => ?_⟩
        rcases List.mem_cons.mp hin with heq | hin
        · exact hop' heq.symm
        · exact hraise hin
    refine ⟨fun hfirst => ?_, fun todo htodo => ?_, fun hpast => ?_, fun hwoken => ?_⟩
    · rw [hmain] at hfirst
      rcases hfirst with hfirst | hfirst
      · cases hfirst
      · obtain rfl := MainPc.shutdown.inj hfirst
        exact absurd (List.mem_cons_of_mem op List.mem_cons_self) hnot
    · obtain rfl := MainPc.shutdown.inj (hmain.symm.trans htodo)
      exact hrest
    · rw [hmain] at hpast
      exact hraised hpast.2
    · rw [hmain] at hwoken
      by_cases hwake : op = .wake
      · subst hwake
        intro i e hblocked
        -- a blocked worker has its emergency in its slot, so it has been woken
        have hphase := hinv.storage.phase i
        simp only [shutdownOp] at hop
        split at hop
        · obtain ⟨rfl, -⟩ := Prod.mk.inj (Option.some.inj hop)
          subst hs'
          obtain ⟨hbefore, hnobody⟩ := wakeBlocked_eq_blocked hblocked
          rw [hbefore] at hphase
          simp only [decide_eq_false_iff_not, not_exists] at hnobody
          exact hnobody i hphase.active
        · simp at hop
      · refine h.nobody_blocks hinv heffect ?_
        rw [hpc]
        refine ⟨hnot, fun hin => ?_⟩
        rcases List.mem_cons.mp hin with heq | hin
        · exact hwake heq.symm
        · exact hwoken.2 hin

theorem stepMain {ok : Bool} (h : WakingPhase s) (hinv : Invariant cfg s)
    (hstep : s.stepMain ok = some s') : WakingPhase s' := by
  have heffect : Effect cfg s (.main ok) s' := .quiet (stepMain_quiet hstep)
  cases hpc : s.main with
  | start =>
      simp only [State.stepMain, hpc] at hstep
      have hexited := h.first (.inl hpc)
      split at hstep
      · obtain rfl := Option.some.inj hstep
        refine ⟨fun _ => hexited, fun todo htodo => ?_, fun hraised => ?_, fun hwoken => ?_⟩
        · dsimp only at htodo
          split at htodo <;> cases htodo
        · dsimp only at hraised
          split at hraised <;> cases hraised
        · dsimp only at hwoken
          split at hwoken <;> cases hwoken
      -- a thread could not be created: the shutdown is requested from the start
      · obtain rfl := Option.some.inj hstep
        refine ⟨fun _ => hexited, fun todo htodo => ?_, fun hraised => ?_, fun hwoken => ?_⟩
        · exact .inl (MainPc.shutdown.inj htodo).symm
        · exact absurd List.mem_cons_self hraised.1
        · exact absurd List.mem_cons_self hwoken.1
  | sigwait =>
      simp only [State.stepMain, hpc] at hstep
      obtain rfl := Option.some.inj hstep
      refine ⟨fun hfirst => ?_, fun todo htodo => ?_, fun hraised => ?_, fun hwoken => ?_⟩
      · rcases hfirst with hfirst | hfirst <;> cases hfirst
      · obtain rfl := MainPc.shutdown.inj htodo
        exact .inr (by decide)
      · exact absurd (by decide) hraised.2
      · exact absurd (by decide) hwoken.2
  | shutdown todo =>
      rcases todo with - | ⟨op, rest⟩
      · simp only [State.stepMain, hpc] at hstep
        obtain rfl := Option.some.inj hstep
        have hwoken : s.main.hasWoken := by rw [hpc]; exact ⟨List.not_mem_nil, List.not_mem_nil⟩
        exact h.past hinv heffect hwoken (.inl rfl)
      · simp only [State.stepMain, hpc, Option.map_eq_some_iff, Prod.exists] at hstep
        obtain ⟨s₁, more, hop, hs'⟩ := hstep
        exact h.shutdown hinv heffect hpc hop hs'.symm
  | join =>
      simp only [State.stepMain, hpc] at hstep
      split at hstep
      · obtain rfl := Option.some.inj hstep
        have hwoken : s.main.hasWoken := by rw [hpc]; trivial
        exact h.past hinv heffect hwoken (.inr (.inl rfl))
      · simp at hstep
  | closeServer =>
      have hwoken : s.main.hasWoken := by rw [hpc]; trivial
      simp only [State.stepMain, hpc, Option.map_eq_some_iff, Prod.exists] at hstep
      obtain ⟨s₁, more, hop, rfl⟩ := hstep
      exact h.past hinv heffect hwoken (.inr (.inr rfl))
  | closed => simp [State.stepMain, hpc] at hstep

theorem step (h : WakingPhase s) (hinv : Invariant cfg s) (hguard : NoFatalUpdate s a)
    (hstep : State.step cfg s a = some s') : WakingPhase s' := by
  by_cases hthread : a.thread = some .main
  · obtain ⟨ok, rfl, hown⟩ := step_main hstep hthread
    exact h.stepMain hinv hown
  · have hmain := (step_frame hstep).main hthread
    have heffect := (step_effect hstep).2
    refine ⟨fun hfirst => ?_, fun todo htodo => ?_, fun hraised => ?_, fun hwoken => ?_⟩
    · rw [step_exited hguard hthread hstep]
      exact h.first (hmain ▸ hfirst)
    · exact h.order todo (hmain ▸ htodo)
    · exact heffect.serverMustStop (h.raised (hmain ▸ hraised))
    · exact h.nobody_blocks hinv heffect (hmain ▸ hwoken)

end WakingPhase

/-! ## Runs -/

/-- The server together with the wake-ups pending in `pq_pop`. -/
abbrev stepWithWakes (cfg : Config) : State × Finset Worker → Action →
    Option (State × Finset Worker) :=
  withHistory (State.step cfg) recordWakes

/-- The states, with the wake-ups pending in `pq_pop`, of the runs in which no
shutdown is requested from inside an update. -/
abbrev ReachableWithWakes (cfg : Config) : State × Finset Worker → Prop :=
  ReachableWith (stepWithWakes cfg) (fun p a => NoFatalUpdate p.1 a) (initialState cfg, ∅)

/-- What holds in these runs. -/
structure NoneLost (s : State) (pending : Finset Worker) : Prop where
  awake : Awake s
  served : Served s pending
  waking : WakingPhase s

theorem noneLost_of_reachable {pending : Finset Worker}
    (hreach : ReachableWithWakes cfg (s, pending)) : NoneLost s pending := by
  refine hreach.invariant (fun p => NoneLost p.1 p.2) ?_ ?_
  · refine ⟨⟨nofun, nofun⟩, ⟨nofun, ?_⟩, ⟨fun _ => rfl, nofun, False.elim, False.elim⟩⟩
    rintro ⟨i, hi⟩
    cases hi
  · rintro ⟨s, pending⟩ a ⟨s', pending'⟩ hs h hguard hstep
    obtain ⟨s₁, hs₁, heq⟩ := Option.map_eq_some_iff.mp hstep
    obtain ⟨rfl, rfl⟩ := Prod.mk.inj heq
    have hinv : Invariant cfg s := reachable_invariant (ReachableWith.of_history _ hs).reachable
    have heffect := (step_effect hs₁).2
    exact ⟨h.awake.step hinv heffect, h.served.step hinv heffect, h.waking.step hinv hguard hs₁⟩

/-- **No wake-up is lost.**  In every run in which no shutdown is requested from
inside an update, no worker is blocked on an emergency that is paused or
completed; when a worker waits in `pq_pop` and the queue is not empty, one of the
waiting workers has been woken and has not run since; no worker waits on a closed
queue; and no worker is blocked on its emergency once the main thread has been
through the waking phase of the shutdown. -/
theorem no_lost_wake_up {pending : Finset Worker}
    (hreach : ReachableWithWakes cfg (s, pending)) :
    (∀ i e, s.worker i = .blocked e → (s.world.emergencies e).status ≠ .paused ∧
        (s.world.emergencies e).status ≠ .completed) ∧
      ((∃ i, s.worker i = .popWait) → s.emergencyQueue.contents ≠ [] →
        ∃ i ∈ pending, s.worker i = .pop) ∧
      (s.emergencyQueue.closed = true → ∀ i, s.worker i ≠ .popWait) ∧
      (s.main.hasWoken → ∀ i e, s.worker i ≠ .blocked e) := by
  have h := noneLost_of_reachable hreach
  refine ⟨fun i e hblocked => ?_, fun hwait hitems => ?_, h.awake.closed, h.waking.woken⟩
  · exact ⟨fun hpaused => h.awake.resumed i e hblocked (.inl hpaused),
      fun hcompleted => h.awake.resumed i e hblocked (.inr hcompleted)⟩
  · have hlength := List.length_pos_iff.mpr hitems
    have hcard : 0 < pending.card := by
      have := h.served.enough hwait
      omega
    obtain ⟨i, hi⟩ := Finset.card_pos.mp hcard
    exact ⟨i, hi, h.served.woken i hi⟩

/-- The state, with the pending wake-ups, after a list of actions from the start. -/
def wakesAfter (cfg : Config) (actions : List Action) : State × Finset Worker :=
  (runWith (stepWithWakes cfg) (fun p a => NoFatalUpdate p.1 a) (initialState cfg, ∅)
    actions).getD (initialState cfg, ∅)

theorem reachable_wakesAfter (cfg : Config) (actions : List Action) :
    ReachableWithWakes cfg (wakesAfter cfg actions) := by
  unfold wakesAfter
  cases hrun : runWith (stepWithWakes cfg) (fun p a => NoFatalUpdate p.1 a) (initialState cfg, ∅)
      actions with
  | none => exact .initial
  | some p => exact reachableWith_of_runWith .initial hrun

/-- Two workers wait, and the push of an emergency wakes one of them. -/
theorem no_lost_wake_up_pushed :
    let p := wakesAfter exampleServer (threadsStart ++ workerSteps 0 2 ++ workerSteps 1 2 ++
      requestAccepted "g 5 4 0" ++ [.receiver (some 0)])
    p.1.worker 1 = .popWait ∧ p.1.emergencyQueue.contents = [3] ∧
      ∃ i ∈ p.2, p.1.worker i = .pop := by
  intro p
  have hwait : p.1.worker 1 = .popWait := by decide +kernel
  have hitems : p.1.emergencyQueue.contents = [3] := by decide +kernel
  have hrun : ReachableWithWakes exampleServer p := reachable_wakesAfter _ _
  have hreach : ReachableWithWakes exampleServer (p.1, p.2) := hrun
  exact ⟨hwait, hitems, (no_lost_wake_up hreach).2.1 ⟨1, hwait⟩ (by simp [hitems])⟩

end EmergencyDispatch
