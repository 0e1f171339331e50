import EmergencyDispatch.Library.Traces
import EmergencyDispatch.Attributes
import EmergencyDispatch.MessageQueue
import EmergencyDispatch.Accounting
import EmergencyDispatch.Ticks

/-!
# Requests become emergencies in order

The queue of requests is first in, first out, and the receiver works off one
message after the other.  So of the requests that the clients have sent in a run
those received are the first `count`, what is left waits in the queue, and the
emergencies are those of the valid ones among the first, numbered in the order in
which they were sent.  An emergency keeps what its request says and the tick in
which the receiver took it.
-/

namespace EmergencyDispatch

open State TransitionSystem

variable {cfg : Config} {s s' : State} {a : Action} {e : EmergencyId}

/-! ## What a request fixes of its emergency -/

/-- What an emergency has from the moment it is made. -/
structure Origin where
  type : EmergencyType
  x : ℤ
  y : ℤ
  tickTime : ℕ
  rescuerCount : ℕ
  deriving DecidableEq

def Emergency.origin (em : Emergency) : Origin :=
  ⟨em.type, em.x, em.y, em.tickTime, em.rescuerCount⟩

/-- What the receiver makes of a request in the tick. -/
def originOf (cfg : Config) (request : EmergencyRequest) (tick : ℕ) : Option Origin :=
  (getEmergencyTypeByName request.emergencyName cfg.emergencies).map fun type =>
    ⟨type, request.x, request.y, tick, totalCount type.rescuers⟩

theorem attribute_origin : Attribute Emergency.origin := ⟨fun _ _ _ _ _ _ _ => rfl⟩

theorem updateActiveEmergencyState_origin (table : List PriorityRule) (em : Emergency) :
    (updateActiveEmergencyState table em).1.origin = em.origin := by
  unfold updateActiveEmergencyState
  dsimp only
  repeat' split
  all_goals rfl

theorem mallocateEmergency_origin {request : EmergencyRequest} {tick : ℕ} {em : Emergency}
    (h : mallocateEmergency cfg.priorityLookupTable cfg.emergencies request tick = some em) :
    originOf cfg request tick = some em.origin := by
  obtain ⟨type, hfind, rfl⟩ := Option.map_eq_some_iff.mp h
  rw [originOf, hfind]
  rfl

/-- No step changes what an emergency that is there has from its request. -/
theorem step_origin (hinv : Invariant cfg s) (hstep : State.step cfg s a = some s')
    (he : e < s.nextId) :
    (s'.world.emergencies e).origin = (s.world.emergencies e).origin := by
  have heffect := world_effect hinv (step_effect hstep).2
  cases attribute_origin.worldEffect hinv heffect e with
  | same h => exact h
  | active i hactive h => rw [h, updateActiveEmergencyState_origin]
  | waiting hwaiting h => rw [h]; rfl
  | promoted hpc h => rw [h]; rfl
  | made hid => exact absurd he (hid ▸ Nat.lt_irrefl _)

/-! ## Ticks -/

theorem stepUpdater_tickCount {woken : Option Worker} (h : s.stepUpdater cfg woken = some s') :
    s'.tickCountSinceStart = s.tickCountSinceStart := by
  cases hpc : s.updater with
  | updating todo =>
      rcases todo with - | ⟨op, rest⟩ <;> simp only [stepUpdater, hpc] at h
      · obtain rfl := Option.some.inj h
        rfl
      · exact (stepUpdate_ticks h).2.1
  | takeTick =>
      simp only [stepUpdater, hpc] at h
      split at h
      · obtain rfl := Option.some.inj h
        rfl
      · split at h <;> obtain rfl := Option.some.inj h <;> rfl
  | expire | promote =>
      simp only [stepUpdater, hpc] at h
      split at h <;> obtain rfl := Option.some.inj h <;> rfl
  | promoted e =>
      simp only [stepUpdater, hpc] at h
      obtain ⟨worker, -, -, rfl⟩ := pushEmergency_eq h
      rfl
  | loop | readCount | begin cycle | mapWaiting | expired e =>
      simp only [stepUpdater, hpc] at h
      obtain rfl := Option.some.inj h
      rfl
  | tickWait | diverged | exited => simp [stepUpdater, hpc] at h

theorem step_tickCount_le (hstep : State.step cfg s a = some s') :
    s.tickCountSinceStart ≤ s'.tickCountSinceStart := by
  have hframe := step_frame hstep
  cases (step_thread hstep).2 with
  | clock _ hown =>
      cases hpc : s.clock <;> simp only [stepClock, hpc, reduceCtorEq] at hown <;>
        obtain rfl := Option.some.inj hown
      · exact Nat.le_refl _
      · exact Nat.le_succ _
      · exact Nat.le_succ _
  | updater woken _ hown => exact (stepUpdater_tickCount hown).ge
  | receiver | worker | main | client | wakeWorker | wakeUpdater =>
      exact (hframe.ticks (by simp [Action.thread]) (by simp [Action.thread])).2.1.ge

/-! ## Sent, received, accepted -/

/-- The request that a client sends with the action; the stop message is none. -/
def Action.request : Action → Option CString
  | .client message => if message = MQ_STOP_MESSAGE then none else some message
  | _ => none

/-- The requests of the clients, in the order of their `mq_send`. -/
def requestsSent (actions : List Action) : List CString := actions.filterMap Action.request

def isRequest (message : CString) : Bool := message != MQ_STOP_MESSAGE

/-- What the receiver accepts of the requests it takes. -/
def acceptedRequests (cfg : Config) (received : List CString) : List EmergencyRequest :=
  received.filterMap fun message =>
    parseEmergencyRequest message cfg.emergencies cfg.size.height cfg.size.width

/-- In the run of `actions` the step from `s` to `s'` takes `valid_count` from `k` to `k + 1`. -/
def AcceptedIn (cfg : Config) (actions : List Action) (k : ℕ) (s s' : State) : Prop :=
  ∃ before a after, actions = before ++ a :: after ∧
    run (State.step cfg) (initialState cfg) before = some s ∧ State.step cfg s a = some s' ∧
    s.validCount = k ∧ s'.validCount = k + 1

theorem AcceptedIn.concat {actions : List Action} {k : ℕ} (h : AcceptedIn cfg actions k s s')
    (a : Action) : AcceptedIn cfg (actions ++ [a]) k s s' := by
  obtain ⟨before, b, after, rfl, hrun⟩ := h
  exact ⟨before, b, after ++ [a], by simp, hrun⟩

/-- The server has received the first requests that were sent, and its emergencies are those
of the valid ones, in this order, with the ticks in which they were accepted. -/
structure WorkedOff (cfg : Config) (actions : List Action) (received : List CString)
    (s : State) : Prop where
  fifo : requestsSent actions = received ++ s.mq.filter isRequest
  count : s.count = received.length
  validCount : s.validCount = (acceptedRequests cfg received).length
  made : ∀ k request, (acceptedRequests cfg received)[k]? = some request →
    ∃ s₁ s₂, AcceptedIn cfg actions k s₁ s₂ ∧ s₁.tickCountSinceStart ≤ s.tickCountSinceStart ∧
      originOf cfg request s₁.tickCountSinceStart =
        some (s.world.emergencies (cfg.emergencies.length + k)).origin
  aged : ∀ e e', cfg.emergencies.length ≤ e → e ≤ e' → e' < s.nextId →
    (s.world.emergencies e).tickTime ≤ (s.world.emergencies e').tickTime

theorem requestsSent_concat (actions : List Action) (a : Action) :
    requestsSent (actions ++ [a]) = requestsSent actions ++ a.request.toList := by
  rw [requestsSent, List.filterMap_append]
  cases ha : a.request <;> simp [requestsSent, ha]

theorem acceptedRequests_concat (received : List CString) (message : CString) :
    acceptedRequests cfg (received ++ [message]) = acceptedRequests cfg received ++
      (parseEmergencyRequest message cfg.emergencies cfg.size.height cfg.size.width).toList := by
  rw [acceptedRequests, List.filterMap_append]
  cases hparse : parseEmergencyRequest message cfg.emergencies cfg.size.height cfg.size.width <;>
    simp [acceptedRequests, hparse]

section steps

variable {actions : List Action} {received : List CString}

theorem WorkedOff.lt_nextId (h : WorkedOff cfg actions received s) (hreach : Reachable cfg s)
    {k : ℕ} {request : EmergencyRequest} (hk : (acceptedRequests cfg received)[k]? = some request) :
    cfg.emergencies.length + k < s.nextId := by
  rw [nextId_of_reachable hreach, h.validCount]
  exact Nat.add_lt_add_left (List.getElem?_eq_some_iff.mp hk).1 _

theorem WorkedOff.made_step (h : WorkedOff cfg actions received s) (hreach : Reachable cfg s)
    (hstep : State.step cfg s a = some s') {k : ℕ} {request : EmergencyRequest}
    (hk : (acceptedRequests cfg received)[k]? = some request) :
    ∃ s₁ s₂, AcceptedIn cfg (actions ++ [a]) k s₁ s₂ ∧
      s₁.tickCountSinceStart ≤ s'.tickCountSinceStart ∧
      originOf cfg request s₁.tickCountSinceStart =
        some (s'.world.emergencies (cfg.emergencies.length + k)).origin := by
  obtain ⟨s₁, s₂, hin, hle, horigin⟩ := h.made k request hk
  refine ⟨s₁, s₂, hin.concat a, hle.trans (step_tickCount_le hstep), ?_⟩
  rw [step_origin (reachable_invariant hreach) hstep (h.lt_nextId hreach hk)]
  exact horigin

theorem WorkedOff.tickTime_le (h : WorkedOff cfg actions received s) (hreach : Reachable cfg s)
    (hfirst : cfg.emergencies.length ≤ e) (hlt : e < s.nextId) :
    (s.world.emergencies e).tickTime ≤ s.tickCountSinceStart := by
  obtain ⟨k, rfl⟩ := Nat.exists_eq_add_of_le hfirst
  rw [nextId_of_reachable hreach, h.validCount] at hlt
  have hk := List.getElem?_eq_getElem (Nat.lt_of_add_lt_add_left hlt)
  obtain ⟨s₁, s₂, -, hle, horigin⟩ := h.made k _ hk
  obtain ⟨type, -, htype⟩ := Option.map_eq_some_iff.mp horigin
  exact (congrArg Origin.tickTime htype).ge.trans hle

theorem WorkedOff.aged_step (h : WorkedOff cfg actions received s) (hreach : Reachable cfg s)
    (hstep : State.step cfg s a = some s') {e e' : EmergencyId}
    (hfirst : cfg.emergencies.length ≤ e) (hle : e ≤ e') (hlt : e' < s.nextId) :
    (s'.world.emergencies e).tickTime ≤ (s'.world.emergencies e').tickTime := by
  have hinv := reachable_invariant hreach
  have htick := congrArg Origin.tickTime (step_origin hinv hstep (hle.trans_lt hlt))
  have htick' := congrArg Origin.tickTime (step_origin hinv hstep hlt)
  exact (htick.trans_le (h.aged e e' hfirst hle hlt)).trans htick'.ge

theorem WorkedOff.of_validCount (h : WorkedOff cfg actions received s) (hreach : Reachable cfg s)
    (hstep : State.step cfg s a = some s') {received' : List CString}
    (hfifo : requestsSent (actions ++ [a]) = received' ++ s'.mq.filter isRequest)
    (hcount : s'.count = received'.length)
    (hvalid : s'.validCount = s.validCount)
    (haccepted : acceptedRequests cfg received' = acceptedRequests cfg received) :
    WorkedOff cfg (actions ++ [a]) received' s' where
  fifo := hfifo
  count := hcount
  validCount := by rw [hvalid, h.validCount, haccepted]
  made k request hk := h.made_step hreach hstep (haccepted ▸ hk)
  aged e e' hfirst hle hlt := by
    refine h.aged_step hreach hstep hfirst hle ?_
    rwa [nextId_of_reachable hreach, ← hvalid,
      ← nextId_of_reachable (hreach.next trivial hstep)]

theorem WorkedOff.received_step (h : WorkedOff cfg actions received s)
    (hrun : run (State.step cfg) (initialState cfg) actions = some s)
    (hstep : State.step cfg s a = some s') (hnone : a.request = none) {message : CString}
    (hmq : s.mq = message :: s'.mq) (handled : Handled cfg s s' message) :
    ∃ received', WorkedOff cfg (actions ++ [a]) received' s' := by
  have hreach : Reachable cfg s := reachableWith_of_runWith .initial hrun
  have hsent : requestsSent (actions ++ [a]) = requestsSent actions := by
    rw [requestsSent_concat, hnone, Option.toList_none, List.append_nil]
  have hrest : message ≠ MQ_STOP_MESSAGE →
      requestsSent (actions ++ [a]) = received ++ [message] ++ s'.mq.filter isRequest := by
    intro hmessage
    have hrequest : isRequest message = true := bne_iff_ne.mpr hmessage
    rw [hsent, h.fifo, hmq, List.filter_cons_of_pos hrequest, List.append_assoc]
    rfl
  cases handled with
  | stop hmessage hpc' hsame =>
      refine ⟨received, h.of_validCount hreach hstep ?_ (hsame.count.trans h.count)
        hsame.validCount rfl⟩
      have hrequest : ¬isRequest message = true := by simp [isRequest, hmessage]
      rw [hsent, h.fifo, hmq, List.filter_cons_of_neg hrequest]
  | rejected hmessage hparse hcount hvalid =>
      refine ⟨received ++ [message], h.of_validCount hreach hstep (hrest hmessage) ?_ hvalid ?_⟩
      · rw [hcount, h.count, List.length_append]
        rfl
      · rw [acceptedRequests_concat, hparse]
        exact List.append_nil _
  | accepted hmessage request hparse emergency hemergency hcount hvalid hworld =>
      have haccepted : acceptedRequests cfg (received ++ [message]) =
          acceptedRequests cfg received ++ [request] := by
        rw [acceptedRequests_concat, hparse]
        rfl
      have hnew : s'.world.emergencies s.nextId = emergency := by
        rw [hworld, World.setEmergency_self]
      have hnext : s.nextId = cfg.emergencies.length + (acceptedRequests cfg received).length := by
        rw [nextId_of_reachable hreach, h.validCount]
      refine ⟨received ++ [message], hrest hmessage, ?_, ?_, ?_, ?_⟩
      · rw [hcount, h.count, List.length_append]
        rfl
      · rw [hvalid, h.validCount, haccepted, List.length_append]
        rfl
      · intro k request' hk
        rw [haccepted] at hk
        by_cases hlt : k < (acceptedRequests cfg received).length
        · rw [List.getElem?_append_left hlt] at hk
          exact h.made_step hreach hstep hk
        -- the new one is the last
        · have hlast : k < (acceptedRequests cfg received).length + 1 := by
            simpa using (List.getElem?_eq_some_iff.mp hk).1
          obtain rfl := Nat.eq_of_lt_succ_of_not_lt hlast hlt
          obtain rfl : request = request' := by
            rw [List.getElem?_concat_length] at hk
            exact Option.some.inj hk
          refine ⟨s, s', ⟨actions, a, [], rfl, hrun, hstep, h.validCount, ?_⟩,
            step_tickCount_le hstep, ?_⟩
          · rw [hvalid, h.validCount]
          · rw [← hnext, hnew]
            exact mallocateEmergency_origin hemergency
      · intro e e' hfirst hle hlt
        by_cases hold : e' < s.nextId
        · exact h.aged_step hreach hstep hfirst hle hold
        · have hnext' : s'.nextId = s.nextId + 1 := by
            rw [nextId_of_reachable (hreach.next trivial hstep), nextId_of_reachable hreach, hvalid,
              Nat.add_assoc]
          obtain rfl : e' = s.nextId := Nat.eq_of_lt_succ_of_not_lt (hnext' ▸ hlt) hold
          have htick : emergency.tickTime = s.tickCountSinceStart := by
            obtain ⟨type, -, rfl⟩ := Option.map_eq_some_iff.mp hemergency
            rfl
          rcases Nat.eq_or_lt_of_le hle with rfl | hlt
          · exact Nat.le_refl _
          · have hsame := congrArg Origin.tickTime
              (step_origin (reachable_invariant hreach) hstep hlt)
            calc (s'.world.emergencies e).tickTime
                = (s.world.emergencies e).tickTime := hsame
              _ ≤ s.tickCountSinceStart := h.tickTime_le hreach hfirst hlt
              _ = (s'.world.emergencies s.nextId).tickTime := by rw [hnew, htick]

/-- **Step lemma.** -/
theorem WorkedOff.step (h : WorkedOff cfg actions received s)
    (hrun : run (State.step cfg) (initialState cfg) actions = some s)
    (hstep : State.step cfg s a = some s') :
    ∃ received', WorkedOff cfg (actions ++ [a]) received' s' := by
  have hreach : Reachable cfg s := reachableWith_of_runWith .initial hrun
  cases step_mqMove hstep with
  | same hmq hsame hclient =>
      have hnone : a.request = none := by
        cases a <;> try rfl
        exact absurd rfl (hclient _)
      refine ⟨received, h.of_validCount hreach hstep ?_ (hsame.count.trans h.count)
        hsame.validCount rfl⟩
      rw [requestsSent_concat, hnone, Option.toList_none, List.append_nil, hmq, h.fifo]
  | sent message hmq hsame hsender =>
      refine ⟨received, h.of_validCount hreach hstep ?_ (hsame.count.trans h.count)
        hsame.validCount rfl⟩
      have hmessage : a.request.toList = [message].filter isRequest := by
        rcases hsender with rfl | ⟨rfl, hclient⟩
        · by_cases hstop : message = MQ_STOP_MESSAGE
          · simp [Action.request, isRequest, hstop]
          · have hrequest : isRequest message = true := bne_iff_ne.mpr hstop
            rw [List.filter_cons_of_pos hrequest]
            simp [Action.request, hstop]
        · cases a <;> try rfl
          exact absurd rfl (hclient _)
      rw [requestsSent_concat, hmq, List.filter_append, ← List.append_assoc, ← h.fifo, hmessage]
  | received message ha hpc hmq handled =>
      have hnone : a.request = none := by
        cases a <;> first | rfl | cases ha
      exact h.received_step hrun hstep hnone hmq handled

end steps

theorem exists_workedOff {actions : List Action}
    (hrun : run (State.step cfg) (initialState cfg) actions = some s) :
    ∃ received, WorkedOff cfg actions received s := by
  refine run_invariant (fun actions s => ∃ received, WorkedOff cfg actions received s) ?_ ?_ hrun
  · refine ⟨[], rfl, rfl, rfl, ?_, ?_⟩
    · intro k request hk
      simp [acceptedRequests] at hk
    · intro e e' hfirst hle hlt
      exact absurd (hfirst.trans hle) (Nat.not_le.mpr hlt)
  · rintro past s a s' hpast ⟨received, h⟩ hstep
    exact h.step hpast hstep

/-- No later run changes what an emergency has from its request. -/
theorem run_origin (hreach : Reachable cfg s) (he : e < s.nextId)
    (hlater : TransitionSystem.Reachable (State.step cfg) s s') :
    (s'.world.emergencies e).origin = (s.world.emergencies e).origin ∧ e < s'.nextId := by
  refine hlater.invariant (fun s' => (s'.world.emergencies e).origin =
    (s.world.emergencies e).origin ∧ e < s'.nextId) ⟨rfl, he⟩ ?_
  rintro mid a s' hmid ⟨hsame, hlt⟩ - hstep
  have hmid' := hreach.trans hmid
  refine ⟨(step_origin (reachable_invariant hmid') hstep hlt).trans hsame, ?_⟩
  cases (step_effect hstep).2 with
  | quiet hq => exact hq.nextId ▸ hlt
  | receive request emergency mq hpc hemergency => exact Nat.lt_succ_of_lt hlt
  | _ => exact hlt

/-- **Requests become emergencies in order.**  In every run the requests that the clients have
sent are the first `count`, which were received, and behind them those that wait in the queue;
the valid ones among the received are `valid_count` many, and the emergency with the number
`|types| + k` has the type, the place and the rescuers of the `k`-th of them and the tick in
which it was accepted, which is not before that of an earlier one.  Nothing that happens later
changes that. -/
theorem requests_in_order {actions : List Action}
    (hrun : run (State.step cfg) (initialState cfg) actions = some s) :
    WorkedOff cfg actions ((requestsSent actions).take s.count) s ∧
      ∀ s', TransitionSystem.Reachable (State.step cfg) s s' → ∀ e < s.nextId,
        (s'.world.emergencies e).origin = (s.world.emergencies e).origin := by
  have hreach : Reachable cfg s := reachableWith_of_runWith .initial hrun
  obtain ⟨received, h⟩ := exists_workedOff hrun
  have hreceived : (requestsSent actions).take s.count = received := by
    rw [h.count, h.fifo, List.take_left]
  rw [hreceived]
  exact ⟨h, fun s' hlater e he => (run_origin hreach he hlater).1⟩

/-- Five requests are sent, and three of them received. -/
def fiveRequests : List Action :=
  threadsStart ++
    ["e 3 4 0", "x 1 1 0", "g 5 4 0", "f 2 2 0", "e 1 1 0"].map (.client ·.toList) ++
      List.replicate 8 (.receiver none)

theorem run_stateAfter {actions : List Action}
    (h : (run (State.step cfg) (initialState cfg) actions).isSome = true) :
    run (State.step cfg) (initialState cfg) actions = some (stateAfter cfg actions) := by
  obtain ⟨s, hrun⟩ := Option.isSome_iff_exists.mp h
  have hafter : stateAfter cfg actions = s := by
    show (run (State.step cfg) (initialState cfg) actions).getD _ = s
    rw [hrun, Option.getD_some]
  rw [hafter, hrun]

theorem requests_in_order_five :
    let s := stateAfter exampleServer fiveRequests
    s.count = 3 ∧ s.validCount = 2 ∧
      WorkedOff exampleServer fiveRequests ((requestsSent fiveRequests).take s.count) s := by
  intro s
  have hsome : (run (State.step exampleServer) (initialState exampleServer)
      fiveRequests).isSome = true := by decide +kernel
  exact ⟨by decide +kernel, by decide +kernel, (requests_in_order (run_stateAfter hsome)).1⟩

end EmergencyDispatch
