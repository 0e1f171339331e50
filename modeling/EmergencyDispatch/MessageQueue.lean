import EmergencyDispatch.Stopping
import EmergencyDispatch.Parsers.Rescuers

/-!
# The queue of requests

A step leaves the queue of requests alone, appends one message to it or takes the
first one (`MqMove`).  The clients append what they like and the server the stop
message; only the receiver takes, and what it makes of a message (`Handled`) is
the end of its thread, a rejection or a new emergency.
-/

namespace EmergencyDispatch

open State TransitionSystem

variable {cfg : Config} {s s' : State} {a : Action} {i : Worker}

/-- No request was counted. -/
structure SameRequests (s s' : State) : Prop where
  count : s'.count = s.count
  validCount : s'.validCount = s.validCount

/-- What the parser accepts is the name of a type. -/
theorem exists_mallocateEmergency (table : List PriorityRule) (tick : ℕ)
    {types : List EmergencyType} {message : CString} {request : EmergencyRequest} {envh envw : ℤ}
    (h : parseEmergencyRequest message types envh envw = some request) :
    ∃ emergency, mallocateEmergency table types request tick = some emergency := by
  unfold parseEmergencyRequest at h
  split at h
  · split at h
    · cases h
    · rename_i n x y _ _ hlegal
      obtain rfl := Option.some.inj h
      simp only [emergencyRequestValuesAreIllegal, Bool.or_eq_true, not_or] at hlegal
      obtain ⟨⟨⟨-, hlookup⟩, -⟩, -⟩ := hlegal
      obtain ⟨type, htype⟩ : ∃ type, getEmergencyTypeByName n types = some type := by
        cases hfind : getEmergencyTypeByName n types with
        | none => exact absurd (by rw [hfind]; rfl) hlookup
        | some type => exact ⟨type, rfl⟩
      have hfind : getEmergencyTypeByName (trimRight n) types = some type := by
        rw [getEmergencyTypeByName, trimRight_trimRight]
        exact htype
      refine ⟨_, Option.map_eq_some_iff.mpr ⟨type, hfind, rfl⟩⟩
  · cases h

/-- What the receiver makes of the message it has taken. -/
inductive Handled (cfg : Config) (s s' : State) (message : CString) : Prop
  | stop (hmessage : message = MQ_STOP_MESSAGE) (hpc' : s'.receiver = .exited)
      (hsame : SameRequests s s')
  | rejected (hmessage : message ≠ MQ_STOP_MESSAGE)
      (hparse : parseEmergencyRequest message cfg.emergencies cfg.size.height cfg.size.width =
        none) (hcount : s'.count = s.count + 1) (hvalid : s'.validCount = s.validCount)
  | accepted (hmessage : message ≠ MQ_STOP_MESSAGE) (request : EmergencyRequest)
      (hparse : parseEmergencyRequest message cfg.emergencies cfg.size.height cfg.size.width =
        some request) (emergency : Emergency)
      (hemergency : mallocateEmergency cfg.priorityLookupTable cfg.emergencies request
        s.tickCountSinceStart = some emergency)
      (hcount : s'.count = s.count + 1) (hvalid : s'.validCount = s.validCount + 1)
      (hworld : s'.world = s.world.setEmergency s.nextId emergency)

/-- What a step does to the queue of requests. -/
inductive MqMove (cfg : Config) (s : State) (a : Action) (s' : State) : Prop
  | same (h : s'.mq = s.mq) (hsame : SameRequests s s') (hclient : ∀ message, a ≠ .client message)
  | sent (message : CString) (h : s'.mq = s.mq ++ [message]) (hsame : SameRequests s s')
      (hsender : a = .client message ∨
        message = MQ_STOP_MESSAGE ∧ ∀ message, a ≠ .client message)
  | received (message : CString) (ha : a.thread = some .receiver) (hpc : s.receiver = .receive)
      (h : s.mq = message :: s'.mq) (handled : Handled cfg s s' message)

theorem shutdownOp_mq {op : ShutdownOp} {more : List ShutdownOp}
    (h : s.shutdownOp op = some (s', more)) :
    (s'.mq = s.mq ∨ op = .send ∧ s'.mq = s.mq ++ [MQ_STOP_MESSAGE]) ∧ SameRequests s s' := by
  cases op <;> simp only [shutdownOp] at h
  case request | wake =>
    split at h <;> simp only [Option.some.injEq, Prod.mk.injEq, reduceCtorEq] at h
    all_goals
      obtain ⟨rfl, -⟩ := h
      exact ⟨.inl rfl, rfl, rfl⟩
  case send =>
    split at h
    · obtain ⟨rfl, -⟩ := Prod.mk.inj (Option.some.inj h)
      exact ⟨.inr ⟨rfl, rfl⟩, rfl, rfl⟩
    · simp at h
  case raise | close | updated =>
    obtain ⟨rfl, -⟩ := Prod.mk.inj (Option.some.inj h)
    exact ⟨.inl rfl, rfl, rfl⟩

theorem shutdownOp_mqMove {op : ShutdownOp} {more : List ShutdownOp} {s₁ : State}
    (h : s.shutdownOp op = some (s₁, more)) (hmq : s'.mq = s₁.mq) (hsame : SameRequests s₁ s')
    (hclient : ∀ message, a ≠ .client message) : MqMove cfg s a s' := by
  obtain ⟨hmove, hsame₁⟩ := shutdownOp_mq h
  have hrequests : SameRequests s s' :=
    ⟨hsame.count.trans hsame₁.count, hsame.validCount.trans hsame₁.validCount⟩
  rcases hmove with hquiet | ⟨-, hsent⟩
  · exact .same (hmq.trans hquiet) hrequests hclient
  · exact .sent _ (hmq.trans hsent) hrequests (.inr ⟨rfl, hclient⟩)

theorem stepUpdater_mqMove {woken : Option Worker} (h : s.stepUpdater cfg woken = some s') :
    MqMove cfg s (.updater woken) s' := by
  have hquiet : s'.mq = s.mq → SameRequests s s' → MqMove cfg s (.updater woken) s' :=
    fun hmq hsame => .same hmq hsame (by simp)
  cases hpc : s.updater with
  | updating todo =>
      rcases todo with - | ⟨op, rest⟩ <;> simp only [stepUpdater, hpc] at h
      · obtain rfl := Option.some.inj h
        exact hquiet rfl ⟨rfl, rfl⟩
      · cases op with
        | twin t | arrive t | slot i =>
            simp only [stepUpdate] at h
            split at h <;> obtain rfl := Option.some.inj h <;> exact hquiet rfl ⟨rfl, rfl⟩
        | shutdown op =>
            simp only [stepUpdate, Option.map_eq_some_iff, Prod.exists] at h
            obtain ⟨s₁, more, hop, rfl⟩ := h
            exact shutdownOp_mqMove hop rfl ⟨rfl, rfl⟩ (by simp)
  | takeTick =>
      simp only [stepUpdater, hpc] at h
      split at h
      · obtain rfl := Option.some.inj h
        exact hquiet rfl ⟨rfl, rfl⟩
      · split at h <;> obtain rfl := Option.some.inj h <;> exact hquiet rfl ⟨rfl, rfl⟩
  | expire | promote =>
      simp only [stepUpdater, hpc] at h
      split at h <;> obtain rfl := Option.some.inj h <;> exact hquiet rfl ⟨rfl, rfl⟩
  | promoted e =>
      simp only [stepUpdater, hpc] at h
      obtain ⟨worker, -, -, rfl⟩ := pushEmergency_eq h
      exact hquiet rfl ⟨rfl, rfl⟩
  | loop | readCount | begin cycle | mapWaiting | expired e =>
      simp only [stepUpdater, hpc] at h
      obtain rfl := Option.some.inj h
      exact hquiet rfl ⟨rfl, rfl⟩
  | tickWait | diverged | exited => simp [stepUpdater, hpc] at h

theorem stepReceiver_mqMove {woken : Option Worker} (h : s.stepReceiver cfg woken = some s') :
    MqMove cfg s (.receiver woken) s' := by
  cases hpc : s.receiver with
  | loop =>
      simp only [stepReceiver, hpc] at h
      obtain rfl := Option.some.inj h
      exact .same rfl ⟨rfl, rfl⟩ (by simp)
  | receive =>
      simp only [stepReceiver, hpc] at h
      split at h
      · simp at h
      · rename_i message mq hmq
        split at h
        · rename_i hmessage
          obtain rfl := Option.some.inj h
          exact .received message rfl hpc hmq (.stop hmessage rfl ⟨rfl, rfl⟩)
        · rename_i hmessage
          split at h
          · rename_i hparse
            obtain rfl := Option.some.inj h
            exact .received message rfl hpc hmq (.rejected hmessage hparse rfl rfl)
          · rename_i request hparse
            obtain ⟨emergency, hemergency⟩ :=
              exists_mallocateEmergency cfg.priorityLookupTable s.tickCountSinceStart hparse
            rw [hemergency] at h
            obtain rfl := Option.some.inj h
            exact .received message rfl hpc hmq
              (.accepted hmessage request hparse emergency hemergency rfl rfl rfl)
  | push e =>
      simp only [stepReceiver, hpc] at h
      obtain ⟨worker, -, -, rfl⟩ := pushEmergency_eq h
      exact .same rfl ⟨rfl, rfl⟩ (by simp)
  | exited => simp [stepReceiver, hpc] at h

theorem stepWorker_mq (h : s.stepWorker cfg i = some s') :
    s'.mq = s.mq ∧ SameRequests s s' := by
  cases hpc : s.worker i <;> simp only [stepWorker, hpc, reduceCtorEq] at h
  case pop =>
    split at h <;> obtain rfl := Option.some.inj h <;> exact ⟨rfl, rfl, rfl⟩
  case find e =>
    split at h
    · split at h <;> obtain rfl := Option.some.inj h <;> exact ⟨rfl, rfl, rfl⟩
    · simp at h
  case wait e =>
    split at h
    · split at h <;> obtain rfl := Option.some.inj h <;> exact ⟨rfl, rfl, rfl⟩
    · simp at h
  case store e reason =>
    split at h
    · obtain rfl := Option.some.inj h
      cases reason <;> exact ⟨rfl, rfl, rfl⟩
    · simp at h
  case popped e | closing leaving =>
    split at h
    · obtain rfl := Option.some.inj h
      exact ⟨rfl, rfl, rfl⟩
    · simp at h
  all_goals
    obtain rfl := Option.some.inj h
    exact ⟨rfl, rfl, rfl⟩

/-- **Step lemma.** -/
theorem step_mqMove (hstep : State.step cfg s a = some s') : MqMove cfg s a s' := by
  cases (step_thread hstep).2 with
  | clock _ h =>
      cases hpc : s.clock <;> simp only [stepClock, hpc, reduceCtorEq] at h <;>
        obtain rfl := Option.some.inj h <;> exact .same rfl ⟨rfl, rfl⟩ (by simp)
  | updater woken _ h => exact stepUpdater_mqMove h
  | receiver woken _ h => exact stepReceiver_mqMove h
  | worker i _ h =>
      obtain ⟨hmq, hsame⟩ := stepWorker_mq h
      exact .same hmq hsame (by simp)
  | main ok h =>
      cases stepMain_cases h with
      | shutdown op rest more s₁ hpc hop =>
          exact shutdownOp_mqMove hop rfl ⟨rfl, rfl⟩ (by simp)
      | closed s₁ more hpc hop => exact shutdownOp_mqMove hop rfl ⟨rfl, rfl⟩ (by simp)
      | _ => exact .same rfl ⟨rfl, rfl⟩ (by simp)
  | client message _ => exact .sent message rfl ⟨rfl, rfl⟩ (.inl rfl)
  | wakeWorker i h =>
      cases hpc : s.worker i <;> simp only [stepWakeWorker, hpc, reduceCtorEq] at h <;>
        obtain rfl := Option.some.inj h <;> exact .same rfl ⟨rfl, rfl⟩ (by simp)
  | wakeUpdater hpc => exact .same rfl ⟨rfl, rfl⟩ (by simp)

end EmergencyDispatch
