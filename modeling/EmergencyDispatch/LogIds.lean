import EmergencyDispatch.LogLines
import EmergencyDispatch.Library.Tickets

/-!
# The automatic ids of the log

A message with the id `AUTOMATIC_LOG_ID` gets the number of its event type that is
next.  A thread of the server draws it when it logs, the logger when it writes the
message of a client; between the drawing and the writing other threads log, and
messages wait in the queue.  The numbers of one event type are tickets: each is
held by one message, in the hand of a thread, in the queue or in the file.

So no number of an event type is on two lines; and while the queue is open every
number handed out is on a line or on its way.
-/

namespace EmergencyDispatch

open TransitionSystem Json Fields Tickets

/-! ## Who holds the numbers -/

/-- Where a message can be. -/
inductive LogPlace
  | hand (t : LogThread)
  | queue
  | file
  deriving DecidableEq

/-- The number of this event type that a line has. -/
def LogTextMessage.ticket (e : LogEventType) (m : LogTextMessage) : Option ℕ :=
  if m.eventType = e then m.number else none

/-- A message of a client gets its number when it is written. -/
def LogTextMessage.serverTicket (e : LogEventType) (m : LogTextMessage) : Option ℕ :=
  if m.role = .server then m.ticket e else none

/-- The numbers of an event type that the messages have. -/
def LogLedger.held (l : LogLedger) (e : LogEventType) : LogPlace → List ℕ
  | .hand t => (l.inHand t).filterMap (LogTextMessage.serverTicket e)
  | .queue => l.queue.filterMap (LogTextMessage.serverTicket e)
  | .file => l.file.filterMap (LogTextMessage.ticket e)

variable {switches : LogSwitches} {s : LogTextState} {l l' : LogLedger} {m : LogTextMessage}
  {e : LogEventType} {n : ℕ}

/-- The message draws a number of this event type. -/
def LogTextMessage.Draws (e : LogEventType) (m : LogTextMessage) : Prop :=
  m.id = AUTOMATIC_LOG_ID ∧ m.eventType = e

instance (e : LogEventType) (m : LogTextMessage) : Decidable (m.Draws e) :=
  inferInstanceAs (Decidable (_ ∧ _))

theorem ticket_assembled (config : LoggingConfig) (counters : LogEventType → ℕ)
    (m : LogTextMessage) (e : LogEventType) : (assembleLogText config counters m).1.ticket e =
      if m.Draws e then some (counters e) else none := by
  rw [assembleLogText_fields]
  unfold LogTextMessage.ticket LogTextMessage.Draws
  by_cases htype : m.eventType = e
  · subst htype
    simp
  · simp [htype]

theorem counters_assembled (config : LoggingConfig) (counters : LogEventType → ℕ)
    (m : LogTextMessage) (e : LogEventType) : (assembleLogText config counters m).2 e =
      if m.Draws e then counters e + 1 else counters e := by
  unfold assembleLogText LogTextMessage.Draws
  by_cases hid : m.id = AUTOMATIC_LOG_ID
  · by_cases htype : m.eventType = e
    · subst htype
      simp [hid]
    · simp [hid, htype, Function.update_of_ne (Ne.symm htype)]
  · simp [hid]

theorem serverTicket_server (hrole : m.role = .server) : m.serverTicket e = m.ticket e :=
  if_pos hrole

theorem serverTicket_client (hrole : m.role = .client) : m.serverTicket e = none :=
  if_neg (by rw [hrole]; nofun)

theorem held_hand_update (l : LogLedger) (e : LogEventType) (t : LogThread)
    (messages : List LogTextMessage) {p : LogPlace} (hp : p ≠ .hand t) :
    { l with inHand := Function.update l.inHand t messages }.held e p = l.held e p := by
  cases p with
  | hand u =>
      have hu : u ≠ t := fun h => hp (congrArg LogPlace.hand h)
      simp [LogLedger.held, hu]
  | queue => rfl
  | file => rfl

/-! ## What a step does to them -/

theorem passes_of_message {held held' : LogPlace → List ℕ} {drawn : ℕ} (p q : LogPlace)
    (number : Option ℕ) (hpq : p ≠ q) (hp : held p = number.toList ++ held' p)
    (hq : held' q = held q ++ number.toList)
    (hother : ∀ r, r ≠ p → r ≠ q → held' r = held r) : Passes held drawn held' drawn := by
  cases number with
  | none =>
      refine .same fun r => ?_
      by_cases hrp : r = p
      · subst hrp
        rw [hp, Option.toList_none, List.nil_append]
      · by_cases hrq : r = q
        · subst hrq
          rw [hq, Option.toList_none, List.append_nil]
        · rw [hother r hrp hrq]
  | some n =>
      refine .move p q n hpq (by rw [hp]; rfl) ?_ fun r hrp hrq => by rw [hother r hrp hrq]
      rw [hq]
      exact List.perm_append_singleton n (held q)

theorem passes_of_assembled {held held' : LogPlace → List ℕ} {drawn drawn' : ℕ} {p : LogPlace}
    {draws : Prop} [Decidable draws]
    (hp : (held' p).Perm ((if draws then some drawn else none).toList ++ held p))
    (hdrawn : drawn' = if draws then drawn + 1 else drawn)
    (hother : ∀ q, q ≠ p → held' q = held q) : Passes held drawn held' drawn' := by
  by_cases h : draws
  · rw [if_pos h] at hp hdrawn
    subst hdrawn
    exact .draw p hp fun q hq => by rw [hother q hq]
  · rw [if_neg h] at hp hdrawn
    subst hdrawn
    refine .same fun q => ?_
    by_cases hq : q = p
    · subst hq
      exact hp
    · rw [hother q hq]

theorem filterMap_cons_toList {α β : Type*} (f : α → Option β) (a : α) (items : List α) :
    (a :: items).filterMap f = (f a).toList ++ items.filterMap f := by
  rw [List.filterMap_cons]
  cases f a <;> rfl

theorem filterMap_append_toList {α β : Type*} (f : α → Option β) (items : List α) (a : α) :
    (items ++ [a]).filterMap f = items.filterMap f ++ (f a).toList := by
  rw [List.filterMap_append, filterMap_cons_toList, List.filterMap_nil, List.append_nil]

/-- A step passes numbers on, or it draws one in vain after the queue was closed. -/
theorem held_step (h : l.Sound switches) (hstep : LedgerStep switches l l') (e : LogEventType) :
    Passes (l.held e) (l.counters e) (l'.held e) (l'.counters e) ∨
      (l.serverOpened = false ∧ l'.counters e = l.counters e + 1 ∧ l'.held e = l.held e) := by
  cases hstep with
  | stay => exact .inl (.same fun _ => .rfl)
  | close => exact .inl (.same fun _ => .rfl)
  | lose m hclosed =>
      have hcounters := counters_assembled serverLoggingConfig l.counters m e
      by_cases hdraws : m.Draws e
      · rw [if_pos hdraws] at hcounters
        exact .inr ⟨hclosed, hcounters, rfl⟩
      · rw [if_neg hdraws] at hcounters
        left
        show Passes (l.held e) (l.counters e) (l.held e)
          ((assembleLogText serverLoggingConfig l.counters m).2 e)
        rw [hcounters]
        exact .same fun _ => .rfl
  | make n m hmade hrole =>
      refine .inl (passes_of_assembled (p := .hand (.server n)) ?_
        (counters_assembled serverLoggingConfig l.counters m e)
        fun q hq => held_hand_update l e _ _ hq)
      have hassembled : (assembleLogText serverLoggingConfig l.counters m).1.role = .server := by
        rw [assembleLogText_fields]
        exact hrole
      simp only [LogLedger.held, Function.update_self]
      rw [filterMap_cons_toList, serverTicket_server hassembled, ticket_assembled]
  | makeClient n m hmade hrole =>
      refine .inl (.same fun p => ?_)
      by_cases hp : p = .hand (.client n)
      · subst hp
        simp only [LogLedger.held, Function.update_self]
        rw [filterMap_cons_toList, serverTicket_client hrole]
        exact .rfl
      · rw [held_hand_update l e _ _ hp]
  | send t m rest hhand =>
      refine .inl (passes_of_message (.hand t) .queue (m.serverTicket e) nofun ?_
        (filterMap_append_toList _ _ _) fun r hr hrq => ?_)
      · simp only [LogLedger.held, Function.update_self]
        rw [hhand, filterMap_cons_toList]
      · cases r with
        | hand u => exact held_hand_update l e t rest hr
        | queue => exact absurd rfl hrq
        | file => rfl
  | leave n =>
      refine .inl (.same fun p => ?_)
      by_cases hp : p = .hand (.client n)
      · subst hp
        -- messages of clients have no number yet
        have hnone : (l.inHand (.client n)).filterMap (LogTextMessage.serverTicket e) = [] := by
          rw [List.filterMap_eq_nil_iff]
          exact fun m hm => serverTicket_client (h.inHand _ m hm).2
        simp only [LogLedger.held, Function.update_self]
        rw [hnone]
        exact .rfl
      · rw [held_hand_update l e _ _ hp]
  | write m queue hqueue hrole =>
      refine .inl (passes_of_message .queue .file (m.ticket e) nofun ?_
        (filterMap_append_toList _ _ _) fun r hr hrq => ?_)
      · simp only [LogLedger.held]
        rw [hqueue, filterMap_cons_toList, serverTicket_server hrole]
      · cases r with
        | hand u => rfl
        | queue => exact absurd rfl hr
        | file => exact absurd rfl hrq
  | writeClient m queue hqueue hrole =>
      refine .inl (passes_of_assembled (p := .file) ?_
        (counters_assembled serverLoggingConfig l.counters m e) fun q hq => ?_)
      · simp only [LogLedger.held]
        rw [filterMap_append_toList, ticket_assembled]
        exact List.perm_append_comm
      · cases q with
        | hand u => rfl
        | queue =>
            simp only [LogLedger.held]
            rw [hqueue, filterMap_cons_toList, serverTicket_client hrole]
            rfl
        | file => exact absurd rfl hq
  | drop m queue hqueue hlog =>
      have hm := h.queue m (hqueue ▸ List.mem_cons_self)
      rw [hm.made.toLog] at hlog
      cases hlog

theorem opened_of_step (hstep : LedgerStep switches l l') (h : l'.serverOpened = true) :
    l.serverOpened = true := by
  cases hstep <;> first | exact h | cases h

/-- In every state the numbers are tickets, and none is lost while the queue is open. -/
theorem tickets_of_reachable (hreach : LogTextReachable switches s) (e : LogEventType) :
    Drawn (s.ledger.held e) (s.ledger.counters e) ∧
      (s.ledger.serverOpened = true → Kept (s.ledger.held e) (s.ledger.counters e)) := by
  refine hreach.invariant (fun s => Drawn (s.ledger.held e) (s.ledger.counters e) ∧
    (s.ledger.serverOpened = true → Kept (s.ledger.held e) (s.ledger.counters e))) ?_ ?_
  · rw [initialLedger]
    exact ⟨.initial fun p => by cases p <;> rfl, fun _ n hn => absurd hn (Nat.not_lt_zero n)⟩
  · intro s a s' hs ⟨hdrawn, hkept⟩ _ hstep
    have hledger := step_ledger hstep
    rcases held_step (sound_of_reachable hs) hledger e with hpass | ⟨hclosed, hcounters, hheld⟩
    · exact ⟨hdrawn.passes hpass, fun h => (hkept (opened_of_step hledger h)).passes hpass⟩
    · rw [hcounters, hheld]
      refine ⟨hdrawn.lose fun _ => .rfl, fun h => ?_⟩
      rw [opened_of_step hledger h] at hclosed
      cases hclosed

/-! ## The ids on the lines -/

/-- The id on a line: the second field in brackets. -/
def readId : CString → Option CString
  | '[' :: text => some (upTo ']' ((upTo ']' text).2.drop 3)).1
  | _ => none

theorem readId_text (hmade : m.WellMade switches) (hline : m.Composed) (hid : IsInt m.id) :
    readId m.text = some m.idText := by
  obtain ⟨increments, htext, hnumber⟩ := hline
  obtain ⟨seconds, nanoseconds, htimestamp⟩ := hmade.timestamp
  have hbracket : ']' ∉ m.timestamp := htimestamp ▸ bracket_notMem_timestampText _ _
  have houtId : ']' ∉ m.idText := outId_eq hid hnumber ▸ bracket_notMem_outId _ _
  rw [htext, lineText_server hmade, outId_eq hid hnumber]
  simp only [readId, printFields, lineDelimiters, List.cons_append, List.nil_append]
  rw [upTo_append hbracket, List.drop_succ_cons, List.drop_succ_cons, List.drop_succ_cons,
    List.drop_zero, upTo_append houtId]

theorem counterValue_eq (hn : n < 2 ^ 31) : counterValue n = n :=
  Int.bmod_eq_of_le (by omega) (by omega)

theorem printInt_injective : Function.Injective fun n : ℕ => printInt n := by
  intro n k h
  have hn := Nat.ofDigitChars_ten_toDigits (n := n)
  rw [← Nat.ofDigitChars_ten_toDigits (n := k), ← hn]
  exact congrArg (fun digits => Nat.ofDigitChars 10 digits 0) h

theorem ticket_eq_some_iff (hline : m.Composed) :
    m.ticket e = some n ↔ m.Draws e ∧ m.number = some n := by
  obtain ⟨increments, -, hnumber⟩ := hline
  unfold LogTextMessage.ticket LogTextMessage.Draws
  constructor
  · intro h
    split at h
    · rename_i htype
      rw [hnumber] at h
      split at h
      · rename_i hid
        exact ⟨⟨hid, htype⟩, by rw [hnumber, if_pos hid]; exact h⟩
      · cases h
    · cases h
  · rintro ⟨⟨-, htype⟩, h⟩
    rw [if_pos htype, h]

/-- The id on a line with an automatic id is its number. -/
theorem readId_of_ticket (hmade : m.WellMade switches) (hline : m.Composed)
    (hticket : m.ticket e = some n) (hn : n < 2 ^ 31) : readId m.text = some (printInt n) := by
  obtain ⟨⟨hid, -⟩, hnumber⟩ := (ticket_eq_some_iff hline).mp hticket
  rw [readId_text hmade hline (by rw [hid]; exact ⟨by decide, by decide⟩),
    LogTextMessage.idText, hnumber]
  exact congrArg (fun v => some (printInt v)) (counterValue_eq hn)

theorem map_readId {lines : List LogTextMessage}
    (hlines : ∀ m ∈ lines, m.WellMade switches ∧ m.Composed)
    (hlt : ∀ n ∈ lines.filterMap (LogTextMessage.ticket e), n < 2 ^ 31) :
    (lines.filter (·.Draws e)).map (fun m => readId m.text) =
      (lines.filterMap (LogTextMessage.ticket e)).map fun n : ℕ => some (printInt n) := by
  induction lines with
  | nil => rfl
  | cons m lines ih =>
      obtain ⟨hmade, hline⟩ := hlines m List.mem_cons_self
      have hrest := fun x hx => hlines x (List.mem_cons_of_mem m hx)
      rw [filterMap_cons_toList] at hlt ⊢
      have ih := ih hrest fun n hn => hlt n (List.mem_append_right _ hn)
      by_cases hdraws : m.Draws e
      · obtain ⟨increments, -, hnumber⟩ := id hline
        rw [if_pos hdraws.1] at hnumber
        have hticket := (ticket_eq_some_iff hline).mpr ⟨hdraws, hnumber⟩
        have hread := readId_of_ticket hmade hline hticket (hlt _ (by simp [hticket]))
        rw [List.filter_cons_of_pos (by simpa using hdraws), List.map_cons, ih, hread, hticket]
        rfl
      · have hticket : m.ticket e = none := by
          cases h : m.ticket e with
          | none => rfl
          | some n => exact absurd ((ticket_eq_some_iff hline).mp h).1 hdraws
        rw [List.filter_cons_of_neg (by simpa using hdraws), ih, hticket]
        rfl

/-- The lines of the file, and those that wait in the queue as the server has made them. -/
def LogTextState.lines (s : LogTextState) : List LogTextMessage :=
  s.file ++ s.queue.filter (·.role = .server)

theorem filterMap_lines (s : LogTextState) (e : LogEventType) :
    s.lines.filterMap (LogTextMessage.ticket e) =
      s.ledger.held e .file ++ s.ledger.held e .queue := by
  have hqueue : (s.queue.filter (·.role = .server)).filterMap (LogTextMessage.ticket e) =
      s.queue.filterMap (LogTextMessage.serverTicket e) := by
    rw [List.filterMap_filter]
    refine List.filterMap_congr fun m _ => ?_
    by_cases hrole : m.role = .server <;> simp [LogTextMessage.serverTicket, hrole]
  rw [LogTextState.lines, List.filterMap_append, hqueue]
  rfl

/-- **Automatic ids.**  The automatic ids of an event type are different on all the lines
and below the counter; while the queue is open each number below the counter is on a
line, or on a message that a thread of the server is about to send. -/
theorem automatic_ids (hreach : LogTextReachable switches s) (e : LogEventType)
    (hwrap : s.counters .server e ≤ 2 ^ 31) :
    let ids := (s.lines.filter (·.Draws e)).map fun m => readId m.text
    ids.Nodup ∧ (∀ id ∈ ids, ∃ n : ℕ, n < s.counters .server e ∧ id = some (printInt n)) ∧
      (s.serverOpened = true → ∀ n < s.counters .server e, some (printInt n) ∈ ids ∨
        ∃ t m, LogTextOp.send m ∈ s.todo t ∧ m.role = .server ∧ m.Draws e ∧
          readId m.text = some (printInt n)) := by
  intro ids
  have hsound := sound_of_reachable hreach
  obtain ⟨hdrawn, hkept⟩ := tickets_of_reachable hreach e
  have hlines : ∀ m ∈ s.lines, m.WellMade switches ∧ m.Composed := by
    intro m hm
    rcases List.mem_append.mp hm with hm | hm
    · exact hsound.file m hm
    · obtain ⟨hm, hrole⟩ := List.mem_filter.mp hm
      exact ⟨(hsound.queue m hm).made, (hsound.queue m hm).composed (by simpa using hrole)⟩
  have hlt : ∀ n ∈ s.lines.filterMap (LogTextMessage.ticket e), n < s.counters .server e := by
    intro n hn
    rw [filterMap_lines] at hn
    exact (List.mem_append.mp hn).elim (hdrawn.lt _ n) (hdrawn.lt _ n)
  have hids : ids = (s.lines.filterMap (LogTextMessage.ticket e)).map
      fun n : ℕ => some (printInt n) :=
    map_readId hlines fun n hn => (hlt n hn).trans_le hwrap
  have hnodup : (s.lines.filterMap (LogTextMessage.ticket e)).Nodup := by
    rw [filterMap_lines]
    refine List.Nodup.append (hdrawn.exclusive.nodup _) (hdrawn.exclusive.nodup _) ?_
    intro n hfile hqueue
    exact absurd (hdrawn.exclusive.unique hfile hqueue) nofun
  refine ⟨?_, ?_, ?_⟩
  · rw [hids]
    exact hnodup.map ((Option.some_injective _).comp printInt_injective)
  · intro id hid
    rw [hids] at hid
    obtain ⟨n, hn, rfl⟩ := List.mem_map.mp hid
    exact ⟨n, hlt n hn, rfl⟩
  · intro hopened n hn
    obtain ⟨p, hp⟩ := hkept hopened n hn
    cases p with
    | hand t =>
        -- the thread has drawn the number and has not sent its message yet
        obtain ⟨m, hm, hticket⟩ := List.mem_filterMap.mp hp
        obtain ⟨op, hop, hmessage⟩ := List.mem_filterMap.mp hm
        have hsend : op = .send m := by
          cases op with
          | op o => cases hmessage
          | send m' => rw [Option.some.inj hmessage]
        have hrole : m.role = .server := by
          by_contra hclient
          rw [LogTextMessage.serverTicket, if_neg hclient] at hticket
          cases hticket
        rw [serverTicket_server hrole] at hticket
        obtain ⟨hm', -⟩ := hsound.inHand t m hm
        have hline := hm'.composed hrole
        exact .inr ⟨t, m, hsend ▸ hop, hrole, ((ticket_eq_some_iff hline).mp hticket).1,
          readId_of_ticket hm'.made hline hticket (hn.trans_le hwrap)⟩
    | queue =>
        left
        rw [hids, filterMap_lines]
        exact List.mem_map.mpr ⟨n, List.mem_append_right _ hp, rfl⟩
    | file =>
        left
        rw [hids, filterMap_lines]
        exact List.mem_map.mpr ⟨n, List.mem_append_left _ hp, rfl⟩

/-- The server's worker and the client have logged an event of one type each. -/
theorem automatic_ids_two_processes :
    let s := logTextAfter ⟨false, false, true, true⟩ twoProcessesLog
    s.counters .server .emergencyStatus = 2 ∧
      ((s.lines.filter (·.Draws .emergencyStatus)).map fun m => readId m.text).Nodup := by
  intro s
  have hcounter : s.counters .server .emergencyStatus = 2 := by decide +kernel
  exact ⟨hcounter, (automatic_ids (reachable_logTextAfter _ _) .emergencyStatus
    (by rw [hcounter]; decide)).1⟩

end EmergencyDispatch
