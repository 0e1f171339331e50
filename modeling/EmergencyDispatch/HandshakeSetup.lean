import EmergencyDispatch.Handshake
import EmergencyDispatch.Library.Turnstile

/-!
# What the server has set up

A semaphore exists only when the memory of its server has been written, and a name
never goes back to an older object than one whose semaphore exists.  `IpcInvariant`
says this for every state, together with what a client has reached and how many
permits a semaphore has; this file shows it for the steps of `server_ipc_setup`.
-/

namespace EmergencyDispatch

open TransitionSystem Turnstiles

variable {cfg : IpcConfig} {s s' : IpcState} {n i j k : ℕ}

/-! ## Programs, as far as they are done -/

section programs

variable {α : Type*} {program : List α} {op op' : α}

theorem take_succ_of_getElem? (h : program[i]? = some op) :
    program.take (i + 1) = program.take i ++ [op] := by
  rw [List.take_add_one, h]
  rfl

theorem mem_take_succ (h : program[i]? = some op) :
    op' ∈ program.take (i + 1) ↔ op' ∈ program.take i ∨ op' = op := by
  rw [take_succ_of_getElem? h, List.mem_append, List.mem_singleton]

theorem index_unique_of_nodup (hnodup : program.Nodup) (hi : program[i]? = some op)
    (hj : program[j]? = some op) : i = j :=
  (List.getElem?_inj (List.getElem?_eq_some_iff.mp hi).1 hnodup).mp (hi.trans hj.symm)

end programs

/-- The operation of `server_ipc_setup` is among the first `n`. -/
def SetupDone (op : ServerOp) (n : ℕ) : Prop := op ∈ serverIpcSetup.take n

instance (op : ServerOp) (n : ℕ) : Decidable (SetupDone op n) :=
  inferInstanceAs (Decidable (_ ∈ _))

/-- The operation of a client is among the first `n`. -/
def ClientDone (op : ClientOp) (n : ℕ) : Prop := op ∈ clientSetup.take n

instance (op : ClientOp) (n : ℕ) : Decidable (ClientDone op n) :=
  inferInstanceAs (Decidable (_ ∈ _))

/-- The memory of the `k`-th server after `n` operations. -/
def contentsAfter (cfg : IpcConfig) (k n : ℕ) : Option ClientServerShm :=
  (serverIpcSetup.take n).foldl (fun shm op => op.write cfg k shm) none

/-- The copies of a client after `n` operations, all from one record. -/
def copiesAfter (source : ClientServerShm) (n : ℕ) : ClientServerShm :=
  (clientSetup.take n).foldl (fun record op => op.copies source record) .zero

theorem serverIpcSetup_nodup : serverIpcSetup.Nodup := by decide

theorem clientSetup_nodup : clientSetup.Nodup := by decide

theorem contentsAfter_succ {op : ServerOp} (h : serverIpcSetup[n]? = some op) :
    contentsAfter cfg k (n + 1) = op.write cfg k (contentsAfter cfg k n) := by
  rw [contentsAfter, take_succ_of_getElem? h, List.foldl_append]
  rfl

theorem copiesAfter_succ {op : ClientOp} (h : clientSetup[n]? = some op)
    (source : ClientServerShm) :
    copiesAfter source (n + 1) = op.copies source (copiesAfter source n) := by
  rw [copiesAfter, take_succ_of_getElem? h, List.foldl_append]
  rfl

/-- All is written when the semaphore is created. -/
theorem contentsAfter_semOpen (cfg : IpcConfig) (k : ℕ) :
    contentsAfter cfg k 13 = some (cfg.published k) := rfl

theorem copiesAfter_clientSetup (cfg : IpcConfig) (k : ℕ) :
    copiesAfter (cfg.published k) clientSetup.length = cfg.published k := rfl

/-! ## What holds of names and objects -/

/-- A name never goes back to an older object than one that was complete. -/
structure IpcObjects (cfg : IpcConfig) (s : IpcState) : Prop where
  shmName_le : ∀ j, s.shmName = some j → j ≤ s.started
  mqName_le : ∀ q j, s.mqName q = some j → j ≤ s.started
  sem_le : ∀ j, s.sem j ≠ none → j ≤ s.started
  fresh : ∀ j, s.started < j → s.shm j = none
  semName : ∀ j, s.semName = some j → s.sem j ≠ none
  complete : ∀ j, s.sem j ≠ none → s.shm j = some (cfg.published j)
  shm_after : ∀ i j, s.sem i ≠ none → s.shmName = some j → i ≤ j
  mq_after : ∀ i j, s.sem i ≠ none → s.mqName (cfg.queueName i) = some j → i ≤ j
  serverQueue : ∀ j, s.sem j ≠ none → s.serverQueue j = some j

/-- The client has taken the semaphore of the `k`-th server and has not posted it yet. -/
def IpcClient.Inside (c : IpcClient) (k : ℕ) : Prop := c.phase = some 2 ∧ c.sem = some k

/-- Who is inside at the `k`-th semaphore. -/
def InsideAt (clients : ℕ → IpcClient) (k : ℕ) (n : ℕ) : Prop := (clients n).Inside k

/-- What the server has reached after `n` operations. -/
structure SetupFacts (cfg : IpcConfig) (s : IpcState) (n : ℕ) : Prop where
  shmName : SetupDone .shmUnlink n → ∀ j, s.shmName = some j →
    j = s.started ∧ SetupDone .shmOpen n
  semName : SetupDone .semUnlink n → ∀ j, s.semName = some j →
    j = s.started ∧ SetupDone .semOpen n
  mqName : SetupDone .mqUnlink n → ∀ j, s.mqName (cfg.queueName s.started) = some j →
    j = s.started
  serverQueue : SetupDone .mqOpen n → s.serverQueue s.started = some s.started
  shm : s.shm s.started = contentsAfter cfg s.started n
  sem : ¬SetupDone .semOpen n → s.sem s.started = none
  closed : ¬SetupDone .semPost n →
    (SetupDone .semOpen n → s.sem s.started = some 0) ∧ ∀ m, ¬InsideAt s.clients s.started m
  opened : SetupDone .semPost n →
    ∃ value, s.sem s.started = some value ∧ Turnstile value (InsideAt s.clients s.started)

/-- What a client has reached after `i` operations. -/
structure ClientFacts (cfg : IpcConfig) (s : IpcState) (c : IpcClient) (i : ℕ) : Prop where
  sem : ClientDone .semOpen i → ∃ k, c.sem = some k ∧ s.sem k ≠ none
  noSem : ¬ClientDone .semOpen i → c.sem = none
  shm : ClientDone .shmOpen i → ∃ j, c.shm = some j ∧ j ≤ s.started ∧ ∀ k, c.sem = some k → k ≤ j
  noShm : ¬ClientDone .shmOpen i → c.shm = none
  mq : ClientDone .mqOpen i → ∃ queue, c.mq = some queue ∧ queue ≤ s.started ∧
    ∀ k, c.sem = some k → c.shm = some k → k ≤ queue
  record : ∀ k, (c.sem = none ∨ c.sem = some k) → (c.shm = none ∨ c.shm = some k) →
    c.record = copiesAfter (cfg.published k) i

/-- The permits of a semaphore. -/
def IpcState.Permits (s : IpcState) (k value : ℕ) : Prop :=
  Turnstile value (InsideAt s.clients k) ∨ (value = 0 ∧ ∀ m, ¬InsideAt s.clients k m)

/-- What holds in every state. -/
structure IpcInvariant (cfg : IpcConfig) (s : IpcState) : Prop where
  objects : IpcObjects cfg s
  setup : ∀ n, s.server = .setup n → SetupFacts cfg s n
  clients : ∀ n i, (s.clients n).phase = some i → ClientFacts cfg s (s.clients n) i
  permits : ∀ k value, s.sem k = some value → s.Permits k value
  opened : s.server = .running ∨ (∃ n, s.server = .cleanup n) →
    ∃ value, s.sem s.started = some value ∧ Turnstile value (InsideAt s.clients s.started)

theorem initial_ipcInvariant (cfg : IpcConfig) : IpcInvariant cfg initialIpcState where
  objects :=
    { shmName_le := nofun
      mqName_le := nofun
      sem_le := fun _ h => absurd rfl h
      fresh := fun _ _ => rfl
      semName := nofun
      complete := fun _ h => absurd rfl h
      shm_after := nofun
      mq_after := nofun
      serverQueue := fun _ h => absurd rfl h }
  setup _ h := by cases h
  clients _ _ h := by cases h
  permits _ _ h := by cases h
  opened h := by
    rcases h with h | ⟨n, h⟩ <;> cases h

/-! ## The server -/

/-- Servers and semaphores that exist still exist. -/
theorem ClientFacts.mono {c : IpcClient} (h : ClientFacts cfg s c i)
    (hstarted : s.started ≤ s'.started) (hsem : ∀ k, s.sem k ≠ none → s'.sem k ≠ none) :
    ClientFacts cfg s' c i where
  sem hd := by
    obtain ⟨k, hk, hne⟩ := h.sem hd
    exact ⟨k, hk, hsem k hne⟩
  noSem := h.noSem
  shm hd := by
    obtain ⟨j, hj, hle, hafter⟩ := h.shm hd
    exact ⟨j, hj, hle.trans hstarted, hafter⟩
  noShm := h.noShm
  mq hd := by
    obtain ⟨queue, hqueue, hle, hafter⟩ := h.mq hd
    exact ⟨queue, hqueue, hle.trans hstarted, hafter⟩
  record := h.record

/-- Removing names harms nobody. -/
theorem IpcObjects.unlink (h : IpcObjects cfg s) (server : ServerPhase)
    {shmName semName : Option ℕ} {mqName : CString → Option ℕ}
    (hshm : ∀ j, shmName = some j → s.shmName = some j)
    (hsem : ∀ j, semName = some j → s.semName = some j)
    (hmq : ∀ q j, mqName q = some j → s.mqName q = some j) :
    IpcObjects cfg { s with
      shmName := shmName, semName := semName, mqName := mqName, server := server } where
  shmName_le j hj := h.shmName_le j (hshm j hj)
  mqName_le q j hj := h.mqName_le q j (hmq q j hj)
  sem_le := h.sem_le
  fresh := h.fresh
  semName j hj := h.semName j (hsem j hj)
  complete := h.complete
  shm_after i j hi hj := h.shm_after i j hi (hshm j hj)
  mq_after i j hi hj := h.mq_after i j hi (hmq _ j hj)
  serverQueue := h.serverQueue

theorem mqName_of_update_none {q₀ q : CString} {mqName : CString → Option ℕ}
    (h : Function.update mqName q₀ none q = some j) : mqName q = some j := by
  by_cases hq : q = q₀
  · subst hq
    simp at h
  · rwa [Function.update_of_ne hq] at h

/-- The memory of a server without semaphore may change. -/
theorem IpcObjects.write (h : IpcObjects cfg s) (server : ServerPhase)
    (hsem : s.sem s.started = none) (contents : Option ClientServerShm) :
    IpcObjects cfg { s with
      shm := Function.update s.shm s.started contents, server := server } :=
  { h with
    fresh := by
      intro j hj
      show Function.update s.shm s.started contents j = none
      rw [Function.update_of_ne hj.ne']
      exact h.fresh j hj
    complete := by
      intro j hj
      have hne : j ≠ s.started := by
        rintro rfl
        exact hj hsem
      show Function.update s.shm s.started contents j = _
      rw [Function.update_of_ne hne]
      exact h.complete j hj }

/-- The phase of the server is no object. -/
theorem IpcObjects.phase (h : IpcObjects cfg s) (server : ServerPhase) :
    IpcObjects cfg { s with server := server } := { h with }

theorem setupDone_succ {op op' : ServerOp} (hop : serverIpcSetup[n]? = some op) :
    SetupDone op' (n + 1) ↔ SetupDone op' n ∨ op' = op := mem_take_succ hop

theorem setupDone_succ_of_ne {op op' : ServerOp} (hop : serverIpcSetup[n]? = some op)
    (hne : op ≠ op') : SetupDone op' (n + 1) ↔ SetupDone op' n := by
  rw [setupDone_succ hop, or_iff_left hne.symm]

theorem turn_unique {op : ServerOp} (hop : serverIpcSetup[n]? = some op)
    (hj : serverIpcSetup[j]? = some op) : n = j :=
  index_unique_of_nodup serverIpcSetup_nodup hop hj

/-- What an operation has left alone, one more being done. -/
structure KeptFacts (cfg : IpcConfig) (s : IpcState) (op : ServerOp) (n : ℕ) : Prop where
  shmName : op ≠ .shmUnlink → SetupDone .shmUnlink n → ∀ j, s.shmName = some j →
    j = s.started ∧ SetupDone .shmOpen n
  semName : op ≠ .semUnlink → SetupDone .semUnlink n → ∀ j, s.semName = some j →
    j = s.started ∧ SetupDone .semOpen n
  mqName : op ≠ .mqUnlink → SetupDone .mqUnlink n → ∀ j,
    s.mqName (cfg.queueName s.started) = some j → j = s.started
  serverQueue : op ≠ .mqOpen → SetupDone .mqOpen n → s.serverQueue s.started = some s.started
  shm : op.write cfg s.started (s.shm s.started) = contentsAfter cfg s.started n
  sem : ¬SetupDone .semOpen n → s.sem s.started = none
  closed : op ≠ .semOpen → ¬SetupDone .semPost n →
    (SetupDone .semOpen n → s.sem s.started = some 0) ∧ ∀ m, ¬InsideAt s.clients s.started m
  opened : op ≠ .semPost → SetupDone .semPost n →
    ∃ value, s.sem s.started = some value ∧ Turnstile value (InsideAt s.clients s.started)

theorem SetupFacts.kept (hf : SetupFacts cfg s n) {op : ServerOp}
    (hop : serverIpcSetup[n]? = some op) : KeptFacts cfg s op (n + 1) where
  shmName hne hd j hj := by
    obtain ⟨hstarted, hopen⟩ := hf.shmName ((setupDone_succ_of_ne hop hne).mp hd) j hj
    exact ⟨hstarted, (setupDone_succ hop).mpr (.inl hopen)⟩
  semName hne hd j hj := by
    obtain ⟨hstarted, hopen⟩ := hf.semName ((setupDone_succ_of_ne hop hne).mp hd) j hj
    exact ⟨hstarted, (setupDone_succ hop).mpr (.inl hopen)⟩
  mqName hne hd := hf.mqName ((setupDone_succ_of_ne hop hne).mp hd)
  serverQueue hne hd := hf.serverQueue ((setupDone_succ_of_ne hop hne).mp hd)
  shm := by rw [contentsAfter_succ hop, hf.shm]
  sem hd := hf.sem fun hdone => hd ((setupDone_succ hop).mpr (.inl hdone))
  closed hne hd := by
    have hpost : ¬SetupDone .semPost n := fun hdone => hd ((setupDone_succ hop).mpr (.inl hdone))
    obtain ⟨hzero, hnobody⟩ := hf.closed hpost
    exact ⟨fun hopen => hzero ((setupDone_succ_of_ne hop hne).mp hopen), hnobody⟩
  opened hne hd := hf.opened ((setupDone_succ_of_ne hop hne).mp hd)

/-! ### One operation -/

/-- What an operation of `server_ipc_setup` has to keep. -/
structure SetupStep (cfg : IpcConfig) (s s' : IpcState) (n : ℕ) : Prop where
  objects : IpcObjects cfg s'
  facts : SetupFacts cfg s' (n + 1)
  clients : s'.clients = s.clients
  started : s'.started = s.started
  sem : ∀ k, s.sem k ≠ none → s'.sem k ≠ none
  permits : ∀ k value, s'.sem k = some value → s'.Permits k value

section operations

variable (h : IpcInvariant cfg s) (hf : SetupFacts cfg s n)
include h hf

theorem setup_shmUnlink (hop : serverIpcSetup[n]? = some .shmUnlink) :
    SetupStep cfg s { s with shmName := none } n where
  objects := h.objects.unlink s.server nofun (fun _ hj => hj) fun _ _ hj => hj
  facts :=
    have hkept := hf.kept hop
    { shmName := nofun
      semName := hkept.semName nofun
      mqName := hkept.mqName nofun
      serverQueue := hkept.serverQueue nofun
      shm := hkept.shm
      sem := hkept.sem
      closed := hkept.closed nofun
      opened := hkept.opened nofun }
  clients := rfl
  started := rfl
  sem _ hk := hk
  permits := h.permits

theorem setup_semUnlink (hop : serverIpcSetup[n]? = some .semUnlink) :
    SetupStep cfg s { s with semName := none } n where
  objects := h.objects.unlink s.server (fun _ hj => hj) nofun fun _ _ hj => hj
  facts :=
    have hkept := hf.kept hop
    { shmName := hkept.shmName nofun
      semName := nofun
      mqName := hkept.mqName nofun
      serverQueue := hkept.serverQueue nofun
      shm := hkept.shm
      sem := hkept.sem
      closed := hkept.closed nofun
      opened := hkept.opened nofun }
  clients := rfl
  started := rfl
  sem _ hk := hk
  permits := h.permits

theorem setup_mqUnlink (hop : serverIpcSetup[n]? = some .mqUnlink) :
    SetupStep cfg s
      { s with mqName := Function.update s.mqName (cfg.queueName s.started) none } n where
  objects := h.objects.unlink s.server (fun _ hj => hj) (fun _ hj => hj)
    fun _ _ hj => mqName_of_update_none hj
  facts :=
    have hkept := hf.kept hop
    { shmName := hkept.shmName nofun
      semName := hkept.semName nofun
      mqName := by simp
      serverQueue := hkept.serverQueue nofun
      shm := hkept.shm
      sem := hkept.sem
      closed := hkept.closed nofun
      opened := hkept.opened nofun }
  clients := rfl
  started := rfl
  sem _ hk := hk
  permits := h.permits

/-- An operation that touches the memory only, or nothing. -/
theorem setup_write {op : ServerOp} (hop : serverIpcSetup[n]? = some op)
    (hwrite : op = .checkQueueName ∨ op = .ftruncate ∨ ∃ field, op = .store field)
    (hsem : s.sem s.started = none) :
    SetupStep cfg s { s with
      shm := Function.update s.shm s.started (op.write cfg s.started (s.shm s.started)) } n where
  objects := h.objects.write s.server hsem _
  facts := by
    have hkept := hf.kept hop
    have hne : op ≠ .shmUnlink ∧ op ≠ .semUnlink ∧ op ≠ .mqUnlink ∧ op ≠ .mqOpen ∧
        op ≠ .semOpen ∧ op ≠ .semPost := by
      rcases hwrite with rfl | rfl | ⟨field, rfl⟩ <;> simp
    obtain ⟨hshmUnlink, hsemUnlink, hmqUnlink, hmqOpen, hsemOpen, hsemPost⟩ := hne
    exact
      { shmName := hkept.shmName hshmUnlink
        semName := hkept.semName hsemUnlink
        mqName := hkept.mqName hmqUnlink
        serverQueue := hkept.serverQueue hmqOpen
        shm := (Function.update_self _ _ _).trans hkept.shm
        sem := hkept.sem
        closed := hkept.closed hsemOpen
        opened := hkept.opened hsemPost }
  clients := rfl
  started := rfl
  sem _ hk := hk
  permits := h.permits

/-- The name was removed just before, so the queue is new. -/
theorem setup_mqOpen (hop : serverIpcSetup[n]? = some .mqOpen) :
    SetupStep cfg s { s with
      mqName := Function.update s.mqName (cfg.queueName s.started)
        (some ((s.mqName (cfg.queueName s.started)).getD s.started))
      serverQueue := Function.update s.serverQueue s.started
        (some ((s.mqName (cfg.queueName s.started)).getD s.started)) } n := by
  obtain rfl := turn_unique (j := 4) hop rfl
  have hqueue : (s.mqName (cfg.queueName s.started)).getD s.started = s.started := by
    cases hname : s.mqName (cfg.queueName s.started) with
    | none => rfl
    | some j => exact hf.mqName (by decide) j hname
  have hsem : s.sem s.started = none := hf.sem (by decide)
  have ho := h.objects
  have hkept := hf.kept hop
  rw [hqueue]
  refine ⟨{ ho with mqName_le := ?_, mq_after := ?_, serverQueue := ?_ }, ?_, rfl, rfl,
    fun _ hk => hk, h.permits⟩
  · intro q j hj
    change Function.update s.mqName (cfg.queueName s.started) (some s.started) q = some j at hj
    by_cases hq : q = cfg.queueName s.started
    · subst hq
      rw [Function.update_self, Option.some.injEq] at hj
      exact hj.ge
    · rw [Function.update_of_ne hq] at hj
      exact ho.mqName_le q j hj
  · intro i j hi hj
    change Function.update s.mqName (cfg.queueName s.started) (some s.started) _ = some j at hj
    by_cases hq : cfg.queueName i = cfg.queueName s.started
    · rw [hq, Function.update_self, Option.some.injEq] at hj
      exact hj ▸ ho.sem_le i hi
    · rw [Function.update_of_ne hq] at hj
      exact ho.mq_after i j hi hj
  · intro j hj
    have hne : j ≠ s.started := by
      rintro rfl
      exact hj hsem
    show Function.update s.serverQueue s.started (some s.started) j = some j
    rw [Function.update_of_ne hne]
    exact ho.serverQueue j hj
  · exact
      { shmName := hkept.shmName nofun
        semName := hkept.semName nofun
        mqName := by simp
        serverQueue := by simp
        shm := hkept.shm
        sem := hkept.sem
        closed := hkept.closed nofun
        opened := hkept.opened nofun }

theorem setup_shmOpen (hop : serverIpcSetup[n]? = some .shmOpen) :
    SetupStep cfg s { s with shmName := some s.started } n where
  objects :=
    { h.objects with
      shmName_le := fun _ hj => (Option.some.inj hj).ge
      shm_after := fun i _ hi hj => (h.objects.sem_le i hi).trans (Option.some.inj hj).le }
  facts :=
    have hkept := hf.kept hop
    { shmName := fun _ _ hj => ⟨(Option.some.inj hj).symm, (setupDone_succ hop).mpr (.inr rfl)⟩
      semName := hkept.semName nofun
      mqName := hkept.mqName nofun
      serverQueue := hkept.serverQueue nofun
      shm := hkept.shm
      sem := hkept.sem
      closed := hkept.closed nofun
      opened := hkept.opened nofun }
  clients := rfl
  started := rfl
  sem _ hk := hk
  permits := h.permits

/-- All is written when the semaphore appears, and nobody can be inside. -/
theorem setup_semOpen (hop : serverIpcSetup[n]? = some .semOpen) :
    SetupStep cfg s { s with
      semName := some s.started
      sem := Function.update s.sem s.started (some 0) } n := by
  obtain rfl := turn_unique (j := 13) hop rfl
  have ho := h.objects
  have hkept := hf.kept hop
  have hnobody := (hf.closed (by decide)).2
  have hexists : ∀ j, Function.update s.sem s.started (some 0) j ≠ none →
      j = s.started ∨ s.sem j ≠ none := by
    intro j hj
    by_cases hjs : j = s.started
    · exact .inl hjs
    · rw [Function.update_of_ne hjs] at hj
      exact .inr hj
  refine ⟨⟨ho.shmName_le, ho.mqName_le, ?_, ho.fresh, ?_, ?_, ?_, ?_, ?_⟩, ?_, rfl, rfl, ?_, ?_⟩
  · intro j hj
    rcases hexists j hj with rfl | hj
    · exact le_rfl
    · exact ho.sem_le j hj
  · intro j hj
    obtain rfl := Option.some.inj hj
    simp
  · intro j hj
    rcases hexists j hj with rfl | hj
    · exact hf.shm.trans (contentsAfter_semOpen cfg s.started)
    · exact ho.complete j hj
  · intro i j hi hj
    rcases hexists i hi with rfl | hi
    · exact (hf.shmName (by decide) j hj).1.ge
    · exact ho.shm_after i j hi hj
  · intro i j hi hj
    rcases hexists i hi with rfl | hi
    · exact (hf.mqName (by decide) j hj).ge
    · exact ho.mq_after i j hi hj
  · intro j hj
    rcases hexists j hj with rfl | hj
    · exact hf.serverQueue (by decide)
    · exact ho.serverQueue j hj
  · exact
      { shmName := hkept.shmName nofun
        semName := fun _ _ hj => ⟨(Option.some.inj hj).symm, (setupDone_succ hop).mpr (.inr rfl)⟩
        mqName := hkept.mqName nofun
        serverQueue := hkept.serverQueue nofun
        shm := hkept.shm
        sem := fun hd => absurd ((setupDone_succ hop).mpr (.inr rfl)) hd
        closed := fun _ => ⟨fun _ => Function.update_self _ _ _, hnobody⟩
        opened := fun hd => absurd hd (by decide) }
  · intro k hk
    by_cases hks : k = s.started
    · subst hks
      simp
    · show Function.update s.sem s.started (some 0) k ≠ none
      rwa [Function.update_of_ne hks]
  · intro k value hk
    change Function.update s.sem s.started (some 0) k = some value at hk
    by_cases hks : k = s.started
    · subst hks
      rw [Function.update_self, Option.some.injEq] at hk
      exact .inr ⟨hk.symm, hnobody⟩
    · rw [Function.update_of_ne hks] at hk
      exact h.permits k value hk

/-- The semaphore is posted once, and the way is free for one client. -/
theorem setup_semPost (hop : serverIpcSetup[n]? = some .semPost) :
    SetupStep cfg s { s with
      sem := Function.update s.sem s.started ((s.sem s.started).map (· + 1)) } n := by
  obtain rfl := turn_unique (j := 14) hop rfl
  have ho := h.objects
  have hkept := hf.kept hop
  obtain ⟨hzero, hnobody⟩ := hf.closed (by decide)
  have hzero := hzero (by decide)
  have hone : (s.sem s.started).map (· + 1) = some 1 := by rw [hzero]; rfl
  have hfree : Turnstile 1 (InsideAt s.clients s.started) := .free hnobody
  rw [hone]
  have hexists : ∀ j, Function.update s.sem s.started (some 1) j ≠ none ↔ s.sem j ≠ none := by
    intro j
    by_cases hjs : j = s.started
    · subst hjs
      simp [hzero]
    · rw [Function.update_of_ne hjs]
  refine ⟨⟨ho.shmName_le, ho.mqName_le, fun j hj => ho.sem_le j ((hexists j).mp hj),
    ho.fresh, fun j hj => (hexists j).mpr (ho.semName j hj),
    fun j hj => ho.complete j ((hexists j).mp hj),
    fun i j hi => ho.shm_after i j ((hexists i).mp hi),
    fun i j hi => ho.mq_after i j ((hexists i).mp hi),
    fun j hj => ho.serverQueue j ((hexists j).mp hj)⟩, ?_, rfl, rfl,
    fun k hk => (hexists k).mpr hk, ?_⟩
  · exact
      { shmName := hkept.shmName nofun
        semName := hkept.semName nofun
        mqName := hkept.mqName nofun
        serverQueue := hkept.serverQueue nofun
        shm := hkept.shm
        sem := fun hd => absurd ((setupDone_succ hop).mpr (.inl (by decide))) hd
        closed := fun hd => absurd ((setupDone_succ hop).mpr (.inr rfl)) hd
        opened := fun _ => ⟨1, Function.update_self _ _ _, hfree⟩ }
  · intro k value hk
    change Function.update s.sem s.started (some 1) k = some value at hk
    by_cases hks : k = s.started
    · subst hks
      rw [Function.update_self, Option.some.injEq] at hk
      exact .inl (hk ▸ hfree)
    · rw [Function.update_of_ne hks] at hk
      exact h.permits k value hk

theorem setup_step {op : ServerOp} (hop : serverIpcSetup[n]? = some op)
    (hexec : op.exec cfg s = .done s') : SetupStep cfg s s' n := by
  cases op with
  | shmUnlink =>
      cases hexec
      exact setup_shmUnlink h hf hop
  | semUnlink =>
      cases hexec
      exact setup_semUnlink h hf hop
  | checkQueueName =>
      simp only [ServerOp.exec] at hexec
      split at hexec
      · cases hexec
        obtain rfl := turn_unique (j := 2) hop rfl
        have hstep := setup_write h hf hop (.inl rfl) (hf.sem (by decide))
        rwa [show ServerOp.checkQueueName.write cfg s.started (s.shm s.started) =
          s.shm s.started from rfl, Function.update_eq_self] at hstep
      · cases hexec
  | mqUnlink =>
      cases hexec
      exact setup_mqUnlink h hf hop
  | mqOpen =>
      cases hexec
      exact setup_mqOpen h hf hop
  | shmOpen =>
      simp only [ServerOp.exec] at hexec
      split at hexec
      · cases hexec
        exact setup_shmOpen h hf hop
      · cases hexec
  | ftruncate =>
      cases hexec
      obtain rfl := turn_unique (j := 6) hop rfl
      exact setup_write h hf hop (.inr (.inl rfl)) (hf.sem (by decide))
  | store field =>
      cases hexec
      -- the memory is written before there is a semaphore
      have hsem : ¬SetupDone .semOpen n := by
        cases field with
        | queueName => obtain rfl := turn_unique (j := 7) hop rfl; decide
        | requestsArgumentSeparator => obtain rfl := turn_unique (j := 8) hop rfl; decide
        | env => obtain rfl := turn_unique (j := 9) hop rfl; decide
        | rescuerTypes => obtain rfl := turn_unique (j := 10) hop rfl; decide
        | emergencyTypes => obtain rfl := turn_unique (j := 11) hop rfl; decide
        | serverPid => obtain rfl := turn_unique (j := 12) hop rfl; decide
      exact setup_write h hf hop (.inr (.inr ⟨field, rfl⟩)) (hf.sem hsem)
  | semOpen =>
      simp only [ServerOp.exec] at hexec
      split at hexec
      · cases hexec
        exact setup_semOpen h hf hop
      · cases hexec
  | semPost =>
      cases hexec
      exact setup_semPost h hf hop

end operations

end EmergencyDispatch
