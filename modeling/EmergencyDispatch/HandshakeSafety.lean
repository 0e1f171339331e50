import EmergencyDispatch.HandshakeSetup

/-!
# A client finds the running server

A client opens the memory after it has passed a semaphore, so the memory is of the
same server or of a later one.  If no server has been started since the client
opened the semaphore, the memory is complete, and its name leads to the queue of the
server that is running.  The semaphore is a turnstile: who waits at it is let
through by the one client that is inside.
-/

namespace EmergencyDispatch

open TransitionSystem Turnstiles

variable {cfg : IpcConfig} {s s' : IpcState} {a : IpcAction} {n i j k : ℕ}

/-! ## The clients -/

/-- What an operation of a client does to it and to the semaphores. -/
inductive ClientExec (s : IpcState) (n : ℕ) : ClientOp → IpcClient → (ℕ → Option ℕ) → Prop
  | semOpen (k : ℕ) (hname : s.semName = some k) :
      ClientExec s n .semOpen { s.clients n with sem := some k } s.sem
  | semWait (k value : ℕ) (hsem : (s.clients n).sem = some k)
      (hvalue : s.sem k = some (value + 1)) :
      ClientExec s n .semWait (s.clients n) (Function.update s.sem k (some value))
  | semPost (k value : ℕ) (hsem : (s.clients n).sem = some k) (hvalue : s.sem k = some value) :
      ClientExec s n .semPost (s.clients n) (Function.update s.sem k (some (value + 1)))
  | semClose : ClientExec s n .semClose (s.clients n) s.sem
  | shmOpen (j : ℕ) (hname : s.shmName = some j) :
      ClientExec s n .shmOpen { s.clients n with shm := some j } s.sem
  | mqOpen (j : ℕ) (source : ClientServerShm) (queue : ℕ) (hshm : (s.clients n).shm = some j)
      (hsource : s.shm j = some source) (hname : s.mqName source.queueName = some queue) :
      ClientExec s n .mqOpen { s.clients n with
        mq := some queue, record := ClientOp.mqOpen.copies source (s.clients n).record } s.sem
  | read (field : ShmField) (j : ℕ) (source : ClientServerShm)
      (hshm : (s.clients n).shm = some j) (hsource : s.shm j = some source) :
      ClientExec s n (.read field) { s.clients n with
        record := (ClientOp.read field).copies source (s.clients n).record } s.sem
  | munmap : ClientExec s n .munmap (s.clients n) s.sem

theorem clientExec_of_exec {op : ClientOp} (h : op.exec s n = .done s') :
    ∃ c sem, ClientExec s n op c sem ∧
      s' = { s with sem := sem, clients := Function.update s.clients n c } := by
  -- the operations that write nothing update the client by itself
  have hsame : s = { s with clients := Function.update s.clients n (s.clients n) } := by
    rw [Function.update_eq_self]
  have hmapped : ∀ source, s.mapped n = some source →
      ∃ j, (s.clients n).shm = some j ∧ s.shm j = some source :=
    fun source h => Option.bind_eq_some_iff.mp h
  cases op with
  | semOpen =>
      simp only [ClientOp.exec] at h
      split at h
      · rename_i k hname
        cases h
        exact ⟨_, _, .semOpen k hname, rfl⟩
      · cases h
  | semWait =>
      simp only [ClientOp.exec] at h
      split at h
      · rename_i k value hsem hvalue
        cases h
        rw [hsem, Option.bind_some] at hvalue
        exact ⟨_, _, .semWait k value hsem hvalue, by rw [Function.update_eq_self]⟩
      · cases h
      · cases h
  | semPost =>
      simp only [ClientOp.exec] at h
      split at h
      · rename_i k value hsem hvalue
        cases h
        rw [hsem, Option.bind_some] at hvalue
        exact ⟨_, _, .semPost k value hsem hvalue, by rw [Function.update_eq_self]⟩
      · cases h
  | semClose =>
      cases h
      exact ⟨_, _, .semClose, hsame⟩
  | munmap =>
      cases h
      exact ⟨_, _, .munmap, hsame⟩
  | shmOpen =>
      simp only [ClientOp.exec] at h
      split at h
      · rename_i j hname
        cases h
        exact ⟨_, _, .shmOpen j hname, rfl⟩
      · cases h
  | mqOpen =>
      simp only [ClientOp.exec] at h
      split at h
      · rename_i source hsource
        split at h
        · rename_i queue hname
          cases h
          obtain ⟨j, hj, hsource⟩ := hmapped source hsource
          exact ⟨_, _, .mqOpen j source queue hj hsource hname, rfl⟩
        · cases h
      · cases h
  | read field =>
      simp only [ClientOp.exec] at h
      split at h
      · rename_i source hsource
        cases h
        obtain ⟨j, hj, hsource⟩ := hmapped source hsource
        exact ⟨_, _, .read field j source hj hsource, rfl⟩
      · cases h

theorem clientDone_succ {op op' : ClientOp} (hop : clientSetup[i]? = some op) :
    ClientDone op' (i + 1) ↔ ClientDone op' i ∨ op' = op := mem_take_succ hop

/-- What the client has done so far, and then one operation that only copies. -/
theorem ClientFacts.copy {c : IpcClient} (hc : ClientFacts cfg s c i) {op : ClientOp}
    (hop : clientSetup[i]? = some op)
    (hcopy : op ≠ .semOpen ∧ op ≠ .shmOpen ∧ op ≠ .mqOpen) {record : ClientServerShm}
    (hrecord : ∀ k, (c.sem = none ∨ c.sem = some k) → (c.shm = none ∨ c.shm = some k) →
      record = op.copies (cfg.published k) c.record) :
    ClientFacts cfg s { c with record := record } (i + 1) where
  sem := by simpa [clientDone_succ hop, hcopy.1.symm] using hc.sem
  noSem := by simpa [clientDone_succ hop, hcopy.1.symm] using hc.noSem
  shm := by simpa [clientDone_succ hop, hcopy.2.1.symm] using hc.shm
  noShm := by simpa [clientDone_succ hop, hcopy.2.1.symm] using hc.noShm
  mq := by simpa [clientDone_succ hop, hcopy.2.2.symm] using hc.mq
  record k hsem hshm := by
    rw [copiesAfter_succ hop, ← hc.record k hsem hshm]
    exact hrecord k hsem hshm

/-- What the client has mapped is complete when it is of the server whose semaphore it
has passed. -/
theorem source_eq_published (h : IpcInvariant cfg s) {c : IpcClient}
    (hc : ClientFacts cfg s c i) (hdone : ClientDone .semOpen i) {source : ClientServerShm}
    (hshm : c.shm = some j) (hsource : s.shm j = some source)
    (hsem' : c.sem = none ∨ c.sem = some k) (hshm' : c.shm = none ∨ c.shm = some k) :
    source = cfg.published k := by
  obtain ⟨k', hk', hne⟩ := hc.sem hdone
  rw [hk'] at hsem'
  obtain rfl := Option.some.inj (hsem'.resolve_left nofun)
  rw [hshm] at hshm'
  obtain rfl := Option.some.inj (hshm'.resolve_left nofun)
  have hcomplete := h.objects.complete j hne
  rw [hsource] at hcomplete
  exact Option.some.inj hcomplete

theorem client_turn_unique {op : ClientOp} (hop : clientSetup[i]? = some op)
    (hj : clientSetup[j]? = some op) : i = j :=
  index_unique_of_nodup clientSetup_nodup hop hj

theorem clientFacts_next (h : IpcInvariant cfg s) {op : ClientOp} {c : IpcClient}
    {sem : ℕ → Option ℕ} (hc : ClientFacts cfg s (s.clients n) i)
    (hop : clientSetup[i]? = some op) (hexec : ClientExec s n op c sem) :
    ClientFacts cfg s c (i + 1) := by
  cases hexec with
  | semWait k value hsem hvalue => exact hc.copy hop ⟨nofun, nofun, nofun⟩ fun _ _ _ => rfl
  | semPost k value hsem hvalue => exact hc.copy hop ⟨nofun, nofun, nofun⟩ fun _ _ _ => rfl
  | semClose => exact hc.copy hop ⟨nofun, nofun, nofun⟩ fun _ _ _ => rfl
  | munmap => exact hc.copy hop ⟨nofun, nofun, nofun⟩ fun _ _ _ => rfl
  | read field j source hshm hsource =>
      have hdone : ClientDone .semOpen i := by
        cases field with
        | queueName => exact absurd (List.mem_of_getElem? hop) (by decide)
        | requestsArgumentSeparator => obtain rfl := client_turn_unique (j := 6) hop rfl; decide
        | serverPid => obtain rfl := client_turn_unique (j := 7) hop rfl; decide
        | env => obtain rfl := client_turn_unique (j := 8) hop rfl; decide
        | rescuerTypes => obtain rfl := client_turn_unique (j := 9) hop rfl; decide
        | emergencyTypes => obtain rfl := client_turn_unique (j := 10) hop rfl; decide
      refine hc.copy hop ⟨nofun, nofun, nofun⟩ fun k hsem' hshm' => ?_
      rw [source_eq_published h hc hdone hshm hsource hsem' hshm']
  | semOpen k hname =>
      obtain rfl := client_turn_unique (j := 0) hop rfl
      have hshm := hc.noShm (by decide)
      exact
        { sem := fun _ => ⟨k, rfl, h.objects.semName k hname⟩
          noSem := fun hd => absurd hd (by decide)
          shm := fun hd => absurd hd (by decide)
          noShm := fun _ => hshm
          mq := fun hd => absurd hd (by decide)
          record := fun k' _ hshm' => by
            rw [copiesAfter_succ hop, ← hc.record k' (.inl (hc.noSem (by decide))) hshm']
            rfl }
  | shmOpen j hname =>
      obtain rfl := client_turn_unique (j := 4) hop rfl
      obtain ⟨k, hk, hne⟩ := hc.sem (by decide)
      have hnone := hc.noShm (by decide)
      exact
        { sem := fun _ => ⟨k, hk, hne⟩
          noSem := fun hd => absurd hd (by decide)
          shm := fun _ => ⟨j, rfl, h.objects.shmName_le j hname, fun k' hk' => by
            obtain rfl := Option.some.inj (hk.symm.trans hk')
            exact h.objects.shm_after k j hne hname⟩
          noShm := fun hd => absurd hd (by decide)
          mq := fun hd => absurd hd (by decide)
          record := fun k' hsem' _ => by
            rw [copiesAfter_succ hop, ← hc.record k' hsem' (.inl hnone)]
            rfl }
  | mqOpen j source queue hshm hsource hname =>
      obtain rfl := client_turn_unique (j := 5) hop rfl
      obtain ⟨k, hk, hne⟩ := hc.sem (by decide)
      exact
        { sem := fun _ => ⟨k, hk, hne⟩
          noSem := fun hd => absurd hd (by decide)
          shm := fun _ => hc.shm (by decide)
          noShm := fun hd => absurd hd (by decide)
          mq := fun _ => ⟨queue, rfl, h.objects.mqName_le _ queue hname, fun k' hk' hshm' => by
            obtain rfl := Option.some.inj (hk.symm.trans hk')
            -- the name in the memory is that of the server's queue
            have hsource := source_eq_published h hc (by decide) hshm hsource (.inr hk)
              (.inr hshm')
            have hqueue : source.queueName = cfg.queueName k := by
              rw [hsource]
              exact List.take_of_length_le (Nat.le_pred_of_lt (cfg.fits k))
            rw [hqueue] at hname
            exact h.objects.mq_after k queue hne hname⟩
          record := fun k' hsem' hshm' => by
            rw [copiesAfter_succ hop, ← hc.record k' hsem' hshm',
              source_eq_published h hc (by decide) hshm hsource hsem' hshm'] }

/-- One client and the semaphores change: closed turnstiles stay closed, and turnstiles
that turn still do. -/
theorem IpcInvariant.updateClient (h : IpcInvariant cfg s) {c : IpcClient} {sem : ℕ → Option ℕ}
    (hexists : ∀ k, sem k ≠ none ↔ s.sem k ≠ none)
    (hfacts : ∀ i, c.phase = some i → ClientFacts cfg s c i)
    (hclosed : ∀ k, (∀ m, ¬InsideAt s.clients k m) → s.sem k = none ∨ s.sem k = some 0 →
      sem k = s.sem k ∧ ∀ m, ¬InsideAt (Function.update s.clients n c) k m)
    (hturns : ∀ k value, s.sem k = some value → Turnstile value (InsideAt s.clients k) →
      ∃ value', sem k = some value' ∧
        Turnstile value' (InsideAt (Function.update s.clients n c) k)) :
    IpcInvariant cfg { s with sem := sem, clients := Function.update s.clients n c } where
  objects :=
    { shmName_le := h.objects.shmName_le
      mqName_le := h.objects.mqName_le
      sem_le := fun j hj => h.objects.sem_le j ((hexists j).mp hj)
      fresh := h.objects.fresh
      semName := fun j hj => (hexists j).mpr (h.objects.semName j hj)
      complete := fun j hj => h.objects.complete j ((hexists j).mp hj)
      shm_after := fun i j hi => h.objects.shm_after i j ((hexists i).mp hi)
      mq_after := fun i j hi => h.objects.mq_after i j ((hexists i).mp hi)
      serverQueue := fun j hj => h.objects.serverQueue j ((hexists j).mp hj) }
  setup m hm := by
    have hf := h.setup m hm
    have hpost : SetupDone .semPost m → SetupDone .semOpen m := by
      intro hd
      obtain ⟨j, hj, heq⟩ := List.mem_take_iff_getElem.mp hd
      have hj' : serverIpcSetup[j]? = some .semPost := List.getElem?_eq_some_iff.mpr ⟨by omega, heq⟩
      obtain rfl := index_unique_of_nodup serverIpcSetup_nodup hj' (j := 14) rfl
      exact List.mem_take_iff_getElem.mpr ⟨13, by omega, rfl⟩
    -- before the post the semaphore is missing or has no permit
    have hempty : ¬SetupDone .semPost m → s.sem s.started = none ∨ s.sem s.started = some 0 := by
      intro hd
      by_cases hopen : SetupDone .semOpen m
      · exact .inr ((hf.closed hd).1 hopen)
      · exact .inl (hf.sem hopen)
    exact
      { shmName := hf.shmName
        semName := hf.semName
        mqName := hf.mqName
        serverQueue := hf.serverQueue
        shm := hf.shm
        sem := fun hd => by
          have hnone := hf.sem hd
          by_contra hne
          exact (hexists _).mp hne hnone
        closed := fun hd => by
          obtain ⟨hsame, hnobody⟩ := hclosed s.started (hf.closed hd).2 (hempty hd)
          exact ⟨fun hopen => hsame.trans ((hf.closed hd).1 hopen), hnobody⟩
        opened := fun hd => by
          obtain ⟨value, hvalue, hturn⟩ := hf.opened hd
          exact hturns _ value hvalue hturn }
  clients m i hi := by
    -- the client itself, and the others
    by_cases hm : m = n
    · subst hm
      simp only [Function.update_self] at hi ⊢
      exact (hfacts i hi).mono le_rfl fun k hk => (hexists k).mpr hk
    · simp only [Function.update_of_ne hm] at hi ⊢
      exact (h.clients m i hi).mono le_rfl fun k hk => (hexists k).mpr hk
  permits k value hk := by
    have hne : s.sem k ≠ none := (hexists k).mp fun hnone => by
      change sem k = some value at hk
      rw [hnone] at hk
      cases hk
    obtain ⟨old, hold⟩ := Option.ne_none_iff_exists'.mp hne
    -- either the server has posted, or nobody can be inside
    rcases h.permits k old hold with hturn | ⟨rfl, hnobody⟩
    · obtain ⟨value', hvalue', hturn'⟩ := hturns k old hold hturn
      obtain rfl := Option.some.inj (hk.symm.trans hvalue')
      exact .inl hturn'
    · obtain ⟨hsame, hnobody'⟩ := hclosed k hnobody (.inr hold)
      have hzero : some value = some 0 := hk.symm.trans (hsame.trans hold)
      exact .inr ⟨Option.some.inj hzero, hnobody'⟩
  opened hs := by
    obtain ⟨value, hvalue, hturn⟩ := h.opened hs
    exact hturns _ value hvalue hturn

/-- A client that neither enters nor leaves. -/
theorem IpcInvariant.updateOutside (h : IpcInvariant cfg s) {c : IpcClient}
    (hfacts : ∀ i, c.phase = some i → ClientFacts cfg s c i)
    (hbefore : (s.clients n).phase ≠ some 2) (hafter : c.phase ≠ some 2) :
    IpcInvariant cfg (s.setClient n c) := by
  have hsame : ∀ k m, InsideAt (Function.update s.clients n c) k m ↔ InsideAt s.clients k m := by
    intro k m
    by_cases hm : m = n
    · subst hm
      simp [InsideAt, IpcClient.Inside, hbefore, hafter]
    · simp [InsideAt, hm]
  exact h.updateClient (fun _ => Iff.rfl) hfacts
    (fun k hnobody _ => ⟨rfl, fun m hm => hnobody m ((hsame k m).mp hm)⟩)
    fun k value hvalue hturn => ⟨value, hvalue, hturn.congr (hsame k)⟩

theorem ClientFacts.setPhase {c : IpcClient} (hc : ClientFacts cfg s c i) (phase : Option ℕ) :
    ClientFacts cfg s { c with phase := phase } i :=
  ⟨hc.sem, hc.noSem, hc.shm, hc.noShm, hc.mq, hc.record⟩

theorem sem_update_ne_none {value : ℕ} (hvalue : s.sem k = some value) (new : ℕ) :
    Function.update s.sem k (some new) j ≠ none ↔ s.sem j ≠ none := by
  by_cases hj : j = k
  · subst hj
    simp [hvalue]
  · rw [Function.update_of_ne hj]

theorem client_outside {op : ClientOp} {c : IpcClient} (h : IpcInvariant cfg s)
    (hphase : (s.clients n).phase = some i) (hop : clientSetup[i]? = some op)
    (hfacts : ClientFacts cfg s c (i + 1)) (hwait : op ≠ .semWait) (hpost : op ≠ .semPost) :
    IpcInvariant cfg (s.setClient n { c with phase := some (i + 1) }) := by
  refine h.updateOutside (fun j hj => ?_) (fun hi => ?_) fun hi => ?_
  · obtain rfl := Option.some.inj hj
    exact hfacts.setPhase _
  · rw [hphase] at hi
    obtain rfl := Option.some.inj hi
    exact hpost (Option.some.inj hop).symm
  · obtain rfl : i = 1 := Nat.succ.inj (Option.some.inj hi)
    exact hwait (Option.some.inj hop).symm

/-- A client that goes through the turnstile of the `k`-th server. -/
theorem client_semWait {value : ℕ} (h : IpcInvariant cfg s) (hphase : (s.clients n).phase = some 1)
    (hfacts : ClientFacts cfg s (s.clients n) 2) (hsem : (s.clients n).sem = some k)
    (hvalue : s.sem k = some (value + 1)) :
    IpcInvariant cfg { s with
      sem := Function.update s.sem k (some value)
      clients := Function.update s.clients n { s.clients n with phase := some 2 } } := by
  have hin : ∀ j m, InsideAt (Function.update s.clients n
      { s.clients n with phase := some 2 }) j m ↔ InsideAt s.clients j m ∨ (m = n ∧ j = k) := by
    intro j m
    by_cases hm : m = n
    · subst hm
      simp [InsideAt, IpcClient.Inside, hphase, hsem, eq_comm]
    · simp [InsideAt, hm]
  refine h.updateClient (fun j => sem_update_ne_none hvalue value) (fun j hj => ?_)
    (fun j hnobody hempty => ?_) fun j old hold hturns => ?_
  · obtain rfl := Option.some.inj hj
    exact hfacts.setPhase _
  -- a turnstile without a permit is another one
  · have hj : j ≠ k := by
      rintro rfl
      rw [hvalue] at hempty
      rcases hempty with hempty | hempty <;> cases hempty
    refine ⟨Function.update_of_ne hj _ _, fun m hm => ?_⟩
    rcases (hin j m).mp hm with hm | ⟨-, hjk⟩
    · exact hnobody m hm
    · exact hj hjk
  · by_cases hj : j = k
    · subst hj
      obtain rfl := Option.some.inj (hvalue.symm.trans hold)
      exact ⟨value, Function.update_self _ _ _, hturns.enter (i := n) fun m =>
        (hin j m).trans (by simp)⟩
    · exact ⟨old, by rw [Function.update_of_ne hj, hold],
        hturns.congr fun m => (hin j m).trans (by simp [hj])⟩

/-- A client that leaves the turnstile of the `k`-th server. -/
theorem client_semPost {value : ℕ} (h : IpcInvariant cfg s) (hphase : (s.clients n).phase = some 2)
    (hfacts : ClientFacts cfg s (s.clients n) 3) (hsem : (s.clients n).sem = some k)
    (hvalue : s.sem k = some value) :
    IpcInvariant cfg { s with
      sem := Function.update s.sem k (some (value + 1))
      clients := Function.update s.clients n { s.clients n with phase := some 3 } } := by
  have hinside : InsideAt s.clients k n := ⟨hphase, hsem⟩
  have hout : ∀ j m, InsideAt (Function.update s.clients n
      { s.clients n with phase := some 3 }) j m ↔ InsideAt s.clients j m ∧ m ≠ n := by
    intro j m
    by_cases hm : m = n
    · subst hm
      simp [InsideAt, IpcClient.Inside]
    · simp [InsideAt, hm]
  refine h.updateClient (fun j => sem_update_ne_none hvalue (value + 1)) (fun j hj => ?_)
    (fun j hnobody hempty => ?_) fun j old hold hturns => ?_
  · obtain rfl := Option.some.inj hj
    exact hfacts.setPhase _
  -- the client is inside, so a turnstile with nobody inside is another one
  · have hj : j ≠ k := by
      rintro rfl
      exact hnobody n hinside
    exact ⟨Function.update_of_ne hj _ _, fun m hm => hnobody m ((hout j m).mp hm).1⟩
  · by_cases hj : j = k
    · subst hj
      obtain rfl := Option.some.inj (hvalue.symm.trans hold)
      exact ⟨value + 1, Function.update_self _ _ _, hturns.leave hinside (hout j)⟩
    · refine ⟨old, by rw [Function.update_of_ne hj, hold], hturns.congr fun m => ?_⟩
      rw [hout]
      refine ⟨fun hm => hm.1, fun hm => ⟨hm, ?_⟩⟩
      rintro rfl
      exact hj (Option.some.inj (hm.2.symm.trans hsem))

theorem client_step {op : ClientOp} (h : IpcInvariant cfg s)
    (hphase : (s.clients n).phase = some i) (hop : clientSetup[i]? = some op)
    (hexec : op.exec s n = .done s') :
    IpcInvariant cfg (s'.setClient n { s'.clients n with phase := some (i + 1) }) := by
  obtain ⟨c, sem, hclient, rfl⟩ := clientExec_of_exec hexec
  have hfacts := clientFacts_next h (h.clients n i hphase) hop hclient
  simp only [Function.update_self, IpcState.setClient, Function.update_idem]
  cases hclient with
  | semOpen k hname => exact client_outside h hphase hop hfacts nofun nofun
  | semClose => exact client_outside h hphase hop hfacts nofun nofun
  | shmOpen j hname => exact client_outside h hphase hop hfacts nofun nofun
  | mqOpen j source queue hshm hsource hname =>
      exact client_outside h hphase hop hfacts nofun nofun
  | read field j source hshm hsource => exact client_outside h hphase hop hfacts nofun nofun
  | munmap => exact client_outside h hphase hop hfacts nofun nofun
  | semWait k value hsem hvalue =>
      obtain rfl := client_turn_unique (j := 1) hop rfl
      exact client_semWait h hphase hfacts hsem hvalue
  | semPost k value hsem hvalue =>
      obtain rfl := client_turn_unique (j := 2) hop rfl
      exact client_semPost h hphase hfacts hsem hvalue

/-! ## Every step -/

/-- The phase of the server is nothing that a client sees. -/
theorem IpcInvariant.setServer (h : IpcInvariant cfg s) {server : ServerPhase}
    (hsetup : ∀ n, server = .setup n → SetupFacts cfg s n)
    (hopened : server = .running ∨ (∃ n, server = .cleanup n) →
      ∃ value, s.sem s.started = some value ∧ Turnstile value (InsideAt s.clients s.started)) :
    IpcInvariant cfg { s with server := server } where
  objects := h.objects.phase server
  setup n hn := { hsetup n hn with }
  clients m i hi := (h.clients m i hi).mono le_rfl fun _ hk => hk
  permits := h.permits
  opened := hopened

theorem setup_finished (hf : SetupFacts cfg s n) (hend : serverIpcSetup[n]? = none) :
    ∃ value, s.sem s.started = some value ∧ Turnstile value (InsideAt s.clients s.started) := by
  refine hf.opened ?_
  rw [SetupDone, List.take_of_length_le (List.getElem?_eq_none_iff.mp hend)]
  decide

theorem start_step (h : IpcInvariant cfg s) :
    IpcInvariant cfg { s with started := s.started + 1, server := .setup 0 } where
  objects :=
    { shmName_le := fun j hj => (h.objects.shmName_le j hj).trans (Nat.le_succ _)
      mqName_le := fun q j hj => (h.objects.mqName_le q j hj).trans (Nat.le_succ _)
      sem_le := fun j hj => (h.objects.sem_le j hj).trans (Nat.le_succ _)
      fresh := fun j hj => h.objects.fresh j (Nat.lt_of_succ_lt hj)
      semName := h.objects.semName
      complete := h.objects.complete
      shm_after := h.objects.shm_after
      mq_after := h.objects.mq_after
      serverQueue := h.objects.serverQueue }
  setup n hn := by
    obtain rfl : 0 = n := by simpa using hn
    have hsem : s.sem (s.started + 1) = none := by
      by_contra hne
      exact absurd (h.objects.sem_le _ hne) (Nat.not_succ_le_self _)
    exact
      { shmName := fun hd => absurd hd List.not_mem_nil
        semName := fun hd => absurd hd List.not_mem_nil
        mqName := fun hd => absurd hd List.not_mem_nil
        serverQueue := fun hd => absurd hd List.not_mem_nil
        shm := h.objects.fresh _ (Nat.lt_succ_self _)
        sem := fun _ => hsem
        closed := fun _ => ⟨fun hd => absurd hd List.not_mem_nil, fun m ⟨hphase, hm⟩ => by
          -- nobody has the semaphore of a server that was not there
          obtain ⟨k, hk, hne⟩ := (h.clients m 2 hphase).sem (by decide)
          obtain rfl := Option.some.inj (hk.symm.trans hm)
          exact hne hsem⟩
        opened := fun hd => absurd hd List.not_mem_nil }
  clients m i hi := (h.clients m i hi).mono (Nat.le_succ _) fun _ hk => hk
  permits := h.permits
  opened hs := by
    rcases hs with hs | ⟨n, hs⟩ <;> cases hs

theorem server_step (h : IpcInvariant cfg s) (hstep : s.step cfg .server = some s') :
    IpcInvariant cfg s' := by
  have hdown : IpcInvariant cfg { s with server := .down } :=
    h.setServer nofun fun hs => by rcases hs with hs | ⟨n, hs⟩ <;> cases hs
  simp only [IpcState.step] at hstep
  split at hstep
  · rename_i n hphase
    have hf := h.setup n hphase
    unfold IpcState.stepServer at hstep
    split at hstep
    · rename_i hend
      obtain rfl := Option.some.inj hstep
      exact h.setServer nofun fun _ => setup_finished hf hend
    · rename_i op hop
      split at hstep
      · rename_i s₁ hexec
        obtain rfl := Option.some.inj hstep
        have hkeeps := setup_step h hf hop hexec
        exact
          { objects := hkeeps.objects.phase _
            setup := fun m hm => by
              obtain rfl : n + 1 = m := by simpa using hm
              exact { hkeeps.facts with }
            clients := fun m i hi => by
              simp only [hkeeps.clients] at hi ⊢
              exact (h.clients m i hi).mono hkeeps.started.ge hkeeps.sem
            permits := hkeeps.permits
            opened := fun hs => by rcases hs with hs | ⟨m, hs⟩ <;> cases hs }
      · obtain rfl := Option.some.inj hstep
        exact hdown
      · cases hstep
  · rename_i n hphase
    have hopen := h.opened (.inr ⟨n, hphase⟩)
    unfold IpcState.stepServer at hstep
    split at hstep
    · obtain rfl := Option.some.inj hstep
      exact hdown
    · rename_i op hop
      -- cleaning up removes names only
      have hunlink : op = .shmUnlink ∨ op = .semUnlink ∨ op = .mqUnlink := by
        simpa [cleanupIpc] using List.mem_of_getElem? hop
      rcases hunlink with rfl | rfl | rfl <;> obtain rfl := Option.some.inj hstep
      · exact
          { objects := h.objects.unlink _ nofun (fun _ hj => hj) fun _ _ hj => hj
            setup := nofun
            clients := fun m i hi => (h.clients m i hi).mono le_rfl fun _ hk => hk
            permits := h.permits
            opened := fun _ => hopen }
      · exact
          { objects := h.objects.unlink _ (fun _ hj => hj) nofun fun _ _ hj => hj
            setup := nofun
            clients := fun m i hi => (h.clients m i hi).mono le_rfl fun _ hk => hk
            permits := h.permits
            opened := fun _ => hopen }
      · exact
          { objects := h.objects.unlink _ (fun _ hj => hj) (fun _ hj => hj)
              fun _ _ hj => mqName_of_update_none hj
            setup := nofun
            clients := fun m i hi => (h.clients m i hi).mono le_rfl fun _ hk => hk
            permits := h.permits
            opened := fun _ => hopen }
  · cases hstep
  · cases hstep

theorem ipc_step (h : IpcInvariant cfg s) (hstep : s.step cfg a = some s') :
    IpcInvariant cfg s' := by
  cases a with
  | start =>
      simp only [IpcState.step] at hstep
      split at hstep
      · obtain rfl := Option.some.inj hstep
        exact start_step h
      · cases hstep
  | server => exact server_step h hstep
  | close =>
      simp only [IpcState.step] at hstep
      split at hstep
      · rename_i hrunning
        obtain rfl := Option.some.inj hstep
        exact h.setServer nofun fun _ => h.opened (.inl hrunning)
      · cases hstep
  | crash =>
      simp only [IpcState.step] at hstep
      split at hstep
      · cases hstep
      · obtain rfl := Option.some.inj hstep
        exact h.setServer nofun fun hs => by rcases hs with hs | ⟨n, hs⟩ <;> cases hs
  | startClient n argv =>
      simp only [IpcState.step] at hstep
      split at hstep
      · rename_i hended
        have hbefore : (s.clients n).phase ≠ some 2 := by
          rcases hended with hended | hended
          · rw [hended]
            nofun
          · rw [IpcClient.passed] at hended
            rw [hended]
            decide
        split at hstep <;> obtain rfl := Option.some.inj hstep
        · refine h.updateOutside (fun i hi => ?_) hbefore (by simp)
          obtain rfl := Option.some.inj hi
          exact ⟨fun hd => absurd hd List.not_mem_nil, fun _ => rfl,
            fun hd => absurd hd List.not_mem_nil, fun _ => rfl,
            fun hd => absurd hd List.not_mem_nil, fun _ _ _ => rfl⟩
        · exact h.updateOutside nofun hbefore nofun
      · cases hstep
  | client n =>
      simp only [IpcState.step, IpcState.stepClient] at hstep
      split at hstep
      · cases hstep
      · rename_i i hphase
        split at hstep
        · cases hstep
        · rename_i op hop
          split at hstep
          · rename_i s₁ hexec
            obtain rfl := Option.some.inj hstep
            exact client_step h hphase hop hexec
          · rename_i hfails
            obtain rfl := Option.some.inj hstep
            refine h.updateOutside nofun ?_ nofun
            rw [hphase]
            intro hi
            obtain rfl := Option.some.inj hi
            -- posting does not fail: the client has the semaphore
            obtain rfl : op = .semPost := (Option.some.inj hop).symm
            obtain ⟨k, hk, hne⟩ := (h.clients n 2 hphase).sem (by decide)
            obtain ⟨value, hvalue⟩ := Option.ne_none_iff_exists'.mp hne
            simp [ClientOp.exec, hk, hvalue] at hfails
          · cases hstep

abbrev IpcReachable (cfg : IpcConfig) : IpcState → Prop :=
  Reachable (IpcState.step cfg) initialIpcState

theorem ipcInvariant_of_reachable (hreach : IpcReachable cfg s) : IpcInvariant cfg s :=
  hreach.invariant (IpcInvariant cfg) (initial_ipcInvariant cfg)
    fun _ _ _ _ h _ hstep => ipc_step h hstep

/-! ## What the client has found -/

/-- **A client finds the server.**  When a client has passed the semaphore of the `k`-th
server and has copied everything, its copies are what that server has left if the memory
was its; and if no other server has been started, the memory is its, and the queue that
the client has opened is the one from which the server receives. -/
theorem client_finds_server (hreach : IpcReachable cfg s) (hpassed : (s.clients n).passed)
    (hsem : (s.clients n).sem = some k) :
    ((s.clients n).shm = some k → (s.clients n).record = cfg.published k) ∧
      (k = s.started → (s.clients n).shm = some k ∧ (s.clients n).mq = s.serverQueue k ∧
        s.serverQueue k = some k ∧
        (s.clients n).act = (s.clients n).mode.act (cfg.published k) (some k)) := by
  have h := ipcInvariant_of_reachable hreach
  have hc := h.clients n _ hpassed
  obtain ⟨k', hk', hne⟩ := hc.sem (by decide)
  obtain rfl := Option.some.inj (hsem.symm.trans hk')
  have hrecord : (s.clients n).shm = some k → (s.clients n).record = cfg.published k :=
    fun hshm => (hc.record k (.inr hsem) (.inr hshm)).trans (copiesAfter_clientSetup cfg k)
  refine ⟨hrecord, ?_⟩
  rintro rfl
  -- nothing is newer than the last server
  obtain ⟨j, hj, hle, hafter⟩ := hc.shm (by decide)
  obtain rfl : j = s.started := le_antisymm hle (hafter _ hsem)
  obtain ⟨queue, hqueue, hqle, hqafter⟩ := hc.mq (by decide)
  obtain rfl : queue = s.started := le_antisymm hqle (hqafter _ hsem hj)
  have hserver := h.objects.serverQueue _ hne
  refine ⟨hj, hqueue.trans hserver.symm, hserver, ?_⟩
  rw [IpcClient.act, hrecord hj, hqueue]

/-! ## A run -/

/-- The state after a list of actions. -/
def ipcAfter (cfg : IpcConfig) (actions : List IpcAction) : IpcState :=
  (run (IpcState.step cfg) initialIpcState actions).getD initialIpcState

theorem reachable_ipcAfter (cfg : IpcConfig) (actions : List IpcAction) :
    IpcReachable cfg (ipcAfter cfg actions) := by
  unfold ipcAfter
  cases hrun : run (IpcState.step cfg) initialIpcState actions with
  | none => exact .initial
  | some s => exact reachableWith_of_runWith .initial hrun

def exampleIpc : IpcConfig where
  queueName _ := "/emergenze".toList
  serverPid k := 1000 + k
  fits _ := by decide

/-- The server starts and sets everything up. -/
def serverSetsUp : List IpcAction := .start :: List.replicate 16 .server

/-- A client runs. -/
def clientRuns (n : ℕ) (argv : List CString) : List IpcAction :=
  .startClient n argv :: List.replicate clientSetup.length (.client n)

/-- A client with `-S` ends the server. -/
theorem client_finds_server_stop :
    let s := ipcAfter exampleIpc (serverSetsUp ++ clientRuns 0 ["./client".toList, "-S".toList])
    (s.clients 0).act = .terminate 1001 := by
  intro s
  have hpassed : (s.clients 0).passed := by decide +kernel
  have hsem : (s.clients 0).sem = some 1 := by decide +kernel
  have hstarted : 1 = s.started := by decide +kernel
  have hmode : (s.clients 0).mode = .stopClientAndServer := by decide +kernel
  have hfound := (client_finds_server (reachable_ipcAfter exampleIpc _) hpassed hsem).2 hstarted
  rw [hfound.2.2.2, hmode]
  rfl

/-- When the server has been killed and another one started in between, a client can read
memory that is not written yet, and sends its signal to the process id 0. -/
example :
    ((ipcAfter exampleIpc (serverSetsUp ++
      [.crash, .startClient 0 ["./client".toList, "-S".toList], .client 0, .start] ++
      List.replicate 8 .server ++ List.replicate 11 (.client 0))).clients 0).act =
        .terminate 0 := by
  decide +kernel

/-! ## Nobody waits for good -/

/-- **The semaphore lets everybody through.**  When the server has been set up, a client
that waits at its semaphore can go on, or exactly one other client is inside, and can
when that one has taken its next step. -/
theorem waiting_client_passes (hreach : IpcReachable cfg s) (hserver : s.server = .running)
    (hphase : (s.clients n).phase = some 1) (hsem : (s.clients n).sem = some s.started) :
    (s.step cfg (.client n)).isSome = true ∨
      ∃ m s', (∀ m', (s.clients m').Inside s.started ↔ m' = m) ∧
        s.step cfg (.client m) = some s' ∧ (s'.step cfg (.client n)).isSome = true := by
  have hwait : ∀ s₁ : IpcState, s₁.clients n = s.clients n → s₁.sem s.started = some 1 →
      (s₁.step cfg (.client n)).isSome = true := by
    intro s₁ hclient hvalue
    have hop : clientSetup[1]? = some .semWait := rfl
    simp [IpcState.step, IpcState.stepClient, hclient, hphase, hop, ClientOp.exec, hsem, hvalue]
  obtain ⟨value, hvalue, hturn⟩ := (ipcInvariant_of_reachable hreach).opened (.inl hserver)
  cases hturn with
  | free hnobody => exact .inl (hwait s rfl hvalue)
  | busy m halone =>
      obtain ⟨hphase', hsem'⟩ : (s.clients m).Inside s.started := (halone m).mpr rfl
      have hne : n ≠ m := by
        rintro rfl
        rw [hphase] at hphase'
        cases hphase'
      have hop : clientSetup[2]? = some .semPost := rfl
      refine .inr ⟨m, _, halone, ?_, hwait (({ s with
        sem := Function.update s.sem s.started (some 1) } : IpcState).setClient m
          { s.clients m with phase := some 3 }) ?_ (Function.update_self _ _ _)⟩
      · simp [IpcState.step, IpcState.stepClient, hphase', hop, ClientOp.exec, hsem', hvalue]
      · exact Function.update_of_ne hne _ _

/-- Two clients at the semaphore: the second one waits for the first. -/
theorem waiting_client_passes_two :
    let s := ipcAfter exampleIpc (serverSetsUp ++
      [.startClient 0 ["./client".toList, "-z".toList], .startClient 1
        ["./client".toList, "-z".toList], .client 0, .client 1, .client 0])
    (s.step exampleIpc (.client 1)).isNone = true ∧
      ∃ m s', s.step exampleIpc (.client m) = some s' ∧
        (s'.step exampleIpc (.client 1)).isSome = true := by
  intro s
  have hwaits : (s.step exampleIpc (.client 1)).isNone = true := by decide +kernel
  have hserver : s.server = .running := by decide +kernel
  have hphase : (s.clients 1).phase = some 1 := by decide +kernel
  have hsem : (s.clients 1).sem = some s.started := by decide +kernel
  refine ⟨hwaits, ?_⟩
  rcases waiting_client_passes (reachable_ipcAfter exampleIpc _) hserver hphase hsem with
    hpass | ⟨m, s', -, hstep, hpass⟩
  · rw [Option.isNone_iff_eq_none.mp hwaits] at hpass
    cases hpass
  · exact ⟨m, s', hstep, hpass⟩

/-! ## The server is set up whatever was left over -/

/-- **Setting up does not fail.**  Whatever names servers that were killed have left, and
whatever clients do in between, `server_ipc_setup` creates its objects, and goes on until
the server runs. -/
theorem setup_never_fails (hreach : IpcReachable cfg s)
    (hslash : (cfg.queueName s.started).head? = some '/') (hsetup : s.server = .setup i) :
    ∃ s', s.step cfg .server = some s' ∧ (s'.server = .setup (i + 1) ∨ s'.server = .running) := by
  have hf := (ipcInvariant_of_reachable hreach).setup i hsetup
  simp only [IpcState.step, hsetup, IpcState.stepServer]
  cases hop : serverIpcSetup[i]? with
  | none => exact ⟨_, rfl, .inr rfl⟩
  | some op =>
      have hexec : ∃ s', op.exec cfg s = .done s' := by
        cases op with
        | checkQueueName => exact ⟨_, if_pos hslash⟩
        | shmOpen =>
            obtain rfl := turn_unique (j := 5) hop rfl
            have hname : s.shmName = none := by
              cases hname : s.shmName with
              | none => rfl
              | some j => exact absurd (hf.shmName (by decide) j hname).2 (by decide)
            exact ⟨_, if_pos hname⟩
        | semOpen =>
            obtain rfl := turn_unique (j := 13) hop rfl
            have hname : s.semName = none := by
              cases hname : s.semName with
              | none => rfl
              | some j => exact absurd (hf.semName (by decide) j hname).2 (by decide)
            exact ⟨_, if_pos hname⟩
        | shmUnlink => exact ⟨_, rfl⟩
        | semUnlink => exact ⟨_, rfl⟩
        | mqUnlink => exact ⟨_, rfl⟩
        | mqOpen => exact ⟨_, rfl⟩
        | ftruncate => exact ⟨_, rfl⟩
        | store field => exact ⟨_, rfl⟩
        | semPost => exact ⟨_, rfl⟩
      obtain ⟨s', hs'⟩ := hexec
      exact ⟨{ s' with server := .setup (i + 1) }, by simp only [hs'], .inl rfl⟩

/-- The server has been killed with everything set up, and the next one is about to create
its semaphore. -/
theorem setup_never_fails_after_crash :
    let s := ipcAfter exampleIpc (serverSetsUp ++ [.crash, .start] ++ List.replicate 13 .server)
    ∃ s', s.step exampleIpc .server = some s' ∧
      (s'.server = .setup 14 ∨ s'.server = .running) := by
  intro s
  have hsetup : s.server = .setup 13 := by decide +kernel
  exact setup_never_fails (reachable_ipcAfter exampleIpc _) rfl hsetup

end EmergencyDispatch
