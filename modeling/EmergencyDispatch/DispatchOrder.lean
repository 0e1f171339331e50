import EmergencyDispatch.Urgency
import EmergencyDispatch.Locking
import EmergencyDispatch.Parsers.EmergencyTypes

/-!
# In which order emergencies are dispatched

A queued emergency is in the list of its current priority: the receiver and the
updater push it there, and nobody changes the priority of an emergency that is in
the queue, because the updater promotes only what it has taken out and the
emergencies in the slots.  Within a list the emergencies are in the order in
which they entered the queue, a promotion being a new entry.  Hence a worker
pops the emergency that has been waiting longest among those of the highest
priority.
-/

namespace EmergencyDispatch

open State TransitionSystem LeveledFifo

/-! ## When an emergency entered the queue -/

/-- The number of steps made, and for each emergency the step of its last entry
into `emergency_queue`. -/
structure Entries where
  now : ℕ
  time : EmergencyId → ℕ

/-- Nothing has entered yet. -/
def Entries.start : Entries := ⟨0, fun _ => 0⟩

/-- An emergency enters with the step after which it is in the queue and before
which it was not. -/
def recordEntries (s s' : State) (entries : Entries) : Entries where
  now := entries.now + 1
  time e :=
    if e ∈ s'.emergencyQueue.contents ∧ e ∉ s.emergencyQueue.contents then entries.now
    else entries.time e

/-- The states reached, each with the entries of the run that led there. -/
abbrev ReachableWithEntries (cfg : Config) (s : State) (entries : Entries) : Prop :=
  ReachableWith (withHistory (State.step cfg) recordEntries) (fun _ _ => True)
    (initialState cfg, Entries.start) (s, entries)

/-! ## The invariant -/

/-- The level of an emergency is that of its current priority. -/
def State.level (cfg : Config) (s : State) (e : EmergencyId) : ℕ :=
  priorityToLevel cfg.priorityLookupTable (s.world.emergencies e).priority

/-- The types have priorities of the table, which `emergency_values_are_illegal` checks. -/
def Config.PrioritiesListed (cfg : Config) : Prop :=
  ∀ type ∈ cfg.emergencies, Listed cfg.priorityLookupTable type.priority

instance (cfg : Config) : Decidable cfg.PrioritiesListed :=
  inferInstanceAs (Decidable (∀ type ∈ cfg.emergencies, _))

/-- The queue is arranged by priority and entry. -/
structure Dispatch (cfg : Config) (s : State) (entries : Entries) : Prop where
  listed : ∀ p, (∀ i, p ≠ Place.worker i) → ∀ e ∈ s.holds p,
    Listed cfg.priorityLookupTable (s.world.emergencies e).priority
  arranged : Arranged (s.level cfg) entries.time s.emergencyQueue.lists
  past : ∀ e ∈ s.emergencyQueue.contents, entries.time e < entries.now

variable {cfg : Config} {s s' : State} {a : Action} {e : EmergencyId} {entries : Entries}

theorem queued_priority (hinv : Invariant cfg s) (hstep : State.step cfg s a = some s')
    (he : e ∈ s.emergencyQueue.contents) :
    (s'.world.emergencies e).priority = (s.world.emergencies e).priority := by
  rcases queued_urgency hinv hstep he with h | ⟨-, -, h⟩
  · exact h.priority
  · rw [h]; rfl

/-- The emergencies that no worker has keep priorities of the table. -/
theorem listed_step (hlisted : cfg.PrioritiesListed) (hinv : Invariant cfg s)
    (h : ∀ p, (∀ i, p ≠ Place.worker i) → ∀ e ∈ s.holds p,
      Listed cfg.priorityLookupTable (s.world.emergencies e).priority)
    (heffect : Effect cfg s a s') {p : Place} (hp : ∀ i, p ≠ .worker i) (he : e ∈ s'.holds p) :
    Listed cfg.priorityLookupTable (s'.world.emergencies e).priority := by
  have hfresh := (effect_inCustody hinv.custody heffect).fresh p e he
  rcases effect_held hinv.custody heffect hp he with rfl | ⟨q, hq, hold⟩
  · obtain ⟨-, type, htype, hpriority, -⟩ := effect_made heffect le_rfl hfresh
    rw [hpriority]
    exact hlisted type htype
  · have hbefore := h q hq e hold
    cases effect_urgency hinv heffect e with
    | same h => rwa [h.priority]
    | active i hactive _ => exact absurd hactive (hinv.not_active hq hold i)
    | waiting hpc hwaiting h => rw [h]; exact hbefore
    | promoted hpc h => rw [h]; exact hbefore.getNextPriority cfg.priorityLookupTable_ne_nil
    | made hid => exact absurd (hinv.custody.fresh q e hold) (by rw [hid]; exact lt_irrefl _)

/-! ## Steps -/

theorem arranged_push {levelOf time : EmergencyId → ℕ} {q : Pq}
    (h : Arranged levelOf time q.lists) (hlength : levelOf e < q.lists.length)
    (hlast : q.closed = false → ∀ x ∈ q.contents, time x < time e) :
    Arranged levelOf time (q.push e (levelOf e)).lists := by
  cases hclosed : q.closed with
  | true => rwa [Pq.push_of_closed hclosed]
  | false =>
      rw [Pq.lists_push hclosed hlength]
      exact h.pushBack hlength (hlast hclosed)

theorem arranged_extract {levelOf time : EmergencyId → ℕ} {q rest : Pq}
    {pred : EmergencyId → Bool} (h : Arranged levelOf time q.lists)
    (hextract : q.extractFirst pred = some (e, rest)) : Arranged levelOf time rest.lists := by
  obtain ⟨⟨x, lists⟩, hlists, heq⟩ := Option.map_eq_some_iff.mp hextract
  obtain ⟨-, rfl⟩ := Prod.mk.inj heq
  exact h.extractFirst hlists

theorem arranged_pop {levelOf time : EmergencyId → ℕ} {q rest : Pq}
    (h : Arranged levelOf time q.lists) (hpop : q.pop = some (e, rest)) {e' : EmergencyId}
    (he' : e' ∈ rest.contents) :
    levelOf e' < levelOf e ∨ levelOf e' = levelOf e ∧ time e < time e' := by
  obtain ⟨⟨x, lists⟩, hlists, heq⟩ := Option.map_eq_some_iff.mp hpop
  obtain ⟨rfl, rfl⟩ := Prod.mk.inj heq
  exact h.popFirst_first hlists he'

theorem dispatch_step (hlisted : cfg.PrioritiesListed) (hinv : Invariant cfg s)
    (h : Dispatch cfg s entries) (hstep : State.step cfg s a = some s') :
    Dispatch cfg s' (recordEntries s s' entries) := by
  have heffect := (step_effect hstep).2
  have hlength : ∀ e, s'.level cfg e < s.emergencyQueue.lists.length := by
    intro e
    rw [hinv.custody.queue_levels]
    exact priorityToLevel_lt cfg.priorityLookupTable_ne_nil _
  -- what is in the queue keeps its level and its time
  have hold : Arranged (s'.level cfg) (recordEntries s s' entries).time s.emergencyQueue.lists := by
    refine h.arranged.congr (fun e he => ?_) fun e he => ?_
    · rw [State.level, State.level, queued_priority hinv hstep he]
    · exact if_neg fun hentered => hentered.2 he
  have hpast : ∀ x ∈ s.emergencyQueue.contents,
      (recordEntries s s' entries).time x < entries.now := by
    intro x hx
    rw [recordEntries]
    simp only [hx, not_true, and_false, if_false]
    exact h.past x hx
  -- what is pushed by the thread that has it enters now
  have hpushed : ∀ {p : Place} {x : EmergencyId}, p ≠ .queue → x ∈ s.holds p →
      s'.emergencyQueue = s.emergencyQueue.push x (s'.level cfg x) →
      Arranged (s'.level cfg) (recordEntries s s' entries).time s'.emergencyQueue.lists := by
    intro p x hp hx hqueue
    rw [hqueue]
    refine arranged_push hold (hlength x) fun hopen y hy => ?_
    -- in custody of `p` it is not in the queue, so this is the moment it enters
    have hnot : x ∉ s.emergencyQueue.contents := fun hin =>
      hp (hinv.custody.exclusive.unique hx (q := .queue) hin)
    have hin : x ∈ s'.emergencyQueue.contents := by
      rw [hqueue]
      exact Pq.mem_contents_push_self hopen hinv.custody.lists_ne_nil _ _
    have hnow : (recordEntries s s' entries).time x = entries.now := by
      rw [recordEntries]
      simp only [hin, hnot, not_false_eq_true, and_self, if_true]
    rw [hnow]
    exact hpast y hy
  refine ⟨fun p hp e he => listed_step hlisted hinv h.listed heffect hp he, ?_, fun e he => ?_⟩
  · cases heffect with
    | quiet hq => rw [hq.lists]; exact hold
    | pop i x queue hpc hpop =>
        rw [Pq.pop_eq_extractFirst] at hpop
        exact arranged_extract hold hpop
    | extract x queue pred pc hpc hextract hnext => exact arranged_extract hold hextract
    | promote x level worker hpc hwoken hlevel =>
        have hx : x ∈ s.holds .updater := mem_holds_updater.mpr (by rw [hpc]; rfl)
        exact hpushed (by simp) hx (by rw [hlevel, State.level, World.setEmergency_self])
    | receiverPush x level worker hpc hwoken hlevel =>
        have hx : x ∈ s.holds .receiver := mem_holds_receiver.mpr (by rw [hpc]; rfl)
        exact hpushed (by simp) hx (by rw [hlevel]; rfl)
    | _ => exact hold
  · show (recordEntries s s' entries).time e < entries.now + 1
    by_cases hin : e ∈ s.emergencyQueue.contents
    · exact (hpast e hin).trans (Nat.lt_succ_self _)
    · rw [recordEntries]
      simp only [he, hin, not_false_eq_true, and_self, if_true]
      exact Nat.lt_succ_self _

theorem dispatch_of_reachable (hlisted : cfg.PrioritiesListed)
    (hreach : ReachableWithEntries cfg s entries) : Dispatch cfg s entries := by
  refine hreach.invariant (fun p => Dispatch cfg p.1 p.2) ?_ ?_
  · have hnone : ∀ p, ∀ e, e ∉ (initialState cfg).holds p := by
      intro p e
      rw [holds_initialState]
      exact List.not_mem_nil
    have hlevel : ∀ l e, e ∉ itemsAt (initialState cfg).emergencyQueue.lists l :=
      fun l e he => hnone .queue e (mem_contents_iff.mpr ⟨l, he⟩)
    refine ⟨fun p _ e he => absurd he (hnone p e),
      ⟨fun l e he => absurd he (hlevel l e), fun l => ?_⟩,
      fun e he => absurd he (hnone .queue e)⟩
    rw [List.eq_nil_iff_forall_not_mem.mpr (hlevel l)]
    exact List.Pairwise.nil
  · rintro ⟨s, entries⟩ a ⟨s', entries'⟩ hs ih - hstep
    obtain ⟨s₁, hs₁, heq⟩ := Option.map_eq_some_iff.mp hstep
    obtain ⟨rfl, rfl⟩ := Prod.mk.inj heq
    exact dispatch_step hlisted (reachable_invariant hs.of_history) ih hs₁

/-- **Dispatch order.**  Every queued emergency has a priority of the table and
is in the list of this priority; and a worker that pops gets an emergency than
which no queued emergency has a higher priority, and than which none of the same
priority entered the queue before. -/
theorem dispatch_order (hlisted : cfg.PrioritiesListed)
    (hreach : ReachableWithEntries cfg s entries) :
    (∀ e ∈ s.emergencyQueue.contents,
      Listed cfg.priorityLookupTable (s.world.emergencies e).priority ∧
        e ∈ itemsAt s.emergencyQueue.lists (priorityToLevel cfg.priorityLookupTable
          (s.world.emergencies e).priority)) ∧
      ∀ i e s', s.worker i = .pop → State.step cfg s (.worker i) = some s' →
        s'.worker i = .popped e → e ∈ s.emergencyQueue.contents ∧
          ∀ e' ∈ s.emergencyQueue.contents, e' ≠ e →
            (s.world.emergencies e').priority < (s.world.emergencies e).priority ∨
              (s.world.emergencies e').priority = (s.world.emergencies e).priority ∧
                entries.time e < entries.time e' := by
  have h := dispatch_of_reachable hlisted hreach
  have hqueued : ∀ e ∈ s.emergencyQueue.contents,
      Listed cfg.priorityLookupTable (s.world.emergencies e).priority :=
    fun e he => h.listed .queue (by simp) e he
  refine ⟨fun e he => ⟨hqueued e he, ?_⟩, fun i e s' hpc hstep hpopped => ?_⟩
  · obtain ⟨level, hlevel⟩ := mem_contents_iff.mp he
    have heq : priorityToLevel cfg.priorityLookupTable (s.world.emergencies e).priority = level :=
      h.arranged.level level e hlevel
    rwa [heq]
  · cases (step_thread hstep).2 with
    | worker i _ hstep =>
        simp only [stepWorker, hpc] at hstep
        split at hstep
        · rename_i x queue hpop
          obtain rfl := Option.some.inj hstep
          obtain rfl : x = e := by simpa [setWorker] using hpopped
          have hperm := (Pq.pop_spec hpop).1
          refine ⟨hperm.mem_iff.mpr List.mem_cons_self, fun e' he' hne => ?_⟩
          have hrest : e' ∈ queue.contents :=
            (List.mem_cons.mp (hperm.mem_iff.mp he')).resolve_left hne
          have hx := hqueued x (hperm.mem_iff.mpr List.mem_cons_self)
          -- the levels are ordered as the numbers, and within a level the times of entry count
          rcases arranged_pop h.arranged hpop hrest with hlt | ⟨heq, htime⟩
          · exact .inl (lt_of_priorityToLevel_lt (hqueued e' he') hx hlt)
          · exact .inr ⟨eq_of_priorityToLevel_eq (hqueued e' he') hx heq, htime⟩
        · obtain rfl := Option.some.inj hstep
          simp only [setWorker, Function.update_self] at hpopped
          split at hpopped <;> cases hpopped

/-- The state after a list of actions from the start, with the entries of the run. -/
def stateWithEntries (cfg : Config) (actions : List Action) : State × Entries :=
  (run (withHistory (State.step cfg) recordEntries) (initialState cfg, Entries.start) actions).getD
    (initialState cfg, Entries.start)

theorem reachable_stateWithEntries (cfg : Config) (actions : List Action) :
    ReachableWithEntries cfg (stateWithEntries cfg actions).1 (stateWithEntries cfg actions).2 := by
  unfold stateWithEntries
  cases hrun : run (withHistory (State.step cfg) recordEntries) (initialState cfg, Entries.start)
      actions with
  | none => exact .initial
  | some p => exact reachableWith_of_runWith .initial hrun

/-- An emergency `e` arrives, then `f` and `g` of a higher priority: worker `0`
gets `f`. -/
theorem dispatch_order_three :
    let p := stateWithEntries exampleServer (threadsStart ++ requestArrives "e 3 4 0" ++
      requestArrives "f 5 4 0" ++ requestArrives "g 5 6 0" ++ workerSteps 0 1)
    exampleServer.PrioritiesListed ∧ p.1.emergencyQueue.contents = [3, 4, 5] ∧
      (nextState exampleServer p.1 (.worker 0)).worker 0 = .popped 4 ∧
      (p.1.world.emergencies 5).priority = (p.1.world.emergencies 4).priority ∧
      p.2.time 4 < p.2.time 5 := by
  intro p
  have hlisted : exampleServer.PrioritiesListed := by decide
  have hpopped : (nextState exampleServer p.1 (.worker 0)).worker 0 = .popped 4 := by
    decide +kernel
  have hcontents : p.1.emergencyQueue.contents = [3, 4, 5] := by decide +kernel
  have hsame : (p.1.world.emergencies 5).priority = (p.1.world.emergencies 4).priority := by
    decide +kernel
  have hreach : ReachableWithEntries exampleServer p.1 p.2 := reachable_stateWithEntries _ _
  have hstep : State.step exampleServer p.1 (.worker 0) =
      some (nextState exampleServer p.1 (.worker 0)) := step_nextState (by decide +kernel)
  have horder := ((dispatch_order hlisted hreach).2 0 4 _ (by decide +kernel) hstep hpopped).2 5
    (by rw [hcontents]; decide) (by decide)
  refine ⟨hlisted, hcontents, hpopped, hsame, ?_⟩
  rcases horder with hlt | ⟨-, htime⟩
  · rw [hsame] at hlt
    exact absurd hlt (lt_irrefl _)
  · exact htime

end EmergencyDispatch
