import EmergencyDispatch.Promotions
import EmergencyDispatch.RequestsInOrder
import EmergencyDispatch.WaitingTick

/-!
# Priorities rise one level at a time

An emergency begins with the priority of its type, and every write of its
priority is a call of `get_next_priority` that is counted in
`how_many_times_was_promoted`.  So the current priority can be told from the type
and the count, in every reachable state: it is as many levels above that of the
type, and no higher than the last row of the table.
-/

namespace EmergencyDispatch

open State TransitionSystem Ranks

variable {cfg : Config} {s s' : State} {a : Action} {e : EmergencyId} {em em' : Emergency}
  {table : List PriorityRule}

/-- The type, the current priority and the number of promotions. -/
def Emergency.standing (em : Emergency) : EmergencyType × ℤ × ℕ :=
  (em.type, em.priority, em.howManyTimesWasPromoted)

theorem attribute_standing : Attribute Emergency.standing := ⟨fun _ _ _ _ _ _ _ => rfl⟩

/-- The priority is that of the type, raised once for each promotion. -/
def Emergency.RaisedFromType (table : List PriorityRule) (em : Emergency) : Prop :=
  em.priority = (getNextPriority table)^[em.howManyTimesWasPromoted] em.type.priority

namespace Emergency.RaisedFromType

theorem of_standing (h : em.RaisedFromType table) (heq : em'.standing = em.standing) :
    em'.RaisedFromType table := by
  obtain ⟨htype, hrest⟩ := Prod.mk.inj heq
  obtain ⟨hpriority, hcount⟩ := Prod.mk.inj hrest
  unfold Emergency.RaisedFromType
  rw [htype, hpriority, hcount]
  exact h

theorem promote (h : em.RaisedFromType table) :
    (promoteEmergency table em).RaisedFromType table := by
  have hpriority : em.priority =
      (getNextPriority table)^[em.howManyTimesWasPromoted] em.type.priority := h
  calc (promoteEmergency table em).priority
      = getNextPriority table em.priority := rfl
    _ = getNextPriority table
          ((getNextPriority table)^[em.howManyTimesWasPromoted] em.type.priority) := by
        rw [← hpriority]
    _ = (getNextPriority table)^[em.howManyTimesWasPromoted + 1] em.type.priority := by
        rw [Function.iterate_succ_apply']

theorem updateActive (h : em.RaisedFromType table) :
    (updateActiveEmergencyState table em).1.RaisedFromType table := by
  unfold updateActiveEmergencyState
  dsimp only
  split
  · split
    · have hticked : Emergency.RaisedFromType table
          { em with promotionTimer := em.promotionTimer - 1 } := h
      exact hticked.promote
    · exact h
  · repeat' split
    all_goals exact h

end Emergency.RaisedFromType

/-! ## Runs -/

theorem raisedFromType_of_reachable (hreach : Reachable cfg s) (e : EmergencyId) :
    (s.world.emergencies e).RaisedFromType cfg.priorityLookupTable := by
  refine hreach.invariant
    (fun s => (s.world.emergencies e).RaisedFromType cfg.priorityLookupTable) rfl ?_
  intro s a s' hs h _ hstep
  have hinv := reachable_invariant hs
  cases attribute_standing.worldEffect hinv (world_effect hinv (step_effect hstep).2) e with
  | same hsame => exact h.of_standing hsame
  | active i hactive hem =>
      rw [hem]
      exact h.updateActive
  | waiting hwaiting hem =>
      rw [hem]
      exact h
  | promoted hpc hem =>
      rw [hem]
      exact h.promote
  | made he request hem =>
      obtain ⟨type, -, hmade⟩ := Option.map_eq_some_iff.mp hem
      rw [← hmade]
      rfl

theorem type_mem_of_reachable (hreach : Reachable cfg s) (hfirst : cfg.emergencies.length ≤ e)
    (hlt : e < s.nextId) : (s.world.emergencies e).type ∈ cfg.emergencies := by
  have htypes : ∀ e, cfg.emergencies.length ≤ e → e < s.nextId →
      (s.world.emergencies e).type ∈ cfg.emergencies := by
    refine hreach.invariant (fun s => ∀ e, cfg.emergencies.length ≤ e → e < s.nextId →
      (s.world.emergencies e).type ∈ cfg.emergencies) ?_ ?_
    · intro e hfirst hlt
      exact absurd hfirst (Nat.not_le.mpr hlt)
    · intro s a s' hs h _ hstep e hfirst hlt
      have hinv := reachable_invariant hs
      by_cases hold : e < s.nextId
      · have hsame := congrArg Origin.type (step_origin hinv hstep hold)
        show (s'.world.emergencies e).origin.type ∈ cfg.emergencies
        rw [hsame]
        exact h e hfirst hold
      · have heffect := (step_effect hstep).2
        have hnone : s'.nextId ≠ s.nextId := fun heq => hold (heq ▸ hlt)
        cases heffect with
        | quiet hq => exact absurd hq.nextId hnone
        | receive request emergency mq hpc hemergency =>
            obtain rfl : e = s.nextId := Nat.eq_of_lt_succ_of_not_lt hlt hold
            obtain ⟨htype, -⟩ := mallocateEmergency_spec hemergency
            simpa using htype
        | _ => exact absurd rfl hnone
  exact htypes e hfirst hlt

/-- The level that an emergency of the type begins with. -/
def typeLevel (cfg : Config) (type : EmergencyType) : ℕ :=
  priorityToLevel cfg.priorityLookupTable type.priority

theorem level_of_reachable (hascending : AscendingTable cfg.priorityLookupTable)
    (hlisted : cfg.PrioritiesListed) (hreach : Reachable cfg s)
    (hfirst : cfg.emergencies.length ≤ e) (hlt : e < s.nextId) :
    s.level cfg e = min (typeLevel cfg (s.world.emergencies e).type + s.promotions e)
      (cfg.priorityLookupTable.length - 1) := by
  have htype := hlisted _ (type_mem_of_reachable hreach hfirst hlt)
  obtain ⟨hchain, hend⟩ := hascending.iterate_getNextPriority htype (s.promotions e)
  have hraised : (s.world.emergencies e).priority =
      (getNextPriority cfg.priorityLookupTable)^[s.promotions e]
        (s.world.emergencies e).type.priority := raisedFromType_of_reachable hreach e
  have hmem := mem_priorityNumbers.mpr htype
  calc s.level cfg e
      = rank (priorityNumbers cfg.priorityLookupTable)
          ((getNextPriority cfg.priorityLookupTable)^[s.promotions e]
            (s.world.emergencies e).type.priority) := by
        rw [State.level, hraised, priorityToLevel_eq_rank hend]
    _ = min (rank (priorityNumbers cfg.priorityLookupTable)
          (s.world.emergencies e).type.priority + s.promotions e)
          ((priorityNumbers cfg.priorityLookupTable).length - 1) := by
        rw [hchain, rank_iterate_successor hascending.pairwise_numbers hmem]
    _ = _ := by
        rw [length_priorityNumbers, typeLevel, priorityToLevel_eq_rank htype]

theorem promotions_le_of_step (hreach : Reachable cfg s) (hstep : State.step cfg s a = some s')
    (hlt : e < s.nextId) : s.promotions e ≤ s'.promotions e := by
  have hinv := reachable_invariant hreach
  cases attribute_standing.worldEffect hinv (world_effect hinv (step_effect hstep).2) e with
  | same hsame => exact (Prod.mk.inj (Prod.mk.inj hsame).2).2.ge
  | active i hactive hem =>
      show _ ≤ (s'.world.emergencies e).howManyTimesWasPromoted
      rw [hem]
      unfold updateActiveEmergencyState
      dsimp only
      split
      · split
        · exact Nat.le_succ _
        · exact Nat.le_refl _
      · repeat' split
        all_goals exact Nat.le_refl _
  | waiting hwaiting hem =>
      show _ ≤ (s'.world.emergencies e).howManyTimesWasPromoted
      rw [hem]
      exact Nat.le_refl _
  | promoted hpc hem =>
      show _ ≤ (s'.world.emergencies e).howManyTimesWasPromoted
      rw [hem]
      exact Nat.le_succ _
  | made he => exact absurd hlt (he ▸ Nat.lt_irrefl _)

/-- What a run keeps of an emergency, and what it only raises. -/
theorem run_rises (hreach : Reachable cfg s)
    (hrun : TransitionSystem.Reachable (State.step cfg) s s') (hlt : e < s.nextId) :
    e < s'.nextId ∧ (s'.world.emergencies e).type = (s.world.emergencies e).type ∧
      s.promotions e ≤ s'.promotions e := by
  refine hrun.invariant (fun s' => e < s'.nextId ∧
    (s'.world.emergencies e).type = (s.world.emergencies e).type ∧
      s.promotions e ≤ s'.promotions e) ⟨hlt, rfl, Nat.le_refl _⟩ ?_
  intro mid a next hmid h _ hstep
  obtain ⟨hlt, htype, hle⟩ := h
  have hreached : Reachable cfg mid := hreach.trans hmid
  refine ⟨?_, ?_, hle.trans (promotions_le_of_step hreached hstep hlt)⟩
  · rcases step_accepted hstep with ⟨hsame, -⟩ | ⟨hnew, -⟩
    · exact hsame ▸ hlt
    · exact hnew ▸ Nat.lt_succ_of_lt hlt
  · have hsame := step_origin (reachable_invariant hreached) hstep hlt
    exact (congrArg Origin.type hsame).trans htype

/-- **Priorities rise one level at a time.**  In every run an emergency is as many levels above
that of its type as it was promoted, up to the highest one; between any two states of a run it
rises by its promotions and never falls. -/
theorem levels_follow_promotions (hascending : AscendingTable cfg.priorityLookupTable)
    (hlisted : cfg.PrioritiesListed) (hreach : Reachable cfg s)
    (hrun : TransitionSystem.Reachable (State.step cfg) s s')
    (hfirst : cfg.emergencies.length ≤ e) (hlt : e < s.nextId) :
    let highest := cfg.priorityLookupTable.length - 1
    s.level cfg e = min (typeLevel cfg (s.world.emergencies e).type + s.promotions e) highest ∧
      s.promotions e ≤ s'.promotions e ∧
      s'.level cfg e = min (s.level cfg e + (s'.promotions e - s.promotions e)) highest := by
  intro highest
  obtain ⟨hlt', htype, hle⟩ := run_rises hreach hrun hlt
  have hlevel := level_of_reachable hascending hlisted hreach hfirst hlt
  have hlevel' := level_of_reachable hascending hlisted (hreach.trans hrun) hfirst hlt'
  rw [htype] at hlevel'
  refine ⟨hlevel, hle, ?_⟩
  rw [hlevel, hlevel']
  omega

/-- An emergency of the lower priority waits for a rescuer that is not free in time and is
promoted. -/
theorem levels_follow_promotions_quick :
    let s := stateAfter quickServer (threadsStart ++ requestArrives "e 3 4 0")
    let s' := continueWith (fun _ _ => True) quickServer s (clockTicks 22)
    s.level quickServer 3 = 0 ∧ s'.promotions 3 = 1 ∧
      s'.level quickServer 3 = min (0 + (s'.promotions 3 - s.promotions 3)) 1 := by
  intro s s'
  have hrun := reachableWith_continueWith (fun _ _ => True) quickServer s (clockTicks 22)
  have hlevels := levels_follow_promotions (by decide) (by decide) (reachable_stateAfter _ _) hrun
    (by decide : quickServer.emergencies.length ≤ 3) (by decide +kernel)
  have hzero : s.level quickServer 3 = 0 := by decide +kernel
  rw [hzero] at hlevels
  exact ⟨hzero, by decide +kernel, hlevels.2.2⟩

end EmergencyDispatch
