import EmergencyDispatch.Links

/-!
# What the operations do to the links

One lemma for each way in which a unit changes column: a candidate is bound to
an emergency (owed → on its way), a twin arrives (on its way → on the scene), a
stay ends (on the scene → finished), a twin is released for another emergency
(on its way or on the scene → owed).  Everything else the server does leaves the
links as they are (`SameLinks`).
-/

namespace EmergencyDispatch

variable {cfg : Config} {n : EmergencyId} {w w' : World}
  {owed owed' : EmergencyId → (RescuerType → Bool) → ℕ}

/-! ## Operations that move no unit -/

/-- Two worlds with the same links. -/
structure SameLinks (w w' : World) : Prop where
  atRest : ∀ t, (w'.twins t).isAtRest ↔ (w.twins t).isAtRest
  isEnRouteTo : ∀ t e, (w'.twins t).isEnRouteTo e = (w.twins t).isEnRouteTo e
  isOnSceneOf : ∀ t e, (w'.twins t).isOnSceneOf e = (w.twins t).isOnSceneOf e
  twinRescuer : ∀ t, (w'.twins t).rescuer = (w.twins t).rescuer
  twinCandidate : ∀ t, (w'.twins t).isACandidate = (w.twins t).isACandidate
  type : ∀ e, (w'.emergencies e).type = (w.emergencies e).type
  count : ∀ e, (w'.emergencies e).rescuerCount = (w.emergencies e).rescuerCount
  missing_type : ∀ e, (w'.emergencies e).rescuersMissing.map (·.type) =
    (w.emergencies e).rescuersMissing.map (·.type)
  slots : ∀ e, (w'.emergencies e).rescuerTwins = (w.emergencies e).rescuerTwins
  notArrived : ∀ e,
    (w'.emergencies e).rescuersNotArrivedYet = (w.emergencies e).rescuersNotArrivedYet
  notDone : ∀ e, (w'.emergencies e).rescuersNotDoneYet = (w.emergencies e).rescuersNotDoneYet
  finished : w'.finished = w.finished

namespace SameLinks

/-- Neither the slots of the workers nor the signals are links. -/
theorem of_eq (htwins : w'.twins = w.twins) (hemergencies : w'.emergencies = w.emergencies)
    (hfinished : w'.finished = w.finished) : SameLinks w w' := by
  constructor <;> intros <;> simp [htwins, hemergencies, hfinished]

/-- A twin that stands to every emergency as before. -/
theorem setTwin_of_stands {t : TwinId} {twin : RescuerDigitalTwin}
    (hatRest : twin.isAtRest ↔ (w.twins t).isAtRest)
    (henRoute : ∀ e, twin.isEnRouteTo e = (w.twins t).isEnRouteTo e)
    (honScene : ∀ e, twin.isOnSceneOf e = (w.twins t).isOnSceneOf e)
    (hrescuer : twin.rescuer = (w.twins t).rescuer)
    (hcandidate : twin.isACandidate = (w.twins t).isACandidate) :
    SameLinks w (w.setTwin t twin) := by
  constructor <;> try (intros; rfl)
  all_goals
    intro u
    by_cases hu : u = t
    · subst hu
      simp [hatRest, henRoute, honScene, hrescuer, hcandidate]
    · simp [hu]

theorem setTwin {t : TwinId} {twin : RescuerDigitalTwin}
    (hstatus : twin.status = (w.twins t).status)
    (hemergency : twin.emergency = (w.twins t).emergency)
    (hrescuer : twin.rescuer = (w.twins t).rescuer)
    (hcandidate : twin.isACandidate = (w.twins t).isACandidate) :
    SameLinks w (w.setTwin t twin) := by
  refine setTwin_of_stands ?_ (fun e => ?_) (fun e => ?_) hrescuer hcandidate
  · rw [RescuerDigitalTwin.isAtRest, RescuerDigitalTwin.isAtRest, hstatus, hemergency]
  · rw [RescuerDigitalTwin.isEnRouteTo, RescuerDigitalTwin.isEnRouteTo, hstatus, hemergency]
  · rw [RescuerDigitalTwin.isOnSceneOf, RescuerDigitalTwin.isOnSceneOf, hstatus, hemergency]

theorem setTwin_atRest {t : TwinId} {twin : RescuerDigitalTwin}
    (hbefore : (w.twins t).isAtRest) (hafter : twin.isAtRest)
    (hrescuer : twin.rescuer = (w.twins t).rescuer)
    (hcandidate : twin.isACandidate = (w.twins t).isACandidate) :
    SameLinks w (w.setTwin t twin) := by
  refine setTwin_of_stands (iff_of_true hafter hbefore) (fun e => ?_) (fun e => ?_) hrescuer
    hcandidate
  · rw [RescuerDigitalTwin.isEnRouteTo_of_atRest hafter,
      RescuerDigitalTwin.isEnRouteTo_of_atRest hbefore]
  · rw [RescuerDigitalTwin.isOnSceneOf_of_atRest hafter,
      RescuerDigitalTwin.isOnSceneOf_of_atRest hbefore]

/-- An emergency that keeps its type, its slots, its counters and the types of
its requests. -/
theorem setEmergency {e : EmergencyId} {em : Emergency}
    (htype : em.type = (w.emergencies e).type)
    (hcount : em.rescuerCount = (w.emergencies e).rescuerCount)
    (hmissing : em.rescuersMissing.map (·.type) = (w.emergencies e).rescuersMissing.map (·.type))
    (hslots : em.rescuerTwins = (w.emergencies e).rescuerTwins)
    (hnotArrived : em.rescuersNotArrivedYet = (w.emergencies e).rescuersNotArrivedYet)
    (hnotDone : em.rescuersNotDoneYet = (w.emergencies e).rescuersNotDoneYet) :
    SameLinks w (w.setEmergency e em) := by
  constructor <;> try (intros; rfl)
  all_goals
    intro e'
    by_cases he : e' = e
    · subst he; simp [htype, hcount, hmissing, hslots, hnotArrived, hnotDone]
    · simp [he]

theorem serves (h : SameLinks w w') (t : TwinId) (e : EmergencyId) :
    (w'.twins t).serves e = (w.twins t).serves e := by
  rw [RescuerDigitalTwin.serves_eq, RescuerDigitalTwin.serves_eq, h.isEnRouteTo, h.isOnSceneOf]

theorem enRoute (h : SameLinks w w') : w'.enRoute cfg = w.enRoute cfg := by
  funext e ρ
  simp [World.enRoute, World.tally, h.isEnRouteTo, h.twinRescuer]

theorem onScene (h : SameLinks w w') : w'.onScene cfg = w.onScene cfg := by
  funext e ρ
  simp [World.onScene, World.tally, h.isOnSceneOf, h.twinRescuer]

end SameLinks

namespace Linked

/-- The links stay what they are, and every new status is justified. -/
theorem congr (h : Linked cfg n w owed) (same : SameLinks w w')
    (hstatus : ∀ e, (w'.emergencies e).StatusJustified) : Linked cfg n w' owed where
  owner r hr t ht := by rw [same.twinRescuer]; exact h.owner r hr t ht
  atRest t := by
    have := h.atRest t
    simpa only [same.atRest, same.serves] using this
  notCandidate t := by rw [same.twinCandidate]; exact h.notCandidate t
  serving t e ht := by
    rw [same.serves] at ht
    rw [same.twinRescuer, same.missing_type]
    exact h.serving t e ht
  stayed stay hstay := h.stayed stay (same.finished ▸ hstay)
  slots e := by
    rw [same.slots]
    simpa only [same.serves] using h.slots e
  slots_length e := by rw [same.slots, same.count]; exact h.slots_length e
  rescuerCount e := by rw [same.count, same.type]; exact h.rescuerCount e
  missing_type e := by rw [same.missing_type, same.type]; exact h.missing_type e
  missing_mem e request hrequest := by
    have hmem := List.mem_map_of_mem (f := (·.type)) hrequest
    rw [same.missing_type] at hmem
    obtain ⟨old, hold, htype⟩ := List.mem_map.mp hmem
    exact htype ▸ h.missing_mem e old hold
  balance e ρ := by
    rw [same.type, same.enRoute, same.onScene, World.finishedStays, same.finished]
    exact h.balance e ρ
  notDone e := by rw [same.notDone, same.enRoute, same.onScene]; exact h.notDone e
  notArrived e := by rw [same.notArrived, same.enRoute]; exact h.notArrived e
  status := hstatus

theorem congr_status (h : Linked cfg n w owed) (same : SameLinks w w')
    (hstatus : ∀ e, (w'.emergencies e).status = (w.emergencies e).status) :
    Linked cfg n w' owed :=
  h.congr same fun e => by
    have := h.status e
    simpa only [Emergency.StatusJustified, hstatus, same.notArrived, same.notDone] using this

end Linked

/-! ## Operations that move one unit -/

/-- The twin `t` becomes `twin` and the emergency `e` becomes `em`; neither the
old twin nor the new one is bound to another emergency.  `owed'` and `w'` differ
from `owed` and `w` nowhere else. -/
structure Rebinding (w w' : World) (owed owed' : EmergencyId → (RescuerType → Bool) → ℕ)
    (t : TwinId) (e : EmergencyId) (twin : RescuerDigitalTwin) (em : Emergency) : Prop where
  twins : w'.twins = Function.update w.twins t twin
  emergencies : w'.emergencies = Function.update w.emergencies e em
  before : ∀ e', (w.twins t).serves e' = true → e' = e
  after : ∀ e', twin.serves e' = true → e' = e
  bound : twin.isAtRest ∨ ∃ e', twin.serves e' = true
  rescuer : twin.rescuer = (w.twins t).rescuer
  candidate : twin.isACandidate = (w.twins t).isACandidate
  type : em.type = (w.emergencies e).type
  count : em.rescuerCount = (w.emergencies e).rescuerCount
  missing_type : em.rescuersMissing.map (·.type) = (w.emergencies e).rescuersMissing.map (·.type)
  slots_length : em.rescuerTwins.length = (w.emergencies e).rescuerTwins.length
  owed_of_ne : ∀ e', e' ≠ e → owed' e' = owed e'
  finished_of_ne : ∀ e' ρ, e' ≠ e → w'.finishedStays e' ρ = w.finishedStays e' ρ

namespace Rebinding

variable {t : TwinId} {e : EmergencyId} {twin : RescuerDigitalTwin} {em : Emergency}

theorem twins_self (r : Rebinding w w' owed owed' t e twin em) : w'.twins t = twin := by
  simp [r.twins]

theorem twins_of_ne (r : Rebinding w w' owed owed' t e twin em) {u : TwinId} (hu : u ≠ t) :
    w'.twins u = w.twins u := by simp [r.twins, hu]

theorem emergencies_self (r : Rebinding w w' owed owed' t e twin em) :
    w'.emergencies e = em := by simp [r.emergencies]

theorem emergencies_of_ne (r : Rebinding w w' owed owed' t e twin em) {e' : EmergencyId}
    (he : e' ≠ e) : w'.emergencies e' = w.emergencies e' := by simp [r.emergencies, he]

theorem twins_rescuer (r : Rebinding w w' owed owed' t e twin em) (u : TwinId) :
    (w'.twins u).rescuer = (w.twins u).rescuer := by
  by_cases hu : u = t
  · subst hu; rw [r.twins_self, r.rescuer]
  · rw [r.twins_of_ne hu]

theorem tally (r : Rebinding w w' owed owed' t e twin em) (ht : t ∈ cfg.twinIds)
    (p : RescuerDigitalTwin → Bool) :
    w'.tally cfg p + (p (w.twins t)).toNat = w.tally cfg p + (p twin).toNat := by
  rw [← World.tally_setTwin ht twin p]
  simp [World.tally, r.twins, World.setTwin]

theorem isEnRouteTo_before (r : Rebinding w w' owed owed' t e twin em) {e' : EmergencyId}
    (he : e' ≠ e) : (w.twins t).isEnRouteTo e' = false := by
  by_contra h
  exact he (r.before e' (by simp [RescuerDigitalTwin.serves_eq, h]))

theorem isOnSceneOf_before (r : Rebinding w w' owed owed' t e twin em) {e' : EmergencyId}
    (he : e' ≠ e) : (w.twins t).isOnSceneOf e' = false := by
  by_contra h
  exact he (r.before e' (by simp [RescuerDigitalTwin.serves_eq, h]))

theorem isEnRouteTo_after (r : Rebinding w w' owed owed' t e twin em) {e' : EmergencyId}
    (he : e' ≠ e) : twin.isEnRouteTo e' = false := by
  by_contra h
  exact he (r.after e' (by simp [RescuerDigitalTwin.serves_eq, h]))

theorem isOnSceneOf_after (r : Rebinding w w' owed owed' t e twin em) {e' : EmergencyId}
    (he : e' ≠ e) : twin.isOnSceneOf e' = false := by
  by_contra h
  exact he (r.after e' (by simp [RescuerDigitalTwin.serves_eq, h]))

theorem enRoute_of_ne (r : Rebinding w w' owed owed' t e twin em) (ht : t ∈ cfg.twinIds)
    {e' : EmergencyId} (he : e' ≠ e) (ρ : RescuerType → Bool) :
    w'.enRoute cfg e' ρ = w.enRoute cfg e' ρ := by
  have h := r.tally ht fun t => t.isEnRouteTo e' && ρ t.rescuer
  simpa [World.enRoute, r.isEnRouteTo_before he, r.isEnRouteTo_after he] using h

theorem onScene_of_ne (r : Rebinding w w' owed owed' t e twin em) (ht : t ∈ cfg.twinIds)
    {e' : EmergencyId} (he : e' ≠ e) (ρ : RescuerType → Bool) :
    w'.onScene cfg e' ρ = w.onScene cfg e' ρ := by
  have h := r.tally ht fun t => t.isOnSceneOf e' && ρ t.rescuer
  simpa [World.onScene, r.isOnSceneOf_before he, r.isOnSceneOf_after he] using h

theorem enRoute_self (r : Rebinding w w' owed owed' t e twin em) (ht : t ∈ cfg.twinIds)
    (ρ : RescuerType → Bool) :
    w'.enRoute cfg e ρ + ((w.twins t).isEnRouteTo e && ρ (w.twins t).rescuer).toNat =
      w.enRoute cfg e ρ + (twin.isEnRouteTo e && ρ (w.twins t).rescuer).toNat := by
  have h := r.tally ht fun t => t.isEnRouteTo e && ρ t.rescuer
  simpa [World.enRoute, r.rescuer] using h

theorem onScene_self (r : Rebinding w w' owed owed' t e twin em) (ht : t ∈ cfg.twinIds)
    (ρ : RescuerType → Bool) :
    w'.onScene cfg e ρ + ((w.twins t).isOnSceneOf e && ρ (w.twins t).rescuer).toNat =
      w.onScene cfg e ρ + (twin.isOnSceneOf e && ρ (w.twins t).rescuer).toNat := by
  have h := r.tally ht fun t => t.isOnSceneOf e && ρ t.rescuer
  simpa [World.onScene, r.rescuer] using h

end Rebinding

namespace Linked

variable {t : TwinId} {e : EmergencyId} {twin : RescuerDigitalTwin} {em : Emergency}

/-- Moving one unit keeps the links, given what the move does to the columns and
the counters of the one emergency concerned. -/
theorem rebind (h : Linked cfg n w owed) (r : Rebinding w w' owed owed' t e twin em)
    (ht : t ∈ cfg.twinIds) (he : e < n)
    (hrescuer : (w.twins t).rescuer ∈ (w.emergencies e).rescuersMissing.map (·.type))
    (hstayed : ∀ stay ∈ w'.finished, stay.emergency < n)
    (hslots : em.rescuerTwins.reduceOption.Perm
      (cfg.twinIds.filter fun u => (w'.twins u).serves e))
    (hbalance : ∀ ρ, owed' e ρ + w'.enRoute cfg e ρ + w'.onScene cfg e ρ + w'.finishedStays e ρ =
      owed e ρ + w.enRoute cfg e ρ + w.onScene cfg e ρ + w.finishedStays e ρ)
    (hnotDone : em.rescuersNotDoneYet =
      ((owed' e anyType + w'.enRoute cfg e anyType + w'.onScene cfg e anyType : ℕ) : ℤ))
    (hnotArrived : em.rescuersNotArrivedYet =
      ((owed' e anyType + w'.enRoute cfg e anyType : ℕ) : ℤ))
    (hstatus : em.StatusJustified) : Linked cfg n w' owed' where
  owner q hq u hu := by rw [r.twins_rescuer]; exact h.owner q hq u hu
  atRest u := by
    by_cases hu : u = t
    · subst hu; rw [r.twins_self]; exact r.bound
    · rw [r.twins_of_ne hu]; exact h.atRest u
  notCandidate u := by
    by_cases hu : u = t
    · subst hu; rw [r.twins_self, r.candidate]; exact h.notCandidate u
    · rw [r.twins_of_ne hu]; exact h.notCandidate u
  -- only `t` can have come to serve an emergency, and it serves `e`
  serving u e' hserves := by
    have hmissing : (w'.emergencies e').rescuersMissing.map (·.type) =
        (w.emergencies e').rescuersMissing.map (·.type) := by
      by_cases he' : e' = e
      · subst he'; rw [r.emergencies_self, r.missing_type]
      · rw [r.emergencies_of_ne he']
    rw [r.twins_rescuer, hmissing]
    by_cases hu : u = t
    · subst hu
      obtain rfl := r.after e' (by rwa [r.twins_self] at hserves)
      exact ⟨ht, he, hrescuer⟩
    · exact h.serving u e' (by rwa [r.twins_of_ne hu] at hserves)
  stayed := hstayed
  slots e' := by
    by_cases he' : e' = e
    · subst he'; rw [r.emergencies_self]; exact hslots
    · rw [r.emergencies_of_ne he']
      -- of the other emergencies `t` is neither before nor after
      refine (h.slots e').trans (List.Perm.of_eq (List.filter_congr fun u _ => ?_))
      by_cases hu : u = t
      · subst hu
        rw [r.twins_self, RescuerDigitalTwin.serves_eq, RescuerDigitalTwin.serves_eq,
          r.isEnRouteTo_before he', r.isOnSceneOf_before he', r.isEnRouteTo_after he',
          r.isOnSceneOf_after he']
      · rw [r.twins_of_ne hu]
  slots_length e' := by
    by_cases he' : e' = e
    · subst he'; rw [r.emergencies_self, r.slots_length, r.count]; exact h.slots_length e'
    · rw [r.emergencies_of_ne he']; exact h.slots_length e'
  rescuerCount e' := by
    by_cases he' : e' = e
    · subst he'; rw [r.emergencies_self, r.count, r.type]; exact h.rescuerCount e'
    · rw [r.emergencies_of_ne he']; exact h.rescuerCount e'
  missing_type e' := by
    by_cases he' : e' = e
    · subst he'; rw [r.emergencies_self, r.missing_type, r.type]; exact h.missing_type e'
    · rw [r.emergencies_of_ne he']; exact h.missing_type e'
  missing_mem e' request hrequest := by
    by_cases he' : e' = e
    · subst he'
      rw [r.emergencies_self] at hrequest
      have hmem := List.mem_map_of_mem (f := (·.type)) hrequest
      rw [r.missing_type] at hmem
      obtain ⟨old, hold, htype⟩ := List.mem_map.mp hmem
      exact htype ▸ h.missing_mem e' old hold
    · rw [r.emergencies_of_ne he'] at hrequest
      exact h.missing_mem e' request hrequest
  balance e' ρ := by
    by_cases he' : e' = e
    · subst he'
      rw [r.emergencies_self, r.type, hbalance]
      exact h.balance e' ρ
    · rw [r.emergencies_of_ne he', r.owed_of_ne e' he', r.enRoute_of_ne ht he',
        r.onScene_of_ne ht he', r.finished_of_ne e' ρ he']
      exact h.balance e' ρ
  notDone e' := by
    by_cases he' : e' = e
    · subst he'; rw [r.emergencies_self]; exact hnotDone
    · rw [r.emergencies_of_ne he', r.owed_of_ne e' he', r.enRoute_of_ne ht he',
        r.onScene_of_ne ht he']
      exact h.notDone e'
  notArrived e' := by
    by_cases he' : e' = e
    · subst he'; rw [r.emergencies_self]; exact hnotArrived
    · rw [r.emergencies_of_ne he', r.owed_of_ne e' he', r.enRoute_of_ne ht he']
      exact h.notArrived e'
  status e' := by
    by_cases he' : e' = e
    · subst he'; rw [r.emergencies_self]; exact hstatus
    · rw [r.emergencies_of_ne he']; exact h.status e'

/-- A twin at rest is bound to `e`, into an empty slot: a unit owed is on its way. -/
theorem bind (h : Linked cfg n w owed) {i : ℕ} (twin : RescuerDigitalTwin)
    (ht : t ∈ cfg.twinIds) (he : e < n)
    (hrest : (w.twins t).isAtRest)
    (hrescuer : (w.twins t).rescuer ∈ (w.emergencies e).rescuersMissing.map (·.type))
    (hslot : (w.emergencies e).rescuerTwins[i]? = some none)
    (htwins : w'.twins = Function.update w.twins t twin)
    (hemergencies : w'.emergencies = Function.update w.emergencies e
      { w.emergencies e with rescuerTwins := (w.emergencies e).rescuerTwins.set i (some t) })
    (hfinished : w'.finished = w.finished)
    (hnew : twin.isEnRouteTo e = true) (hkeep : twin.rescuer = (w.twins t).rescuer)
    (hcandidate : twin.isACandidate = (w.twins t).isACandidate)
    (howed_of_ne : ∀ e', e' ≠ e → owed' e' = owed e')
    (howed : ∀ ρ, owed e ρ = owed' e ρ + (ρ (w.twins t).rescuer).toNat) :
    Linked cfg n w' owed' := by
  obtain ⟨hstatus, hemergency⟩ := RescuerDigitalTwin.isEnRouteTo_iff.mp hnew
  have hscene : twin.isOnSceneOf e = false := by simp [RescuerDigitalTwin.isOnSceneOf, hstatus]
  have hserves : twin.serves e = true := by simp [RescuerDigitalTwin.serves_eq, hnew]
  have r : Rebinding w w' owed owed' t e twin _ :=
    { twins := htwins
      emergencies := hemergencies
      before := fun e' h' => by simp [RescuerDigitalTwin.serves_of_atRest hrest] at h'
      after := fun e' h' => RescuerDigitalTwin.serves_unique h' hserves
      bound := .inr ⟨e, hserves⟩
      rescuer := hkeep
      candidate := hcandidate
      type := rfl
      count := rfl
      missing_type := rfl
      slots_length := by simp
      owed_of_ne := howed_of_ne
      finished_of_ne := fun e' ρ _ => by simp [World.finishedStays, hfinished] }
  have henRoute := fun ρ => r.enRoute_self ht ρ
  have honScene := fun ρ => r.onScene_self ht ρ
  simp only [RescuerDigitalTwin.isEnRouteTo_of_atRest hrest,
    RescuerDigitalTwin.isOnSceneOf_of_atRest hrest, hnew, hscene, Bool.false_and, Bool.true_and,
    Bool.toNat_false, Nat.add_zero] at henRoute honScene
  have hany : anyType (w.twins t).rescuer = true := rfl
  have howedAny := howed anyType
  rw [hany] at howedAny
  have henAny := henRoute anyType
  rw [hany] at henAny
  have honAny := honScene anyType
  refine h.rebind r ht he hrescuer (fun stay hstay => h.stayed stay (hfinished ▸ hstay)) ?_ ?_ ?_ ?_
    (h.status e)
  -- the slot that is filled is that of the twin that starts to serve
  · refine (Tally.reduceOption_fill hslot t).trans (((h.slots e).cons t).trans ?_)
    refine (Tally.filter_join cfg.twins_nodup ht (fun u hu => ?_) ?_ ?_).symm
    · rw [r.twins_of_ne hu]
    · exact RescuerDigitalTwin.serves_of_atRest hrest e
    · rw [r.twins_self, hserves]
  -- the unit owed is on its way now
  · intro ρ
    have hfin : w'.finishedStays e ρ = w.finishedStays e ρ := by
      simp [World.finishedStays, hfinished]
    have := henRoute ρ
    have := honScene ρ
    have := howed ρ
    omega
  · show (w.emergencies e).rescuersNotDoneYet = _
    rw [h.notDone e]
    simp only [Bool.toNat_true] at howedAny henAny
    omega
  · show (w.emergencies e).rescuersNotArrivedYet = _
    rw [h.notArrived e]
    simp only [Bool.toNat_true] at howedAny henAny
    omega

theorem arrive (h : Linked cfg n w owed) (hold : (w.twins t).isEnRouteTo e = true)
    (htwins : w'.twins = Function.update w.twins t twin)
    (hemergencies : w'.emergencies = Function.update w.emergencies e
      { w.emergencies e with
        rescuersNotArrivedYet := (w.emergencies e).rescuersNotArrivedYet - 1 })
    (hfinished : w'.finished = w.finished)
    (hnew : twin.isOnSceneOf e = true) (hkeep : twin.rescuer = (w.twins t).rescuer)
    (hcandidate : twin.isACandidate = (w.twins t).isACandidate) : Linked cfg n w' owed := by
  have hserves : (w.twins t).serves e = true := by simp [RescuerDigitalTwin.serves_eq, hold]
  have hserves' : twin.serves e = true := by simp [RescuerDigitalTwin.serves_eq, hnew]
  obtain ⟨ht, he, hrescuer⟩ := h.serving t e hserves
  have hscene : (w.twins t).isOnSceneOf e = false := by
    simp [RescuerDigitalTwin.isOnSceneOf, (RescuerDigitalTwin.isEnRouteTo_iff.mp hold).1]
  have hroute : twin.isEnRouteTo e = false := by
    simp [RescuerDigitalTwin.isEnRouteTo, (RescuerDigitalTwin.isOnSceneOf_iff.mp hnew).1]
  have r : Rebinding w w' owed owed t e twin _ :=
    { twins := htwins
      emergencies := hemergencies
      before := fun e' h' => RescuerDigitalTwin.serves_unique h' hserves
      after := fun e' h' => RescuerDigitalTwin.serves_unique h' hserves'
      bound := .inr ⟨e, hserves'⟩
      rescuer := hkeep
      candidate := hcandidate
      type := rfl
      count := rfl
      missing_type := rfl
      slots_length := rfl
      owed_of_ne := fun _ _ => rfl
      finished_of_ne := fun e' ρ _ => by simp [World.finishedStays, hfinished] }
  have henRoute := fun ρ => r.enRoute_self ht ρ
  have honScene := fun ρ => r.onScene_self ht ρ
  simp only [hold, hscene, hnew, hroute, Bool.false_and, Bool.true_and, Bool.toNat_false,
    Nat.add_zero] at henRoute honScene
  have henAny := henRoute anyType
  have honAny := honScene anyType
  simp only [show anyType (w.twins t).rescuer = true from rfl, Bool.toNat_true] at henAny honAny
  refine h.rebind r ht he hrescuer (fun stay hstay => h.stayed stay (hfinished ▸ hstay)) ?_ ?_ ?_ ?_
    ?_
  · refine (h.slots e).trans (List.Perm.of_eq (List.filter_congr fun u _ => ?_))
    by_cases hu : u = t
    · subst hu; rw [r.twins_self, hserves, hserves']
    · rw [r.twins_of_ne hu]
  · intro ρ
    have hfin : w'.finishedStays e ρ = w.finishedStays e ρ := by
      simp [World.finishedStays, hfinished]
    have := henRoute ρ
    have := honScene ρ
    omega
  · show (w.emergencies e).rescuersNotDoneYet = _
    rw [h.notDone e]
    omega
  · show (w.emergencies e).rescuersNotArrivedYet - 1 = _
    rw [h.notArrived e]
    omega
  · refine ⟨fun hprogress => ?_, (h.status e).2⟩
    have := (h.status e).1 hprogress
    have := h.notArrived e
    omega

/-- A twin leaves `e` for good: the slot is emptied, and the unit goes to
another column of `e`, either because it has finished (`finished := true`) or
because another emergency takes it. -/
theorem unbind (h : Linked cfg n w owed) {i : ℕ} (twin : RescuerDigitalTwin) (em : Emergency)
    (finished : Bool)
    (hserves : (w.twins t).serves e = true)
    (hslot : (w.emergencies e).rescuerTwins[i]? = some (some t))
    (htwins : w'.twins = Function.update w.twins t twin)
    (hemergencies : w'.emergencies = Function.update w.emergencies e em)
    (htype : em.type = (w.emergencies e).type)
    (hcount : em.rescuerCount = (w.emergencies e).rescuerCount)
    (hmissing : em.rescuersMissing.map (·.type) = (w.emergencies e).rescuersMissing.map (·.type))
    (hslots : em.rescuerTwins = (w.emergencies e).rescuerTwins.set i none)
    (hstayed : ∀ stay ∈ w'.finished, stay.emergency < n)
    (hfinished : ∀ e' ρ, w'.finishedStays e' ρ = w.finishedStays e' ρ +
      (finished && e' == e && ρ (w.twins t).rescuer).toNat)
    (hnew : twin.isAtRest) (hkeep : twin.rescuer = (w.twins t).rescuer)
    (hcandidate : twin.isACandidate = (w.twins t).isACandidate)
    (howed_of_ne : ∀ e', e' ≠ e → owed' e' = owed e')
    (howed : ∀ ρ, owed' e ρ = owed e ρ + (!finished && ρ (w.twins t).rescuer).toNat)
    (hnotDone : em.rescuersNotDoneYet = (w.emergencies e).rescuersNotDoneYet - finished.toNat)
    (hnotArrived : em.rescuersNotArrivedYet = (w.emergencies e).rescuersNotArrivedYet +
      (!finished && (w.twins t).isOnSceneOf e).toNat)
    (hfinish : finished = true → (w.twins t).isOnSceneOf e = true)
    (hstatus : em.StatusJustified) : Linked cfg n w' owed' := by
  obtain ⟨ht, he, hrescuer⟩ := h.serving t e hserves
  have r : Rebinding w w' owed owed' t e twin em :=
    { twins := htwins
      emergencies := hemergencies
      before := fun e' h' => RescuerDigitalTwin.serves_unique h' hserves
      after := fun e' h' => by simp [RescuerDigitalTwin.serves_of_atRest hnew] at h'
      bound := .inl hnew
      rescuer := hkeep
      candidate := hcandidate
      type := htype
      count := hcount
      missing_type := hmissing
      slots_length := by simp [hslots]
      owed_of_ne := howed_of_ne
      finished_of_ne := fun e' ρ he' => by simp [hfinished, he'] }
  have henRoute := fun ρ => r.enRoute_self ht ρ
  have honScene := fun ρ => r.onScene_self ht ρ
  simp only [RescuerDigitalTwin.isEnRouteTo_of_atRest hnew,
    RescuerDigitalTwin.isOnSceneOf_of_atRest hnew, Bool.false_and, Bool.toNat_false,
    Nat.add_zero] at henRoute honScene
  -- who serves is on its way or on the scene, never both
  have honce : (w.twins t).isOnSceneOf e = !(w.twins t).isEnRouteTo e := by
    rw [RescuerDigitalTwin.serves_eq] at hserves
    cases hroute : (w.twins t).isEnRouteTo e with
    | false => simpa [hroute] using hserves
    | true =>
        simp [RescuerDigitalTwin.isOnSceneOf, (RescuerDigitalTwin.isEnRouteTo_iff.mp hroute).1]
  have henAny := henRoute anyType
  have honAny := honScene anyType
  have howedAny := howed anyType
  rw [show anyType (w.twins t).rescuer = true from rfl, Bool.and_true] at henAny honAny howedAny
  rw [honce] at honAny hnotArrived hfinish
  refine h.rebind r ht he hrescuer hstayed ?_ ?_ ?_ ?_ hstatus
  -- the slot that is emptied held the twin that stops serving
  · refine List.Perm.cons_inv (a := t) ?_
    rw [hslots]
    refine (Tally.reduceOption_empty hslot).symm.trans ((h.slots e).trans ?_)
    refine Tally.filter_join cfg.twins_nodup ht (fun u hu => ?_) ?_ hserves
    · rw [r.twins_of_ne hu]
    · rw [r.twins_self, RescuerDigitalTwin.serves_of_atRest hnew]
  -- the unit goes from one summand of the balance to another
  · intro ρ
    have hen := henRoute ρ
    have hon := honScene ρ
    have how := howed ρ
    have hfin := hfinished e ρ
    rw [honce] at hon
    revert hen hon how hfin
    cases finished <;> cases (w.twins t).isEnRouteTo e <;> cases ρ (w.twins t).rescuer <;>
      simp <;> omega
  · rw [hnotDone, h.notDone e]
    cases finished <;> cases hroute : (w.twins t).isEnRouteTo e <;>
      simp [hroute] at henAny honAny howedAny hfinish ⊢ <;> omega
  · rw [hnotArrived, h.notArrived e]
    cases finished <;> cases hroute : (w.twins t).isEnRouteTo e <;>
      simp [hroute] at henAny honAny howedAny hfinish ⊢ <;> omega

end Linked

end EmergencyDispatch
