import EmergencyDispatch.Missions
import EmergencyDispatch.Invariants

/-!
# The beginning of a mission

A search changes a twin in one way only: it sends it to the emergency, with the time
that the first request for its rescuer type grants (`Sent`).  The lemmas go from the
preemption of one twin to the whole search, each along the definition of the function it
is about.  A twin that is sent to another cell begins a mission (`SentOn.begins`).
-/

namespace EmergencyDispatch

open State TransitionSystem

variable {cfg : Config} {s s' : State} {t : TwinId} {e : EmergencyId} {w w' : World}
  {m : Mission}

/-! ## What a search sends -/

/-- The emergencies have kept their types and places. -/
def ScenesKept (w w' : World) : Prop :=
  ∀ e, (w'.emergencies e).type = (w.emergencies e).type ∧
    (w'.emergencies e).x = (w.emergencies e).x ∧ (w'.emergencies e).y = (w.emergencies e).y

namespace ScenesKept

theorem refl (w : World) : ScenesKept w w := fun _ => ⟨rfl, rfl, rfl⟩

theorem setEmergency (h : ScenesKept w w') {em : Emergency}
    (hem : em.type = (w'.emergencies e).type ∧ em.x = (w'.emergencies e).x ∧
      em.y = (w'.emergencies e).y) : ScenesKept w (w'.setEmergency e em) := by
  intro e'
  by_cases he : e' = e
  · subst he
    simpa [hem] using h e'
  · simpa [he] using h e'

theorem removeTwin (h : ScenesKept w w') (t : TwinId) :
    ScenesKept w (removeTwinFromItsEmergency w' t) := by
  unfold removeTwinFromItsEmergency
  split
  · exact h
  · split
    · exact h
    · exact h.setEmergency ⟨rfl, rfl, rfl⟩

end ScenesKept

theorem removeTwin_twins (w : World) (t : TwinId) :
    (removeTwinFromItsEmergency w t).twins = w.twins := by
  unfold removeTwinFromItsEmergency
  split
  · rfl
  · split <;> rfl

theorem preemptIfNeeded_kept (h : preemptIfNeededBlocked w t = .ok w') :
    ScenesKept w w' ∧ w'.twins = w.twins := by
  unfold preemptIfNeededBlocked at h
  split at h
  · obtain rfl := Except.ok.inj h
    exact ⟨.refl w, rfl⟩
  · obtain rfl := Except.ok.inj h
    exact ⟨.refl w, rfl⟩
  · split at h
    · cases h
    · rename_i old _ _ _ missing _
      have hmissing : ScenesKept w (w.setEmergency old { w.emergencies old with
          rescuersMissing := missing }) := (ScenesKept.refl w).setEmergency ⟨rfl, rfl, rfl⟩
      dsimp only at h
      -- the counter of those not arrived, the slot, and at last the pause
      generalize hw₁ : (if (w.twins t).status = .onScene then _ else _ : World) = w₁ at h
      have hkept : ScenesKept w w₁ ∧ w₁.twins = w.twins := by
        rw [← hw₁]
        split
        · exact ⟨hmissing.setEmergency ⟨rfl, rfl, rfl⟩, rfl⟩
        · exact ⟨hmissing, rfl⟩
      have hslot := hkept.1.removeTwin t
      have htwins := (removeTwin_twins w₁ t).trans hkept.2
      split at h <;> obtain rfl := Except.ok.inj h
      · exact ⟨hslot.setEmergency ⟨rfl, rfl, rfl⟩, htwins⟩
      · exact ⟨hslot, htwins⟩

/-- Each twin is as it was, or has left for `e` with the time its request grants. -/
structure Sent (e : EmergencyId) (w w' : World) : Prop where
  kept : ScenesKept w w'
  twins : ∀ t, w'.twins t = w.twins t ∨ (w.twins t).serves e = false ∧
    ∃ request, getRescuerRequestByName (w.twins t).rescuer.rescuerTypeName
        (w.emergencies e).type.rescuers = some request ∧
      w'.twins t = departing (w.twins t) e (w.emergencies e) request

namespace Sent

theorem refl (e : EmergencyId) (w : World) : Sent e w w := ⟨.refl w, fun _ => .inl rfl⟩

theorem trans {w'' : World} (h : Sent e w w') (h' : Sent e w' w'') : Sent e w w'' where
  kept e' := by
    obtain ⟨htype, hx, hy⟩ := h.kept e'
    obtain ⟨htype', hx', hy'⟩ := h'.kept e'
    exact ⟨htype'.trans htype, hx'.trans hx, hy'.trans hy⟩
  twins t := by
    obtain ⟨htype, hx, hy⟩ := h.kept e
    rcases h.twins t with hsame | ⟨hserves, request, hrequest, hsent⟩
    · rcases h'.twins t with hsame' | ⟨hserves, request, hrequest, hsent⟩
      · exact .inl (hsame'.trans hsame)
      · rw [hsame] at hserves hrequest hsent
        rw [htype] at hrequest
        refine .inr ⟨hserves, request, hrequest, hsent.trans ?_⟩
        simp only [departing, hx, hy]
    -- who has left for the emergency serves it, and is not sent again
    · rcases h'.twins t with hsame' | ⟨hnot, -⟩
      · exact .inr ⟨hserves, request, hrequest, hsame'.trans hsent⟩
      · simp [hsent, RescuerDigitalTwin.serves] at hnot

end Sent

theorem sendRescuerDigitalTwinToScene_sent (h : sendRescuerDigitalTwinToScene w t e = .ok w') :
    Sent e w w' := by
  by_cases hserves : (w.twins t).serves e = true
  -- already bound to this scene
  · obtain ⟨hemergency, hstatus⟩ := RescuerDigitalTwin.serves_iff.mp hserves
    obtain rfl : w = w' := by
      rcases hstatus with hstatus | hstatus <;>
        simpa [sendRescuerDigitalTwinToScene, hstatus, hemergency] using h
    exact .refl e w
  · rw [Bool.not_eq_true] at hserves
    have hne : ∀ old, (w.twins t).status = .onScene ∨ (w.twins t).status = .enRouteToScene →
        (w.twins t).emergency = some old → old ≠ e := by
      rintro old hstatus hold rfl
      have hthis := RescuerDigitalTwin.serves_iff.mpr ⟨hold, hstatus.symm⟩
      rw [hserves] at hthis
      cases hthis
    cases hrequest : getRescuerRequestByName (w.twins t).rescuer.rescuerTypeName
        (w.emergencies e).type.rescuers with
    | none =>
        simp only [sendRescuerDigitalTwinToScene, hrequest] at h
        split at h <;> try cases h
        · rename_i old hstatus hold
          simp [hne old (.inl hstatus) hold] at h
        · rename_i old hstatus hold
          simp [hne old (.inr hstatus) hold] at h
    | some request =>
        obtain rfl : w.setTwin t (departing (w.twins t) e (w.emergencies e) request) = w' := by
          simp only [sendRescuerDigitalTwinToScene, hrequest] at h
          split at h
          · cases h
          · cases h
          · rename_i old hstatus hold
            rw [if_neg (hne old (.inl hstatus) hold)] at h
            exact Except.ok.inj h
          · rename_i old hstatus hold
            rw [if_neg (hne old (.inr hstatus) hold)] at h
            exact Except.ok.inj h
          · exact Except.ok.inj h
        refine ⟨fun _ => ⟨rfl, rfl, rfl⟩, fun u => ?_⟩
        by_cases hu : u = t
        · subst hu
          exact .inr ⟨hserves, request, hrequest, World.setTwin_twins_self _ _ _⟩
        · exact .inl (World.setTwin_twins_of_ne _ _ _ hu)

theorem Sent.of_kept (e : EmergencyId) (h : ScenesKept w w') (htwins : w'.twins = w.twins) :
    Sent e w w' :=
  ⟨h, fun _ => .inl (by rw [htwins])⟩

theorem dispatchTwin_sent {i : ℕ} (h : dispatchTwin w e i t = .ok w') : Sent e w w' := by
  unfold dispatchTwin at h
  cases hpreempt : preemptIfNeededBlocked w t with
  | error fault => rw [hpreempt] at h; cases h
  | ok w₁ =>
      rw [hpreempt] at h
      obtain ⟨hkept, htwins⟩ := preemptIfNeeded_kept hpreempt
      have hslot : ScenesKept w (w₁.setEmergency e { w₁.emergencies e with
          rescuerTwins := (w₁.emergencies e).rescuerTwins.set i (some t) }) :=
        hkept.setEmergency ⟨rfl, rfl, rfl⟩
      exact (Sent.of_kept e hslot htwins).trans (sendRescuerDigitalTwinToScene_sent h)

theorem assignCandidates_sent {slots : List ℕ} {candidates : List TwinId}
    (h : assignCandidates e slots candidates w = .ok w') : Sent e w w' := by
  induction slots generalizing w candidates with
  | nil =>
      obtain rfl := Except.ok.inj h
      exact .refl e w
  | cons i slots ih =>
      unfold assignCandidates at h
      split at h
      · cases candidates with
        | nil => cases h
        | cons t candidates =>
            dsimp only at h
            cases hdispatch : dispatchTwin w e i t with
            | error fault => rw [hdispatch] at h; cases h
            | ok w₁ =>
                rw [hdispatch] at h
                exact (dispatchTwin_sent hdispatch).trans (ih h)
      · exact ih h

theorem findRescuers_sent {n : EmergencyId} {table : List PriorityRule} {found : Bool}
    (hl : WellLinked cfg n w)
    (h : findRescuersLoggingBlocking table w e = .ok (w', found)) : Sent e w w' := by
  unfold findRescuersLoggingBlocking at h
  have hworld := (selectCandidates_spec hl table e).1
  split at h
  · obtain ⟨rfl, -⟩ := Prod.mk.inj (Except.ok.inj h)
    exact .refl e w
  · dsimp only at h
    rw [hworld] at h
    split at h
    · cases hassign : assignCandidates e (List.range (w.emergencies e).rescuerCount)
          (selectCandidates table w e).candidates w with
      | error fault => rw [hassign] at h; cases h
      | ok w₁ =>
          rw [hassign] at h
          obtain ⟨rfl, -⟩ := Prod.mk.inj (Except.ok.inj h)
          have hsent := assignCandidates_sent hassign
          exact ⟨hsent.kept.setEmergency ⟨rfl, rfl, rfl⟩, hsent.twins⟩
    · obtain ⟨rfl, -⟩ := Prod.mk.inj (Except.ok.inj h)
      exact .refl e w

/-! ## The beginning of a mission -/

/-- A search, seen from the twins. -/
theorem search_sent {i : Worker} {s₀ : State} (hinv : Invariant cfg s)
    (hpc : s.worker i = .find e) (hstep : State.step cfg s (.worker i) = some s₀) :
    s₀.systemFree = true ∧ s₀.nextId = s.nextId ∧ Sent e s.world s₀.world := by
  have hworker : s.stepWorker cfg i = some s₀ := by
    cases (step_thread hstep).2 with
    | worker i _ h => exact h
  simp only [stepWorker, hpc] at hworker
  split at hworker
  · rename_i hfree
    split at hworker <;> obtain rfl := Option.some.inj hworker
    · exact ⟨hfree, rfl, .refl e _⟩
    · rename_i w found hfind
      have hsent := findRescuers_sent hinv.links hfind
      exact ⟨hfree, rfl, hsent.kept, hsent.twins⟩
  · cases hworker

/-- The search of worker `i` sends the twin on the mission: it was not bound to the
emergency before, and is bound to it afterwards. -/
structure SentOn (cfg : Config) (m : Mission) (i : Worker) (s s₀ : State) : Prop where
  searching : s.worker i = .find m.emergency
  step : State.step cfg s (.worker i) = some s₀
  before : (s.world.twins m.twin).emergency ≠ some m.emergency
  after : (s₀.world.twins m.twin).emergency = some m.emergency
  rescuer : m.rescuer = (s.world.twins m.twin).rescuer
  scene : m.x = (s.world.emergencies m.emergency).x ∧ m.y = (s.world.emergencies m.emergency).y
  distance : m.distance = MANHATTAN (s.world.twins m.twin).x (s.world.twins m.twin).y m.x m.y
  stay : (getRescuerRequestByName m.rescuer.rescuerTypeName
    (s.world.emergencies m.emergency).type.rescuers).map (·.timeToManage) = some m.stay

theorem rescuer_of_bound {n : EmergencyId} (hl : WellLinked cfg n w)
    (h : (w.twins t).emergency = some e) :
    e < n ∧ (w.twins t).rescuer ∈ cfg.rescuers ∧ t ∈ (w.twins t).rescuer.twins := by
  obtain ⟨hmem, hlt, -⟩ := hl.serving t e (hl.serves_of_emergency h)
  obtain ⟨r, hr, ht⟩ := List.mem_flatMap.mp hmem
  rw [hl.owner r hr t ht]
  exact ⟨hlt, hr, ht⟩

theorem Sent.rescuer (h : Sent e w w') (t : TwinId) :
    (w'.twins t).rescuer = (w.twins t).rescuer := by
  rcases h.twins t with hsame | ⟨-, request, -, hsent⟩
  · rw [hsame]
  · rw [hsent, departing_rescuer]

namespace SentOn

variable {i : Worker} {s₀ : State}

theorem reachable (h : SentOn cfg m i s s₀) (hreach : Reachable cfg s) : Reachable cfg s₀ :=
  hreach.next trivial h.step

theorem known (h : SentOn cfg m i s s₀) (hreach : Reachable cfg s) :
    m.emergency < s₀.nextId ∧ m.rescuer ∈ cfg.rescuers ∧ m.twin ∈ m.rescuer.twins := by
  obtain ⟨-, -, hsent⟩ := search_sent (reachable_invariant hreach) h.searching h.step
  have hbound := rescuer_of_bound (reachable_invariant (h.reachable hreach)).links h.after
  rwa [hsent.rescuer, ← h.rescuer] at hbound

theorem begins (h : SentOn cfg m i s s₀) (hreach : Reachable cfg s) :
    s₀.systemFree = true ∧ OnMission m 0 (s₀.world.twins m.twin) ⟨false, 0, 0⟩ := by
  obtain ⟨hfree, -, hsent⟩ := search_sent (reachable_invariant hreach) h.searching h.step
  refine ⟨hfree, ?_⟩
  have hnew := h.after
  rcases hsent.twins m.twin with hsame | ⟨-, request, hrequest, hdeparting⟩
  · rw [hsame] at hnew
    exact absurd hnew h.before
  have haway : ¬(s.world.twins m.twin).StandsAt m.x m.y := by
    intro hstands
    have hpos := m.distance_pos
    rw [h.distance, MANHATTAN_eq_zero_iff.mpr hstands] at hpos
    exact absurd hpos (lt_irrefl 0)
  have hstay : m.stay = request.timeToManage := by
    have hgranted := h.stay
    rw [h.rescuer, hrequest] at hgranted
    exact (Option.some.inj hgranted).symm
  have hdestination : s₀.world.twins m.twin = changeRescuerDigitalTwinDestinationBlocked
      { s.world.twins m.twin with
        status := .enRouteToScene
        emergency := some m.emergency
        timeToManage := request.timeToManage
        timeLeftBeforeLeaving := request.timeToManage } m.x m.y := by
    rw [hdeparting, departing, h.scene.1, h.scene.2]
  rw [hdestination]
  refine .enRoute m.arrival_pos (by simp) (by simp) ?_ (heading_changeDestination _ ?_) ?_
  · unfold changeRescuerDigitalTwinDestinationBlocked
    split <;> exact hstay.symm
  · intro hstands
    exact absurd hstands haway
  · rw [changeDestination_x, changeDestination_y, zero_mul, sub_zero, h.distance]

end SentOn

end EmergencyDispatch
