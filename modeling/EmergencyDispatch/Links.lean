import EmergencyDispatch.Threads
import EmergencyDispatch.Library.Tally

/-!
# The links between twins and emergencies

A twin and its emergency point to each other, and three counters, an array of
slots and a list of missing requests record how far the emergency is served.
`Linked` says that all of them tell the same story: for every set `ρ` of rescuer
types, the units the emergency requires are those still owed to it, those on
their way, those on the scene and those that have finished.

What is owed is a parameter.  Between two sections it is what
`rescuers_missing` says (`World.missing`); inside the assignment loop of a
search it is what is left of the candidates.  The operations below move units
between the four columns, one unit at a time.
-/

namespace EmergencyDispatch

namespace RescuerDigitalTwin

/-- On its way to the scene of `e`. -/
def isEnRouteTo (t : RescuerDigitalTwin) (e : EmergencyId) : Bool :=
  t.status == .enRouteToScene && t.emergency == some e

/-- On the scene of `e`. -/
def isOnSceneOf (t : RescuerDigitalTwin) (e : EmergencyId) : Bool :=
  t.status == .onScene && t.emergency == some e

/-- Bound to no emergency. -/
def isAtRest (t : RescuerDigitalTwin) : Prop :=
  t.emergency = none ∧ (t.status = .idle ∨ t.status = .returningToBase)

theorem serves_eq (t : RescuerDigitalTwin) (e : EmergencyId) :
    t.serves e = (t.isEnRouteTo e || t.isOnSceneOf e) := by
  rw [Bool.eq_iff_iff]
  simp only [serves_iff, isEnRouteTo, isOnSceneOf, Bool.or_eq_true, Bool.and_eq_true, beq_iff_eq]
  tauto

theorem isEnRouteTo_iff {t : RescuerDigitalTwin} {e : EmergencyId} :
    t.isEnRouteTo e = true ↔ t.status = .enRouteToScene ∧ t.emergency = some e := by
  simp [isEnRouteTo]

theorem isOnSceneOf_iff {t : RescuerDigitalTwin} {e : EmergencyId} :
    t.isOnSceneOf e = true ↔ t.status = .onScene ∧ t.emergency = some e := by
  simp [isOnSceneOf]

theorem isEnRouteTo_of_atRest {t : RescuerDigitalTwin} (h : t.isAtRest) (e : EmergencyId) :
    t.isEnRouteTo e = false := by simp [isEnRouteTo, h.1]

theorem isOnSceneOf_of_atRest {t : RescuerDigitalTwin} (h : t.isAtRest) (e : EmergencyId) :
    t.isOnSceneOf e = false := by simp [isOnSceneOf, h.1]

theorem serves_of_atRest {t : RescuerDigitalTwin} (h : t.isAtRest) (e : EmergencyId) :
    t.serves e = false := by simp [serves, h.1]

theorem serves_unique {t : RescuerDigitalTwin} {e e' : EmergencyId} (h : t.serves e = true)
    (h' : t.serves e' = true) : e = e' :=
  Option.some_injective _ ((serves_iff.mp h).1.symm.trans (serves_iff.mp h').1)

end RescuerDigitalTwin

/-! ## Counting units -/

/-- The units that a list of requests asks from the rescuer types in `ρ`; for one
type, the sum of the counts of its requests. -/
def requested (ρ : RescuerType → Bool) (requests : List RescuerRequest) : ℕ :=
  (requests.map fun request => if ρ request.type then request.requiredCount else 0).sum

/-- Every rescuer type. -/
def anyType : RescuerType → Bool := fun _ => true

/-- The rescuer type `r` only. -/
def onlyType (r : RescuerType) : RescuerType → Bool := fun r' => decide (r' = r)

theorem requested_anyType (requests : List RescuerRequest) :
    requested anyType requests = totalCount requests := by
  simp [requested, anyType, totalCount]

@[simp] theorem requested_nil (ρ : RescuerType → Bool) : requested ρ [] = 0 := rfl

@[simp] theorem requested_cons (ρ : RescuerType → Bool) (request : RescuerRequest)
    (requests : List RescuerRequest) :
    requested ρ (request :: requests) =
      (if ρ request.type then request.requiredCount else 0) + requested ρ requests := by
  simp [requested]

theorem requested_eq_zero {ρ : RescuerType → Bool} {requests : List RescuerRequest}
    (h : ∀ request ∈ requests, ρ request.type = false) : requested ρ requests = 0 := by
  induction requests with
  | nil => rfl
  | cons first rest ih =>
      rw [requested_cons, h first (by simp),
        ih fun request hrequest => h request (by simp [hrequest])]
      simp

theorem requested_le_anyType (ρ : RescuerType → Bool) (requests : List RescuerRequest) :
    requested ρ requests ≤ requested anyType requests := by
  induction requests with
  | nil => exact le_rfl
  | cons first rest ih =>
      rw [requested_cons, requested_cons]
      refine Nat.add_le_add ?_ ih
      simp only [anyType, if_true]
      split <;> simp

/-- Requests for pairwise distinct types: the units asked from a type are the
count of its one request. -/
theorem requested_onlyType {requests : List RescuerRequest}
    (hdistinct : (requests.map (·.type)).Nodup) {request : RescuerRequest}
    (hmem : request ∈ requests) :
    requested (onlyType request.type) requests = request.requiredCount := by
  induction requests with
  | nil => simp at hmem
  | cons first rest ih =>
      obtain ⟨hfirst, hrest⟩ := List.nodup_cons.mp hdistinct
      rcases List.mem_cons.mp hmem with rfl | hmem
      · have hzero : requested (onlyType request.type) rest = 0 := by
          refine requested_eq_zero fun other hother => ?_
          have hne : other.type ≠ request.type := fun h =>
            hfirst (List.mem_map.mpr ⟨other, hother, h⟩)
          simp [onlyType, hne]
        rw [requested_cons, hzero]
        simp [onlyType]
      · have hne : first.type ≠ request.type := fun h =>
          hfirst (List.mem_map.mpr ⟨request, hmem, h.symm⟩)
        rw [requested_cons, ih hrest hmem]
        simp [onlyType, hne]

namespace World

variable (cfg : Config) (w : World)

/-- How many twins satisfy `p`. -/
def tally (p : RescuerDigitalTwin → Bool) : ℕ := cfg.twinIds.countP fun t => p (w.twins t)

/-- The units of the types in `ρ` on their way to `e`. -/
def enRoute (e : EmergencyId) (ρ : RescuerType → Bool) : ℕ :=
  w.tally cfg fun t => t.isEnRouteTo e && ρ t.rescuer

/-- The units of the types in `ρ` on the scene of `e`. -/
def onScene (e : EmergencyId) (ρ : RescuerType → Bool) : ℕ :=
  w.tally cfg fun t => t.isOnSceneOf e && ρ t.rescuer

/-- The units of the types in `ρ` whose stay at `e` is over. -/
def finishedStays (e : EmergencyId) (ρ : RescuerType → Bool) : ℕ :=
  w.finished.countP fun stay => stay.emergency == e && ρ stay.rescuer

/-- The units of the types in `ρ` that `rescuers_missing` asks for. -/
def missing (e : EmergencyId) (ρ : RescuerType → Bool) : ℕ :=
  requested ρ (w.emergencies e).rescuersMissing

variable {cfg w}

theorem enRoute_le_anyType (cfg : Config) (e : EmergencyId) (ρ : RescuerType → Bool) :
    w.enRoute cfg e ρ ≤ w.enRoute cfg e anyType := by
  refine List.countP_mono_left fun t _ ht => ?_
  simp only [Bool.and_eq_true] at ht ⊢
  exact ⟨ht.1, rfl⟩

theorem onScene_le_anyType (cfg : Config) (e : EmergencyId) (ρ : RescuerType → Bool) :
    w.onScene cfg e ρ ≤ w.onScene cfg e anyType := by
  refine List.countP_mono_left fun t _ ht => ?_
  simp only [Bool.and_eq_true] at ht ⊢
  exact ⟨ht.1, rfl⟩

/-- One twin changes: its contribution to a tally is replaced. -/
theorem tally_setTwin {t : TwinId} (ht : t ∈ cfg.twinIds) (twin : RescuerDigitalTwin)
    (p : RescuerDigitalTwin → Bool) :
    (w.setTwin t twin).tally cfg p + (p (w.twins t)).toNat = w.tally cfg p + (p twin).toNat := by
  have h := Tally.countP_change (l := cfg.twinIds) cfg.twins_nodup ht
    (p := fun u => p (w.twins u)) (q := fun u => p ((w.setTwin t twin).twins u))
    fun u hu => by simp [hu]
  rwa [setTwin_twins_self] at h

end World

/-! ## The invariant -/

/-- What a status promises about the counters. -/
def Emergency.StatusJustified (em : Emergency) : Prop :=
  (em.status = .inProgress → em.rescuersNotArrivedYet = 0) ∧
    (em.status = .completed → em.rescuersNotDoneYet = 0)

/-- The twins and the emergencies with a number below `n` are linked, `owed`
being what each emergency has still to be given. -/
structure Linked (cfg : Config) (n : EmergencyId) (w : World)
    (owed : EmergencyId → (RescuerType → Bool) → ℕ) : Prop where
  owner : ∀ r ∈ cfg.rescuers, ∀ t ∈ r.twins, (w.twins t).rescuer = r
  atRest : ∀ t, (w.twins t).isAtRest ∨ ∃ e, (w.twins t).serves e = true
  notCandidate : ∀ t, (w.twins t).isACandidate = false
  serving : ∀ t e, (w.twins t).serves e = true →
    t ∈ cfg.twinIds ∧ e < n ∧
      (w.twins t).rescuer ∈ (w.emergencies e).rescuersMissing.map (·.type)
  stayed : ∀ stay ∈ w.finished, stay.emergency < n
  slots : ∀ e, (w.emergencies e).rescuerTwins.reduceOption.Perm
    (cfg.twinIds.filter fun t => (w.twins t).serves e)
  slots_length : ∀ e, (w.emergencies e).rescuerTwins.length = (w.emergencies e).rescuerCount
  rescuerCount : ∀ e,
    (w.emergencies e).rescuerCount = requested anyType (w.emergencies e).type.rescuers
  missing_type : ∀ e, (w.emergencies e).rescuersMissing.map (·.type) =
    (w.emergencies e).type.rescuers.map (·.type)
  missing_mem : ∀ e, ∀ request ∈ (w.emergencies e).rescuersMissing, request.type ∈ cfg.rescuers
  balance : ∀ e ρ, requested ρ (w.emergencies e).type.rescuers =
    owed e ρ + w.enRoute cfg e ρ + w.onScene cfg e ρ + w.finishedStays e ρ
  notDone : ∀ e, (w.emergencies e).rescuersNotDoneYet =
    ((owed e anyType + w.enRoute cfg e anyType + w.onScene cfg e anyType : ℕ) : ℤ)
  notArrived : ∀ e, (w.emergencies e).rescuersNotArrivedYet =
    ((owed e anyType + w.enRoute cfg e anyType : ℕ) : ℤ)
  status : ∀ e, (w.emergencies e).StatusJustified

/-- Linked, with what is owed as `rescuers_missing` says. -/
abbrev WellLinked (cfg : Config) (n : EmergencyId) (w : World) : Prop :=
  Linked cfg n w w.missing

namespace Linked

variable {cfg : Config} {n : EmergencyId} {w : World}
  {owed : EmergencyId → (RescuerType → Bool) → ℕ}

/-- A twin occurs in a slot of the emergency it serves, and in no other slot. -/
theorem slot_iff (h : Linked cfg n w owed) (t : TwinId) (e : EmergencyId) :
    (∃ i : ℕ, (w.emergencies e).rescuerTwins[i]? = some (some t)) ↔
      (w.twins t).serves e = true := by
  rw [← List.mem_iff_getElem?, ← List.reduceOption_mem_iff, (h.slots e).mem_iff,
    List.mem_filter]
  exact ⟨fun ht => ht.2, fun ht => ⟨(h.serving t e ht).1, ht⟩⟩

theorem slots_nodup (h : Linked cfg n w owed) (e : EmergencyId) :
    (w.emergencies e).rescuerTwins.reduceOption.Nodup :=
  (h.slots e).nodup_iff.mpr (cfg.twins_nodup.filter _)

theorem length_slots (h : Linked cfg n w owed) (e : EmergencyId) :
    (w.emergencies e).rescuerTwins.reduceOption.length =
      w.enRoute cfg e anyType + w.onScene cfg e anyType := by
  rw [(h.slots e).length_eq, ← List.countP_eq_length_filter]
  unfold World.enRoute World.onScene World.tally
  induction cfg.twinIds with
  | nil => rfl
  | cons t ts ih =>
      have hexcl : (w.twins t).serves e =
          ((w.twins t).isEnRouteTo e || (w.twins t).isOnSceneOf e) :=
        RescuerDigitalTwin.serves_eq _ _
      have hnot : ¬((w.twins t).isEnRouteTo e = true ∧ (w.twins t).isOnSceneOf e = true) := by
        rintro ⟨h₁, h₂⟩
        rw [RescuerDigitalTwin.isEnRouteTo_iff] at h₁
        rw [RescuerDigitalTwin.isOnSceneOf_iff, h₁.1] at h₂
        simp at h₂
      simp only [List.countP_cons, ih, hexcl, anyType, Bool.and_true]
      cases hr : (w.twins t).isEnRouteTo e <;> cases hs : (w.twins t).isOnSceneOf e <;>
        simp [hr, hs] at hnot ⊢ <;> omega

/-- The empty slots are the units owed and those that have finished. -/
theorem countP_isNone (h : Linked cfg n w owed) (e : EmergencyId) :
    (w.emergencies e).rescuerTwins.countP Option.isNone =
      owed e anyType + w.finishedStays e anyType := by
  have hlen := Tally.length_reduceOption_add_countP (w.emergencies e).rescuerTwins
  have hcount := h.rescuerCount e
  have hbalance := h.balance e anyType
  rw [h.length_slots e, h.slots_length e] at hlen
  omega

/-- When nobody has still to finish, every required unit has finished. -/
theorem finishedStays_of_notDone (h : Linked cfg n w w.missing) {e : EmergencyId}
    (hdone : (w.emergencies e).rescuersNotDoneYet = 0) (ρ : RescuerType → Bool) :
    w.finishedStays e ρ = requested ρ (w.emergencies e).type.rescuers := by
  have hnotDone := h.notDone e
  have hbalance := h.balance e ρ
  have hmissing : w.missing e ρ ≤ w.missing e anyType := requested_le_anyType ρ _
  have henRoute := w.enRoute_le_anyType cfg e ρ
  have honScene := w.onScene_le_anyType cfg e ρ
  omega

theorem serves_of_emergency (h : Linked cfg n w owed) {t : TwinId} {e : EmergencyId}
    (ht : (w.twins t).emergency = some e) : (w.twins t).serves e = true := by
  rcases h.atRest t with hrest | ⟨e', he'⟩
  · simp [hrest.1] at ht
  · have := (RescuerDigitalTwin.serves_iff.mp he').1
    rw [ht] at this
    rwa [Option.some_injective _ this]

theorem isAtRest_of_returning (h : Linked cfg n w owed) {t : TwinId}
    (ht : (w.twins t).status = .returningToBase) : (w.twins t).isAtRest := by
  rcases h.atRest t with hrest | ⟨e, he⟩
  · exact hrest
  · simp [ht, RescuerDigitalTwin.serves_iff] at he

/-- A twin that is neither idle nor on its way home serves an emergency. -/
theorem exists_serves (h : Linked cfg n w owed) {t : TwinId}
    (hidle : (w.twins t).status ≠ .idle) (hreturning : (w.twins t).status ≠ .returningToBase) :
    ∃ e, (w.twins t).serves e = true := by
  rcases h.atRest t with hrest | hserves
  · rcases hrest.2 with h' | h'
    · exact absurd h' hidle
    · exact absurd h' hreturning
  · exact hserves

end Linked

end EmergencyDispatch
