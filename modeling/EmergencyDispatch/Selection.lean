import EmergencyDispatch.LinkOperations

/-!
# The selection of the candidates

The selection of `find_rescuers_logging_blocking` is greedy: it takes the best
twin again and again, marking each one it takes.  Whatever "best" means, the
candidates are different twins, all of them eligible, as many of each type as
are missing; and the selection fails only when there are not enough eligible
twins of some type.  The marks are gone when it is over.
-/

namespace EmergencyDispatch

variable {cfg : Config} {n : EmergencyId} {w : World} {e : EmergencyId} {t : TwinId}
  {table : List PriorityRule} {owed : EmergencyId → (RescuerType → Bool) → ℕ}

/-! ## Marks -/

/-- The world with marks on the twins that satisfy `p`. -/
def World.mark (w : World) (p : TwinId → Bool) : World :=
  { w with twins := fun t => { w.twins t with isACandidate := p t } }

/-- The world in the selection loops. -/
def World.markAll (w : World) (candidates : List TwinId) : World :=
  w.mark fun t => candidates.contains t

theorem setCandidate_mark (value : Bool) (p : TwinId → Bool) (t : TwinId) :
    setCandidate value (w.mark p) t = w.mark (Function.update p t value) := by
  simp only [setCandidate, World.setTwin, World.mark, World.mk.injEq, and_true]
  funext u
  by_cases hu : u = t
  · subst hu; simp
  · simp [hu]

theorem setCandidate_markAll (candidates : List TwinId) (t : TwinId) :
    setCandidate true (w.markAll candidates) t = w.markAll (candidates ++ [t]) := by
  rw [World.markAll, setCandidate_mark, World.markAll]
  congr 1
  funext u
  by_cases hu : u = t
  · subst hu; simp
  · simp [hu]

theorem mark_false (h : ∀ t, (w.twins t).isACandidate = false) :
    (w.mark fun _ => false) = w := by
  cases w with
  | mk twins emergencies active finished signals =>
      simp only [World.mark, World.mk.injEq, and_true]
      funext t
      simp only [← h t]

theorem Linked.markAll_nil (h : Linked cfg n w owed) : w.markAll [] = w := by
  simpa [World.markAll] using mark_false h.notCandidate

theorem foldl_setCandidate_false (marked : List TwinId) (p : TwinId → Bool) :
    marked.foldl (setCandidate false) (w.mark p) =
      w.mark fun t => p t && !marked.contains t := by
  induction marked generalizing p with
  | nil => simp
  | cons t marked ih =>
      rw [List.foldl_cons, setCandidate_mark, ih]
      congr 1
      funext u
      by_cases hu : u = t
      · subst hu; simp
      · simp [hu]

theorem unmark_markAll (h : ∀ t, (w.twins t).isACandidate = false) (candidates : List TwinId) :
    candidates.foldl (setCandidate false) (w.markAll candidates) = w := by
  rw [World.markAll, foldl_setCandidate_false]
  simpa using mark_false h

/-! ## The best twin -/

/-- The twin may be chosen for `e`, among those of type `r`. -/
def Eligible (table : List PriorityRule) (w : World) (e : EmergencyId) (r : RescuerType)
    (candidates : List TwinId) (t : TwinId) : Prop :=
  t ∈ r.twins ∧ t ∉ candidates ∧ eligible table w e (w.twins t) = true

variable {r : RescuerType} {candidates : List TwinId} {best : Option TwinId}

/-- The tests on a twin do not look at the marks. -/
theorem eligible_markAll (t : TwinId) :
    eligible table (w.markAll candidates) e ((w.markAll candidates).twins t) =
      eligible table w e (w.twins t) := rfl

/-- One pass of the loop keeps the best twin so far or takes the new one. -/
theorem betterTwin_some {u : TwinId} (ht : t ∈ r.twins)
    (hbest : ∀ v, best = some v → Eligible table w e r candidates v)
    (h : betterTwin table (w.markAll candidates) e best t = some u) :
    Eligible table w e r candidates u := by
  unfold betterTwin at h
  rw [eligible_markAll] at h
  split at h
  · exact hbest u h
  · rename_i hcandidate
    split at h
    · exact hbest u h
    · rename_i heligible
      have hnew : Eligible table w e r candidates t :=
        ⟨ht, by simpa [World.markAll, World.mark] using hcandidate, by simpa using heligible⟩
      split at h
      · exact Option.some_injective _ h ▸ hnew
      · split at h
        · exact Option.some_injective _ h ▸ hnew
        · exact hbest u h

/-- No twin after a pass: there was none, and the new one cannot be taken. -/
theorem betterTwin_none (h : betterTwin table (w.markAll candidates) e best t = none) :
    best = none ∧ (eligible table w e (w.twins t) = true → t ∈ candidates) := by
  unfold betterTwin at h
  rw [eligible_markAll] at h
  split at h
  · rename_i hcandidate
    exact ⟨h, fun _ => by simpa [World.markAll, World.mark] using hcandidate⟩
  · split at h
    · rename_i heligible
      exact ⟨h, fun h' => absurd h' (by simpa using heligible)⟩
    · split at h
      · simp at h
      · split at h <;> simp at h

theorem foldl_betterTwin (twins : List TwinId) (htwins : ∀ t ∈ twins, t ∈ r.twins)
    (hbest : ∀ v, best = some v → Eligible table w e r candidates v) :
    (∀ u, twins.foldl (betterTwin table (w.markAll candidates) e) best = some u →
        Eligible table w e r candidates u) ∧
      (twins.foldl (betterTwin table (w.markAll candidates) e) best = none → best = none ∧
        ∀ t ∈ twins, eligible table w e (w.twins t) = true → t ∈ candidates) := by
  induction twins generalizing best with
  | nil => exact ⟨hbest, fun h => ⟨h, by simp⟩⟩
  | cons t twins ih =>
      have hbetter : ∀ v, betterTwin table (w.markAll candidates) e best t = some v →
          Eligible table w e r candidates v :=
        fun v hv => betterTwin_some (htwins t (by simp)) hbest hv
      obtain ⟨hsome, hnone⟩ := ih (fun u hu => htwins u (by simp [hu])) hbetter
      refine ⟨hsome, fun h => ?_⟩
      obtain ⟨hfirst, hrest⟩ := hnone h
      obtain ⟨hbest', ht⟩ := betterTwin_none hfirst
      refine ⟨hbest', fun u hu => ?_⟩
      rcases List.mem_cons.mp hu with rfl | hu
      · exact ht
      · exact hrest u hu

/-- `find_best_twin_blocked` answers with an eligible twin that is not yet a
candidate. -/
theorem findBestTwinBlocked_some
    (h : findBestTwinBlocked table (w.markAll candidates) e r = some t) :
    Eligible table w e r candidates t :=
  (foldl_betterTwin r.twins (fun _ ht => ht) (by simp)).1 t h

/-- `find_best_twin_blocked` fails only when every eligible twin is a candidate. -/
theorem findBestTwinBlocked_none
    (h : findBestTwinBlocked table (w.markAll candidates) e r = none) :
    ∀ t ∈ r.twins, eligible table w e (w.twins t) = true → t ∈ candidates :=
  ((foldl_betterTwin r.twins (fun _ ht => ht) (by simp)).2 h).2

/-! ## The selection loops -/

/-- The candidates are different eligible twins, each of a type that is missing. -/
structure Chosen (table : List PriorityRule) (w : World) (e : EmergencyId)
    (candidates : List TwinId) : Prop where
  nodup : candidates.Nodup
  eligible : ∀ t ∈ candidates, eligible table w e (w.twins t) = true
  missing : ∀ t ∈ candidates, ∃ request ∈ (w.emergencies e).rescuersMissing,
    t ∈ request.type.twins

theorem Chosen.nil : Chosen table w e [] := ⟨List.nodup_nil, by simp, by simp⟩

theorem Chosen.append (h : Chosen table w e candidates) {request : RescuerRequest}
    (hrequest : request ∈ (w.emergencies e).rescuersMissing)
    (ht : Eligible table w e request.type candidates t) :
    Chosen table w e (candidates ++ [t]) where
  nodup := by
    rw [List.nodup_append_comm]
    exact List.nodup_cons.mpr ⟨ht.2.1, h.nodup⟩
  eligible u hu := by
    rcases List.mem_append.mp hu with hu | hu
    · exact h.eligible u hu
    · exact List.mem_singleton.mp hu ▸ ht.2.2
  missing u hu := by
    rcases List.mem_append.mp hu with hu | hu
    · exact h.missing u hu
    · exact ⟨request, hrequest, List.mem_singleton.mp hu ▸ ht.1⟩

theorem Chosen.mem_of_type (h : Chosen table w e candidates) (hlinked : Linked cfg n w owed)
    (ht : t ∈ candidates) (htype : onlyType r (w.twins t).rescuer = true) : t ∈ r.twins := by
  obtain ⟨request, hrequest, hmem⟩ := h.missing t ht
  have howner := hlinked.owner _ (hlinked.missing_mem e request hrequest) t hmem
  have hsame : request.type = r := by simpa [onlyType, howner] using htype
  exact hsame ▸ hmem

/-- How many candidates are of a type in `ρ`. -/
def countTypes (w : World) (ρ : RescuerType → Bool) (candidates : List TwinId) : ℕ :=
  candidates.countP fun t => ρ (w.twins t).rescuer

@[simp] theorem countTypes_cons (w : World) (ρ : RescuerType → Bool) (t : TwinId)
    (candidates : List TwinId) : countTypes w ρ (t :: candidates) =
      countTypes w ρ candidates + (ρ (w.twins t).rescuer).toNat := by
  cases hρ : ρ (w.twins t).rescuer <;> simp [countTypes, hρ]

theorem countTypes_append (w : World) (ρ : RescuerType → Bool) (first second : List TwinId) :
    countTypes w ρ (first ++ second) = countTypes w ρ first + countTypes w ρ second :=
  List.countP_append

theorem Config.nodup_of_mem {r : RescuerType} (hr : r ∈ cfg.rescuers) : r.twins.Nodup :=
  (List.nodup_flatMap.mp cfg.twins_nodup).1 r hr

/-- The eligible twins of a type. -/
def eligibleTwins (table : List PriorityRule) (w : World) (e : EmergencyId) (r : RescuerType) :
    List TwinId :=
  r.twins.filter fun t => eligible table w e (w.twins t)

theorem selectUnits_spec (table : List PriorityRule) (h : Linked cfg n w owed)
    {request : RescuerRequest}
    (hrequest : request ∈ (w.emergencies e).rescuersMissing) (count : ℕ)
    (hchosen : Chosen table w e candidates) {s : Selection}
    (hs : selectUnits table e request.type count (w.markAll candidates) candidates = s) :
    s.world = w.markAll s.candidates ∧ Chosen table w e s.candidates ∧
      (s.found = true → ∀ ρ, countTypes w ρ s.candidates =
        countTypes w ρ candidates + if ρ request.type then count else 0) ∧
      (s.found = false → (eligibleTwins table w e request.type).length <
        countTypes w (onlyType request.type) candidates + count) := by
  have howner := h.owner request.type (h.missing_mem e request hrequest)
  induction count generalizing candidates with
  | zero =>
      subst hs
      exact ⟨rfl, hchosen, by simp [selectUnits], by simp [selectUnits]⟩
  | succ count ih =>
      unfold selectUnits at hs
      split at hs
      -- no twin is found: every eligible one is a candidate already
      · rename_i hnone
        subst hs
        refine ⟨rfl, hchosen, by simp, fun _ => ?_⟩
        have hsubset : eligibleTwins table w e request.type ⊆
            candidates.filter fun t => onlyType request.type (w.twins t).rescuer := by
          intro t ht
          obtain ⟨hmem, heligible⟩ := List.mem_filter.mp ht
          refine List.mem_filter.mpr ⟨findBestTwinBlocked_none hnone t hmem heligible, ?_⟩
          simp [onlyType, howner t hmem]
        have hnodup : (eligibleTwins table w e request.type).Nodup :=
          (Config.nodup_of_mem (h.missing_mem e request hrequest)).filter _
        have hle := (List.subperm_of_subset hnodup hsubset).length_le
        rw [← List.countP_eq_length_filter] at hle
        have : countTypes w (onlyType request.type) candidates =
          candidates.countP fun t => onlyType request.type (w.twins t).rescuer := rfl
        omega
      -- the twin that is found is marked, and the loop goes on
      · rename_i t hsome
        have ht := findBestTwinBlocked_some hsome
        rw [setCandidate_markAll] at hs
        obtain ⟨hworld, hchosen', hfound, hfail⟩ := ih (hchosen.append hrequest ht) hs
        have hcount : ∀ ρ, countTypes w ρ (candidates ++ [t]) =
            countTypes w ρ candidates + (ρ request.type).toNat := by
          intro ρ
          rw [countTypes_append, countTypes_cons, howner t ht.1]
          simp [countTypes]
        refine ⟨hworld, hchosen', fun hf ρ => ?_, fun hf => ?_⟩
        · rw [hfound hf ρ, hcount]
          cases ρ request.type <;> simp
          omega
        · have := hfail hf
          rw [hcount] at this
          simp only [onlyType, decide_true, Bool.toNat_true] at this ⊢
          omega

theorem selectRequests_spec (table : List PriorityRule) (h : Linked cfg n w owed)
    (requests : List RescuerRequest)
    (hrequests : ∀ request ∈ requests, request ∈ (w.emergencies e).rescuersMissing)
    (hchosen : Chosen table w e candidates) {s : Selection}
    (hs : selectRequests table e requests (w.markAll candidates) candidates = s) :
    s.world = w.markAll s.candidates ∧ Chosen table w e s.candidates ∧
      (s.found = true → ∀ ρ,
        countTypes w ρ s.candidates = countTypes w ρ candidates + requested ρ requests) ∧
      (s.found = false → ∃ request ∈ requests, (eligibleTwins table w e request.type).length <
        countTypes w (onlyType request.type) candidates +
          requested (onlyType request.type) requests) := by
  induction requests generalizing candidates with
  | nil =>
      subst hs
      exact ⟨rfl, hchosen, by simp [selectRequests], by simp [selectRequests]⟩
  | cons request requests ih =>
      obtain ⟨hworld, hchosen', hfound, hfail⟩ := selectUnits_spec table h
        (hrequests request (by simp)) request.requiredCount hchosen rfl
      unfold selectRequests at hs
      dsimp only at hs
      split at hs
      -- the units of this request were found, and the other requests come next
      · rename_i hunits
        rw [hworld] at hs
        obtain ⟨hworld', hchosen'', hfound', hfail'⟩ :=
          ih (fun request' hrequest' => hrequests request' (by simp [hrequest'])) hchosen' hs
        refine ⟨hworld', hchosen'', fun hf ρ => ?_, fun hf => ?_⟩
        · rw [hfound' hf ρ, hfound hunits ρ, requested_cons]
          omega
        · obtain ⟨request', hrequest', hlt⟩ := hfail' hf
          refine ⟨request', by simp [hrequest'], ?_⟩
          rw [hfound hunits] at hlt
          rw [requested_cons]
          omega
      · rename_i hunits
        subst hs
        refine ⟨hworld, hchosen', fun hf => absurd hf hunits, fun _ => ?_⟩
        refine ⟨request, by simp, ?_⟩
        have := hfail (by simpa using hunits)
        rw [requested_cons]
        simp only [onlyType, decide_true, if_true] at this ⊢
        omega

/-- There are as many eligible twins of each type as units of it are missing. -/
def EnoughRescuers (table : List PriorityRule) (w : World) (e : EmergencyId) : Prop :=
  ∀ request ∈ (w.emergencies e).rescuersMissing,
    w.missing e (onlyType request.type) ≤ (eligibleTwins table w e request.type).length

instance (table : List PriorityRule) (w : World) (e : EmergencyId) :
    Decidable (EnoughRescuers table w e) :=
  inferInstanceAs (Decidable (∀ request ∈ (w.emergencies e).rescuersMissing,
    w.missing e (onlyType request.type) ≤ (eligibleTwins table w e request.type).length))

/-- The selection leaves the world as it was, chooses eligible twins, and when
it succeeds it has chosen as many of each type as are missing. -/
theorem selectCandidates_spec (h : Linked cfg n w owed) (table : List PriorityRule)
    (e : EmergencyId) :
    (selectCandidates table w e).world = w ∧
      Chosen table w e (selectCandidates table w e).candidates ∧
      ((selectCandidates table w e).found = true → ∀ ρ,
        countTypes w ρ (selectCandidates table w e).candidates = w.missing e ρ) := by
  obtain ⟨hworld, hchosen, hfound, -⟩ := selectRequests_spec table h
    (w.emergencies e).rescuersMissing (fun _ hrequest => hrequest) Chosen.nil rfl
  rw [h.markAll_nil] at hworld hchosen hfound
  refine ⟨?_, hchosen, fun hf ρ => ?_⟩
  · show (selectRequests table e (w.emergencies e).rescuersMissing w []).candidates.foldl
      (setCandidate false) _ = w
    rw [hworld]
    exact unmark_markAll h.notCandidate _
  · have := hfound hf ρ
    simpa [countTypes, selectCandidates, World.missing] using this

/-- The selection succeeds exactly when there are enough eligible twins. -/
theorem selectCandidates_found_iff (h : Linked cfg n w owed) (table : List PriorityRule)
    (e : EmergencyId) :
    (selectCandidates table w e).found = true ↔ EnoughRescuers table w e := by
  obtain ⟨-, hchosen, hfound, hfail⟩ := selectRequests_spec table h
    (w.emergencies e).rescuersMissing (fun _ hrequest => hrequest) Chosen.nil rfl
  rw [h.markAll_nil] at hchosen hfound hfail
  constructor
  · intro hf request hrequest
    have hcount := hfound hf (onlyType request.type)
    rw [countTypes, List.countP_eq_length_filter] at hcount
    have hsubset : ((selectCandidates table w e).candidates.filter fun t =>
        onlyType request.type (w.twins t).rescuer) ⊆ eligibleTwins table w e request.type := by
      intro t ht
      obtain ⟨hmem, htype⟩ := List.mem_filter.mp ht
      exact List.mem_filter.mpr ⟨hchosen.mem_of_type h hmem htype, hchosen.eligible t hmem⟩
    have hle := (List.subperm_of_subset (hchosen.nodup.filter _) hsubset).length_le
    have hmissing : w.missing e (onlyType request.type) =
        requested (onlyType request.type) (w.emergencies e).rescuersMissing := rfl
    simp only [countTypes, List.countP_nil, Nat.zero_add] at hcount
    rw [hmissing, ← hcount]
    exact hle
  · intro henough
    by_contra hf
    obtain ⟨request, hrequest, hlt⟩ := hfail (by simpa [selectCandidates] using hf)
    have := henough request hrequest
    simp only [countTypes, List.countP_nil, Nat.zero_add] at hlt
    exact absurd this (by simpa [World.missing] using hlt)

end EmergencyDispatch
