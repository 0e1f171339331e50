import Mathlib.Data.List.Nodup

/-!
# Keeping the first of each key

A reader goes through a list and keeps an item when a lookup does not find it
among those it kept.  The key that is looked up (`probe`) need not be the key
that is kept (`store`): a name may be looked up as it was written and kept in
its normal form.  Where the two disagree an item can be kept twice, and
`nodup_iff` says exactly when that happens.
-/

namespace FirstOccurrences

variable {α κ : Type*} [DecidableEq κ]

/-- The items that are kept when the keys `seen` are there already. -/
def firsts (probe store : α → κ) : List κ → List α → List α
  | _, [] => []
  | seen, a :: items =>
      if probe a ∈ seen then firsts probe store seen items
      else a :: firsts probe store (seen ++ [store a]) items

variable {probe store : α → κ} {seen : List κ} {a : α} {items : List α}

theorem firsts_cons_of_mem (h : probe a ∈ seen) :
    firsts probe store seen (a :: items) = firsts probe store seen items := by
  rw [firsts, if_pos h]

theorem firsts_cons_of_notMem (h : probe a ∉ seen) :
    firsts probe store seen (a :: items) =
      a :: firsts probe store (seen ++ [store a]) items := by
  rw [firsts, if_neg h]

theorem mem_of_mem_firsts (h : a ∈ firsts probe store seen items) : a ∈ items := by
  induction items generalizing seen with
  | nil => exact h
  | cons b items ih =>
      rw [firsts] at h
      split at h
      · exact List.mem_cons_of_mem b (ih h)
      · rcases List.mem_cons.mp h with rfl | h
        · exact List.mem_cons_self
        · exact List.mem_cons_of_mem b (ih h)

/-- A repeated item, as the keys it is kept under tell, is looked up under that key. -/
def RepeatsProbed (probe store : α → κ) (seen : List κ) (items : List α) : Prop :=
  (∀ a ∈ items, store a ∈ seen → probe a = store a) ∧
    items.Pairwise fun a b => store a = store b → probe b = store b

/-- **The keys that are kept are different** exactly when every repeated item is looked up
under the key it would be kept under, provided that a lookup finds an item only under
that key. -/
theorem nodup_iff (hfinds : ∀ k ∈ seen, ∀ a ∈ items, probe a = k → store a = k)
    (hitems : ∀ a ∈ items, ∀ b ∈ items, probe b = store a → store b = store a) :
    (((firsts probe store seen items).map store).Nodup ∧
        ∀ a ∈ firsts probe store seen items, store a ∉ seen) ↔
      RepeatsProbed probe store seen items := by
  unfold RepeatsProbed
  induction items generalizing seen with
  | nil => simp [firsts]
  | cons a items ih =>
      have hitems' := fun b hb c hc =>
        hitems b (List.mem_cons_of_mem a hb) c (List.mem_cons_of_mem a hc)
      by_cases h : probe a ∈ seen
      · have hstore : store a = probe a := hfinds _ h a List.mem_cons_self rfl
        rw [firsts_cons_of_mem h,
          ih (fun k hk b hb => hfinds k hk b (List.mem_cons_of_mem a hb)) hitems']
        simp only [List.mem_cons, forall_eq_or_imp, List.pairwise_cons]
        constructor
        · rintro ⟨hseen, hpair⟩
          refine ⟨⟨fun _ => hstore.symm, hseen⟩, fun b hb hab => hseen b hb ?_, hpair⟩
          rw [← hab, hstore]
          exact h
        · rintro ⟨⟨-, hseen⟩, -, hpair⟩
          exact ⟨hseen, hpair⟩
      · have hfinds' : ∀ k ∈ seen ++ [store a], ∀ b ∈ items, probe b = k → store b = k := by
          intro k hk b hb
          rcases List.mem_append.mp hk with hk | hk
          · exact hfinds k hk b (List.mem_cons_of_mem a hb)
          · rw [List.mem_singleton.mp hk]
            exact hitems a List.mem_cons_self b (List.mem_cons_of_mem a hb)
        have ih := ih hfinds' hitems'
        simp only [List.mem_append, List.mem_singleton, not_or] at ih
        rw [firsts_cons_of_notMem h]
        simp only [List.map_cons, List.nodup_cons, List.mem_map, List.mem_cons,
          forall_eq_or_imp, List.pairwise_cons]
        constructor
        · rintro ⟨⟨hfirst, hnodup⟩, hnew, hseen⟩
          obtain ⟨hprobe, hpair⟩ := ih.mp ⟨hnodup, fun b hb =>
            ⟨hseen b hb, fun hab => hfirst ⟨b, hb, hab⟩⟩⟩
          exact ⟨⟨fun hmem => absurd hmem hnew, fun b hb hmem => hprobe b hb (.inl hmem)⟩,
            fun b hb hab => hprobe b hb (.inr hab.symm), hpair⟩
        · rintro ⟨⟨hfirst, hseen⟩, hrepeat, hpair⟩
          obtain ⟨hnodup, hnew⟩ := ih.mpr ⟨fun b hb hmem => hmem.elim (hseen b hb)
            fun hab => hrepeat b hb hab.symm, hpair⟩
          -- the first item is kept, so no later one is kept under its key
          refine ⟨⟨?_, hnodup⟩, fun hmem => ?_, fun b hb => (hnew b hb).1⟩
          · rintro ⟨b, hb, hab⟩
            exact (hnew b hb).2 hab
          · exact h (hfirst hmem ▸ hmem)

/-- When repeated items are looked up as they are kept, it makes no difference which of
the two keys is looked up. -/
theorem firsts_eq_of_repeatsProbed
    (hfinds : ∀ k ∈ seen, ∀ a ∈ items, probe a = k → store a = k)
    (hitems : ∀ a ∈ items, ∀ b ∈ items, probe b = store a → store b = store a)
    (h : RepeatsProbed probe store seen items) :
    firsts probe store seen items = firsts store store seen items := by
  induction items generalizing seen with
  | nil => rfl
  | cons a items ih =>
      have hitems' := fun b hb c hc =>
        hitems b (List.mem_cons_of_mem a hb) c (List.mem_cons_of_mem a hc)
      obtain ⟨hseen, hpair⟩ := h
      obtain ⟨hrepeat, hpair⟩ := List.pairwise_cons.mp hpair
      -- an item is probed as seen exactly when it was stored before
      by_cases hmem : store a ∈ seen
      · have hprobe : probe a ∈ seen := by
          rw [hseen a List.mem_cons_self hmem]
          exact hmem
        rw [firsts_cons_of_mem hprobe, firsts_cons_of_mem hmem]
        exact ih (fun k hk b hb => hfinds k hk b (List.mem_cons_of_mem a hb)) hitems'
          ⟨fun b hb => hseen b (List.mem_cons_of_mem a hb), hpair⟩
      · have hprobe : probe a ∉ seen := fun hprobe =>
          hmem ((hfinds _ hprobe a List.mem_cons_self rfl).symm ▸ hprobe)
        rw [firsts_cons_of_notMem hprobe, firsts_cons_of_notMem hmem]
        congr 1
        refine ih (fun k hk b hb => ?_) hitems' ⟨fun b hb hb' => ?_, hpair⟩
        · rcases List.mem_append.mp hk with hk | hk
          · exact hfinds k hk b (List.mem_cons_of_mem a hb)
          · rw [List.mem_singleton.mp hk]
            exact hitems a List.mem_cons_self b (List.mem_cons_of_mem a hb)
        · rcases List.mem_append.mp hb' with hb' | hb'
          · exact hseen b (List.mem_cons_of_mem a hb) hb'
          · exact hrepeat b hb (List.mem_singleton.mp hb').symm

end FirstOccurrences
