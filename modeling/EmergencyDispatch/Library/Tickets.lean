import EmergencyDispatch.Library.Custody

/-!
# Tickets drawn from a counter

A counter hands out the tickets `0`, `1`, `2` and so on.  A ticket is held at a
place, and passes from place to place or is lost.  However the drawing and the
passing on interleave, no ticket is held twice; and as long as none is lost,
every ticket drawn is held somewhere.
-/

namespace Tickets

open Custody

variable {Place : Type*}

/-- Every ticket held has been drawn, and none is held twice. -/
structure Drawn (held : Place → List ℕ) (drawn : ℕ) : Prop where
  exclusive : Exclusive held
  lt : ∀ p, ∀ n ∈ held p, n < drawn

/-- No ticket has been lost. -/
def Kept (held : Place → List ℕ) (drawn : ℕ) : Prop :=
  ∀ n < drawn, ∃ p, n ∈ held p

variable {held held' : Place → List ℕ} {drawn : ℕ} {p q : Place} {n : ℕ}

/-- What a step does to the tickets. -/
inductive Passes (held : Place → List ℕ) (drawn : ℕ) (held' : Place → List ℕ) : ℕ → Prop
  /-- Nothing happens to them. -/
  | same (hheld : ∀ p, (held' p).Perm (held p)) : Passes held drawn held' drawn
  /-- The next ticket is drawn and held at a place. -/
  | draw (p : Place) (hp : (held' p).Perm (drawn :: held p))
      (hother : ∀ q, q ≠ p → (held' q).Perm (held q)) : Passes held drawn held' (drawn + 1)
  /-- A ticket passes from one place to another. -/
  | move (p q : Place) (n : ℕ) (hpq : p ≠ q) (hp : (held p).Perm (n :: held' p))
      (hq : (held' q).Perm (n :: held q))
      (hother : ∀ r, r ≠ p → r ≠ q → (held' r).Perm (held r)) : Passes held drawn held' drawn

theorem Drawn.passes {drawn' : ℕ} (h : Drawn held drawn) (hpass : Passes held drawn held' drawn') :
    Drawn held' drawn' := by
  cases hpass with
  | same hheld =>
      exact ⟨h.exclusive.of_subperm fun p => (hheld p).subperm,
        fun p n hn => h.lt p n ((hheld p).mem_iff.mp hn)⟩
  | draw p hp hother =>
      have hnew : ∀ q, drawn ∉ held q := fun q hq => Nat.lt_irrefl _ (h.lt q drawn hq)
      refine ⟨h.exclusive.create hnew hp hother, fun q n hn => ?_⟩
      by_cases hq : q = p
      · subst hq
        rcases List.mem_cons.mp (hp.mem_iff.mp hn) with rfl | hn
        · exact Nat.lt_succ_self _
        · exact Nat.lt_succ_of_lt (h.lt q n hn)
      · exact Nat.lt_succ_of_lt (h.lt q n ((hother q hq).mem_iff.mp hn))
  | move p q n hpq hp hq hother =>
      classical
      refine ⟨h.exclusive.move hpq hp hq hother, fun r k hk => ?_⟩
      by_cases hrq : r = q
      · subst hrq
        rcases List.mem_cons.mp (hq.mem_iff.mp hk) with rfl | hk
        · exact h.lt p k (hp.mem_iff.mpr List.mem_cons_self)
        · exact h.lt r k hk
      · by_cases hrp : r = p
        · subst hrp
          exact h.lt r k (hp.mem_iff.mpr (List.mem_cons_of_mem n hk))
        · exact h.lt r k ((hother r hrp hrq).mem_iff.mp hk)

theorem Kept.passes {drawn' : ℕ} (h : Kept held drawn) (hpass : Passes held drawn held' drawn') :
    Kept held' drawn' := by
  cases hpass with
  | same hheld =>
      intro n hn
      obtain ⟨p, hp⟩ := h n hn
      exact ⟨p, (hheld p).mem_iff.mpr hp⟩
  | draw p hp hother =>
      intro n hn
      rcases Nat.lt_succ_iff_lt_or_eq.mp hn with hlt | rfl
      · obtain ⟨q, hq⟩ := h n hlt
        by_cases hqp : q = p
        · subst hqp
          exact ⟨q, hp.mem_iff.mpr (List.mem_cons_of_mem drawn hq)⟩
        · exact ⟨q, (hother q hqp).mem_iff.mpr hq⟩
      · exact ⟨p, hp.mem_iff.mpr List.mem_cons_self⟩
  | move p q n hpq hp hq hother =>
      intro k hk
      obtain ⟨r, hr⟩ := h k hk
      by_cases hrq : r = q
      · subst hrq
        exact ⟨r, hq.mem_iff.mpr (List.mem_cons_of_mem n hr)⟩
      · by_cases hrp : r = p
        · subst hrp
          -- the ticket that left is where it went, and the others have stayed
          rcases List.mem_cons.mp (hp.mem_iff.mp hr) with rfl | hr
          · exact ⟨q, hq.mem_iff.mpr List.mem_cons_self⟩
          · exact ⟨r, hr⟩
        · exact ⟨r, (hother r hrp hrq).mem_iff.mpr hr⟩

/-- A ticket may be drawn and lost at once. -/
theorem Drawn.lose (h : Drawn held drawn) (hheld : ∀ p, (held' p).Perm (held p)) :
    Drawn held' (drawn + 1) :=
  ⟨h.exclusive.of_subperm fun p => (hheld p).subperm,
    fun p n hn => Nat.lt_succ_of_lt (h.lt p n ((hheld p).mem_iff.mp hn))⟩

theorem Drawn.initial (hnone : ∀ p, held p = []) : Drawn held drawn where
  exclusive := ⟨fun p => by rw [hnone]; exact List.nodup_nil, fun ha _ => by
    rw [hnone] at ha
    exact absurd ha List.not_mem_nil⟩
  lt p n hn := by
    rw [hnone] at hn
    exact absurd hn List.not_mem_nil

end Tickets
