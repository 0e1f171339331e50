import Mathlib.Data.List.Perm.Basic
import Mathlib.Data.List.Nodup

/-!
# Exclusive custody

Tokens are held at places, and a place holds a list of them.  Custody is
exclusive when no token is held twice, neither at one place nor at two.  A
program that only moves tokens from place to place, drops them, or brings in
tokens nobody holds keeps custody exclusive.
-/

namespace Custody

variable {Place Token : Type*}

/-- No token is held twice. -/
structure Exclusive (held : Place → List Token) : Prop where
  nodup : ∀ p, (held p).Nodup
  unique : ∀ {p q a}, a ∈ held p → a ∈ held q → p = q

variable {held held' : Place → List Token}

namespace Exclusive

/-- Every place holds at most what it held. -/
theorem of_subperm (h : Exclusive held) (hsub : ∀ p, (held' p).Subperm (held p)) :
    Exclusive held' where
  nodup p := by
    obtain ⟨l, hperm, hsublist⟩ := hsub p
    exact hperm.nodup_iff.mp (hsublist.nodup (h.nodup p))
  unique ha ha' := h.unique ((hsub _).subset ha) ((hsub _).subset ha')

theorem create (h : Exclusive held) {p : Place} {a : Token} (hnew : ∀ q, a ∉ held q)
    (hp : (held' p).Perm (a :: held p)) (hother : ∀ q, q ≠ p → (held' q).Perm (held q)) :
    Exclusive held' := by
  have hsub : ∀ q b, b ∈ held' q → b ∈ held q ∨ (b = a ∧ q = p) := by
    intro q b hb
    by_cases hq : q = p
    · subst hq
      rcases List.mem_cons.mp (hp.mem_iff.mp hb) with rfl | hb
      · exact .inr ⟨rfl, rfl⟩
      · exact .inl hb
    · exact .inl ((hother q hq).mem_iff.mp hb)
  refine ⟨fun q => ?_, fun {q r b} hq hr => ?_⟩
  · by_cases hq : q = p
    · subst hq
      exact hp.nodup_iff.mpr (List.nodup_cons.mpr ⟨hnew q, h.nodup q⟩)
    · exact (hother q hq).nodup_iff.mpr (h.nodup q)
  · rcases hsub q b hq with hq | ⟨rfl, rfl⟩ <;> rcases hsub r _ hr with hr | ⟨hb, hrp⟩
    · exact h.unique hq hr
    · exact absurd (hb ▸ hq) (hnew q)
    · exact absurd hr (hnew r)
    · exact hrp.symm

/-- A token passes from one place to another. -/
theorem move [DecidableEq Place] (h : Exclusive held) {p q : Place} {a : Token} (hpq : p ≠ q)
    (hp : (held p).Perm (a :: held' p)) (hq : (held' q).Perm (a :: held q))
    (hother : ∀ r, r ≠ p → r ≠ q → (held' r).Perm (held r)) : Exclusive held' := by
  -- drop it at `p` first, keeping `q` as it was
  let mid : Place → List Token := fun r => if r = q then held q else held' r
  have hmid : Exclusive mid := by
    refine h.of_subperm fun r => ?_
    by_cases hrq : r = q
    · subst hrq
      simpa [mid] using List.Subperm.refl (held r)
    · by_cases hrp : r = p
      · subst hrp
        simpa [mid, hrq] using (List.sublist_cons_self a _).subperm.trans hp.symm.subperm
      · simpa [mid, hrq] using (hother r hrp hrq).subperm
  have hnew : ∀ r, a ∉ mid r := by
    intro r hr
    have ha : a ∈ held p := hp.mem_iff.mpr (by simp)
    by_cases hrq : r = q
    · subst hrq
      exact hpq (h.unique ha (by simpa [mid] using hr))
    · have hr' : a ∈ held' r := by simpa [mid, hrq] using hr
      by_cases hrp : r = p
      · subst hrp
        exact (List.nodup_cons.mp (hp.nodup_iff.mp (h.nodup r))).1 hr'
      · exact hrp (h.unique ((hother r hrp hrq).mem_iff.mp hr') ha)
  refine hmid.create hnew (p := q) (by simpa [mid] using hq) fun r hr => ?_
  simp [mid, hr]

end Exclusive

end Custody
