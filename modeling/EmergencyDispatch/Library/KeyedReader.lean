import EmergencyDispatch.Library.FirstOccurrences

/-!
# Reading a list with limits

A reader goes through a list of items, keeps the first of each key and gives up
at the first item it does not accept: one beyond the limit on the items or on
what may have been kept before, one that does not fit, one that is malformed, or
one with a new key that does not answer to what is asked of a new one.
`accepts_iff` says for which lists it comes to the end, without following it.
-/

namespace KeyedReader

open FirstOccurrences

variable {α κ : Type*} [DecidableEq κ]

/-- What a reader asks of the items. -/
structure Reader (α κ : Type*) where
  /-- The limit on the number of items. -/
  maxItems : ℕ
  /-- The limit on what was kept when an item is read. -/
  maxKept : ℕ
  fits : α → Bool
  /-- Other items are skipped. -/
  relevant : α → Bool
  good : α → Bool
  key : α → κ
  goodNew : α → Bool

/-- The reader comes to the end of the items, after `number` others and with these keys. -/
def Reader.accepts (R : Reader α κ) : ℕ → List κ → List α → Bool
  | _, _, [] => true
  | number, seen, a :: items =>
      decide (number + 1 ≤ R.maxItems) && decide (seen.length ≤ R.maxKept) && R.fits a &&
        if R.relevant a then
          R.good a &&
            if R.key a ∈ seen then R.accepts (number + 1) seen items
            else R.goodNew a && R.accepts (number + 1) (seen ++ [R.key a]) items
        else R.accepts (number + 1) seen items

/-- The first items of each key among the relevant ones. -/
def Reader.news (R : Reader α κ) (seen : List κ) (items : List α) : List α :=
  firsts R.key R.key seen (items.filter R.relevant)

variable {R : Reader α κ} {number : ℕ} {seen : List κ} {a : α} {items : List α}

theorem news_cons_irrelevant (h : R.relevant a = false) :
    R.news seen (a :: items) = R.news seen items := by
  rw [Reader.news, List.filter_cons_of_neg (by simp [h])]
  rfl

theorem news_cons_of_mem (h : R.relevant a = true) (hmem : R.key a ∈ seen) :
    R.news seen (a :: items) = R.news seen items := by
  rw [Reader.news, List.filter_cons_of_pos h, firsts_cons_of_mem hmem]
  rfl

theorem news_cons_of_notMem (h : R.relevant a = true) (hnew : R.key a ∉ seen) :
    R.news seen (a :: items) = a :: R.news (seen ++ [R.key a]) items := by
  rw [Reader.news, List.filter_cons_of_pos h, firsts_cons_of_notMem hnew]
  rfl

/-- What the reader asks of all the items. -/
structure Accepted (R : Reader α κ) (number : ℕ) (seen : List κ) (items : List α) : Prop where
  count : items ≠ [] → number + items.length ≤ R.maxItems
  fits : ∀ a ∈ items, R.fits a = true
  kept : items ≠ [] → seen.length + (R.news seen items.dropLast).length ≤ R.maxKept
  good : ∀ a ∈ items, R.relevant a = true → R.good a = true
  goodNew : ∀ a ∈ R.news seen items, R.goodNew a = true

theorem accepted_nil : Accepted R number seen [] where
  count := absurd rfl
  fits := nofun
  kept := absurd rfl
  good := nofun
  goodNew := nofun

/-- One item more in front, which makes `new` of itself and of its key. -/
theorem accepted_cons_iff (new : List α) (seen' : List κ)
    (hnews : ∀ items', R.news seen (a :: items') = new ++ R.news seen' items')
    (hlength : seen'.length = seen.length + new.length) :
    Accepted R number seen (a :: items) ↔
      (number + 1 ≤ R.maxItems ∧ seen.length ≤ R.maxKept ∧ R.fits a = true) ∧
        (R.relevant a = true → R.good a = true) ∧ (∀ b ∈ new, R.goodNew b = true) ∧
        Accepted R (number + 1) seen' items := by
  -- the limits are those of the last item, unless there is only this one
  have hlast : items ≠ [] →
      (R.news seen (a :: items).dropLast).length =
        new.length + (R.news seen' items.dropLast).length := by
    intro hne
    rw [List.dropLast_cons_of_ne_nil hne, hnews, List.length_append]
  constructor
  · rintro ⟨hcount, hfits, hkept, hgood, hgoodNew⟩
    have hcount := hcount (List.cons_ne_nil a items)
    have hkept := hkept (List.cons_ne_nil a items)
    rw [List.length_cons] at hcount
    rw [hnews] at hgoodNew
    refine ⟨⟨by omega, by omega, hfits a List.mem_cons_self⟩, hgood a List.mem_cons_self,
      fun b hb => hgoodNew b (List.mem_append_left _ hb), ?_, ?_, ?_, ?_, ?_⟩
    · intro _
      omega
    · exact fun b hb => hfits b (List.mem_cons_of_mem a hb)
    · intro hne
      rw [hlast hne] at hkept
      omega
    · exact fun b hb => hgood b (List.mem_cons_of_mem a hb)
    · exact fun b hb => hgoodNew b (List.mem_append_right _ hb)
  · rintro ⟨⟨hnumber, hseen, hfit⟩, hgood, hgoodNew, hcount, hfits, hkept, hgoods, hgoodNews⟩
    refine ⟨fun _ => ?_, ?_, fun _ => ?_, ?_, ?_⟩
    · rw [List.length_cons]
      by_cases hne : items = []
      · simpa [hne] using hnumber
      · have := hcount hne
        omega
    · exact List.forall_mem_cons.mpr ⟨hfit, hfits⟩
    · by_cases hne : items = []
      · simpa [hne, Reader.news, firsts] using hseen
      · have := hkept hne
        rw [hlast hne]
        omega
    · exact List.forall_mem_cons.mpr ⟨hgood, hgoods⟩
    · rw [hnews]
      exact List.forall_mem_append.mpr ⟨hgoodNew, hgoodNews⟩

/-- **The reader comes to the end** exactly of the lists that have all of this. -/
theorem accepts_iff : R.accepts number seen items = true ↔ Accepted R number seen items := by
  induction items generalizing number seen with
  | nil => exact iff_of_true rfl accepted_nil
  | cons a items ih =>
      rw [Reader.accepts]
      simp only [Bool.and_eq_true, decide_eq_true_eq, and_assoc]
      cases hrelevant : R.relevant a with
      | false =>
          rw [accepted_cons_iff [] seen (fun items' => news_cons_irrelevant hrelevant) rfl]
          simp [hrelevant, ih, and_assoc]
      | true =>
          by_cases hmem : R.key a ∈ seen
          · rw [accepted_cons_iff [] seen (fun items' => news_cons_of_mem hrelevant hmem) rfl]
            simp [hrelevant, hmem, ih, and_assoc]
          · rw [accepted_cons_iff [a] (seen ++ [R.key a])
              (fun items' => news_cons_of_notMem hrelevant hmem) (by simp)]
            simp [hrelevant, hmem, ih, and_assoc]

end KeyedReader
