import Mathlib.Data.List.FinRange
import Mathlib.Logic.Function.Basic

/-! A fixed table of slots, searched from the front. -/

namespace SlotTable

variable {α : Type*} {n : Nat}

/-- The first slot that meets `p`, as a `for` loop with an early exit finds it. -/
def findSlot (table : Fin n → α) (p : α → Bool) : Option (Fin n) :=
  (List.finRange n).find? fun i => p (table i)

theorem findSlot_eq_none {table : Fin n → α} {p : α → Bool} :
    findSlot table p = none ↔ ∀ i, p (table i) = false := by
  simp [findSlot, List.find?_eq_none]

theorem findSlot_spec {table : Fin n → α} {p : α → Bool} {i : Fin n}
    (h : findSlot table p = some i) : p (table i) = true := by
  simpa using List.find?_some h

theorem findSlot_of_unique {table : Fin n → α} {p : α → Bool} {i : Fin n}
    (hi : p (table i) = true) (hu : ∀ j, p (table j) = true → j = i) :
    findSlot table p = some i := by
  rcases h : findSlot table p with _ | j
  · rw [findSlot_eq_none] at h
    rw [h i] at hi
    cases hi
  · rw [hu j (findSlot_spec h)]

theorem findSlot_congr {t t' : Fin n → α} {p : α → Bool} (h : ∀ i, p (t i) = p (t' i)) :
    findSlot t p = findSlot t' p := by
  simp only [findSlot, h]

end SlotTable
