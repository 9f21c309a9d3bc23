import Mathlib.Data.List.Induction

/-! How much of a list has come by, in order, in a longer one that holds other things too. A
reader who takes the next entry as soon as it comes gets as far as anyone could. -/

namespace InOrder

variable {α : Type*}

theorem concat_sublist_concat_iff {l m : List α} {a b : α} :
    (l ++ [a]).Sublist (m ++ [b]) ↔ (l ++ [a]).Sublist m ∨ l.Sublist m ∧ a = b := by
  constructor
  · intro h
    obtain ⟨l₁, l₂, hl, h₁, h₂⟩ := List.sublist_append_iff.mp h
    cases l₂ with
    | nil =>
      rw [List.append_nil] at hl
      exact .inl (hl ▸ h₁)
    | cons c l₂ =>
      rw [h₂.eq_of_length_le (Nat.succ_le_succ (Nat.zero_le _))] at hl
      obtain ⟨rfl, hab⟩ := List.append_inj' hl rfl
      exact .inr ⟨h₁, List.singleton_inj.mp hab⟩
  · rintro (h | ⟨h, rfl⟩)
    · exact h.trans (List.sublist_append_left m [b])
    · exact h.append_right [a]

variable [DecidableEq α]

/-- How many entries of `l` a reader of `m` has taken who waits for one after the other. -/
def progress (l m : List α) : Nat :=
  m.foldl (fun k b => if l[k]? = some b then k + 1 else k) 0

@[simp] theorem progress_nil (l : List α) : progress l [] = 0 := rfl

theorem progress_concat (l m : List α) (b : α) :
    progress l (m ++ [b]) =
      if l[progress l m]? = some b then progress l m + 1 else progress l m := by
  rw [progress, List.foldl_append]
  rfl

theorem progress_le (l m : List α) : progress l m ≤ l.length := by
  induction m using List.reverseRecOn with
  | nil => exact Nat.zero_le _
  | append_singleton m b ih =>
    rw [progress_concat]
    split
    · next h => exact (List.getElem?_eq_some_iff.mp h).1
    · exact ih

theorem take_sublist_iff {l m : List α} {j : Nat} (hj : j ≤ l.length) :
    (l.take j).Sublist m ↔ j ≤ progress l m := by
  induction m using List.reverseRecOn generalizing j with
  | nil =>
    rw [List.sublist_nil, List.take_eq_nil_iff, progress_nil, Nat.le_zero]
    constructor
    · rintro (rfl | rfl)
      · rfl
      · exact Nat.le_zero.mp hj
    · exact .inl
  | append_singleton m b ih =>
    cases j with
    | zero => simp
    | succ j =>
      have hlast : l.take (j + 1) = l.take j ++ [l[j]] := List.take_succ_eq_append_getElem hj
      rw [hlast, concat_sublist_concat_iff, ← hlast, ih hj, ih (Nat.le_of_succ_le hj),
        progress_concat]
      -- the new entry counts only where the reader waits for it
      split
      · next h =>
        obtain ⟨hlt, hb⟩ := List.getElem?_eq_some_iff.mp h
        constructor
        · rintro (hle | ⟨hle, -⟩) <;> omega
        · intro hle
          rcases Nat.lt_or_eq_of_le (Nat.le_of_succ_le_succ hle) with hlt' | rfl
          · exact .inl hlt'
          · exact .inr ⟨Nat.le_refl _, hb⟩
      · next h =>
        constructor
        · rintro (hle | ⟨hle, hb⟩)
          · exact hle
          · rcases Nat.lt_or_eq_of_le hle with hlt | rfl
            · exact hlt
            · exact absurd (List.getElem?_eq_some_iff.mpr ⟨hj, hb⟩) h
        · exact .inl

theorem sublist_iff {l m : List α} : l.Sublist m ↔ progress l m = l.length := by
  have h := take_sublist_iff (m := m) (Nat.le_refl l.length)
  rw [List.take_length] at h
  exact h.trans ⟨fun hle => Nat.le_antisymm (progress_le l m) hle, fun heq => Nat.le_of_eq heq.symm⟩

end InOrder
