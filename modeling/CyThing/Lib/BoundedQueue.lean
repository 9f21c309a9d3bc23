import Mathlib.Data.List.Flatten

/-! A queue of records of different lengths in a buffer of `cap` items: whole records leave at
its head until there is room for the next. -/

namespace BoundedQueue

variable {α : Type*} {cap need : Nat} {q gone kept : List (List α)}

def makeRoom (cap need : Nat) : List (List α) → List (List α)
  | [] => []
  | l :: q =>
    if cap < (l :: q).flatten.length + need then makeRoom cap need q else l :: q

structure MakesRoom (cap need : Nat) (q gone kept : List (List α)) : Prop where
  split : q = gone ++ kept
  fits : kept.flatten.length + need ≤ cap
  needed : ∀ k < gone.length, cap < (q.drop k).flatten.length + need

theorem MakesRoom.nil (h : q.flatten.length + need ≤ cap) : MakesRoom cap need q [] q :=
  ⟨rfl, h, fun _ hk => absurd hk (Nat.not_lt_zero _)⟩

theorem MakesRoom.cons {l : List α} (h : MakesRoom cap need q gone kept)
    (hfull : cap < (l :: q).flatten.length + need) :
    MakesRoom cap need (l :: q) (l :: gone) kept where
  split := by rw [h.split, List.cons_append]
  fits := h.fits
  needed k hk := by
    cases k with
    | zero => exact hfull
    | succ k => exact h.needed k (Nat.lt_of_succ_lt_succ hk)

theorem makeRoom_of_fits (h : q.flatten.length + need ≤ cap) : makeRoom cap need q = q := by
  cases q with
  | nil => rfl
  | cons l q => rw [makeRoom, if_neg (Nat.not_lt.mpr h)]

theorem makesRoom_makeRoom (hneed : need ≤ cap) (q : List (List α)) :
    ∃ gone, MakesRoom cap need q gone (makeRoom cap need q) := by
  induction q with
  | nil => exact ⟨[], MakesRoom.nil (by simpa using hneed)⟩
  | cons l q ih =>
    rw [makeRoom]
    split
    · next hfull =>
      obtain ⟨gone, h⟩ := ih
      exact ⟨l :: gone, h.cons hfull⟩
    · next hroom => exact ⟨[], MakesRoom.nil (Nat.not_lt.mp hroom)⟩

/-! ## A queue of `cap` items that drops its oldest -/

section Recent

variable {l r : List α} {a : α}

def offer (cap : Nat) (q : List α) (a : α) : List α :=
  (if cap ≤ q.length then q.drop 1 else q) ++ [a]

theorem length_offer (hcap : 0 < cap) (hr : r.length ≤ cap) (a : α) :
    (offer cap r a).length = min (r.length + 1) cap := by
  unfold offer
  split
  · rw [List.length_append, List.length_drop, List.length_singleton]
    omega
  · rw [List.length_append, List.length_singleton]
    omega

theorem offer_suffix (h : r <:+ l) (cap : Nat) (a : α) : offer cap r a <:+ l ++ [a] := by
  have hkept : (if cap ≤ r.length then r.drop 1 else r) <:+ l := by
    split
    · exact (List.drop_suffix 1 r).trans h
    · exact h
  obtain ⟨front, hfront⟩ := hkept
  exact ⟨front, by rw [offer, ← List.append_assoc, hfront]⟩

end Recent

end BoundedQueue
