import Mathlib.Algebra.BigOperators.Group.Finset.Piecewise
import Mathlib.Algebra.Order.BigOperators.Group.Finset
import Mathlib.Data.Fintype.Basic
import Mathlib.Data.List.FinRange

/-! Seats handed out to peers under a cap. A seat may be shut down at once and given up much
later; a peer that is turned away at the cap may still come in at the price of its own seats,
also of those that were shut down before. So the live seats alone do not carry the bound: a
peer that holds nothing but shut seats may take a live one again. What does not grow is the
live seats together with one more for each such peer. -/

namespace Admission

structure Seat (π : Type*) where
  peer : π
  shut : Bool := false

abbrev Table (ι π : Type*) := ι → Option (Seat π)

variable {ι π : Type*} {t t' : Table ι π} {p q : π}

def Within (t' t : Table ι π) : Prop :=
  ∀ i s', t' i = some s' → ∃ s, t i = some s ∧ s.peer = s'.peer ∧ (s.shut = true → s'.shut = true)

def shutPeer [DecidableEq π] (p : π) (t : Table ι π) : Table ι π :=
  fun i => (t i).map fun s => if s.peer = p then { s with shut := true } else s

theorem shutPeer_within [DecidableEq π] (p : π) (t : Table ι π) : Within (shutPeer p t) t := by
  intro i s' hs'
  obtain ⟨s, hs, rfl⟩ := Option.map_eq_some_iff.mp hs'
  refine ⟨s, hs, ?_, ?_⟩
  · split <;> rfl
  · intro hshut
    split
    · rfl
    · exact hshut

/-! ## Counting seats -/

variable [Fintype ι]

def number (f : Seat π → Bool) (t : Table ι π) : Nat :=
  (Finset.univ.filter fun i => (t i).any f = true).card

theorem number_mono {f : Seat π → Bool} (h : Within t' t)
    (hf : ∀ s s' : Seat π, s.peer = s'.peer → (s.shut = true → s'.shut = true) →
      f s' = true → f s = true) :
    number f t' ≤ number f t := by
  apply Finset.card_le_card
  intro i hi
  simp only [Finset.mem_filter, Finset.mem_univ, true_and, Option.any_eq_true] at hi ⊢
  obtain ⟨s', hs', hfs'⟩ := hi
  obtain ⟨s, hs, hpeer, hshut⟩ := h i s' hs'
  exact ⟨s, hs, hf s s' hpeer hshut hfs'⟩

theorem number_sit [DecidableEq ι] {i : ι} {f : Seat π → Bool} (hi : t i = none) (s : Seat π) :
    number f (Function.update t i (some s)) = number f t + if f s = true then 1 else 0 := by
  have hout : i ∉ Finset.univ.filter fun j => (t j).any f = true := by simp [hi]
  have hrest : ∀ j, (Function.update t i (some s) j).any f = true ↔
      (j = i ∧ f s = true) ∨ (t j).any f = true := by
    intro j
    by_cases hj : j = i
    · rw [hj, Function.update_self, hi]
      simp
    · rw [Function.update_of_ne hj]
      simp [hj]
  simp only [number, hrest]
  split
  · next hf =>
    rw [← Finset.card_insert_of_notMem hout]
    congr 1
    ext j
    simp [hf]
  · next hf => simp [hf]

theorem number_eq_length {n : Nat} (f : Seat π → Bool) (t : Table (Fin n) π) :
    number f t = ((List.finRange n).filter fun i => (t i).any f).length := by
  simp [number, Finset.card_def, Fin.univ_def]

section Peers

variable [DecidableEq π]

def held (t : Table ι π) (p : π) : Nat := number (fun s => s.peer = p) t

def live (t : Table ι π) (p : π) : Nat := number (fun s => s.peer = p && !s.shut) t

theorem held_mono (h : Within t' t) (p : π) : held t' p ≤ held t p :=
  number_mono h fun s s' hpeer _ hs' => by rwa [hpeer]

theorem live_mono (h : Within t' t) (p : π) : live t' p ≤ live t p :=
  number_mono h fun s s' hpeer hshut hs' => by
    simp only [Bool.and_eq_true, decide_eq_true_eq, Bool.not_eq_true'] at hs' ⊢
    refine ⟨hpeer.trans hs'.1, ?_⟩
    rw [Bool.eq_false_iff]
    intro hs
    rw [hshut hs] at hs'
    cases hs'.2

/-- A peer counts with its live seats, and at least once if it holds any seat. -/
def load (t : Table ι π) (p : π) : Nat := max (live t p) (min 1 (held t p))

def loadWith (p : π) (t : Table ι π) (q : π) : Nat :=
  max (live t q + if q = p then 1 else 0) (min 1 (held t q))

theorem live_shutPeer (p : π) (t : Table ι π) : live (shutPeer p t) p = 0 := by
  rw [live, number, Finset.card_eq_zero, Finset.filter_eq_empty_iff]
  intro i _ hi
  obtain ⟨s', hs', hlive⟩ := (Option.any_eq_true ..).mp hi
  obtain ⟨s, -, rfl⟩ := Option.map_eq_some_iff.mp hs'
  by_cases hp : s.peer = p
  · simp [hp] at hlive
  · simp [hp] at hlive

theorem load_sit [DecidableEq ι] {i : ι} (hi : t i = none) (p q : π) :
    load (Function.update t i (some ⟨p, false⟩)) q = loadWith p t q := by
  simp only [load, loadWith, live, held, number_sit hi]
  by_cases hq : q = p
  · simp [hq]
  · simp [hq, Ne.symm hq]

theorem load_le_held (t : Table ι π) (p : π) : load t p ≤ held t p := by
  refine max_le ?_ (min_le_right _ _)
  apply Finset.card_le_card
  intro i hi
  simp only [Finset.mem_filter, Finset.mem_univ, true_and, Option.any_eq_true] at hi ⊢
  obtain ⟨s, hs, hlive⟩ := hi
  exact ⟨s, hs, (Bool.and_eq_true .. ▸ hlive).1⟩

section Weight

variable [Fintype π]

def weight (t : Table ι π) : Nat := ∑ p, load t p

def weightWith (p : π) (t : Table ι π) : Nat := ∑ q, loadWith p t q

theorem sum_number (f : Seat π → Bool) (t : Table ι π) :
    ∑ p, number (fun s => s.peer = p && f s) t = number f t := by
  simp only [number, Finset.card_filter]
  rw [Finset.sum_comm]
  refine Finset.sum_congr rfl fun i _ => ?_
  cases t i with
  | none => simp
  | some s =>
    cases hf : f s with
    | false => simp [hf]
    | true => simp [hf]

theorem weight_mono (h : Within t' t) : weight t' ≤ weight t :=
  Finset.sum_le_sum fun q _ => max_le_max (live_mono h q) (min_le_min le_rfl (held_mono h q))

theorem weightWith_mono (h : Within t' t) : weightWith p t' ≤ weightWith p t :=
  Finset.sum_le_sum fun q _ =>
    max_le_max (Nat.add_le_add_right (live_mono h q) _) (min_le_min le_rfl (held_mono h q))

theorem weight_le_weightWith (p : π) (t : Table ι π) : weight t ≤ weightWith p t :=
  Finset.sum_le_sum fun _ _ => max_le_max (Nat.le_add_right _ _) le_rfl

theorem number_live_le_weight (t : Table ι π) : number (fun s => !s.shut) t ≤ weight t := by
  rw [← sum_number]
  exact Finset.sum_le_sum fun _ _ => le_max_left _ _

theorem weightWith_le_number (p : π) (t : Table ι π) :
    weightWith p t ≤ number (fun _ => true) t + 1 := by
  calc weightWith p t ≤ ∑ q, (held t q + if q = p then 1 else 0) := by
        refine Finset.sum_le_sum fun q _ => max_le ?_ ?_
        · exact Nat.add_le_add_right ((le_max_left _ _).trans (load_le_held t q)) _
        · exact (min_le_right _ _).trans (Nat.le_add_right _ _)
    _ = number (fun _ => true) t + 1 := by
        rw [Finset.sum_add_distrib, ← sum_number (fun _ => true) t]
        simp [held]

theorem weightWith_shutPeer (h : 0 < held t p) : weightWith p (shutPeer p t) ≤ weight t := by
  refine Finset.sum_le_sum fun q _ => ?_
  by_cases hq : q = p
  · subst hq
    rw [loadWith, live_shutPeer, if_pos rfl]
    refine max_le ?_ ((min_le_left _ _).trans ?_)
    all_goals exact le_max_of_le_right (le_min le_rfl h)
  · rw [loadWith, if_neg hq]
    exact max_le_max (live_mono (shutPeer_within p t) q)
      (min_le_min le_rfl (held_mono (shutPeer_within p t) q))

theorem weight_sit [DecidableEq ι] {i : ι} (hi : t i = none) (p : π) :
    weight (Function.update t i (some ⟨p, false⟩)) = weightWith p t :=
  Finset.sum_congr rfl fun q _ => load_sit hi p q

end Weight

end Peers

end Admission
