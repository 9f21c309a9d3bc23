import CyThing.Lib.Trace
import Mathlib.Data.List.Nodup
import Mathlib.Logic.Function.Basic

/-! Counters that start over with every key. Each place holds a key and a counter; a new key
puts the counter at zero, and every move of a counter is logged with the key it was under. As
long as no key is installed twice, the numbers logged under one key go strictly up. -/

namespace KeyedCounter
open Trace

structure Meters (ι κ : Type*) where
  cell : ι → Option (κ × Nat) := fun _ => none
  log : List (κ × Nat) := []

inductive Op (ι κ : Type*)
  | rekey (i : ι) (k : κ)
  /-- The counter moves up by `d + 1`. -/
  | advance (i : ι) (d : Nat)

variable {ι κ : Type*}

def Op.key? : Op ι κ → Option κ
  | .rekey _ k => some k
  | .advance _ _ => none

def keys (ops : List (Op ι κ)) : List κ := ops.filterMap Op.key?

theorem keys_append (ops ops' : List (Op ι κ)) : keys (ops ++ ops') = keys ops ++ keys ops' :=
  List.filterMap_append

theorem keys_concat (ops : List (Op ι κ)) (o : Op ι κ) :
    keys (ops ++ [o]) = keys ops ++ o.key?.toList := by
  rw [keys_append]
  cases o <;> rfl

section Machine

variable [DecidableEq ι]

def Meters.apply (m : Meters ι κ) : Op ι κ → Meters ι κ
  | .rekey i k => { m with cell := Function.update m.cell i (some (k, 0)) }
  | .advance i d =>
    match m.cell i with
    | some (k, c) =>
      ⟨Function.update m.cell i (some (k, c + d + 1)), m.log ++ [(k, c + d + 1)]⟩
    | none => m

theorem Meters.apply_advance {m : Meters ι κ} {i : ι} {k : κ} {c : Nat} (d : Nat)
    (h : m.cell i = some (k, c)) :
    m.apply (.advance i d) =
      ⟨Function.update m.cell i (some (k, c + d + 1)), m.log ++ [(k, c + d + 1)]⟩ := by
  simp only [Meters.apply, h]

theorem Meters.apply_advance_none {m : Meters ι κ} {i : ι} (d : Nat) (h : m.cell i = none) :
    m.apply (.advance i d) = m := by
  simp only [Meters.apply, h]

theorem update_some {f : ι → Option (κ × Nat)} {i j : ι} {k k' : κ} {c c' : Nat}
    (h : Function.update f i (some (k, c)) j = some (k', c')) :
    j = i ∧ k' = k ∧ c' = c ∨ j ≠ i ∧ f j = some (k', c') := by
  by_cases hj : j = i
  · subst hj
    rw [Function.update_self] at h
    cases h
    exact .inl ⟨rfl, rfl, rfl⟩
  · rw [Function.update_of_ne hj] at h
    exact .inr ⟨hj, h⟩

end Machine

/-! ## The numbers under one key -/

section Logged

variable [DecidableEq κ] {k k' : κ} {n : Nat} {log : List (κ × Nat)}

def logged (k : κ) (log : List (κ × Nat)) : List Nat :=
  (log.filter fun x => x.1 = k).map Prod.snd

theorem mem_logged : n ∈ logged k log ↔ (k, n) ∈ log := by
  constructor
  · intro h
    obtain ⟨⟨k', n'⟩, hx, rfl⟩ := List.mem_map.mp h
    obtain ⟨hmem, hk⟩ := List.mem_filter.mp hx
    rwa [← of_decide_eq_true hk]
  · exact fun h => List.mem_map.mpr ⟨(k, n), List.mem_filter.mpr ⟨h, by simp⟩, rfl⟩

theorem logged_concat_self (k : κ) (log : List (κ × Nat)) (n : Nat) :
    logged k (log ++ [(k, n)]) = logged k log ++ [n] := by
  simp [logged]

theorem logged_concat_of_ne (log : List (κ × Nat)) (n : Nat) (h : k' ≠ k) :
    logged k (log ++ [(k', n)]) = logged k log := by
  simp [logged, h]

theorem nodup_of_logged (h : ∀ k, (logged k log).Nodup) : log.Nodup := by
  induction log with
  | nil => exact List.nodup_nil
  | cons x log ih =>
    obtain ⟨k, n⟩ := x
    have hself : logged k ((k, n) :: log) = n :: logged k log := by simp [logged]
    have hk := h k
    rw [hself, List.nodup_cons, mem_logged] at hk
    refine List.nodup_cons.mpr ⟨hk.1, ih fun k' => (h k').sublist ?_⟩
    exact ((List.sublist_cons_self _ _).filter _).map _

end Logged

/-! ## The invariant -/

section Sound

variable [DecidableEq ι] [DecidableEq κ]

structure Sound (m : Meters ι κ) (used : List κ) : Prop where
  cell : ∀ i k c, m.cell i = some (k, c) → k ∈ used
  apart : ∀ i j k c d, m.cell i = some (k, c) → m.cell j = some (k, d) → i = j
  log : ∀ k n, (k, n) ∈ m.log → k ∈ used
  below : ∀ i k c, m.cell i = some (k, c) → ∀ n, (k, n) ∈ m.log → n ≤ c
  increasing : ∀ k, (logged k m.log).Pairwise (· < ·)

variable {m : Meters ι κ} {used : List κ}

theorem Sound.rekey {k : κ} (h : Sound m used) (i : ι) (hk : k ∉ used) :
    Sound (m.apply (.rekey i k)) (used ++ [k]) := by
  refine ⟨fun j k' c hc => ?_, fun j l k' c d hj hl => ?_, fun k' n hn => ?_,
    fun j k' c hc n hn => ?_, h.increasing⟩
  · rcases update_some hc with ⟨-, rfl, -⟩ | ⟨-, hc⟩
    · exact List.mem_append_right _ (List.mem_singleton_self k')
    · exact List.mem_append_left _ (h.cell j k' c hc)
  · rcases update_some hj with ⟨rfl, rfl, -⟩ | ⟨-, hjm⟩ <;>
      rcases update_some hl with ⟨rfl, hk', -⟩ | ⟨-, hlm⟩
    · rfl
    · exact absurd (h.cell l k' d hlm) hk
    · exact absurd (h.cell j k' c hjm) (hk' ▸ hk)
    · exact h.apart j l k' c d hjm hlm
  · exact List.mem_append_left _ (h.log k' n hn)
  · rcases update_some hc with ⟨-, rfl, -⟩ | ⟨-, hc⟩
    · exact absurd (h.log k' n hn) hk
    · exact h.below j k' c hc n hn

theorem Sound.advance (h : Sound m used) (i : ι) (d : Nat) :
    Sound (m.apply (.advance i d)) used := by
  cases hi : m.cell i with
  | none =>
    rw [Meters.apply_advance_none d hi]
    exact h
  | some kc =>
    obtain ⟨k, c⟩ := kc
    rw [Meters.apply_advance d hi]
    have hlog (k' : κ) (n : Nat) (hn : (k', n) ∈ m.log ++ [(k, c + d + 1)]) :
        (k', n) ∈ m.log ∨ k' = k ∧ n = c + d + 1 := by
      rcases List.mem_append.mp hn with hn | hn
      · exact .inl hn
      · exact .inr (Prod.mk.inj (List.mem_singleton.mp hn))
    refine ⟨fun j k' c' hc => ?_, fun j l k' c' d' hj hl => ?_, fun k' n hn => ?_,
      fun j k' c' hc n hn => ?_, fun k' => ?_⟩
    · rcases update_some hc with ⟨-, rfl, -⟩ | ⟨-, hc⟩
      · exact h.cell i k' c hi
      · exact h.cell j k' c' hc
    · rcases update_some hj with ⟨rfl, rfl, -⟩ | ⟨-, hjm⟩ <;>
        rcases update_some hl with ⟨rfl, hk, -⟩ | ⟨-, hlm⟩
      · rfl
      · exact h.apart j l k' c d' hi hlm
      · exact h.apart j l k' c' c hjm (hk ▸ hi)
      · exact h.apart j l k' c' d' hjm hlm
    · rcases hlog k' n hn with hn | ⟨rfl, -⟩
      · exact h.log k' n hn
      · exact h.cell i k' c hi
    · rcases update_some hc with ⟨rfl, rfl, rfl⟩ | ⟨hji, hc⟩ <;>
        rcases hlog k' n hn with hn | ⟨hk, hn⟩
      · have := h.below j k' c hi n hn
        omega
      · exact Nat.le_of_eq hn
      · exact h.below j k' c' hc n hn
      · -- the key of another cell has got no new entry
        exact absurd (h.apart j i k' c' c hc (hk ▸ hi)) hji
    · by_cases hk : k = k'
      · subst hk
        rw [logged_concat_self]
        refine List.pairwise_append.mpr ⟨h.increasing k, List.pairwise_singleton _ _, ?_⟩
        intro a ha b hb
        have hac := h.below i k c hi a (mem_logged.mp ha)
        rw [List.mem_singleton.mp hb]
        omega
      · rw [logged_concat_of_ne _ _ hk]
        exact h.increasing k'

omit [DecidableEq ι] in
theorem Sound.log_nodup (h : Sound m used) : m.log.Nodup :=
  nodup_of_logged fun k => (h.increasing k).imp fun hab => Nat.ne_of_lt hab

theorem sound_run (ops : List (Op ι κ)) (h : (keys ops).Nodup) :
    Sound (run Meters.apply {} ops) (keys ops) := by
  induction ops using List.reverseRecOn with
  | nil =>
    exact ⟨fun _ _ _ hc => (by cases hc), fun _ _ _ _ _ hc => (by cases hc),
      fun _ _ hn => (by cases hn), fun _ _ _ hc => (by cases hc), fun _ => List.Pairwise.nil⟩
  | append_singleton ops o ih =>
    rw [keys_concat] at h ⊢
    rw [run_append]
    have ih := ih (List.Nodup.of_append_left h)
    cases o with
    | advance i d => simpa [Op.key?] using ih.advance i d
    | rekey i k =>
      have hk : k ∉ keys ops := fun hmem =>
        List.disjoint_of_nodup_append h hmem (List.mem_singleton_self k)
      exact ih.rekey i hk

/-! ## Steps of one -/

structure Steady (m : Meters ι κ) : Prop where
  cell : ∀ i k c, m.cell i = some (k, c) → (logged k m.log).length = c
  bound : ∀ k n, (k, n) ∈ m.log → n ≤ (logged k m.log).length

theorem Steady.rekey {k : κ} (hs : Steady m) (h : Sound m used) (i : ι) (hk : k ∉ used) :
    Steady (m.apply (.rekey i k)) := by
  refine ⟨fun j k' c hc => ?_, hs.bound⟩
  rcases update_some hc with ⟨-, rfl, rfl⟩ | ⟨-, hc⟩
  · rw [List.length_eq_zero_iff, List.eq_nil_iff_forall_not_mem]
    exact fun n hn => hk (h.log k' n (mem_logged.mp hn))
  · exact hs.cell j k' c hc

theorem Steady.next (hs : Steady m) (h : Sound m used) (i : ι) :
    Steady (m.apply (.advance i 0)) := by
  cases hi : m.cell i with
  | none =>
    rw [Meters.apply_advance_none 0 hi]
    exact hs
  | some kc =>
    obtain ⟨k, c⟩ := kc
    have hlen := hs.cell i k c hi
    rw [Meters.apply_advance 0 hi]
    refine ⟨fun j k' c' hc => ?_, fun k' n hn => ?_⟩
    · rcases update_some hc with ⟨-, rfl, rfl⟩ | ⟨hj, hc⟩
      · simp [logged_concat_self, hlen]
      · have hk : k ≠ k' := by
          rintro rfl
          exact hj (h.apart j i k c' c hc hi)
        rw [logged_concat_of_ne _ _ hk]
        exact hs.cell j k' c' hc
    · rcases List.mem_append.mp hn with hn | hn
      · refine Nat.le_trans (hs.bound k' n hn) (List.Sublist.length_le ?_)
        exact ((List.sublist_append_left _ _).filter _).map _
      · obtain ⟨rfl, rfl⟩ := Prod.mk.inj (List.mem_singleton.mp hn)
        simp [logged_concat_self, hlen]

theorem steady_run (ops : List (Op ι κ)) (h : (keys ops).Nodup)
    (hone : ∀ i d, Op.advance i d ∈ ops → d = 0) : Steady (run Meters.apply {} ops) := by
  induction ops using List.reverseRecOn with
  | nil => exact ⟨fun _ _ _ hc => (by cases hc), fun _ _ hn => (by cases hn)⟩
  | append_singleton ops o ih =>
    rw [keys_concat] at h
    have hops := List.Nodup.of_append_left h
    have ih := ih hops fun i d hmem => hone i d (List.mem_append_left _ hmem)
    have hsound := sound_run ops hops
    rw [run_append]
    cases o with
    | advance i d =>
      obtain rfl := hone i d (List.mem_append_right _ (List.mem_singleton_self _))
      exact ih.next hsound i
    | rekey i k =>
      have hk : k ∉ keys ops := fun hmem =>
        List.disjoint_of_nodup_append h hmem (List.mem_singleton_self k)
      exact ih.rekey hsound i hk

end Sound

end KeyedCounter
