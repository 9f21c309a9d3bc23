import CyThing.Security.DevicePasswordDefs
import Mathlib.Data.Finset.Card
import Mathlib.Data.Fintype.Card

/-! The table of failed guesses by address, against a tally that forgets nothing. -/

namespace CyThing
open CLib SlotTable

/-! ## The search for a slot -/

section Search

variable {t : IpTable} {p : UInt32} {i : Fin ipSlots}

theorem ipSearch_own {l : List (Fin ipSlots)} (hl : l.Pairwise (· < ·)) (hi : i ∈ l)
    (hp : (t i).ip = p) (hbefore : ∀ j ∈ l, j < i → (t j).ip ≠ p ∧ (t j).ip ≠ 0)
    (victim : Fin ipSlots) : ipSearch t p l victim = (true, i) := by
  induction l generalizing victim with
  | nil => cases hi
  | cons a rest ih =>
    rw [List.pairwise_cons] at hl
    rw [ipSearch]
    rcases List.mem_cons.mp hi with rfl | hmem
    · rw [if_pos hp]
    · obtain ⟨hne, hfull⟩ := hbefore a List.mem_cons_self (hl.1 i hmem)
      rw [if_neg hne, if_neg hfull]
      exact ih hl.2 hmem (fun j hj => hbefore j (List.mem_cons_of_mem _ hj)) _

theorem ipSearch_absent {l : List (Fin ipSlots)} (habs : ∀ j, (t j).ip ≠ p)
    (hempty : ∃ j ∈ l, (t j).ip = 0) (victim : Fin ipSlots) :
    ∃ j, ipSearch t p l victim = (false, j) ∧ (t j).ip = 0 := by
  induction l generalizing victim with
  | nil =>
    obtain ⟨j, hj, -⟩ := hempty
    cases hj
  | cons a rest ih =>
    rw [ipSearch, if_neg (habs a)]
    by_cases ha : (t a).ip = 0
    · rw [if_pos ha]
      exact ⟨a, rfl, ha⟩
    · rw [if_neg ha]
      obtain ⟨j, hj, hz⟩ := hempty
      rcases List.mem_cons.mp hj with rfl | hj
      · exact absurd hz ha
      · exact ih ⟨j, hj, hz⟩ _

theorem ipSearch_true {l : List (Fin ipSlots)} {v : Fin ipSlots}
    (h : ipSearch t p l v = (true, i)) : (t i).ip = p := by
  induction l generalizing v with
  | nil => cases h
  | cons j l ih =>
    simp only [ipSearch] at h
    split_ifs at h with hj
    · cases h
      exact hj
    · cases h
    · exact ih h
    · exact ih h

theorem ipSlot_spec (t : IpTable) (p : UInt32) :
    ((ipSlot t p).2 (ipSlot t p).1).ip = p ∧
      ((ipSlot t p).2 (ipSlot t p).1 = t (ipSlot t p).1 ∨
        ((ipSlot t p).2 (ipSlot t p).1).untilUs = 0) ∧
      ∀ k ≠ (ipSlot t p).1, (ipSlot t p).2 k = t k := by
  unfold ipSlot
  split
  · next i hs => exact ⟨ipSearch_true hs, Or.inl rfl, fun _ _ => rfl⟩
  · next v hs =>
    simp only [Function.update_self, or_true, true_and]
    exact fun k hk => Function.update_of_ne hk ..

end Search

/-! ## The table after a failure and after a success -/

def failedTable (now : Nat) (t : IpTable) (p : UInt32) : IpTable :=
  let (i, t) := ipSlot t p
  Function.update t i
    { t i with
      fails := bumpFails (t i).fails
      untilUs := lockAfterFailure devicePwIpMaxFails now (bumpFails (t i).fails) (t i).untilUs }

def clearedTable (t : IpTable) (p : UInt32) : IpTable :=
  match findSlot t fun s => s.ip == p with
  | some i => Function.update t i {}
  | none => t

theorem nvsStoreLockout_ip (fate : LockoutFate) (now : Nat) (d : DevicePassword) :
    (d.nvsStoreLockout fate now).ip = d.ip ∧ (d.nvsStoreLockout fate now).pair = d.pair := by
  unfold DevicePassword.nvsStoreLockout
  split_ifs <;> exact ⟨rfl, rfl⟩

theorem noteFailure_ip {d : DevicePassword} (hset : devicePasswordIsSet d = true)
    (fate : LockoutFate) (now : Nat) (p : UInt32) :
    (devicePasswordNoteFailure fate now d p).ip = failedTable now d.ip p := by
  simp only [devicePasswordNoteFailure, hset, Bool.not_true, Bool.false_eq_true, if_false]
  exact (nvsStoreLockout_ip _ _ _).1

def ipFails (t : IpTable) (p : UInt32) : Nat := ((ipSlot t p).2 (ipSlot t p).1).fails

theorem nvsStoreLockout_global (fate : LockoutFate) (now : Nat) (d : DevicePassword) :
    (d.nvsStoreLockout fate now).globalUntilUs = d.globalUntilUs := by
  unfold DevicePassword.nvsStoreLockout
  split_ifs <;> rfl

theorem noteFailure_global {d : DevicePassword} (hset : devicePasswordIsSet d = true)
    (fate : LockoutFate) (now : Nat) (p : UInt32) :
    (devicePasswordNoteFailure fate now d p).globalUntilUs =
      lockAfterFailure devicePwGlobalMaxFails now (bumpFails d.globalFails) d.globalUntilUs := by
  simp only [devicePasswordNoteFailure, hset, Bool.not_true, Bool.false_eq_true, if_false]
  exact nvsStoreLockout_global _ _ _

theorem noteSuccess_global (fate : LockoutFate) (now : Nat) (d : DevicePassword) (p : UInt32) :
    (devicePasswordNoteSuccess fate now d p).globalUntilUs = 0 := by
  simp only [devicePasswordNoteSuccess]
  split_ifs
  · exact nvsStoreLockout_global _ _ _
  · rfl

theorem noteFailure_pair (fate : LockoutFate) (now : Nat) (d : DevicePassword) (p : UInt32) :
    (devicePasswordNoteFailure fate now d p).pair = d.pair := by
  simp only [devicePasswordNoteFailure]
  split_ifs
  · rfl
  · exact (nvsStoreLockout_ip _ _ _).2

theorem noteSuccess_ip (fate : LockoutFate) (now : Nat) (d : DevicePassword) (p : UInt32) :
    (devicePasswordNoteSuccess fate now d p).ip = clearedTable d.ip p ∧
      (devicePasswordNoteSuccess fate now d p).pair = d.pair := by
  simp only [devicePasswordNoteSuccess]
  split_ifs
  · exact nvsStoreLockout_ip _ _ _
  · exact ⟨rfl, rfl⟩

/-! ## Lock lengths -/

theorem le_lockDoubling (n s : Nat) : s ≤ lockDoubling n s := by
  induction n generalizing s with
  | zero => exact le_rfl
  | succ n ih =>
    rw [lockDoubling]
    split_ifs
    · exact (Nat.le_mul_of_pos_right s (by decide)).trans (ih _)
    · exact le_rfl

theorem le_lockSeconds {fails threshold : Nat} (h : threshold ≤ fails) :
    devicePwLockBaseS ≤ lockSeconds fails threshold := by
  rw [lockSeconds, if_neg (Nat.not_lt.mpr h)]
  exact le_min (le_lockDoubling _ _) (by decide)

theorem lockSeconds_eq_zero {fails threshold : Nat} (h : fails < threshold) :
    lockSeconds fails threshold = 0 := if_pos h

theorem lockAfterFailure_of_le {threshold now fails untilUs : Nat} (h : threshold ≤ fails) :
    lockAfterFailure threshold now fails untilUs =
      now + lockSeconds fails threshold * 1000000 := by
  have hpos : 60 ≤ lockSeconds fails threshold := le_lockSeconds h
  have hne : lockSeconds fails threshold ≠ 0 := by omega
  exact if_pos hne

theorem lockAfterFailure_of_lt {threshold now fails untilUs : Nat} (h : fails < threshold) :
    lockAfterFailure threshold now fails untilUs = untilUs := by
  simp only [lockAfterFailure, lockSeconds_eq_zero h, ne_eq, not_true_eq_false, if_false]

theorem lock_eq_zero {now : Nat} {d : DevicePassword} {q : UInt32}
    (hglobal : remainingS d.globalUntilUs now = 0)
    (hslots : ∀ k, (d.ip k).ip = q → remainingS (d.ip k).untilUs now = 0) :
    devicePasswordLockRemainingS now d q = 0 := by
  simp only [devicePasswordLockRemainingS, hglobal, Nat.zero_max]
  split_ifs
  · rfl
  · split
    · next k hk => exact hslots k (by simpa using findSlot_spec hk)
    · rfl

theorem remainingS_zero (now : Nat) : remainingS 0 now = 0 := by
  unfold remainingS
  omega

theorem lock_noteFailure {now : Nat} {d : DevicePassword} {p q : UInt32}
    (hset : devicePasswordIsSet d = true) (fate : LockoutFate)
    (hglobal : remainingS d.globalUntilUs now = 0)
    (hslots : ∀ k, (d.ip k).ip = q → remainingS (d.ip k).untilUs now = 0)
    (hg : bumpFails d.globalFails < devicePwGlobalMaxFails)
    (hp : q = p → bumpFails (ipFails d.ip p) < devicePwIpMaxFails) :
    devicePasswordLockRemainingS now (devicePasswordNoteFailure fate now d p) q = 0 := by
  obtain ⟨hlabel, hfree, hothers⟩ := ipSlot_spec d.ip p
  refine lock_eq_zero ?_ fun k hk => ?_
  · rw [noteFailure_global hset, lockAfterFailure_of_lt hg]
    exact hglobal
  rw [noteFailure_ip hset] at hk ⊢
  by_cases hki : k = (ipSlot d.ip p).1
  · subst hki
    simp only [failedTable, Function.update_self] at hk ⊢
    have hqp : q = p := hk.symm.trans hlabel
    have hlt : bumpFails ((ipSlot d.ip p).2 (ipSlot d.ip p).1).fails < devicePwIpMaxFails :=
      hp hqp
    rw [lockAfterFailure_of_lt hlt]
    rcases hfree with hsame | hzero
    · rw [hsame] at hk ⊢
      exact hslots _ hk
    · rw [hzero]
      exact remainingS_zero now
  · simp only [failedTable, Function.update_of_ne hki, hothers k hki] at hk ⊢
    exact hslots k hk

theorem lock_noteSuccess {now : Nat} {d : DevicePassword} {p q : UInt32} (fate : LockoutFate)
    (hslots : ∀ k, (d.ip k).ip = q → remainingS (d.ip k).untilUs now = 0) :
    devicePasswordLockRemainingS now (devicePasswordNoteSuccess fate now d p) q = 0 := by
  refine lock_eq_zero ?_ fun k hk => ?_
  · rw [noteSuccess_global]
    exact remainingS_zero now
  rw [(noteSuccess_ip fate now d p).1] at hk ⊢
  rcases hf : findSlot d.ip fun s => s.ip == p with _ | i
  · simp only [clearedTable, hf] at hk ⊢
    exact hslots k hk
  · simp only [clearedTable, hf] at hk ⊢
    by_cases hki : k = i
    · subst hki
      rw [Function.update_self]
      exact remainingS_zero now
    · rw [Function.update_of_ne hki] at hk ⊢
      exact hslots k hk

theorem bumpFails_min (n : Nat) : bumpFails (min 255 n) = min 255 (n + 1) := by
  unfold bumpFails
  split_ifs <;> omega

/-! ## The tally -/

structure Tally where
  fails : UInt32 → Nat := fun _ => 0
  last : UInt32 → Nat := fun _ => 0

def Tally.failure (g : Tally) (now : Nat) (p : UInt32) : Tally :=
  { fails := Function.update g.fails p (g.fails p + 1), last := Function.update g.last p now }

def Tally.success (g : Tally) (p : UInt32) : Tally :=
  { g with fails := Function.update g.fails p 0 }

def OwnSlotFirst (t : IpTable) (p : UInt32) : Prop :=
  ∀ i, (t i).ip = p → ∀ j, j < i → (t j).ip ≠ 0

instance (t : IpTable) (p : UInt32) : Decidable (OwnSlotFirst t p) :=
  inferInstanceAs (Decidable (∀ i, (t i).ip = p → ∀ j, j < i → (t j).ip ≠ 0))

structure Accounts (S : Finset UInt32) (g : Tally) (t : IpTable) : Prop where
  zero : 0 ∉ S
  known : ∀ i, (t i).ip ≠ 0 → (t i).ip ∈ S
  unique : ∀ i j, (t i).ip ≠ 0 → (t i).ip = (t j).ip → i = j
  fails : ∀ i, (t i).ip ≠ 0 → (t i).fails = min 255 (g.fails (t i).ip)
  absent : ∀ p ∈ S, (∀ i, (t i).ip ≠ p) → g.fails p = 0
  locked : ∀ i, (t i).ip ≠ 0 → devicePwIpMaxFails ≤ (t i).fails →
    g.last (t i).ip + lockSeconds (t i).fails devicePwIpMaxFails * 1000000 ≤ (t i).untilUs

theorem Accounts.empty {S : Finset UInt32} (h0 : 0 ∉ S) : Accounts S {} (fun _ => {}) where
  zero := h0
  known := fun _ h => absurd rfl h
  unique := fun _ _ h => absurd rfl h
  fails := fun _ h => absurd rfl h
  absent := fun _ _ _ => rfl
  locked := fun _ h => absurd rfl h

namespace Accounts

variable {S : Finset UInt32} {g : Tally} {t : IpTable} {p : UInt32}

theorem ne_zero (h : Accounts S g t) (hp : p ∈ S) : p ≠ 0 := fun hz => h.zero (hz ▸ hp)

theorem exists_empty (h : Accounts S g t) (hcard : S.card ≤ ipSlots) (hp : p ∈ S)
    (habs : ∀ i, (t i).ip ≠ p) : ∃ i, (t i).ip = 0 := by
  -- the other addresses of `S` cannot fill the table
  by_contra hfull
  have hfull : ∀ i, (t i).ip ≠ 0 := fun i hi => hfull ⟨i, hi⟩
  have hsub : Finset.univ.image (fun i => (t i).ip) ⊆ S.erase p := by
    intro q hq
    obtain ⟨i, -, rfl⟩ := Finset.mem_image.mp hq
    exact Finset.mem_erase.mpr ⟨habs i, h.known i (hfull i)⟩
  have hinj : Function.Injective fun i => (t i).ip := fun i j hij => h.unique i j (hfull i) hij
  have himage := Finset.card_le_card hsub
  rw [Finset.card_image_of_injective _ hinj, Finset.card_univ, Fintype.card_fin,
    Finset.card_erase_of_mem hp] at himage
  have hpos := Finset.card_pos.mpr ⟨p, hp⟩
  omega

theorem failedTable_eq (h : Accounts S g t) (hcard : S.card ≤ ipSlots) (hp : p ∈ S)
    (hfirst : OwnSlotFirst t p) (now : Nat) :
    ∃ i u, failedTable now t p = Function.update t i
        ⟨p, min 255 (g.fails p + 1),
          lockAfterFailure devicePwIpMaxFails now (min 255 (g.fails p + 1)) u⟩ ∧
      ((t i).ip = p ∨ ((t i).ip = 0 ∧ ∀ j, (t j).ip ≠ p)) := by
  have h0 := h.ne_zero hp
  by_cases hown : ∃ i, (t i).ip = p
  · obtain ⟨i, hi⟩ := hown
    have hsearch : ipSearch t p (List.finRange ipSlots) 0 = (true, i) := by
      refine ipSearch_own (List.pairwise_lt_finRange _) (List.mem_finRange i) hi
        (fun j _ hj => ⟨fun hjp => ?_, hfirst i hi j hj⟩) 0
      have hij := h.unique i j (hi ▸ h0) (hi.trans hjp.symm)
      exact absurd hj (hij ▸ lt_irrefl _)
    refine ⟨i, (t i).untilUs, ?_, Or.inl hi⟩
    have hfails : bumpFails (t i).fails = min 255 (g.fails p + 1) := by
      rw [h.fails i (hi ▸ h0), hi, bumpFails_min]
    simp only [failedTable, ipSlot, hsearch, hfails, hi]
  · have habs : ∀ i, (t i).ip ≠ p := fun i hi => hown ⟨i, hi⟩
    obtain ⟨k, hk⟩ := h.exists_empty hcard hp habs
    obtain ⟨i, hsearch, hi⟩ := ipSearch_absent habs ⟨k, List.mem_finRange k, hk⟩ 0
    refine ⟨i, 0, ?_, Or.inr ⟨hi, habs⟩⟩
    have hzero : g.fails p = 0 := h.absent p hp habs
    simp only [failedTable, ipSlot, hsearch, Function.update_self, Function.update_idem, hzero]
    rfl

theorem failure (h : Accounts S g t) (hcard : S.card ≤ ipSlots) (hp : p ∈ S)
    (hfirst : OwnSlotFirst t p) (now : Nat) :
    Accounts S (g.failure now p) (failedTable now t p) := by
  have h0 := h.ne_zero hp
  obtain ⟨i, u, ht, hslot⟩ := h.failedTable_eq hcard hp hfirst now
  rw [ht]
  -- the other slots belong to other addresses, for which nothing is counted
  have hother : ∀ j, j ≠ i → (t j).ip ≠ p := by
    intro j hj hjp
    rcases hslot with hi | ⟨-, habs⟩
    · exact hj (h.unique j i (hjp ▸ h0) (hjp.trans hi.symm))
    · exact habs j hjp
  refine ⟨h.zero, fun j hj => ?_, fun j k hj hjk => ?_, fun j hj => ?_, fun q hq habs => ?_,
    fun j hj hlocked => ?_⟩
  · by_cases hji : j = i
    · subst hji
      rw [Function.update_self]
      exact hp
    · rw [Function.update_of_ne hji] at hj ⊢
      exact h.known j hj
  · by_cases hji : j = i
    · by_cases hki : k = i
      · rw [hji, hki]
      · rw [hji, Function.update_self, Function.update_of_ne hki] at hjk
        exact absurd hjk.symm (hother k hki)
    · rw [Function.update_of_ne hji] at hj hjk
      by_cases hki : k = i
      · rw [hki, Function.update_self] at hjk
        exact absurd hjk (hother j hji)
      · rw [Function.update_of_ne hki] at hjk
        exact h.unique j k hj hjk
  · by_cases hji : j = i
    · subst hji
      simp only [Function.update_self, Tally.failure]
    · rw [Function.update_of_ne hji] at hj ⊢
      simp only [Tally.failure, Function.update_of_ne (hother j hji)]
      exact h.fails j hj
  · have hqp : q ≠ p := by
      rintro rfl
      exact habs i (by rw [Function.update_self])
    simp only [Tally.failure, Function.update_of_ne hqp]
    refine h.absent q hq fun j hjq => ?_
    by_cases hji : j = i
    · subst hji
      rcases hslot with hi | ⟨hi, -⟩
      · exact hqp (hjq.symm.trans hi)
      · exact h.ne_zero hq (hjq.symm.trans hi)
    · exact habs j (by rw [Function.update_of_ne hji]; exact hjq)
  · by_cases hji : j = i
    · subst hji
      simp only [Function.update_self, Tally.failure] at hlocked ⊢
      rw [lockAfterFailure_of_le hlocked]
    · rw [Function.update_of_ne hji] at hj hlocked ⊢
      simp only [Tally.failure, Function.update_of_ne (hother j hji)]
      exact h.locked j hj hlocked

theorem success (h : Accounts S g t) (hp : p ∈ S) :
    Accounts S (g.success p) (clearedTable t p) := by
  have h0 := h.ne_zero hp
  rcases hf : findSlot t fun s => s.ip == p with _ | i
  · have habs : ∀ j, (t j).ip ≠ p := fun j => by
      simpa using findSlot_eq_none.mp hf j
    have hkeep : ∀ j, (g.success p).fails (t j).ip = g.fails (t j).ip := fun j =>
      Function.update_of_ne (habs j) ..
    simp only [clearedTable, hf]
    refine ⟨h.zero, h.known, h.unique, fun j hj => ?_, fun q hq hq' => ?_, h.locked⟩
    · rw [hkeep]
      exact h.fails j hj
    · by_cases hqp : q = p
      · rw [hqp]
        exact Function.update_self ..
      · exact (Function.update_of_ne hqp ..).trans (h.absent q hq hq')
  · have hi : (t i).ip = p := by simpa using findSlot_spec hf
    simp only [clearedTable, hf]
    have hne : ∀ j, (Function.update t i {} j).ip ≠ 0 → j ≠ i := by
      rintro j hj rfl
      exact hj (by rw [Function.update_self])
    have hother : ∀ j, j ≠ i → (t j).ip ≠ p := fun j hj hjp =>
      hj (h.unique j i (hjp ▸ h0) (hjp.trans hi.symm))
    refine ⟨h.zero, fun j hj => ?_, fun j k hj hjk => ?_, fun j hj => ?_, fun q hq habs => ?_,
      fun j hj hlocked => ?_⟩
    · have hji := hne j hj
      rw [Function.update_of_ne hji] at hj ⊢
      exact h.known j hj
    · have hji := hne j hj
      have hki := hne k (hjk ▸ hj)
      rw [Function.update_of_ne hji] at hj
      rw [Function.update_of_ne hji, Function.update_of_ne hki] at hjk
      exact h.unique j k hj hjk
    · have hji := hne j hj
      rw [Function.update_of_ne hji] at hj ⊢
      simp only [Tally.success, Function.update_of_ne (hother j hji)]
      exact h.fails j hj
    · by_cases hqp : q = p
      · rw [hqp]
        exact Function.update_self ..
      · refine (Function.update_of_ne hqp ..).trans (h.absent q hq fun j hjq => ?_)
        have hji : j ≠ i := by
          rintro rfl
          exact hqp (hjq.symm.trans hi)
        exact habs j (by rw [Function.update_of_ne hji]; exact hjq)
    · have hji := hne j hj
      rw [Function.update_of_ne hji] at hj hlocked ⊢
      exact h.locked j hj hlocked

theorem lock_le {d : DevicePassword} (h : Accounts S g d.ip) (hp : p ∈ S)
    (hset : devicePasswordIsSet d = true) (now : Nat) :
    lockSeconds (min 255 (g.fails p)) devicePwIpMaxFails * 1000000 ≤
      devicePasswordLockRemainingS now d p * 1000000 + (now - g.last p) := by
  by_cases hfew : min 255 (g.fails p) < devicePwIpMaxFails
  · rw [lockSeconds_eq_zero hfew, Nat.zero_mul]
    exact Nat.zero_le _
  have hmany : devicePwIpMaxFails ≤ min 255 (g.fails p) := Nat.le_of_not_lt hfew
  rcases hf : findSlot d.ip fun s => s.ip == p with _ | i
  · have habs : ∀ j, (d.ip j).ip ≠ p := fun j => by
      simpa using findSlot_eq_none.mp hf j
    rw [h.absent p hp habs] at hfew
    exact absurd (by decide) hfew
  · have hi : (d.ip i).ip = p := by simpa using findSlot_spec hf
    have hne : (d.ip i).ip ≠ 0 := hi ▸ h.ne_zero hp
    have hfails : (d.ip i).fails = min 255 (g.fails p) := by rw [h.fails i hne, hi]
    have huntil := h.locked i hne (hfails ▸ hmany)
    rw [hfails, hi] at huntil
    have hremain : remainingS (d.ip i).untilUs now ≤ devicePasswordLockRemainingS now d p := by
      simp only [devicePasswordLockRemainingS, hset, hf, Bool.not_true, Bool.false_eq_true,
        if_false]
      exact le_max_right _ _
    have hround : (d.ip i).untilUs - now ≤ remainingS (d.ip i).untilUs now * 1000000 := by
      unfold remainingS
      omega
    generalize devicePasswordLockRemainingS now d p = remaining at hremain ⊢
    generalize lockSeconds (min 255 (g.fails p)) devicePwIpMaxFails = lock at huntil ⊢
    omega

end Accounts

end CyThing
