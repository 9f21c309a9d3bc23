import CyThing.System
import CyThing.Lib.Flash

/-! The factory reset by power cycling (`common/reset_handler`,
`memory_handler/flash_reset_handler`, `ota_lib/ota_handler`). A boot writes the counter
twice. `last_erase_offset` is zero again after every restart and only grows within a boot, so
the first write of a boot erases the sector and the second one clears bits of the first. -/

namespace CyThing
open CLib Trace Flash

/-! ## The counter partition -/

abbrev resetCounterOffset : Nat := 0
abbrev resetCounterSize : Nat := 2
abbrev flashEmptyValue : UInt8 := 255

def resetCounterKey : Bytes := ascii "C"

structure OtaFlash where
  partition : Partition
  lastEraseOffset : Nat := 0

/-- The erase loop of `ota_erase_write`, a sector at a time; see `lt_eraseAhead` for the
fuel. -/
def eraseAhead : Nat → Nat → OtaFlash → OtaFlash
  | 0, _, o => o
  | fuel + 1, last, o =>
    if o.lastEraseOffset ≤ last then
      eraseAhead fuel last
        { partition := erase o.partition o.lastEraseOffset 4096
          lastEraseOffset := o.lastEraseOffset + 4096 }
    else o

def otaEraseWrite (o : OtaFlash) (offset : Nat) (data : Bytes) : OtaFlash :=
  let last := offset + data.length
  let o := eraseAhead (last + 1) last o
  { o with partition := write o.partition offset data }

/-- `char` is unsigned on the device. -/
def flashReadResetCounter (p : Partition) : Nat :=
  let counter := read p resetCounterOffset resetCounterSize
  if counter.take 1 = resetCounterKey then
    let stored := counter.getD 1 0
    if stored ≠ flashEmptyValue then stored.toNat else 0
  else 0

def flashEraseWriteResetCounter (o : OtaFlash) (newResetCounter : Nat) : OtaFlash :=
  otaEraseWrite o resetCounterOffset (resetCounterKey ++ [UInt8.ofNat newResetCounter])

/-! ## A boot -/

inductive Boot
  /-- Power goes after the first counter write and before the second. -/
  | cut
  /-- The two seconds pass. -/
  | past
  deriving DecidableEq

def factoryDue (p : Partition) : Bool := decide (4 < flashReadResetCounter p + 1)

/-- What `reset_handler` does to the counter partition. The factory-reset branch restarts the
device right after its only write. -/
def resetHandler (p : Partition) (b : Boot) : Partition :=
  if factoryDue p then (flashEraseWriteResetCounter ⟨p, 0⟩ 0).partition
  else
    let o := flashEraseWriteResetCounter ⟨p, 0⟩ (flashReadResetCounter p + 1)
    match b with
    | .cut => o.partition
    | .past => (flashEraseWriteResetCounter o 0).partition

def bootDevice (env : Env) (d : World × Partition) (b : Boot) : World × Partition :=
  (if factoryDue d.2 then factoryReset env (boot env d.1) else boot env d.1, resetHandler d.2 b)

/-! ## The two writes of a boot -/

theorem lt_eraseAhead {fuel last : Nat} {o : OtaFlash}
    (h : last < o.lastEraseOffset + fuel * 4096) :
    last < (eraseAhead fuel last o).lastEraseOffset := by
  induction fuel generalizing o with
  | zero =>
    rw [Nat.zero_mul, Nat.add_zero] at h
    exact h
  | succ fuel ih =>
    unfold eraseAhead
    split
    · apply ih
      dsimp only
      omega
    · omega

theorem lt_otaEraseWrite (o : OtaFlash) (offset : Nat) (data : Bytes) :
    offset + data.length < (otaEraseWrite o offset data).lastEraseOffset :=
  lt_eraseAhead (by omega)

theorem eraseAhead_of_lt {fuel last : Nat} {o : OtaFlash} (h : last < o.lastEraseOffset) :
    eraseAhead fuel last o = o := by
  cases fuel with
  | zero => rfl
  | succ fuel => exact if_neg (Nat.not_le.mpr h)

theorem otaEraseWrite_first (p : Partition) {data : Bytes} (h : data.length < 4096) :
    otaEraseWrite ⟨p, 0⟩ 0 data = ⟨write (erase p 0 4096) 0 data, 4096⟩ := by
  have hdone : eraseAhead data.length data.length ⟨erase p 0 4096, 4096⟩ =
      ⟨erase p 0 4096, 4096⟩ := eraseAhead_of_lt h
  have hloop : eraseAhead (data.length + 1) data.length ⟨p, 0⟩ = ⟨erase p 0 4096, 4096⟩ :=
    (if_pos (Nat.zero_le _)).trans hdone
  simp only [otaEraseWrite, Nat.zero_add, hloop]

theorem otaEraseWrite_again (p : Partition) {data : Bytes} (h : data.length < 4096) :
    otaEraseWrite ⟨p, 4096⟩ 0 data = ⟨write p 0 data, 4096⟩ := by
  have hdone : eraseAhead (data.length + 1) data.length ⟨p, 4096⟩ = ⟨p, 4096⟩ :=
    eraseAhead_of_lt h
  simp only [otaEraseWrite, Nat.zero_add, hdone]

def counterRecord (n : Nat) : Bytes := [67, UInt8.ofNat n]

theorem length_counterRecord (n : Nat) : (counterRecord n).length = 2 := rfl

theorem flashEraseWriteResetCounter_eq (o : OtaFlash) (n : Nat) :
    flashEraseWriteResetCounter o n = otaEraseWrite o 0 (counterRecord n) := rfl

theorem firstWrite (p : Partition) (n : Nat) :
    ∃ q, flashEraseWriteResetCounter ⟨p, 0⟩ n = ⟨q, 4096⟩ ∧ Holds q 0 (counterRecord n) := by
  have hlen := length_counterRecord n
  rw [flashEraseWriteResetCounter_eq, otaEraseWrite_first p (by omega)]
  refine ⟨_, rfl, Blank.holds_write ?_⟩
  exact (blank_erase p 0 4096).sub (Nat.le_refl 0) (by omega)

theorem secondWrite {q : Partition} {n : Nat} (h : Holds q 0 (counterRecord n)) :
    Holds (flashEraseWriteResetCounter ⟨q, 4096⟩ 0).partition 0 (counterRecord 0) := by
  -- zero clears every bit of the count, so the second write needs no erased flash
  have hkey : q 0 = 67 := h 0 67 rfl
  rw [flashEraseWriteResetCounter_eq, otaEraseWrite_again q (by decide)]
  intro i x hx
  dsimp only
  rw [write_getElem? hx]
  rcases i with _ | _ | i
  · cases hx
    rw [Nat.zero_add, hkey]
    rfl
  · cases hx
    exact UInt8.and_zero
  · cases hx

theorem flashReadResetCounter_eq (p : Partition) :
    flashReadResetCounter p =
      if p 0 = 67 then if p 1 ≠ flashEmptyValue then (p 1).toNat else 0 else 0 := by
  have hkey : [p 0] = resetCounterKey ↔ p 0 = 67 := List.singleton_inj
  exact if_congr hkey rfl rfl

theorem flashReadResetCounter_of_holds {p : Partition} {n : Nat}
    (h : Holds p 0 (counterRecord n)) (hn : n < 255) : flashReadResetCounter p = n := by
  have hto : (UInt8.ofNat n).toNat = n := UInt8.toNat_ofNat_of_lt' (by simp [UInt8.size]; omega)
  have hne : UInt8.ofNat n ≠ flashEmptyValue := by
    intro he
    have hval := congrArg UInt8.toNat he
    rw [hto] at hval
    exact absurd hval (Nat.ne_of_lt hn)
  have h0 : p 0 = 67 := h 0 67 rfl
  have h1 : p 1 = UInt8.ofNat n := h 1 _ rfl
  rw [flashReadResetCounter_eq, if_pos h0, h1, if_pos hne, hto]

/-! ## The count over boots -/

theorem factoryDue_iff (p : Partition) : factoryDue p = true ↔ 4 ≤ flashReadResetCounter p := by
  rw [factoryDue, decide_eq_true_iff]
  omega

theorem read_resetHandler {p : Partition} (hp : flashReadResetCounter p ≤ 4) (b : Boot) :
    flashReadResetCounter (resetHandler p b) =
      if b = .cut ∧ factoryDue p = false then flashReadResetCounter p + 1 else 0 := by
  unfold resetHandler
  cases hdue : factoryDue p with
  | true =>
    obtain ⟨q, hq, hholds⟩ := firstWrite p 0
    rw [if_pos rfl, hq, if_neg (by simp)]
    exact flashReadResetCounter_of_holds hholds (by omega)
  | false =>
    obtain ⟨q, hq, hholds⟩ := firstWrite p (flashReadResetCounter p + 1)
    simp only [Bool.false_eq_true, if_false, hq, and_true]
    cases b with
    | cut =>
      rw [if_pos rfl]
      exact flashReadResetCounter_of_holds hholds (by omega)
    | past =>
      rw [if_neg (by rintro ⟨⟩)]
      exact flashReadResetCounter_of_holds (secondWrite hholds) (by omega)

def isQuick (t : Step Partition Boot) : Bool := t.event == .cut && !factoryDue t.before

structure Counts (tr : List (Step Partition Boot)) (p : Partition) : Prop where
  count : flashReadResetCounter p = trailing isQuick tr
  le_four : flashReadResetCounter p ≤ 4

theorem Counts.boot {tr : List (Step Partition Boot)} {p : Partition} (h : Counts tr p)
    (b : Boot) : Counts (tr ++ [⟨p, b, resetHandler p b⟩]) (resetHandler p b) := by
  have hread := read_resetHandler h.le_four b
  constructor
  · rw [hread, trailing_concat, h.count]
    simp [isQuick]
  · rw [hread]
    split
    · next hquick =>
      have hle : ¬4 ≤ flashReadResetCounter p := by
        rw [← factoryDue_iff, hquick.2]
        exact Bool.false_ne_true
      omega
    · exact Nat.zero_le 4

def Uncounted (p : Partition) : Prop :=
  p resetCounterOffset ≠ 67 ∨ p (resetCounterOffset + 1) = 0

theorem Uncounted.read_eq_zero {p : Partition} (h : Uncounted p) :
    flashReadResetCounter p = 0 := by
  rw [flashReadResetCounter_eq]
  rcases h with h | h
  · exact if_neg h
  · have h1 : p 1 = 0 := h
    rw [h1]
    split <;> rfl

theorem counts_run {p : Partition} (hp : Uncounted p) (boots : List Boot) :
    Counts (trace resetHandler p boots) (run resetHandler p boots) := by
  refine history_induction (Q := Counts) ⟨?_, ?_⟩ (fun tr q b h => h.boot b) boots
  · rw [hp.read_eq_zero]
    rfl
  · rw [hp.read_eq_zero]
    exact Nat.zero_le 4

/-- The factory reset comes with the fifth of five boots in a row of which the first four
were cut, and it leaves no count behind. -/
theorem factoryReset_iff_four_cuts (p : Partition) (hp : Uncounted p) (boots : List Boot) :
    (factoryDue (run resetHandler p boots) = true ↔
      ∃ pre last, trace resetHandler p boots = pre ++ last ∧ last.length = 4 ∧
        ∀ t ∈ last, t.event = .cut ∧ factoryDue t.before = false) ∧
    (factoryDue (run resetHandler p boots) = true →
      ∀ b, Uncounted (resetHandler (run resetHandler p boots) b)) := by
  constructor
  · rw [factoryDue_iff, (counts_run hp boots).count, le_trailing_iff]
    simp only [isQuick, Bool.and_eq_true, beq_iff_eq, Bool.not_eq_true']
  · intro hdue b
    obtain ⟨q, hq, hholds⟩ := firstWrite (run resetHandler p boots) 0
    rw [resetHandler, if_pos hdue, hq]
    exact .inr (hholds 1 0 rfl)

theorem factoryReset_fifth_boot :
    (trace resetHandler (fun _ => 255) (List.replicate 9 .cut)).map (factoryDue ·.before) =
        [false, false, false, false, true, false, false, false, false] ∧
      ∃ pre last, trace resetHandler (fun _ => 255) (List.replicate 4 .cut) = pre ++ last ∧
        last.length = 4 ∧ ∀ t ∈ last, t.event = .cut ∧ factoryDue t.before = false :=
  ⟨by decide +kernel,
    (factoryReset_iff_four_cuts (fun _ => 255) (.inl (by decide)) (List.replicate 4 .cut)).1.mp
      (by decide +kernel)⟩

/-! ## The device -/

/-- A boot without the factory reset is a restart of the device; one with it, together with
the boot that follows, is a factory reset of the device. -/
theorem bootDevice_eq_step (P : Platform) (env : Env) (d : World × Partition) (b b' : Boot) :
    if factoryDue d.2 then
      (bootDevice env (bootDevice env d b) b').1 = step P d.1 (.reboot true env)
    else (bootDevice env d b).1 = step P d.1 (.reboot false env) := by
  cases hdue : factoryDue d.2 with
  | false => simp [bootDevice, hdue, step]
  | true =>
    obtain ⟨q, hq, hholds⟩ := firstWrite d.2 0
    have hnext : factoryDue (resetHandler d.2 b) = false := by
      rw [resetHandler, if_pos hdue, hq, factoryDue,
        flashReadResetCounter_of_holds hholds (by omega)]
      rfl
    simp [bootDevice, hdue, hnext, step]

end CyThing
