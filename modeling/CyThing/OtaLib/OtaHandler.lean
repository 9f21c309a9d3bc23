import CyThing.Common.ResetHandler

/-! Erasing writes of `ota_lib/ota_handler` to any partition of the table. Which sectors a call
erases is decided by one `last_erase_offset`, which no selection of a partition resets: bytes
below it are only cleared bit by bit, whatever partition they are in and whoever wrote them. -/

namespace CyThing.OtaHandler
open CLib Trace Flash

inductive EspErr
  | ok
  | invalidArg
  | invalidSize
  | flashFail
  deriving DecidableEq

/-! ## The partition API -/

def espPartitionEraseRange (size : Nat) (p : Partition) (offset len : Nat) (flashOk : Bool) :
    EspErr × Partition :=
  if size < offset then (.invalidArg, p)
  else if size < offset + len then (.invalidSize, p)
  else if len % 4096 ≠ 0 then (.invalidSize, p)
  else if offset % 4096 ≠ 0 then (.invalidArg, p)
  else if flashOk then (.ok, erase p offset len)
  else (.flashFail, p)

def espPartitionWrite (size : Nat) (p : Partition) (offset : Nat) (data : Bytes)
    (flashOk : Bool) : EspErr × Partition :=
  if size < offset then (.invalidArg, p)
  else if size < offset + data.length then (.invalidSize, p)
  else if flashOk then (.ok, write p offset data)
  else (.flashFail, p)

theorem espPartitionEraseRange_ok {size offset len : Nat} {p : Partition} {flashOk : Bool}
    (h : (espPartitionEraseRange size p offset len flashOk).1 = .ok) :
    (espPartitionEraseRange size p offset len flashOk).2 = erase p offset len := by
  unfold espPartitionEraseRange at h ⊢
  split_ifs at h ⊢
  rfl

theorem espPartitionWrite_ok {size offset : Nat} {p : Partition} {data : Bytes} {flashOk : Bool}
    (h : (espPartitionWrite size p offset data flashOk).1 = .ok) :
    (espPartitionWrite size p offset data flashOk).2 = write p offset data := by
  unfold espPartitionWrite at h ⊢
  split_ifs at h ⊢
  rfl

/-! ## `ota_erase_write` -/

section Calls

variable {ι : Type} [DecidableEq ι]

/-- The chip, with the file's two static variables. No call is made before the first
selection, so `newEraseWritePartition` has no null value here. -/
structure Chip (ι : Type) where
  content : ι → Partition
  newEraseWritePartition : ι
  lastEraseOffset : Nat

def otaSetNewEraseWritePartition (s : Chip ι) (p : ι) : Chip ι :=
  { s with newEraseWritePartition := p }

structure FlashAnswers where
  eraseOk : Nat → Bool
  writeOk : Bool

def Chip.selected (s : Chip ι) : Partition := s.content s.newEraseWritePartition

def Chip.store (s : Chip ι) (p : Partition) : Chip ι :=
  { s with content := Function.update s.content s.newEraseWritePartition p }

@[simp] theorem Chip.selected_store (s : Chip ι) (p : Partition) : (s.store p).selected = p :=
  Function.update_self _ _ _

/-- The loop, which leaves with the error of the first erase that fails; `lt_eraseAhead` says
that the fuel of `otaEraseWrite` is enough. -/
def eraseSectors (size : ι → Nat) (ans : FlashAnswers) (last : Nat) :
    Nat → Chip ι → EspErr × Chip ι
  | 0, s => (.ok, s)
  | fuel + 1, s =>
    if s.lastEraseOffset ≤ last then
      let r := espPartitionEraseRange (size s.newEraseWritePartition) s.selected
        s.lastEraseOffset 4096 (ans.eraseOk s.lastEraseOffset)
      if r.1 ≠ .ok then (r.1, s)
      else eraseSectors size ans last fuel
        { s.store r.2 with lastEraseOffset := s.lastEraseOffset + 4096 }
    else (.ok, s)

def otaEraseWrite (size : ι → Nat) (s : Chip ι) (offset : Nat) (data : Bytes)
    (ans : FlashAnswers) : EspErr × Chip ι :=
  let last := offset + data.length
  let e := eraseSectors size ans last (last + 1) s
  if e.1 ≠ .ok then e
  else
    let w := espPartitionWrite (size e.2.newEraseWritePartition) e.2.selected offset data
      ans.writeOk
    (w.1, e.2.store w.2)

def Chip.otaFlash (s : Chip ι) : OtaFlash := ⟨s.selected, s.lastEraseOffset⟩

theorem eraseSectors_ok {size : ι → Nat} {ans : FlashAnswers} {last fuel : Nat} {s : Chip ι}
    (h : (eraseSectors size ans last fuel s).1 = .ok) :
    (eraseSectors size ans last fuel s).2.otaFlash = eraseAhead fuel last s.otaFlash := by
  induction fuel generalizing s with
  | zero => rfl
  | succ fuel ih =>
    unfold eraseSectors at h ⊢
    unfold eraseAhead
    by_cases hle : s.lastEraseOffset ≤ last
    · have hle' : s.otaFlash.lastEraseOffset ≤ last := hle
      rw [if_pos hle] at h ⊢
      rw [if_pos hle']
      dsimp only at h ⊢
      split_ifs at h ⊢ with hr
      · exact absurd h hr
      · rw [ih h, espPartitionEraseRange_ok (not_not.mp hr)]
        apply congrArg (eraseAhead fuel last)
        exact congrArg (OtaFlash.mk · (s.lastEraseOffset + 4096))
          (s.selected_store (erase s.selected s.lastEraseOffset 4096))
    · rw [if_neg hle]
      exact (if_neg hle).symm

theorem otaEraseWrite_ok {size : ι → Nat} {s : Chip ι} {offset : Nat} {data : Bytes}
    {ans : FlashAnswers} (h : (otaEraseWrite size s offset data ans).1 = .ok) :
    (otaEraseWrite size s offset data ans).2.otaFlash =
      CyThing.otaEraseWrite s.otaFlash offset data := by
  unfold otaEraseWrite at h ⊢
  dsimp only at h ⊢
  split_ifs at h ⊢ with he
  · exact absurd h he
  · have hsectors := eraseSectors_ok (not_not.mp he)
    rw [espPartitionWrite_ok h]
    simp only [CyThing.otaEraseWrite, ← hsectors]
    show OtaFlash.mk (Chip.store _ _).selected _ = _
    rw [Chip.selected_store]
    rfl

end Calls

/-! ## What a successful call leaves -/

theorem eraseAhead_partition {fuel last : Nat} {o : OtaFlash} {i : Nat}
    (hfuel : last < o.lastEraseOffset + fuel * 4096) (hi : i ≤ last) :
    (eraseAhead fuel last o).partition i =
      if i < o.lastEraseOffset then o.partition i else 255 := by
  induction fuel generalizing o with
  | zero =>
    have hbelow : i < o.lastEraseOffset := by omega
    rw [if_pos hbelow]
    rfl
  | succ fuel ih =>
    unfold eraseAhead
    by_cases hle : o.lastEraseOffset ≤ last
    · rw [if_pos hle, ih (by dsimp only; omega)]
      dsimp only [erase]
      -- below the mark, in the sector just erased, or beyond it
      split_ifs <;> first | rfl | omega
    · rw [if_neg hle, if_pos (by omega)]

def BitsLeft (o : OtaFlash) (offset : Nat) (data : Bytes) : Prop :=
  ∀ i x, data[i]? = some x → offset + i < o.lastEraseOffset → o.partition (offset + i) &&& x = x

theorem otaEraseWrite_byte {o : OtaFlash} {offset i : Nat} {data : Bytes} {x : UInt8}
    (hx : data[i]? = some x) :
    (CyThing.otaEraseWrite o offset data).partition (offset + i) =
      if offset + i < o.lastEraseOffset then o.partition (offset + i) &&& x else x := by
  have hi : i < data.length := (List.getElem?_eq_some_iff.mp hx).1
  show write _ offset data (offset + i) = _
  rw [write_getElem? hx, eraseAhead_partition (by omega) (by omega)]
  split_ifs
  · rfl
  · exact UInt8.neg_one_and

theorem otaEraseWrite_holds_iff (o : OtaFlash) (offset : Nat) (data : Bytes) :
    Holds (CyThing.otaEraseWrite o offset data).partition offset data ↔
      BitsLeft o offset data := by
  constructor
  · intro h i x hx hbelow
    have hbyte : (CyThing.otaEraseWrite o offset data).partition (offset + i) = _ :=
      otaEraseWrite_byte hx
    rw [if_pos hbelow, h i x hx] at hbyte
    exact hbyte.symm
  · intro h i x hx
    rw [otaEraseWrite_byte hx]
    split_ifs with hbelow
    · exact h i x hx hbelow
    · rfl

/-! ## Runs of a boot -/

section Runs

variable {ι : Type} [DecidableEq ι]

inductive Event (ι : Type)
  | setNewEraseWritePartition (p : ι)
  | eraseWrite (offset : Nat) (data : Bytes) (ans : FlashAnswers)

def step (size : ι → Nat) (s : Chip ι) : Event ι → Chip ι
  | .setNewEraseWritePartition p => otaSetNewEraseWritePartition s p
  | .eraseWrite offset data ans => (otaEraseWrite size s offset data ans).2

/-- A boot finds whatever earlier boots left in the flash; `p` is its first selection. -/
def atBoot (content : ι → Partition) (p : ι) : Chip ι := ⟨content, p, 0⟩

theorem erase_write_real_iff (size : ι → Nat) (content : ι → Partition) (p : ι)
    (es : List (Event ι)) (offset : Nat) (data : Bytes) (ans : FlashAnswers) :
    let s := run (step size) (atBoot content p) es
    let call := otaEraseWrite size s offset data ans
    call.1 = .ok →
      (Flash.read call.2.selected offset data.length = data ↔ BitsLeft s.otaFlash offset data) := by
  intro s call hok
  have hcall : call.2.otaFlash = CyThing.otaEraseWrite s.otaFlash offset data :=
    otaEraseWrite_ok hok
  have hselected : call.2.selected = (CyThing.otaEraseWrite s.otaFlash offset data).partition :=
    congrArg OtaFlash.partition hcall
  rw [hselected, read_eq_iff]
  exact otaEraseWrite_holds_iff s.otaFlash offset data

end Runs

namespace Sample

inductive Part
  | rstCount
  | boot
  deriving DecidableEq

def allWell : FlashAnswers := ⟨fun _ => true, true⟩

def writesCounter (n : Nat) : Event Part := .eraseWrite 0 (counterRecord n) allWell

theorem erase_write_real_iff_first :
    let s := run (step fun _ => 4096) (atBoot (fun _ _ => 0) Part.rstCount) [writesCounter 3]
    let call := otaEraseWrite (fun _ => 4096) s 0 (counterRecord 1) allWell
    call.1 = .ok ∧ Flash.read call.2.selected 0 2 = counterRecord 1 := by
  intro s call
  have hok : call.1 = .ok := by decide +kernel
  refine ⟨hok, (erase_write_real_iff (fun _ => 4096) (fun _ _ => 0) Part.rstCount
    [writesCounter 3] 0 (counterRecord 1) allWell hok).mpr ?_⟩
  have hold : s.otaFlash.partition 0 = 67 ∧ s.otaFlash.partition 1 = 3 := by decide +kernel
  intro i x hx _
  rcases i with _ | _ | i
  · cases hx
    rw [hold.1]
    decide
  · cases hx
    rw [hold.2]
    decide
  · cases hx

/-- A count of two written over a count of one reads as zero, though the call succeeds. -/
theorem second_count_lost :
    let s := run (step fun _ => 4096) (atBoot (fun _ _ => 255) Part.rstCount) [writesCounter 1]
    let call := otaEraseWrite (fun _ => 4096) s 0 (counterRecord 2) allWell
    call.1 = .ok ∧ Flash.read call.2.selected 0 2 ≠ counterRecord 2 := by
  decide +kernel

/-- Nor is the boot partition erased once the counter has been written. -/
example :
    let s := run (step fun _ => 4096) (atBoot (fun _ _ => 0) Part.rstCount)
      [writesCounter 1, .setNewEraseWritePartition .boot]
    let call := otaEraseWrite (fun _ => 4096) s 0 (counterRecord 1) allWell
    call.1 = .ok ∧ Flash.read call.2.selected 0 2 = [0, 0] := by
  decide +kernel

end Sample

end CyThing.OtaHandler
