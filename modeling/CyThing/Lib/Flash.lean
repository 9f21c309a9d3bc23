import CyThing.Lib.Bytes

/-! A flash partition: erasing sets bytes to `0xFF`, writing can only clear bits. -/

namespace Flash
open CLib

abbrev Partition := Nat → UInt8

def erase (p : Partition) (off len : Nat) : Partition := fun i =>
  if off ≤ i ∧ i < off + len then 255 else p i

def write (p : Partition) (off : Nat) (data : Bytes) : Partition := fun i =>
  if off ≤ i then
    match data[i - off]? with
    | some x => p i &&& x
    | none => p i
  else p i

def read (p : Partition) (off len : Nat) : Bytes := (List.range len).map fun i => p (off + i)

def Blank (p : Partition) (off len : Nat) : Prop := ∀ i, off ≤ i → i < off + len → p i = 255

variable {p : Partition} {off len : Nat} {data : Bytes}

theorem blank_erase (p : Partition) (off len : Nat) : Blank (erase p off len) off len :=
  fun _ h1 h2 => if_pos ⟨h1, h2⟩

theorem Blank.sub {off' len' : Nat} (h : Blank p off len) (h1 : off ≤ off')
    (h2 : off' + len' ≤ off + len) : Blank p off' len' :=
  fun i hi hlt => h i (by omega) (by omega)

theorem write_of_lt {i : Nat} (h : i < off) : write p off data i = p i :=
  if_neg (Nat.not_le.mpr h)

theorem write_of_le {i : Nat} (h : off + data.length ≤ i) : write p off data i = p i := by
  have hnone : data[i - off]? = none := List.getElem?_eq_none (by omega)
  simp only [write, hnone, ite_self]

@[simp]
theorem write_nil (p : Partition) (off : Nat) : write p off [] = p := by
  funext i
  simp [write]

theorem write_getElem? {i : Nat} {x : UInt8} (h : data[i]? = some x) :
    write p off data (off + i) = p (off + i) &&& x := by
  simp only [write, Nat.le_add_right, ite_true, Nat.add_sub_cancel_left, h]

theorem Blank.write (h : Blank p off len) {off' : Nat}
    (hd : off' + data.length ≤ off ∨ off + len ≤ off') : Blank (write p off' data) off len := by
  intro i h1 h2
  rcases hd with hd | hd
  · rw [write_of_le (by omega)]
    exact h i h1 h2
  · rw [write_of_lt (by omega)]
    exact h i h1 h2

def Holds (p : Partition) (off : Nat) (data : Bytes) : Prop :=
  ∀ i x, data[i]? = some x → p (off + i) = x

theorem Blank.holds_write (h : Blank p off data.length) :
    Holds (Flash.write p off data) off data := by
  intro i x hx
  have hi : i < data.length := (List.getElem?_eq_some_iff.mp hx).1
  have hp : p (off + i) = 255 := h _ (by omega) (by omega)
  rw [write_getElem? hx, hp]
  exact UInt8.neg_one_and

theorem Holds.write (h : Holds p off data) {off' : Nat} {data' : Bytes}
    (hd : off' + data'.length ≤ off ∨ off + data.length ≤ off') :
    Holds (write p off' data') off data := by
  intro i x hx
  have hi : i < data.length := (List.getElem?_eq_some_iff.mp hx).1
  rcases hd with hd | hd
  · rw [write_of_le (by omega)]
    exact h i x hx
  · rw [write_of_lt (by omega)]
    exact h i x hx

theorem read_eq_iff : read p off data.length = data ↔ Holds p off data := by
  constructor
  · intro h i x hx
    have hi : i < data.length := (List.getElem?_eq_some_iff.mp hx).1
    rw [← h] at hx
    simpa [read, hi] using hx
  · intro h
    apply List.ext_getElem?
    intro i
    by_cases hi : i < data.length
    · have hx : data[i]? = some data[i] := List.getElem?_eq_getElem hi
      simp [read, hi, h i _ hx]
    · rw [List.getElem?_eq_none (Nat.le_of_not_lt hi), List.getElem?_eq_none]
      simpa [read] using hi

theorem Holds.prefix_read (h : Holds p off data) (hlen : data.length ≤ len) :
    data <+: read p off len := by
  rw [List.prefix_iff_getElem?]
  intro i hi
  have hx : data[i]? = some data[i] := List.getElem?_eq_getElem hi
  simp [read, Nat.lt_of_lt_of_le hi hlen, h i _ hx]

theorem Holds.cstr_read {text : Bytes} (h : Holds p off (text ++ [0])) (h0 : (0 : UInt8) ∉ text)
    (hlen : text.length < len) : cstr (read p off len) = text := by
  have hfits : (text ++ [0]).length ≤ len := by
    rw [List.length_append, List.length_singleton]
    exact hlen
  obtain ⟨rest, hread⟩ := h.prefix_read hfits
  rw [← hread, List.append_assoc]
  exact (cstr_append_zero text rest).trans (cstr_eq_self h0)

theorem Holds.cstr_unique {a b : Bytes} (ha : Holds p off (a ++ [0])) (hb : Holds p off (b ++ [0]))
    (ha0 : (0 : UInt8) ∉ a) (hb0 : (0 : UInt8) ∉ b) : a = b :=
  (ha.cstr_read ha0 (Nat.lt_succ_of_le (Nat.le_add_right a.length b.length))).symm.trans
    (hb.cstr_read hb0 (Nat.lt_succ_of_le (Nat.le_add_left b.length a.length)))

theorem Blank.zero_notMem_read (h : Blank p off len) (hdata : data.length ≤ len)
    (h0 : (0 : UInt8) ∉ data) : (0 : UInt8) ∉ read (Flash.write p off data) off len := by
  intro hmem
  obtain ⟨i, hi, hzero⟩ := List.mem_map.mp hmem
  have hi : i < len := List.mem_range.mp hi
  have hblank : p (off + i) = 255 := h _ (Nat.le_add_right _ _) (by omega)
  cases hx : data[i]? with
  | none =>
    rw [write_of_le (by have := List.getElem?_eq_none_iff.mp hx; omega), hblank] at hzero
    cases hzero
  | some x =>
    have hwritten : Flash.write p off data (off + i) = x :=
      (h.sub le_rfl (by omega) : Blank p off data.length).holds_write i x hx
    rw [hwritten] at hzero
    exact h0 (hzero ▸ List.mem_of_getElem? hx)

end Flash
