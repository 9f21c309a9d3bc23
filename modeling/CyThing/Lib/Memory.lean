import CyThing.Lib.Layout

/-! Buffers of a fixed size as C programs write them: a copy stays inside the buffer, or what
happens is undefined. -/

namespace CLib
open Layout

/-- `memcpy(b + off, data, data.length)`; `none` when the copy would leave the buffer. -/
def memcpy {n : Nat} (b : Block n) (off : Nat) (data : Bytes) : Option (Block n) :=
  if h : off + data.length ≤ n then
    some ⟨b.1.take off ++ data ++ b.1.drop (off + data.length), by
      rw [List.length_append, List.length_append, List.length_take, List.length_drop, b.2]
      omega⟩
  else none

variable {n off : Nat} {b b' : Block n} {data : Bytes}

theorem exists_memcpy (b : Block n) (h : off + data.length ≤ n) :
    ∃ b', memcpy b off data = some b' := ⟨_, dif_pos h⟩

theorem memcpy_of_lt (b : Block n) (h : n < off + data.length) :
    memcpy b off data = none := dif_neg (Nat.not_le.mpr h)

theorem memcpy_le (h : memcpy b off data = some b') : off + data.length ≤ n := by
  by_contra hlt
  rw [memcpy_of_lt b (Nat.not_le.mp hlt)] at h
  cases h

theorem memcpy_val (h : memcpy b off data = some b') :
    b'.1 = b.1.take off ++ data ++ b.1.drop (off + data.length) := by
  have hle := memcpy_le h
  rw [memcpy, dif_pos hle, Option.some.injEq] at h
  rw [← h]

theorem take_memcpy (h : memcpy b off data = some b') :
    b'.1.take (off + data.length) = b.1.take off ++ data := by
  have hle := memcpy_le h
  have hlen : (b.1.take off ++ data).length = off + data.length := by
    rw [List.length_append, List.length_take, b.2]
    omega
  rw [memcpy_val h, ← hlen, List.take_left]

theorem take_memcpy_of_le (h : memcpy b off data = some b') {k : Nat} (hk : k ≤ off) :
    b'.1.take k = b.1.take k := by
  have htake := congrArg (List.take k) (take_memcpy h)
  rw [List.take_take, Nat.min_eq_left (by omega), List.take_append_of_le_length, List.take_take,
    Nat.min_eq_left hk] at htake
  · exact htake
  · have hle := memcpy_le h
    rw [List.length_take, b.2]
    omega

theorem exists_memcpy_append {text : Bytes} (data : Bytes) (h : b.1.take text.length = text)
    (hroom : text.length + data.length ≤ n) :
    ∃ b', memcpy b text.length data = some b' ∧
      b'.1.take (text ++ data).length = text ++ data := by
  obtain ⟨b', hcopy⟩ := exists_memcpy b hroom
  refine ⟨b', hcopy, ?_⟩
  rw [List.length_append, take_memcpy hcopy, h]

theorem drop_memcpy_of_le (h : memcpy b off data = some b') {k : Nat}
    (hk : off + data.length ≤ k) : b'.1.drop k = b.1.drop k := by
  have hle := memcpy_le h
  have hlen : (b.1.take off ++ data).length = off + data.length := by
    rw [List.length_append, List.length_take, b.2]
    omega
  rw [memcpy_val h, List.drop_append, List.drop_eq_nil_of_le (by omega), List.nil_append, hlen,
    List.drop_drop]
  congr 1
  omega

theorem slice_memcpy_of_disjoint (h : memcpy b off data = some b') {off' len : Nat}
    (hd : off' + len ≤ off ∨ off + data.length ≤ off') :
    slice b'.1 off' len = slice b.1 off' len := by
  rcases hd with hd | hd
  · have hbefore : ∀ x : Bytes, slice x off' len = (x.take (off' + len)).drop off' := by
      intro x
      rw [slice, List.drop_take, Nat.add_sub_cancel_left]
    rw [hbefore, hbefore, take_memcpy_of_le h hd]
  · rw [slice, slice, drop_memcpy_of_le h hd]

theorem slice_memcpy_within (h : memcpy b off data = some b') {k len : Nat}
    (hk : k + len ≤ data.length) : slice b'.1 (off + k) len = slice data k len := by
  have hle := memcpy_le h
  have hlen : (b.1.take off).length = off := by
    rw [List.length_take, b.2]
    omega
  rw [memcpy_val h, List.append_assoc, slice_append_right (by omega), hlen,
    Nat.add_sub_cancel_left, slice_append_of_le hk]

end CLib
