import CyThing.Lib.Bytes

/-! Records in memory: fields one after another at fixed offsets, arrays of records of one
size, and cleared memory. -/

namespace Layout
open CLib

def slice (b : Bytes) (off len : Nat) : Bytes := (b.drop off).take len

theorem length_slice_le (b : Bytes) (off len : Nat) : (slice b off len).length ≤ len :=
  List.length_take_le ..

theorem mem_of_mem_slice {b : Bytes} {off len : Nat} {x : UInt8} (h : x ∈ slice b off len) :
    x ∈ b := List.mem_of_mem_drop (List.mem_of_mem_take h)

theorem slice_append_of_le {x : Bytes} {off len : Nat} (h : off + len ≤ x.length) (y : Bytes) :
    slice (x ++ y) off len = slice x off len := by
  rw [slice, slice, List.drop_append_of_le_length (by omega), List.take_append_of_le_length]
  rw [List.length_drop]
  omega

theorem slice_append_right {x : Bytes} {off : Nat} (h : x.length ≤ off) (y : Bytes) (len : Nat) :
    slice (x ++ y) off len = slice y (off - x.length) len := by
  rw [slice, slice, List.drop_append, List.drop_eq_nil_of_le h, List.nil_append]

theorem length_slice {b : Bytes} {off len : Nat} (h : off + len ≤ b.length) :
    (slice b off len).length = len := by
  rw [slice, List.length_take, List.length_drop]
  omega

theorem slice_slice {b : Bytes} {off n k len : Nat} (h : k + len ≤ n) :
    slice (slice b off n) k len = slice b (off + k) len := by
  rw [slice, slice, slice, List.drop_take, List.take_take, List.drop_drop,
    Nat.min_eq_left (by omega)]

theorem slice_add (b : Bytes) (off m k : Nat) :
    slice b off (m + k) = slice b off m ++ slice b (off + m) k := by
  rw [slice, slice, slice, List.take_add, List.drop_drop]

theorem take_append_slice (b : Bytes) (m k : Nat) : b.take m ++ slice b m k = b.take (m + k) := by
  rw [slice, List.take_add]

theorem slice_flatten {fs : List Bytes} {i : Nat} {f : Bytes} (hf : fs[i]? = some f)
    {off len : Nat} (hoff : off = ((fs.take i).map List.length).sum) (hlen : len = f.length) :
    slice fs.flatten off len = f := by
  subst hoff hlen
  induction fs generalizing i with
  | nil => cases hf
  | cons g fs ih =>
    cases i with
    | zero =>
      cases hf
      rw [List.flatten_cons, List.take_zero, List.map_nil, List.sum_nil,
        slice_append_of_le (by omega)]
      simp [slice]
    | succ i =>
      rw [List.flatten_cons, List.take_succ_cons, List.map_cons, List.sum_cons,
        slice_append_right (Nat.le_add_right _ _), Nat.add_sub_cancel_left]
      exact ih hf

theorem sum_length_array {fs : List Bytes} {n : Nat} (hn : ∀ g ∈ fs, g.length = n) :
    (fs.map List.length).sum = fs.length * n := by
  have hmap : fs.map List.length = List.replicate fs.length n := by
    rw [List.eq_replicate_iff]
    refine ⟨List.length_map _, fun b hb => ?_⟩
    obtain ⟨g, hg, rfl⟩ := List.mem_map.mp hb
    exact hn g hg
  rw [hmap, List.sum_replicate_nat]

theorem slice_array {fs : List Bytes} {n i : Nat} {f : Bytes} (hn : ∀ g ∈ fs, g.length = n)
    (hf : fs[i]? = some f) : slice fs.flatten (i * n) n = f := by
  have hi : i < fs.length := (List.getElem?_eq_some_iff.mp hf).1
  refine slice_flatten hf ?_ (hn f (List.mem_of_getElem? hf)).symm
  rw [sum_length_array fun g hg => hn g (List.mem_of_mem_take hg), List.length_take,
    Nat.min_eq_left hi.le]

/-! ## Cleared memory -/

def Cleared (b : Bytes) : Prop := ∀ x ∈ b, x = 0

theorem Cleared.slice {b : Bytes} (h : Cleared b) (off len : Nat) : Cleared (slice b off len) :=
  fun x hx => h x (mem_of_mem_slice hx)

theorem cleared_replicate (n : Nat) : Cleared (List.replicate n 0) :=
  fun _ hx => List.eq_of_mem_replicate hx

theorem Cleared.cstr_eq {b : Bytes} (h : Cleared b) : cstr b = [] := by
  cases b with
  | nil => rfl
  | cons x b =>
    rw [h x List.mem_cons_self]
    rfl

theorem Cleared.fit_eq {b : Bytes} (h : Cleared b) (n : Nat) : Block.fit n b = Block.zero n := by
  apply Subtype.ext
  rw [List.eq_replicate_iff.mpr ⟨rfl, h⟩]
  simp [Block.fit, Block.zero]

theorem Cleared.getBe_eq {b : Bytes} (h : Cleared b) : getBe b = 0 := by
  induction b with
  | nil => rfl
  | cons x b ih =>
    rw [getBe_cons, h x List.mem_cons_self, ih fun y hy => h y (List.mem_cons_of_mem _ hy)]
    simp

theorem Cleared.reverse {b : Bytes} (h : Cleared b) : Cleared b.reverse :=
  fun x hx => h x (List.mem_reverse.mp hx)

theorem fit_val_self {n : Nat} (b : Block n) : Block.fit n b.1 = b := by
  apply Subtype.ext
  rw [Block.fit_val b.2.le, b.2, Nat.sub_self, List.replicate_zero, List.append_nil]

/-! ## Little-endian words -/

def putLe (k n : Nat) : Bytes := (putBe k n).reverse

def getLe (b : Bytes) : Nat := getBe b.reverse

theorem length_putLe (k n : Nat) : (putLe k n).length = k := by
  rw [putLe, List.length_reverse, length_putBe]

theorem getLe_putLe {k n : Nat} (h : n < 256 ^ k) : getLe (putLe k n) = n := by
  rw [getLe, putLe, List.reverse_reverse, getBe_putBe, Nat.mod_eq_of_lt h]

end Layout
