import CyThing.Lib.Bytes

/-! Numbers written seven bits at a time, the lowest first, with the high bit of a byte set when
more bytes follow. -/

namespace Varint
open CLib

def encode : Nat → Nat → Bytes
  | 0, _ => []
  | k + 1, n =>
    if n / 128 = 0 then [UInt8.ofNat (n % 128)]
    else (UInt8.ofNat (n % 128) ||| 0x80) :: encode k (n / 128)

inductive Reading
  /-- a number, and how many bytes it took -/
  | value (n len : Nat)
  | incomplete
  | overlong
  deriving DecidableEq

def Reading.shift (b : UInt8) : Reading → Reading
  | .value n len => .value (b.toNat % 128 + 128 * n) (len + 1)
  | .incomplete => .incomplete
  | .overlong => .overlong

def decode : Nat → Bytes → Reading
  | 0, _ => .overlong
  | _ + 1, [] => .incomplete
  | k + 1, b :: rest =>
    if b.toNat < 128 then .value b.toNat 1 else (decode k rest).shift b

variable {k n len : Nat} {b : UInt8} {bytes rest : Bytes}

theorem toNat_ofNat_or (h : n < 128) : (UInt8.ofNat n ||| 0x80).toNat = n + 128 := by
  have hbyte : ∀ i : Fin 128, (UInt8.ofNat i.val ||| 0x80).toNat = i.val + 128 := by decide +kernel
  exact hbyte ⟨n, h⟩

theorem toNat_ofNat_lt (h : n < 128) : (UInt8.ofNat n).toNat = n := by
  rw [UInt8.toNat_ofNat', Nat.mod_eq_of_lt (by omega)]

theorem encode_of_lt (k : Nat) (h : n < 128) : encode (k + 1) n = [UInt8.ofNat n] := by
  rw [encode, if_pos (Nat.div_eq_of_lt h), Nat.mod_eq_of_lt h]

theorem encode_of_le (k : Nat) (h : 128 ≤ n) :
    encode (k + 1) n = (UInt8.ofNat (n % 128) ||| 0x80) :: encode k (n / 128) := by
  rw [encode, if_neg (by omega)]

theorem div_lt_pow (h : n < 128 ^ (k + 1)) : n / 128 < 128 ^ k := by
  rw [Nat.div_lt_iff_lt_mul (by decide)]
  exact h

theorem pos_of_le_of_lt (hn : 128 ≤ n) (h : n < 128 ^ (k + 1)) : 0 < k := by
  rcases Nat.eq_zero_or_pos k with rfl | hpos
  · omega
  · exact hpos

theorem encode_eq_encode (h : n < 128 ^ k) (hk : 0 < k) (j : Nat) :
    encode (k + j) n = encode k n := by
  induction k generalizing n with
  | zero => cases hk
  | succ k ih =>
    rw [Nat.add_right_comm]
    by_cases hn : n < 128
    · rw [encode_of_lt _ hn, encode_of_lt _ hn]
    · rw [encode_of_le _ (by omega), encode_of_le _ (by omega),
        ih (div_lt_pow h) (pos_of_le_of_lt (by omega) h)]

theorem decode_encode (h : n < 128 ^ k) (hk : 0 < k) (rest : Bytes) :
    decode k (encode k n ++ rest) = .value n (encode k n).length := by
  induction k generalizing n with
  | zero => cases hk
  | succ k ih =>
    by_cases hn : n < 128
    · rw [encode_of_lt k hn, List.singleton_append, decode, toNat_ofNat_lt hn, if_pos hn]
      rfl
    · have hbyte := toNat_ofNat_or (Nat.mod_lt n (by decide : 0 < 128))
      rw [encode_of_le k (by omega), List.cons_append, decode, hbyte, if_neg (by omega),
        ih (div_lt_pow h) (pos_of_le_of_lt (by omega) h), Reading.shift, hbyte, List.length_cons]
      congr 1
      omega

theorem decode_append (h : decode k bytes ≠ .incomplete) (rest : Bytes) :
    decode k (bytes ++ rest) = decode k bytes := by
  induction k generalizing bytes with
  | zero => rfl
  | succ k ih =>
    cases bytes with
    | nil => exact absurd rfl h
    | cons b bytes =>
      rw [List.cons_append, decode, decode]
      rw [decode] at h
      split
      · rfl
      · next hb =>
        rw [if_neg hb] at h
        rw [ih]
        intro hinc
        rw [hinc] at h
        exact h rfl

theorem decode_bounds (h : decode k bytes = .value n len) :
    0 < len ∧ len ≤ k ∧ len ≤ bytes.length ∧ n < 128 ^ k := by
  induction k generalizing bytes n len with
  | zero => cases h
  | succ k ih =>
    cases bytes with
    | nil => cases h
    | cons b bytes =>
      rw [decode] at h
      split at h
      · next hb =>
        cases h
        refine ⟨Nat.one_pos, by omega, by simp, ?_⟩
        exact lt_of_lt_of_le hb (Nat.le_self_pow (by omega) 128)
      · cases hrest : decode k bytes with
        | value m l =>
          rw [hrest] at h
          cases h
          obtain ⟨hpos, hle, hlen, hm⟩ := ih hrest
          refine ⟨by omega, by omega, by simpa using hlen, ?_⟩
          have hb := Nat.mod_lt b.toNat (by decide : 0 < 128)
          rw [Nat.pow_succ]
          omega
        | incomplete => rw [hrest] at h; cases h
        | overlong => rw [hrest] at h; cases h

theorem length_lt_of_incomplete (h : decode k bytes = .incomplete) : bytes.length < k := by
  induction k generalizing bytes with
  | zero => cases h
  | succ k ih =>
    cases bytes with
    | nil => exact Nat.succ_pos k
    | cons b bytes =>
      rw [decode] at h
      split at h
      · cases h
      · cases hrest : decode k bytes with
        | value m l => rw [hrest] at h; cases h
        | incomplete => exact Nat.succ_lt_succ (ih hrest)
        | overlong => rw [hrest] at h; cases h

theorem take_eq_encode (h : decode k bytes = .value n len) (hlen : len = (encode k n).length) :
    bytes.take len = encode k n := by
  induction k generalizing bytes n len with
  | zero => cases h
  | succ k ih =>
    cases bytes with
    | nil => cases h
    | cons b bytes =>
      rw [decode] at h
      split at h
      · next hb =>
        cases h
        rw [encode_of_lt k hb]
        simp
      · next hb =>
        cases hrest : decode k bytes with
        | value m l =>
          rw [hrest] at h
          cases h
          have hpos := (decode_bounds hrest).1
          -- a second byte is needed, so the number has more than seven bits
          have hbig : 128 ≤ b.toNat % 128 + 128 * m := by
            by_contra hlt
            rw [encode_of_lt k (by omega), List.length_singleton] at hlen
            omega
          have hmod : (b.toNat % 128 + 128 * m) % 128 = b.toNat % 128 := by omega
          have hdiv : (b.toNat % 128 + 128 * m) / 128 = m := by omega
          rw [encode_of_le k hbig, hmod, hdiv] at hlen ⊢
          rw [List.take_succ_cons, ih hrest (by simpa using hlen)]
          congr 1
          rw [← UInt8.toNat_inj, toNat_ofNat_or (Nat.mod_lt _ (by decide))]
          have hb' := b.toNat_lt
          omega
        | incomplete => rw [hrest] at h; cases h
        | overlong => rw [hrest] at h; cases h

end Varint
