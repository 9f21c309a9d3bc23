import CyThing.Lib.Bytes

/-! Base64 with padding, as the standard alphabet has it. -/

namespace Base64
open CLib

def digit (n : Nat) : UInt8 :=
  UInt8.ofNat (if n < 26 then 65 + n else if n < 52 then 71 + n else if n < 62 then n - 4
    else if n = 62 then 43 else 47)

def word (a b c : UInt8) : Nat := (a.toNat * 256 + b.toNat) * 256 + c.toNat

def digitAt (w k : Nat) : UInt8 := digit (w / 64 ^ k % 64)

def encode : Bytes → Bytes
  | [] => []
  | [a] => [digitAt (word a 0 0) 3, digitAt (word a 0 0) 2, 61, 61]
  | [a, b] => [digitAt (word a b 0) 3, digitAt (word a b 0) 2, digitAt (word a b 0) 1, 61]
  | a :: b :: c :: rest =>
    digitAt (word a b c) 3 :: digitAt (word a b c) 2 :: digitAt (word a b c) 1 ::
      digitAt (word a b c) 0 :: encode rest

theorem length_encode (b : Bytes) : (encode b).length = (b.length + 2) / 3 * 4 := by
  fun_induction encode b with
  | case1 => rfl
  | case2 => simp
  | case3 => simp
  | case4 a b c rest ih =>
    simp only [List.length_cons, ih]
    omega

def value (d : UInt8) : Option Nat :=
  let n := d.toNat
  if 65 ≤ n ∧ n ≤ 90 then some (n - 65)
  else if 97 ≤ n ∧ n ≤ 122 then some (n - 71)
  else if 48 ≤ n ∧ n ≤ 57 then some (n + 4)
  else if n = 43 then some 62
  else if n = 47 then some 63
  else none

def group (p q r s : UInt8) : Option Bytes :=
  match value p, value q with
  | some p, some q =>
    match value r, value s with
    | some r, some s =>
      let w := ((p * 64 + q) * 64 + r) * 64 + s
      some [UInt8.ofNat (w / 65536), UInt8.ofNat (w / 256), UInt8.ofNat w]
    | some r, none =>
      let w := (p * 64 + q) * 64 + r
      if s = 61 then some [UInt8.ofNat (w / 1024), UInt8.ofNat (w / 4)] else none
    | none, _ => if r = 61 ∧ s = 61 then some [UInt8.ofNat ((p * 64 + q) / 16)] else none
  | _, _ => none

def decode : Bytes → Option Bytes
  | [] => some []
  | p :: q :: r :: s :: rest =>
    match group p q r s, decode rest with
    | some b, some bs => if s = 61 ∧ rest ≠ [] then none else some (b ++ bs)
    | _, _ => none
  | _ => none

/-! ## Decoding what was encoded -/

theorem value_digitAt (w k : Nat) : value (digitAt w k) = some (w / 64 ^ k % 64) := by
  have hdigit : ∀ n < 64, value (digit n) = some n := by decide
  exact hdigit _ (Nat.mod_lt _ (by decide))

theorem digitAt_ne {c : UInt8} (hc : value c = none) (w k : Nat) : digitAt w k ≠ c := by
  rintro rfl
  rw [value_digitAt] at hc
  cases hc

theorem ofNat_eq {n : Nat} {a : UInt8} (h : n % 256 = a.toNat) : UInt8.ofNat n = a :=
  UInt8.toNat_inj.mp (by rw [UInt8.toNat_ofNat', h])

theorem group_three (a b c : UInt8) :
    group (digitAt (word a b c) 3) (digitAt (word a b c) 2) (digitAt (word a b c) 1)
      (digitAt (word a b c) 0) = some [a, b, c] := by
  have ha := a.toNat_lt
  have hb := b.toNat_lt
  have hc := c.toNat_lt
  simp only [group, value_digitAt, Option.some.injEq, List.cons.injEq, and_true]
  refine ⟨ofNat_eq ?_, ofNat_eq ?_, ofNat_eq ?_⟩ <;> simp only [word] <;> omega

theorem group_two (a b : UInt8) :
    group (digitAt (word a b 0) 3) (digitAt (word a b 0) 2) (digitAt (word a b 0) 1) 61 =
      some [a, b] := by
  have ha := a.toNat_lt
  have hb := b.toNat_lt
  have hpad : value 61 = none := rfl
  simp only [group, value_digitAt, hpad, if_true, Option.some.injEq, List.cons.injEq, and_true]
  refine ⟨ofNat_eq ?_, ofNat_eq ?_⟩ <;> simp only [word, UInt8.toNat_zero] <;> omega

theorem group_one (a : UInt8) :
    group (digitAt (word a 0 0) 3) (digitAt (word a 0 0) 2) 61 61 = some [a] := by
  have ha := a.toNat_lt
  have hpad : value 61 = none := rfl
  simp only [group, value_digitAt, hpad, and_self, if_true, Option.some.injEq, List.cons.injEq,
    and_true]
  refine ofNat_eq ?_
  simp only [word, UInt8.toNat_zero]
  omega

theorem decode_encode (b : Bytes) : decode (encode b) = some b := by
  fun_induction encode b with
  | case1 => rfl
  | case2 a => simp [decode, group_one]
  | case3 a b => simp [decode, group_two]
  | case4 a b c rest ih => simp [decode, group_three, ih, digitAt_ne (c := 61) rfl]

theorem dvd_length_of_decode {text b : Bytes} (h : decode text = some b) : 4 ∣ text.length := by
  fun_induction decode text generalizing b with
  | case1 => exact Nat.dvd_zero 4
  | case2 | case4 | case5 => cases h
  | case3 p q r s rest b' bs hrest _ _ ih =>
    have hdvd : 4 ∣ rest.length := ih hrest
    simp only [List.length_cons]
    omega

theorem not_mem_encode {c : UInt8} (hc : value c = none) (hpad : c ≠ 61) (b : Bytes) :
    c ∉ encode b := by
  have hdigit : ∀ w k, c ≠ digitAt w k := fun w k => (digitAt_ne hc w k).symm
  fun_induction encode b with
  | case1 => exact List.not_mem_nil
  | case2 a => simp [hdigit, hpad]
  | case3 a b => simp [hdigit, hpad]
  | case4 a b c rest ih => simp [hdigit, ih]

theorem comma_notMem_encode (b : Bytes) : 44 ∉ encode b := not_mem_encode rfl (by decide) b

theorem newline_notMem_encode (b : Bytes) : 10 ∉ encode b := not_mem_encode rfl (by decide) b

/-! ## Lines of two fields -/

def fields (label a b : Bytes) : Bytes := label ++ encode a ++ ascii "," ++ encode b

theorem drop_fields (label a b : Bytes) :
    (fields label a b).drop label.length = encode a ++ 44 :: encode b := by
  simp only [fields, List.append_assoc]
  exact List.drop_left

theorem prefix_fields (label a b : Bytes) : label <+: fields label a b := by
  simp only [fields, List.append_assoc]
  exact List.prefix_append ..

theorem length_fields (label a b : Bytes) :
    (fields label a b).length =
      label.length + (a.length + 2) / 3 * 4 + 1 + (b.length + 2) / 3 * 4 := by
  simp only [fields, List.length_append, length_encode]
  rfl

theorem not_mem_fields {label : Bytes} (h : (10 : UInt8) ∉ label) (a b : Bytes) :
    10 ∉ fields label a b := by
  have hcomma : (10 : UInt8) ∉ ascii "," := by decide
  simp only [fields, List.mem_append, not_or]
  exact ⟨⟨⟨h, newline_notMem_encode a⟩, hcomma⟩, newline_notMem_encode b⟩

theorem splitFirst_fields (a b : Bytes) :
    splitFirst 44 (encode a ++ 44 :: encode b) = some (encode a, encode b) :=
  splitFirst_eq_some.mpr ⟨rfl, comma_notMem_encode a⟩

end Base64
