import CyThing.Lib.Bytes
import Mathlib.Data.Nat.Digits.Defs

/-! Text protocols: decimal numbers that `strtol` reads back, and buffers of lines that each end
in `\n`. -/

namespace CLib

/-! ## Decimal numbers -/

theorem toNat_of_mem_toDigits {n : Nat} {c : Char} (h : c ∈ Nat.toDigits 10 n) :
    48 ≤ c.toNat ∧ c.toNat ≤ 57 := by
  have hd := Nat.isDigit_of_mem_toDigits (by decide) (by decide) h
  simp only [Char.isDigit, Bool.and_eq_true, decide_eq_true_eq] at hd
  exact hd

theorem toNat_ofNat_digit {c : Char} (h : c.toNat ≤ 57) :
    (UInt8.ofNat c.toNat).toNat = c.toNat := by
  rw [UInt8.toNat_ofNat']
  omega

theorem isDigit_of_mem_decimal {n : Nat} {b : UInt8} (h : b ∈ decimal n) : isDigit b = true := by
  obtain ⟨c, hc, rfl⟩ := List.mem_map.mp h
  obtain ⟨hlow, hhigh⟩ := toNat_of_mem_toDigits hc
  simp only [isDigit, Bool.and_eq_true, decide_eq_true_eq, UInt8.le_iff_toNat_le,
    toNat_ofNat_digit hhigh]
  exact ⟨hlow, hhigh⟩

theorem not_mem_decimal {c : UInt8} (hc : isDigit c = false) (n : Nat) : c ∉ decimal n := by
  intro h
  rw [isDigit_of_mem_decimal h] at hc
  cases hc

theorem toNat_of_isDigit {b : UInt8} (h : isDigit b = true) : 48 ≤ b.toNat ∧ b.toNat ≤ 57 := by
  simp only [isDigit, Bool.and_eq_true, decide_eq_true_eq, UInt8.le_iff_toNat_le] at h
  exact h

theorem decimal_ne_nil (n : Nat) : decimal n ≠ [] := by
  simp [decimal, Nat.toDigits_ne_nil]

theorem length_decimal_le {n e : Nat} (he : 0 < e) (h : n < 10 ^ e) : (decimal n).length ≤ e := by
  rw [decimal, List.length_map]
  exact Nat.toDigits_length 10 n e he h

theorem head?_decimal_ne {n : Nat} (hn : 0 < n) : (decimal n).head? ≠ some 48 := by
  induction n using Nat.strong_induction_on with
  | _ n ih =>
    by_cases hlt : n < 10
    · have hdigit : ∀ k < 10, 0 < k → UInt8.ofNat k.digitChar.toNat ≠ 48 := by decide
      rw [decimal, Nat.toDigits_of_lt_base hlt]
      exact fun h => hdigit n hlt hn (Option.some.inj h)
    · have hsplit : decimal n =
          decimal (n / 10) ++ [UInt8.ofNat (n % 10).digitChar.toNat] := by
        rw [decimal, Nat.toDigits_of_base_le (by decide) (Nat.not_lt.mp hlt), List.map_append]
        rfl
      rw [hsplit, List.head?_append_of_ne_nil _ (decimal_ne_nil _)]
      exact ih (n / 10) (by omega) (by omega)

theorem digitsValue_decimal (n : Nat) : digitsValue (decimal n) = n := by
  have hfold : ∀ (cs : List Char) (acc : Nat), (∀ c ∈ cs, c.toNat ≤ 57) →
      (cs.map fun c => UInt8.ofNat c.toNat).foldl (fun n d => n * 10 + (d.toNat - 48)) acc =
        Nat.ofDigitChars 10 cs acc := by
    intro cs
    induction cs with
    | nil => exact fun acc _ => rfl
    | cons c cs ih =>
      intro acc hcs
      rw [List.map_cons, List.foldl_cons, ih _ fun d hd => hcs d (List.mem_cons_of_mem c hd),
        toNat_ofNat_digit (hcs c (List.mem_cons_self ..)), Nat.ofDigitChars_cons, Nat.mul_comm]
      rfl
  rw [digitsValue, decimal, hfold _ 0 fun c hc => (toNat_of_mem_toDigits hc).2]
  exact Nat.ofDigitChars_toDigits (by decide) (by decide)

theorem takeWhile_decimal (n : Nat) {c : UInt8} (hc : isDigit c = false) (rest : Bytes) :
    (decimal n ++ c :: rest).takeWhile isDigit = decimal n ∧
      (decimal n ++ c :: rest).dropWhile isDigit = c :: rest := by
  have hall : ∀ b ∈ decimal n, isDigit b = true := fun b hb => isDigit_of_mem_decimal hb
  constructor
  · rw [List.takeWhile_append_of_pos hall, List.takeWhile_cons_of_neg (by simp [hc]),
      List.append_nil]
  · rw [List.dropWhile_append_of_pos hall, List.dropWhile_cons_of_neg (by simp [hc])]

theorem strtol_decimalInt (n : Int) {c : UInt8} (hc : isDigit c = false) (rest : Bytes) :
    strtol (decimalInt n ++ c :: rest) = (n, c :: rest) := by
  obtain ⟨htake, hdrop⟩ := takeWhile_decimal n.natAbs hc rest
  have hne := decimal_ne_nil n.natAbs
  have hvalue := digitsValue_decimal n.natAbs
  by_cases hneg : n < 0
  · have hsign : (ascii "-" ++ decimal n.natAbs ++ c :: rest).dropWhile isSpace =
        45 :: (decimal n.natAbs ++ c :: rest) := by
      rw [List.append_assoc]
      rfl
    have hn : -(n.natAbs : Int) = n := by omega
    simp only [strtol, decimalInt, if_pos hneg, hsign, htake, hdrop, hvalue, hn,
      List.isEmpty_eq_false_iff.mpr hne, Bool.false_eq_true, if_false, if_true]
  · have hn : (n.natAbs : Int) = n := by omega
    rcases hd : decimal n.natAbs with _ | ⟨d, ds⟩
    · exact absurd hd hne
    have hdigit : isDigit d = true :=
      isDigit_of_mem_decimal (n := n.natAbs) (by rw [hd]; exact List.mem_cons_self ..)
    obtain ⟨hlow, hhigh⟩ := toNat_of_isDigit hdigit
    have hspace : isSpace d = false := by
      simp only [isSpace, Bool.or_eq_false_iff, beq_eq_false_iff_ne, Bool.and_eq_false_iff,
        decide_eq_false_iff_not, UInt8.le_iff_toNat_le, ne_eq, ← UInt8.toNat_inj]
      exact ⟨fun h => absurd (h ▸ hlow) (by decide),
        Or.inr fun h => absurd (hlow.trans h) (by decide)⟩
    have hminus : d ≠ 45 := fun h => absurd (h ▸ hlow) (by decide)
    have hplus : d ≠ 43 := fun h => absurd (h ▸ hlow) (by decide)
    rw [hd] at htake hdrop hvalue
    simp only [strtol, decimalInt, if_neg hneg, hd, List.cons_append,
      List.dropWhile_cons_of_neg (Bool.eq_false_iff.mp hspace)]
    split
    · next h => exact absurd (List.cons.inj h).1 hminus
    · next h => exact absurd (List.cons.inj h).1 hplus
    · rw [← List.cons_append, htake, hdrop, hvalue, hn]
      rfl

/-! ## Lines -/

def linesOf : Bytes → List Bytes
  | [] => []
  | b :: bs =>
    if b = 10 then [b] :: linesOf bs
    else match linesOf bs with
      | [] => [[b]]
      | l :: ls => (b :: l) :: ls

def unlines (lines : List Bytes) : Bytes := lines.flatMap fun l => l ++ [10]

theorem unlines_cons (l : Bytes) (lines : List Bytes) :
    unlines (l :: lines) = l ++ 10 :: unlines lines := by
  rw [unlines, List.flatMap_cons, List.append_assoc]
  rfl

theorem unlines_append (lines lines' : List Bytes) :
    unlines (lines ++ lines') = unlines lines ++ unlines lines' := List.flatMap_append

theorem linesOf_cons {l : Bytes} (h : (10 : UInt8) ∉ l) (rest : Bytes) :
    linesOf (l ++ 10 :: rest) = (l ++ [10]) :: linesOf rest := by
  induction l with
  | nil => rfl
  | cons b l ih =>
    have hb : b ≠ 10 := fun hb => h (hb ▸ List.mem_cons_self ..)
    rw [List.cons_append, linesOf, if_neg hb, ih fun hl => h (List.mem_cons_of_mem b hl)]
    rfl

theorem linesOf_unlines {lines : List Bytes} (h : ∀ l ∈ lines, (10 : UInt8) ∉ l) :
    linesOf (unlines lines) = lines.map fun l => l ++ [10] := by
  induction lines with
  | nil => rfl
  | cons l lines ih =>
    rw [unlines_cons, linesOf_cons (h l (List.mem_cons_self ..)),
      ih fun x hx => h x (List.mem_cons_of_mem l hx), List.map_cons]

end CLib
