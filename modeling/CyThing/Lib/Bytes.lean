import Mathlib.Algebra.Group.Nat.Defs
import Mathlib.Data.List.Infix
import Mathlib.Data.List.TakeWhile
import Mathlib.Tactic.Ring

/-! Byte strings as C code handles them: literals, NUL-terminated text, bounded copies,
prefix tests, first separators, decimal numbers and big-endian words. -/

namespace CLib

abbrev Bytes := List UInt8

def ascii (s : String) : Bytes := s.toList.map fun c => UInt8.ofNat c.toNat

abbrev Block (n : Nat) := {b : Bytes // b.length = n}

/-- What copying up to `n` bytes of `b` into a cleared `uint8_t[n]` leaves there. -/
def Block.fit (n : Nat) (b : Bytes) : Block n := ⟨(b ++ List.replicate n 0).take n, by simp⟩

def Block.zero (n : Nat) : Block n := ⟨List.replicate n 0, List.length_replicate⟩

/-- What `strlen` and its relatives see of a buffer: everything before the first NUL. -/
def cstr (b : Bytes) : Bytes := b.takeWhile (· != 0)

def snprintf (size : Nat) (text : Bytes) : Bytes := text.take (size - 1)

/-- `sprintf(dst, fmt)` without arguments: `%%` is a percent sign, and C defines no other
conversion when there is nothing to convert. -/
def formatNoArgs : Bytes → Option Bytes
  | [] => some []
  | c :: fmt =>
    if c = 37 then
      match fmt with
      | 37 :: rest => (formatNoArgs rest).map (37 :: ·)
      | _ => none
    else (formatNoArgs fmt).map (c :: ·)

def strncmpEq (n : Nat) (a b : Bytes) : Bool := a.take n == b.take n

def hasPrefix (line pre : Bytes) : Bool := pre.isPrefixOf line

def hasSuffix (line suf : Bytes) : Bool := suf.isSuffixOf line

def splitFirst (c : UInt8) : Bytes → Option (Bytes × Bytes)
  | [] => none
  | b :: bs =>
    if b = c then some ([], bs) else (splitFirst c bs).map fun p => (b :: p.1, p.2)

def decimal (n : Nat) : Bytes := (Nat.toDigits 10 n).map fun c => UInt8.ofNat c.toNat

def decimalInt (n : Int) : Bytes :=
  if n < 0 then ascii "-" ++ decimal n.natAbs else decimal n.natAbs

def getBe (b : Bytes) : Nat := b.foldl (fun n x => n * 256 + x.toNat) 0

def putBe : Nat → Nat → Bytes
  | 0, _ => []
  | k + 1, n => UInt8.ofNat (n / 256 ^ k) :: putBe k n

def isSpace (b : UInt8) : Bool := b == 32 || (9 ≤ b && b ≤ 13)

def isDigit (b : UInt8) : Bool := 48 ≤ b && b ≤ 57

def digitsValue (ds : Bytes) : Nat := ds.foldl (fun n d => n * 10 + (d.toNat - 48)) 0

/-- `strtol(text, &end, 10)`: the number and what is left behind it; text without a number
is left whole. -/
def strtol (text : Bytes) : Int × Bytes :=
  let t := text.dropWhile isSpace
  let (neg, t) := match t with
    | 45 :: r => (true, r)
    | 43 :: r => (false, r)
    | r => (false, r)
  let ds := t.takeWhile isDigit
  if ds.isEmpty then (0, text)
  else (if neg then -(digitsValue ds : Int) else digitsValue ds, t.dropWhile isDigit)

def atoi (text : Bytes) : Int := (strtol text).1

theorem hasPrefix_iff {line pre : Bytes} : hasPrefix line pre = true ↔ pre <+: line :=
  List.isPrefixOf_iff_prefix

theorem splitFirst_eq_some {c : UInt8} {b x y : Bytes} :
    splitFirst c b = some (x, y) ↔ b = x ++ c :: y ∧ c ∉ x := by
  induction b generalizing x with
  | nil => simp [splitFirst]
  | cons a b ih =>
    by_cases ha : a = c
    · subst ha
      cases x with
      | nil => simp [splitFirst, eq_comm]
      | cons d x =>
        simp only [splitFirst, ite_true, Option.some.injEq, Prod.mk.injEq, List.cons_append,
          List.cons.injEq, List.mem_cons, not_or]
        constructor
        · rintro ⟨⟨⟩, -⟩
        · rintro ⟨⟨rfl, -⟩, hne, -⟩
          exact absurd rfl hne
    · cases x with
      | nil => simp [splitFirst, ha]
      | cons d x =>
        simp only [splitFirst, ha, ite_false, Option.map_eq_some_iff, Prod.exists, Prod.mk.injEq,
          List.cons_append, List.cons.injEq, List.mem_cons, not_or]
        constructor
        · rintro ⟨x', y', h, ⟨rfl, rfl⟩, rfl⟩
          obtain ⟨rfl, hx⟩ := ih.mp h
          exact ⟨⟨rfl, rfl⟩, Ne.symm ha, hx⟩
        · rintro ⟨⟨rfl, rfl⟩, -, hx⟩
          exact ⟨x, y, ih.mpr ⟨rfl, hx⟩, ⟨rfl, rfl⟩, rfl⟩

theorem splitFirst_eq_none {c : UInt8} {b : Bytes} : splitFirst c b = none ↔ c ∉ b := by
  induction b with
  | nil => simp [splitFirst]
  | cons a b ih =>
    by_cases ha : a = c
    · simp [splitFirst, ha]
    · simp [splitFirst, ha, Ne.symm ha, ih]

theorem Block.fit_val {n : Nat} {b : Bytes} (h : b.length ≤ n) :
    (Block.fit n b).1 = b ++ List.replicate (n - b.length) 0 := by
  simp [Block.fit, List.take_append, List.take_of_length_le h]

theorem getBe_cons (x : UInt8) (b : Bytes) :
    getBe (x :: b) = x.toNat * 256 ^ b.length + getBe b := by
  have hacc : ∀ (b : Bytes) (n : Nat),
      b.foldl (fun n x => n * 256 + x.toNat) n = n * 256 ^ b.length + getBe b := by
    intro b
    induction b with
    | nil => simp [getBe]
    | cons y b ih =>
      intro n
      simp only [getBe, List.foldl_cons, List.length_cons, Nat.zero_mul, Nat.zero_add]
      rw [ih, ih y.toNat, Nat.pow_succ']
      ring
  simpa [getBe] using hacc b x.toNat

theorem getBe_append (x y : Bytes) : getBe (x ++ y) = getBe x * 256 ^ y.length + getBe y := by
  induction x with
  | nil => simp [getBe]
  | cons a x ih =>
    rw [List.cons_append, getBe_cons, getBe_cons, ih, List.length_append, Nat.pow_add]
    ring

theorem length_putBe (k n : Nat) : (putBe k n).length = k := by
  induction k with
  | zero => rfl
  | succ k ih => rw [putBe, List.length_cons, ih]

theorem getBe_putBe (k n : Nat) : getBe (putBe k n) = n % 256 ^ k := by
  induction k with
  | zero => simp [putBe, getBe, Nat.mod_one]
  | succ k ih =>
    rw [putBe, getBe_cons, ih, length_putBe, UInt8.toNat_ofNat']
    change n / 256 ^ k % 256 * 256 ^ k + n % 256 ^ k = n % 256 ^ (k + 1)
    rw [Nat.pow_succ 256 k, Nat.mod_mul]
    ring

theorem cstr_append_zero (text rest : Bytes) : cstr (text ++ 0 :: rest) = cstr text := by
  induction text with
  | nil => simp [cstr]
  | cons x xs ih =>
    by_cases hx : x = 0
    · simp [cstr, hx]
    · simpa [cstr, hx] using ih

theorem cstr_eq_self {text : Bytes} (h : (0 : UInt8) ∉ text) : cstr text = text :=
  List.takeWhile_eq_self_iff.mpr fun x hx => by
    simpa using fun h0 : x = 0 => h (h0 ▸ hx)

theorem cstr_fit {n : Nat} {text : Bytes} (hlen : text.length ≤ n) (hnul : (0 : UInt8) ∉ text) :
    cstr (Block.fit n text).1 = text := by
  rw [Block.fit_val hlen]
  cases n - text.length with
  | zero => rw [List.replicate_zero, List.append_nil, cstr_eq_self hnul]
  | succ k => rw [List.replicate_succ, cstr_append_zero, cstr_eq_self hnul]

theorem formatNoArgs_eq_self {fmt : Bytes} (h : (37 : UInt8) ∉ fmt) :
    formatNoArgs fmt = some fmt := by
  induction fmt with
  | nil => rfl
  | cons c fmt ih =>
    have hc : c ≠ 37 := fun hc => h (by simp [hc])
    have hfmt : (37 : UInt8) ∉ fmt := fun hm => h (List.mem_cons_of_mem c hm)
    rw [formatNoArgs, if_neg hc, ih hfmt]
    · rfl
    · exact fun rest heq => hfmt (by simp [heq])

theorem formatNoArgs_cons {c : UInt8} (hc : c ≠ 37) (fmt : Bytes) :
    formatNoArgs (c :: fmt) = (formatNoArgs fmt).map (c :: ·) := by
  rw [formatNoArgs.eq_def]
  simp only [hc, if_false]

theorem formatNoArgs_percent (fmt : Bytes) :
    formatNoArgs (37 :: 37 :: fmt) = (formatNoArgs fmt).map (37 :: ·) := by
  rw [formatNoArgs.eq_def]
  simp only [if_true]

structure FormatsTo (fmt text : Bytes) : Prop where
  half : fmt.length ≤ 2 * text.length
  length_le : text.length ≤ fmt.length
  plain : text.length = fmt.length → (37 : UInt8) ∉ fmt
  subset : ∀ c ∈ text, c ∈ fmt

theorem formatsTo_of_formatNoArgs {fmt text : Bytes} (h : formatNoArgs fmt = some text) :
    FormatsTo fmt text := by
  induction fmt using formatNoArgs.induct generalizing text with
  | case1 =>
    rw [formatNoArgs, Option.some_inj] at h
    subst h
    exact ⟨Nat.zero_le _, le_rfl, fun _ => List.not_mem_nil, fun _ hc => hc⟩
  | case2 rest ih =>
    rw [formatNoArgs_percent] at h
    obtain ⟨out, hout, rfl⟩ := Option.map_eq_some_iff.mp h
    have hrest := ih hout
    have hlen := hrest.length_le
    have hhalf := hrest.half
    refine ⟨?_, ?_, fun hl => ?_, fun c hc => ?_⟩
    · simp only [List.length_cons]
      omega
    · simp only [List.length_cons]
      omega
    · simp only [List.length_cons] at hl
      omega
    · rcases List.mem_cons.mp hc with rfl | hc
      · exact List.mem_cons_self
      · exact List.mem_cons_of_mem _ (List.mem_cons_of_mem _ (hrest.subset c hc))
  | case3 fmt hno =>
    rw [formatNoArgs, if_pos rfl] at h
    · cases h
    · exact hno
  | case4 c fmt hc ih =>
    rw [formatNoArgs_cons hc] at h
    obtain ⟨out, hout, rfl⟩ := Option.map_eq_some_iff.mp h
    have hrest := ih hout
    refine ⟨?_, Nat.succ_le_succ hrest.length_le, fun hl hmem => ?_, fun d hd => ?_⟩
    · have hhalf := hrest.half
      simp only [List.length_cons]
      omega
    · rcases List.mem_cons.mp hmem with h37 | hmem
      · exact hc h37.symm
      · exact hrest.plain (Nat.succ_inj.mp hl) hmem
    · rcases List.mem_cons.mp hd with rfl | hd
      · exact List.mem_cons_self
      · exact List.mem_cons_of_mem _ (hrest.subset d hd)

theorem take_length_cstr {b : Bytes} (h : (0 : UInt8) ∈ b) :
    b.take ((cstr b).length + 1) = cstr b ++ [0] := by
  induction b with
  | nil => cases h
  | cons x xs ih =>
    by_cases hx : x = 0
    · simp [cstr, hx]
    · have hmem : (0 : UInt8) ∈ xs := (List.mem_cons.mp h).resolve_left (Ne.symm hx)
      simpa [cstr, hx] using ih hmem

theorem prefix_of_hasPrefix {line p q : Bytes} (hp : hasPrefix line p = true)
    (hq : hasPrefix line q = true) : hasPrefix q p = true ∨ hasPrefix p q = true := by
  rw [hasPrefix_iff] at hp hq
  rcases List.prefix_or_prefix_of_prefix hp hq with h | h
  · exact Or.inl (hasPrefix_iff.mpr h)
  · exact Or.inr (hasPrefix_iff.mpr h)

theorem not_hasPrefix_of_hasPrefix {line p q : Bytes}
    (hpq : hasPrefix q p = false ∧ hasPrefix p q = false) (hp : hasPrefix line p = true) :
    hasPrefix line q = false := by
  rcases hq : hasPrefix line q with _ | _
  · rfl
  · rcases prefix_of_hasPrefix hp hq with h | h
    · rw [hpq.1] at h; cases h
    · rw [hpq.2] at h; cases h

end CLib
