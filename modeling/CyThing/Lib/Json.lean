import CyThing.Lib.TextLine
import Mathlib.Data.List.Basic

/-! JSON texts at byte level: a reader of the whole grammar, and texts put together from parts that
it reads back. Strings keep their bytes as they are, so they need not be UTF-8; an escape
`\uXXXX` becomes the UTF-8 of its character. -/

namespace Json
open CLib

/-! ## The grammar -/

structure Number where
  neg : Bool
  whole : Nat
  frac : Bytes
  exp : Int
  deriving DecidableEq

inductive Value
  | null
  | bool (b : Bool)
  | num (n : Number)
  | str (s : Bytes)
  | arr (vs : List Value)
  | obj (ms : List (Bytes × Value))

def Number.ofNat (n : Nat) : Number := ⟨false, n, [], 0⟩

def isWs (c : UInt8) : Bool := c == 32 || c == 9 || c == 10 || c == 13

def skipWs (b : Bytes) : Bytes := b.dropWhile isWs

def expect (c : UInt8) (b : Bytes) : Option Bytes :=
  match skipWs b with
  | [] => none
  | d :: rest => if d = c then some rest else none

def hexDigit (c : UInt8) : Option Nat :=
  if isDigit c then some (c.toNat - 48)
  else if 97 ≤ c ∧ c ≤ 102 then some (c.toNat - 87)
  else if 65 ≤ c ∧ c ≤ 70 then some (c.toNat - 55)
  else none

def hex4 (b : Bytes) : Option (Nat × Bytes) :=
  if b.length < 4 then none
  else ((b.take 4).mapM hexDigit).map fun ds => (ds.foldl (fun n d => n * 16 + d) 0, b.drop 4)

def utf8 (n : Nat) : Bytes := String.utf8EncodeChar (Char.ofNat n)

/-- What follows `\u`; the high half of a surrogate pair needs the low one behind it. -/
def unicode (b : Bytes) : Option (Bytes × Bytes) :=
  (hex4 b).bind fun u =>
    if 0xd800 ≤ u.1 ∧ u.1 < 0xdc00 then
      if u.2.take 2 = [92, 117] then
        (hex4 (u.2.drop 2)).bind fun l =>
          if 0xdc00 ≤ l.1 ∧ l.1 < 0xe000 then
            some (utf8 (0x10000 + (u.1 - 0xd800) * 0x400 + (l.1 - 0xdc00)), l.2)
          else none
      else none
    else if 0xdc00 ≤ u.1 ∧ u.1 < 0xe000 then none
    else some (utf8 u.1, u.2)

def shortEscapes : List (UInt8 × UInt8) :=
  [(34, 34), (92, 92), (47, 47), (98, 8), (102, 12), (110, 10), (114, 13), (116, 9)]

def escaped : Bytes → Option (Bytes × Bytes)
  | [] => none
  | c :: rest =>
    if c = 117 then unicode rest else (shortEscapes.lookup c).map fun d => ([d], rest)

def stringBody : Nat → Bytes → Option (Bytes × Bytes)
  | 0, _ => none
  | _ + 1, [] => none
  | n + 1, c :: rest =>
    if c = 34 then some ([], rest)
    else if c < 32 then none
    else if c = 92 then
      (escaped rest).bind fun e => (stringBody n e.2).map fun r => (e.1 ++ r.1, r.2)
    else (stringBody n rest).map fun r => (c :: r.1, r.2)

def digits (b : Bytes) : Option (Bytes × Bytes) :=
  if b.takeWhile isDigit = [] then none else some (b.takeWhile isDigit, b.dropWhile isDigit)

def fraction (b : Bytes) : Option (Bytes × Bytes) :=
  if b.head? = some 46 then digits b.tail else some ([], b)

def exponent (b : Bytes) : Option (Int × Bytes) :=
  if b.head? = some 101 ∨ b.head? = some 69 then
    let sign := b.tail.head?
    (digits (if sign = some 45 ∨ sign = some 43 then b.tail.tail else b.tail)).map fun r =>
      (if sign = some 45 then -(digitsValue r.1 : Int) else digitsValue r.1, r.2)
  else some (0, b)

def number (b : Bytes) : Option (Number × Bytes) :=
  (digits (if b.head? = some 45 then b.tail else b)).bind fun w =>
    if 1 < w.1.length ∧ w.1.head? = some 48 then none
    else
      (fraction w.2).bind fun f =>
        (exponent f.2).map fun e => (⟨b.head? = some 45, digitsValue w.1, f.1, e.1⟩, e.2)

def word (text : Bytes) (v : Value) (b : Bytes) : Option (Value × Bytes) :=
  if text.isPrefixOf b then some (v, b.drop text.length) else none

mutual

/-- A value with white space before it, and what follows; the fuel bounds the depth and the
length. -/
def value : Nat → Bytes → Option (Value × Bytes)
  | 0, _ => none
  | n + 1, b =>
    match skipWs b with
    | [] => none
    | c :: rest =>
      if c = 34 then (stringBody n rest).map fun r => (.str r.1, r.2)
      else if c = 123 then
        match expect 125 rest with
        | some rest => some (.obj [], rest)
        | none => (members n rest).map fun r => (.obj r.1, r.2)
      else if c = 91 then
        match expect 93 rest with
        | some rest => some (.arr [], rest)
        | none => (elements n rest).map fun r => (.arr r.1, r.2)
      else if c = 110 then word (ascii "null") .null (c :: rest)
      else if c = 116 then word (ascii "true") (.bool true) (c :: rest)
      else if c = 102 then word (ascii "false") (.bool false) (c :: rest)
      else (number (c :: rest)).map fun r => (.num r.1, r.2)

def members : Nat → Bytes → Option (List (Bytes × Value) × Bytes)
  | 0, _ => none
  | n + 1, b =>
    (expect 34 b).bind fun b =>
      (stringBody n b).bind fun k =>
        (expect 58 k.2).bind fun b =>
          (value n b).bind fun v =>
            match expect 44 v.2 with
            | some rest => (members n rest).map fun r => ((k.1, v.1) :: r.1, r.2)
            | none => (expect 125 v.2).map fun rest => ([(k.1, v.1)], rest)

def elements : Nat → Bytes → Option (List Value × Bytes)
  | 0, _ => none
  | n + 1, b =>
    (value n b).bind fun v =>
      match expect 44 v.2 with
      | some rest => (elements n rest).map fun r => (v.1 :: r.1, r.2)
      | none => (expect 93 v.2).map fun rest => ([v.1], rest)

end

def parse (b : Bytes) : Option Value :=
  (value (b.length + 1) b).bind fun r => if skipWs r.2 = [] then some r.1 else none

/-! ## Texts that are read back -/

theorem skipWs_cons {c : UInt8} (hc : isWs c = false) (rest : Bytes) :
    skipWs (c :: rest) = c :: rest :=
  List.dropWhile_cons_of_neg (by rw [hc]; exact Bool.false_ne_true)

theorem expect_self {c : UInt8} (hc : isWs c = false) (rest : Bytes) :
    expect c (c :: rest) = some rest := by
  rw [expect, skipWs_cons hc]
  exact if_pos rfl

theorem expect_other {c d : UInt8} (hd : isWs d = false) (hne : d ≠ c) (rest : Bytes) :
    expect c (d :: rest) = none := by
  rw [expect, skipWs_cons hd]
  exact if_neg hne

def escape (s : Bytes) : Bytes := s.flatMap fun c => if c = 34 ∨ c = 92 then [92, c] else [c]

def quote (s : Bytes) : Bytes := 34 :: (escape s ++ [34])

def Plain (s : Bytes) : Prop := ∀ c ∈ s, 32 ≤ c

theorem length_le_escape (s : Bytes) : s.length ≤ (escape s).length := by
  induction s with
  | nil => exact Nat.le_refl _
  | cons c s ih =>
    rw [escape, List.flatMap_cons, List.length_append, List.length_cons]
    have hc : 1 ≤ (if c = 34 ∨ c = 92 then [92, c] else [c]).length := by
      split <;> simp
    exact (Nat.add_comm _ _).trans_le (Nat.add_le_add hc ih)

theorem stringBody_escape {s : Bytes} (hs : Plain s) {n : Nat} (hn : s.length < n) (rest : Bytes) :
    stringBody n (escape s ++ 34 :: rest) = some (s, rest) := by
  induction s generalizing n with
  | nil =>
    obtain ⟨n, rfl⟩ := Nat.exists_eq_add_one.mpr hn
    exact if_pos rfl
  | cons c s ih =>
    obtain ⟨n, rfl⟩ := Nat.exists_eq_add_one.mpr (Nat.zero_lt_of_lt hn)
    have hrest := ih (fun d hd => hs d (List.mem_cons_of_mem c hd)) (Nat.lt_of_succ_lt_succ hn)
    have hplain : ¬c < 32 := UInt8.not_lt.mpr (hs c List.mem_cons_self)
    by_cases hc : c = 34 ∨ c = 92
    · have hsplit : escape (c :: s) ++ 34 :: rest = 92 :: c :: (escape s ++ 34 :: rest) := by
        rw [escape, List.flatMap_cons, if_pos hc]
        rfl
      have hshort : escaped (c :: (escape s ++ 34 :: rest)) =
          some ([c], escape s ++ 34 :: rest) := by
        rcases hc with rfl | rfl <;> rfl
      rw [hsplit, stringBody, if_neg (by decide), if_neg (by decide), if_pos rfl, hshort,
        Option.bind_some, hrest]
      rfl
    · have hsplit : escape (c :: s) ++ 34 :: rest = c :: (escape s ++ 34 :: rest) := by
        rw [escape, List.flatMap_cons, if_neg hc]
        rfl
      rw [not_or] at hc
      rw [hsplit, stringBody, if_neg hc.1, if_neg hplain, if_neg hc.2, hrest]
      rfl

def Ends (rest : Bytes) : Prop :=
  ∀ c, rest.head? = some c → isDigit c = false ∧ c ≠ 46 ∧ c ≠ 101 ∧ c ≠ 69

def Reads (text : Bytes) (v : Value) : Prop :=
  ∀ n rest, text.length < n → Ends rest → value n (text ++ rest) = some (v, rest)

theorem Reads.parse {text : Bytes} {v : Value} (h : Reads text v) : parse text = some v := by
  have hread := h (text.length + 1) [] (Nat.lt_succ_self _) (fun c hc => by cases hc)
  rw [List.append_nil] at hread
  rw [Json.parse, hread]
  rfl

theorem reads_quote {s : Bytes} (hs : Plain s) : Reads (quote s) (.str s) := by
  intro n rest hn _
  rw [quote, List.length_cons, List.length_append, List.length_singleton] at hn
  obtain ⟨n, rfl⟩ := Nat.exists_eq_add_one.mpr (Nat.zero_lt_of_lt hn)
  have hlen := length_le_escape s
  have hbody := stringBody_escape hs (show s.length < n by omega) rest
  have hsplit : quote s ++ rest = 34 :: (escape s ++ 34 :: rest) := by
    simp [quote]
  rw [hsplit, value, skipWs_cons (by decide)]
  dsimp only
  rw [if_pos rfl, hbody]
  rfl

theorem digits_decimal (n : Nat) {rest : Bytes} (hrest : Ends rest) :
    digits (decimal n ++ rest) = some (decimal n, rest) := by
  have hspan : (decimal n ++ rest).takeWhile isDigit = decimal n ∧
      (decimal n ++ rest).dropWhile isDigit = rest := by
    cases rest with
    | nil =>
      have hall : ∀ c ∈ decimal n, isDigit c = true := fun c hc => isDigit_of_mem_decimal hc
      rw [List.append_nil]
      exact ⟨List.takeWhile_eq_self_iff.mpr hall, List.dropWhile_eq_nil_iff.mpr hall⟩
    | cons c rest => exact takeWhile_decimal n (hrest c rfl).1 rest
  rw [digits, hspan.1, hspan.2, if_neg (decimal_ne_nil n)]

theorem number_decimal (n : Nat) {rest : Bytes} (hrest : Ends rest) :
    number (decimal n ++ rest) = some (.ofNat n, rest) := by
  have hhead : (decimal n ++ rest).head? = (decimal n).head? :=
    List.head?_append_of_ne_nil _ (decimal_ne_nil n)
  have hsign : ¬(decimal n ++ rest).head? = some 45 := by
    rw [hhead]
    intro h
    exact absurd (isDigit_of_mem_decimal (List.mem_of_mem_head? h)) (by decide)
  have hzero : ¬(1 < (decimal n).length ∧ (decimal n).head? = some 48) := by
    rintro ⟨hlen, hlead⟩
    by_cases hn : n = 0
    · subst hn
      exact absurd hlen (by decide)
    · exact head?_decimal_ne (Nat.pos_of_ne_zero hn) hlead
  have hfrac : fraction rest = some ([], rest) :=
    if_neg fun h => (hrest _ h).2.1 rfl
  have hexp : exponent rest = some (0, rest) :=
    if_neg fun h => h.elim (fun h => (hrest _ h).2.2.1 rfl) (fun h => (hrest _ h).2.2.2 rfl)
  rw [number, if_neg hsign, digits_decimal n hrest, Option.bind_some, if_neg hzero, hfrac,
    Option.bind_some, hexp, Option.map_some, digitsValue_decimal, decide_eq_false hsign]
  rfl

theorem reads_decimal (n : Nat) : Reads (decimal n) (.num (.ofNat n)) := by
  intro m rest hm hrest
  obtain ⟨m, rfl⟩ := Nat.exists_eq_add_one.mpr (Nat.zero_lt_of_lt hm)
  obtain ⟨c, ds, hdec⟩ := List.exists_cons_of_ne_nil (decimal_ne_nil n)
  have hc : isDigit c = true := isDigit_of_mem_decimal (hdec ▸ List.mem_cons_self)
  have hnumber := number_decimal n hrest
  rw [hdec, List.cons_append] at hnumber ⊢
  have hother : ∀ d, isDigit d = false → c ≠ d := by
    rintro d hd rfl
    rw [hd] at hc
    cases hc
  have hws : isWs c = false := by
    simp only [isWs, Bool.or_eq_false_iff, beq_eq_false_iff_ne]
    exact ⟨⟨⟨hother _ (by decide), hother _ (by decide)⟩, hother _ (by decide)⟩,
      hother _ (by decide)⟩
  rw [value, skipWs_cons hws]
  dsimp only
  rw [if_neg (hother 34 (by decide)), if_neg (hother 123 (by decide)),
    if_neg (hother 91 (by decide)), if_neg (hother 110 (by decide)),
    if_neg (hother 116 (by decide)), if_neg (hother 102 (by decide)), hnumber]
  rfl

structure Member where
  key : Bytes
  text : Bytes
  value : Value
  plain : Plain key
  reads : Reads text value

def Member.whole (m : Member) : Bytes := quote m.key ++ 58 :: m.text

def membersText : List Member → Bytes
  | [] => []
  | [m] => m.whole
  | m :: ms => m.whole ++ 44 :: membersText ms

def objectText (ms : List Member) : Bytes := 123 :: (membersText ms ++ [125])

theorem ends_cons (c : UInt8) (hc : isDigit c = false ∧ c ≠ 46 ∧ c ≠ 101 ∧ c ≠ 69)
    (rest : Bytes) : Ends (c :: rest) := by
  intro d hd
  rw [← Option.some.inj hd]
  exact hc

theorem members_whole (m : Member) {n : Nat} (hn : m.whole.length ≤ n) {tail : Bytes}
    (htail : Ends tail) :
    members (n + 1) (m.whole ++ tail) =
      match expect 44 tail with
      | some rest => (members n rest).map fun r => ((m.key, m.value) :: r.1, r.2)
      | none => (expect 125 tail).map fun rest => ([(m.key, m.value)], rest) := by
  have hlen := length_le_escape m.key
  simp only [Member.whole, quote, List.length_append, List.length_cons, List.length_nil] at hn
  have hkey := stringBody_escape m.plain (show m.key.length < n by omega)
    (58 :: (m.text ++ tail))
  have hvalue := m.reads n tail (by omega) htail
  have hsplit : m.whole ++ tail = 34 :: (escape m.key ++ 34 :: 58 :: (m.text ++ tail)) := by
    simp [Member.whole, quote]
  rw [hsplit, members, expect_self (by decide), Option.bind_some, hkey, Option.bind_some,
    expect_self (by decide), Option.bind_some, hvalue, Option.bind_some]

theorem members_membersText {ms : List Member} (hne : ms ≠ []) {n : Nat}
    (hn : (membersText ms).length < n) (rest : Bytes) :
    members n (membersText ms ++ 125 :: rest) =
      some (ms.map fun m => (m.key, m.value), rest) := by
  induction ms generalizing n with
  | nil => exact absurd rfl hne
  | cons m ms ih =>
    obtain ⟨n, rfl⟩ := Nat.exists_eq_add_one.mpr (Nat.zero_lt_of_lt hn)
    cases ms with
    | nil =>
      have hturn := members_whole m (Nat.le_of_lt_succ hn) (ends_cons 125 (by decide) rest)
      rw [expect_other (by decide) (by decide), expect_self (by decide)] at hturn
      exact hturn
    | cons m' ms =>
      have htext : membersText (m :: m' :: ms) = m.whole ++ 44 :: membersText (m' :: ms) := rfl
      rw [htext, List.length_append, List.length_cons] at hn
      have hrest := ih (List.cons_ne_nil m' ms) (n := n) (by omega)
      have hturn := members_whole m (n := n) (by omega)
        (ends_cons 44 (by decide) (membersText (m' :: ms) ++ 125 :: rest))
      rw [expect_self (by decide)] at hturn
      dsimp only at hturn
      rw [hrest] at hturn
      rw [htext, List.append_assoc]
      exact hturn

theorem reads_objectText (ms : List Member) :
    Reads (objectText ms) (.obj (ms.map fun m => (m.key, m.value))) := by
  intro n rest hn _
  have hsplit : objectText ms ++ rest = 123 :: (membersText ms ++ 125 :: rest) := by
    simp [objectText]
  rw [objectText, List.length_cons, List.length_append] at hn
  obtain ⟨n, rfl⟩ := Nat.exists_eq_add_one.mpr (Nat.zero_lt_of_lt hn)
  rw [hsplit, value, skipWs_cons (by decide)]
  simp only [if_neg (show ¬(123 : UInt8) = 34 by decide), if_true]
  cases ms with
  | nil =>
    have hclose : expect 125 (membersText [] ++ 125 :: rest) = some rest :=
      expect_self (by decide) rest
    rw [hclose]
    rfl
  | cons m ms =>
    have hopen : expect 125 (membersText (m :: ms) ++ 125 :: rest) = none := by
      cases ms with
      | nil => exact expect_other (by decide) (by decide) _
      | cons m' ms => exact expect_other (by decide) (by decide) _
    rw [hopen, members_membersText (List.cons_ne_nil m ms) (by omega)]
    rfl

end Json
