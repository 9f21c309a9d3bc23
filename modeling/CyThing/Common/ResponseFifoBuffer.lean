import CyThing.Lib.BoundedQueue
import CyThing.Lib.Memory
import CyThing.Lib.Trace
import CyThing.TcpServer.ResponseFifo

/-! The byte FIFO of outgoing responses in its buffer (`common/response_fifo`), under either
policy for a full one, over any run of pushes and drains. -/

namespace CyThing
open CLib Trace BoundedQueue

/-! ## The buffer -/

inductive OnFull
  | dropNew
  | overwriteOldest
  deriving DecidableEq

structure ResponseFifo where
  buf : Block responseFifoSize
  len : Nat

def responseFifoInit : ResponseFifo := ⟨Block.zero _, 0⟩

def ResponseFifo.used (f : ResponseFifo) : Bytes := f.buf.1.take f.len

/-- The first `n` bytes leave, the others move to the head and the freed bytes are cleared;
`none` for a write outside the buffer, here and below. -/
def ResponseFifo.shift (f : ResponseFifo) (n : Nat) : Option ResponseFifo :=
  let len := f.len - n
  (memcpy f.buf 0 (Layout.slice f.buf.1 n len)).bind fun buf =>
    (memcpy buf len (List.replicate n 0)).map fun buf => ⟨buf, len⟩

/-- The loop of `discard_oldest`; every round but the last takes a byte at least, so `len`
rounds are enough. -/
def discardLoop (used : Bytes) (need : Nat) : Nat → Nat → Nat
  | 0, discard => discard
  | fuel + 1, discard =>
    if responseFifoSize - (used.length - discard) < need ∧ discard < used.length then
      match splitFirst 10 (used.drop discard) with
      | some (line, _) => discardLoop used need fuel (discard + line.length + 1)
      | none => discardLoop used need fuel used.length
    else discard

def ResponseFifo.discardOldest (f : ResponseFifo) (need : Nat) : Option ResponseFifo :=
  let discard := discardLoop f.used need f.len 0
  if 0 < discard then f.shift discard else some f

def ResponseFifo.append (f : ResponseFifo) (data : Bytes) (addNl : Bool) : Option ResponseFifo :=
  (memcpy f.buf f.len data).bind fun buf =>
    let len := f.len + data.length
    if addNl then (memcpy buf len [10]).map fun buf => ⟨buf, len + 1⟩ else some ⟨buf, len⟩

def ResponseFifo.push (policy : OnFull) (f : ResponseFifo) (data : Bytes) :
    Option (ResponseFifo × Bool) :=
  let addNl : Bool := data.getLast? ≠ some 10
  let need := data.length + if addNl then 1 else 0
  if responseFifoSize < need then some (f, false)
  else if responseFifoSize < f.len + need then
    match policy with
    | .overwriteOldest =>
      (f.discardOldest need).bind fun f => (f.append data addNl).map fun f => (f, true)
    | .dropNew => some (f, false)
  else (f.append data addNl).map fun f => (f, true)

def ResponseFifo.drain (f : ResponseFifo) (outCap : Nat) : Option (Bytes × ResponseFifo) :=
  let n := if f.len < outCap then f.len else outCap
  (f.shift n).map fun f' => (f.buf.1.take n, f')

/-! ## Runs -/

inductive FifoOp
  | push (data : Bytes)
  | drain (outCap : Nat)

structure FifoRun where
  fifo : ResponseFifo := responseFifoInit
  drained : Bytes := []
  results : List (Bytes × Bool) := []

def FifoRun.step (policy : OnFull) (s : FifoRun) : FifoOp → Option FifoRun
  | .push data =>
    (s.fifo.push policy data).map fun r =>
      { s with fifo := r.1, results := s.results ++ [(data, r.2)] }
  | .drain outCap =>
    (s.fifo.drain outCap).map fun r => { s with fifo := r.2, drained := s.drained ++ r.1 }

def fifoRun (policy : OnFull) (ops : List FifoOp) : Option FifoRun :=
  ops.foldlM (FifoRun.step policy) {}

def FifoOp.OneLine : FifoOp → Prop
  | .push data => 10 ∉ data.dropLast
  | .drain _ => True

/-! ## What the operations do to the used part -/

section Used

variable {f f' : ResponseFifo} {data : Bytes} {n need : Nat}

theorem ResponseFifo.length_used (h : f.len ≤ responseFifoSize) : f.used.length = f.len := by
  rw [ResponseFifo.used, List.length_take, f.buf.2, Nat.min_eq_left h]

theorem length_storedLine (data : Bytes) :
    (storedLine data).length = data.length + if data.getLast? ≠ some 10 then 1 else 0 := by
  by_cases h : data.getLast? = some 10
  · rw [storedLine, if_pos h, if_neg (not_not_intro h), Nat.add_zero]
  · rw [storedLine, if_neg h, if_pos h, List.length_append, List.length_singleton]

theorem ResponseFifo.shift_spec (hlen : f.len ≤ responseFifoSize) (hn : n ≤ f.len) :
    ∃ f', f.shift n = some f' ∧ f'.used = f.used.drop n ∧ f'.len = f.len - n := by
  have hslice : Layout.slice f.buf.1 n (f.len - n) = f.used.drop n := by
    rw [Layout.slice, List.take_drop, Nat.add_sub_cancel' hn, ResponseFifo.used]
  have hrest : (f.used.drop n).length = f.len - n := by
    rw [List.length_drop, ResponseFifo.length_used hlen]
  have hmove : 0 + (f.used.drop n).length ≤ responseFifoSize := by omega
  obtain ⟨buf₁, h₁⟩ := exists_memcpy f.buf hmove
  have hclear : f.len - n + (List.replicate n (0 : UInt8)).length ≤ responseFifoSize := by
    rw [List.length_replicate]
    omega
  obtain ⟨buf₂, h₂⟩ := exists_memcpy buf₁ hclear
  refine ⟨⟨buf₂, f.len - n⟩, ?_, ?_, rfl⟩
  · rw [ResponseFifo.shift, hslice, h₁, Option.bind_some, h₂, Option.map_some]
  · have hhead := take_memcpy h₁
    rw [Nat.zero_add, hrest, List.take_zero, List.nil_append] at hhead
    exact (take_memcpy_of_le h₂ le_rfl).trans hhead

theorem ResponseFifo.append_spec (hroom : f.len + (storedLine data).length ≤ responseFifoSize) :
    ∃ f', f.append data (data.getLast? ≠ some 10) = some f' ∧
      f'.used = f.used ++ storedLine data ∧ f'.len = f.len + (storedLine data).length := by
  rw [length_storedLine] at hroom
  have hdata : f.len + data.length ≤ responseFifoSize := by omega
  obtain ⟨buf₁, h₁⟩ := exists_memcpy f.buf hdata
  have htake₁ : buf₁.1.take (f.len + data.length) = f.used ++ data := take_memcpy h₁
  rw [ResponseFifo.append, h₁, Option.bind_some, length_storedLine]
  by_cases hnl : data.getLast? = some 10
  · have hflag : decide (data.getLast? ≠ some 10) = false := decide_eq_false (not_not_intro hnl)
    rw [hflag, if_neg (not_not_intro hnl), storedLine, if_pos hnl]
    exact ⟨_, rfl, htake₁, rfl⟩
  · have hflag : decide (data.getLast? ≠ some 10) = true := decide_eq_true hnl
    rw [if_pos hnl] at hroom
    have hbyte : f.len + data.length + [(10 : UInt8)].length ≤ responseFifoSize := hroom
    obtain ⟨buf₂, h₂⟩ := exists_memcpy buf₁ hbyte
    have htake₂ : buf₂.1.take (f.len + data.length + 1) = f.used ++ data ++ [10] :=
      htake₁ ▸ take_memcpy h₂
    rw [hflag, if_pos hnl, storedLine, if_neg hnl, ← List.append_assoc]
    exact ⟨⟨buf₂, f.len + data.length + 1⟩, by simp only [h₂, ite_true, Option.map_some],
      htake₂, rfl⟩

theorem discardLoop_spec {used : Bytes} (hsize : used.length ≤ responseFifoSize)
    (hneed : need ≤ responseFifoSize) (fuel discard : Nat) (hd : discard ≤ used.length)
    (hfuel : used.length - discard ≤ fuel) :
    discardLoop used need fuel discard ≤ used.length ∧
      used.length - discardLoop used need fuel discard + need ≤ responseFifoSize := by
  induction fuel generalizing discard with
  | zero => exact ⟨hd, by rw [discardLoop]; omega⟩
  | succ fuel ih =>
    rw [discardLoop]
    split
    · next hfull =>
      split
      · next line rest hsplit =>
        have hlen := congrArg List.length (splitFirst_eq_some.mp hsplit).1
        rw [List.length_drop, List.length_append, List.length_cons] at hlen
        exact ih _ (by omega) (by omega)
      · exact ih _ le_rfl (by omega)
    · next hroom => exact ⟨hd, by omega⟩

theorem ResponseFifo.discardOldest_spec (hlen : f.len ≤ responseFifoSize)
    (hneed : need ≤ responseFifoSize) :
    ∃ f', f.discardOldest need = some f' ∧
      f'.used = f.used.drop (discardLoop f.used need f.len 0) ∧
      f'.len + need ≤ responseFifoSize := by
  have hused := ResponseFifo.length_used hlen
  obtain ⟨hle, hroom⟩ :=
    discardLoop_spec (hused.trans_le hlen) hneed f.len 0 (Nat.zero_le _) (by omega)
  rw [hused] at hle hroom
  rw [ResponseFifo.discardOldest]
  by_cases hpos : 0 < discardLoop f.used need f.len 0
  · obtain ⟨f', hshift, hdrop, hlen'⟩ := ResponseFifo.shift_spec hlen hle
    exact ⟨f', (if_pos hpos).trans hshift, hdrop, by rwa [hlen']⟩
  · have h0 : discardLoop f.used need f.len 0 = 0 := Nat.eq_zero_of_not_pos hpos
    rw [h0] at hroom ⊢
    exact ⟨f, rfl, List.drop_zero.symm, hroom⟩

def fifoKept (used : Bytes) (need : Nat) : Bytes :=
  if responseFifoSize < used.length + need then
    used.drop (discardLoop used need used.length 0)
  else used

theorem ResponseFifo.push_dropNew (hlen : f.len ≤ responseFifoSize) (data : Bytes) :
    ∃ f', f.push .dropNew data = some (f', responseFifoTakes f.used data) ∧
      f'.len ≤ responseFifoSize ∧ f'.used = responseFifoPush f.used data := by
  have hused := ResponseFifo.length_used hlen
  simp only [ResponseFifo.push, decide_eq_true_eq, ← length_storedLine]
  rw [responseFifoPush_eq, responseFifoTakes, hused]
  by_cases hbig : responseFifoSize < (storedLine data).length
  · have hno : decide ((storedLine data).length ≤ responseFifoSize) = false := by simpa using hbig
    rw [if_pos hbig, hno, Bool.false_and]
    exact ⟨f, rfl, hlen, rfl⟩
  have hok : decide ((storedLine data).length ≤ responseFifoSize) = true := by simpa using hbig
  rw [if_neg hbig, hok, Bool.true_and]
  by_cases hfull : responseFifoSize < f.len + (storedLine data).length
  · rw [if_pos hfull, decide_eq_false (Nat.not_le.mpr hfull)]
    exact ⟨f, rfl, hlen, rfl⟩
  · obtain ⟨f', happend, hf', hlen'⟩ := ResponseFifo.append_spec (Nat.not_lt.mp hfull)
    rw [if_neg hfull, happend, decide_eq_true (Nat.not_lt.mp hfull)]
    exact ⟨f', rfl, by omega, hf'⟩

theorem ResponseFifo.push_overwriteOldest (hlen : f.len ≤ responseFifoSize) (data : Bytes) :
    ∃ f' ok, f.push .overwriteOldest data = some (f', ok) ∧ f'.len ≤ responseFifoSize ∧
      (ok = true ↔ (storedLine data).length ≤ responseFifoSize) ∧
      f'.used =
        if ok then fifoKept f.used (storedLine data).length ++ storedLine data else f.used := by
  have hused := ResponseFifo.length_used hlen
  simp only [ResponseFifo.push, decide_eq_true_eq, ← length_storedLine]
  rw [fifoKept, hused]
  by_cases hbig : responseFifoSize < (storedLine data).length
  · rw [if_pos hbig]
    exact ⟨f, false, rfl, hlen, by simpa using hbig, rfl⟩
  rw [if_neg hbig]
  by_cases hfull : responseFifoSize < f.len + (storedLine data).length
  · obtain ⟨f₁, hdiscard, hf₁, hroom⟩ :=
      ResponseFifo.discardOldest_spec hlen (Nat.not_lt.mp hbig)
    obtain ⟨f', happend, hf', hlen'⟩ := ResponseFifo.append_spec hroom
    rw [if_pos hfull, if_pos hfull, hdiscard, Option.bind_some, happend]
    exact ⟨f', true, rfl, by omega, by simpa using hbig, by rw [hf', hf₁]; rfl⟩
  · obtain ⟨f', happend, hf', hlen'⟩ := ResponseFifo.append_spec (Nat.not_lt.mp hfull)
    rw [if_neg hfull, if_neg hfull, happend]
    exact ⟨f', true, rfl, by omega, by simpa using hbig, hf'⟩

theorem ResponseFifo.drain_spec (hlen : f.len ≤ responseFifoSize) (outCap : Nat) :
    ∃ f', f.drain outCap = some (f.used.take outCap, f') ∧ f'.len ≤ responseFifoSize ∧
      f'.used = f.used.drop outCap := by
  have hused := ResponseFifo.length_used hlen
  have hmin : (if f.len < outCap then f.len else outCap) = min outCap f.len := by
    split_ifs <;> omega
  obtain ⟨f', hshift, hdrop, hlen'⟩ := ResponseFifo.shift_spec hlen (Nat.min_le_right outCap f.len)
  refine ⟨f', ?_, by omega, ?_⟩
  · rw [ResponseFifo.drain, hmin, hshift, Option.map_some, ResponseFifo.used, List.take_take]
  · rw [hdrop]
    rcases Nat.le_total outCap f.len with h | h
    · rw [Nat.min_eq_left h]
    · rw [Nat.min_eq_right h, List.drop_of_length_le hused.le,
        List.drop_of_length_le (hused.trans_le h)]

end Used

/-! ## Whole lines -/

def IsLine (l : Bytes) : Prop := ∃ t, l = t ++ [10] ∧ 10 ∉ t

theorem isLine_storedLine {data : Bytes} (h : 10 ∉ data.dropLast) :
    IsLine (storedLine data) := by
  unfold storedLine
  split
  · next hlast => exact ⟨data.dropLast, (List.dropLast_append_getLast? 10 hlast).symm, h⟩
  · next hlast =>
    refine ⟨data, rfl, fun hmem => ?_⟩
    rcases List.eq_nil_or_concat data with rfl | ⟨t, b, rfl⟩
    · cases hmem
    · rw [List.concat_eq_append] at h hmem hlast
      rw [List.dropLast_concat] at h
      rw [List.getLast?_concat] at hlast
      rcases List.mem_append.mp hmem with hmem | hmem
      · exact h hmem
      · exact hlast (by rw [List.mem_singleton.mp hmem])

theorem drop_discardLoop {need : Nat} {q : List Bytes} (hq : ∀ l ∈ q, IsLine l) (pre : Bytes)
    (fuel : Nat) (hsize : (pre ++ q.flatten).length ≤ responseFifoSize)
    (hfuel : q.flatten.length ≤ fuel) :
    (pre ++ q.flatten).drop (discardLoop (pre ++ q.flatten) need fuel pre.length) =
      (makeRoom responseFifoSize need q).flatten := by
  induction q generalizing pre fuel with
  | nil =>
    have hstop : discardLoop (pre ++ [].flatten) need fuel pre.length = pre.length := by
      cases fuel with
      | zero => rfl
      | succ fuel =>
        rw [discardLoop, if_neg]
        simp
    rw [hstop]
    simp [makeRoom]
  | cons l q ih =>
    rw [List.forall_mem_cons] at hq
    obtain ⟨⟨t, rfl, ht⟩, hq⟩ := hq
    have hline : ((t ++ [10]) :: q).flatten.length = t.length + 1 + q.flatten.length := by
      rw [List.flatten_cons, List.length_append, List.length_append, List.length_singleton]
    obtain ⟨fuel, rfl⟩ : ∃ k, fuel = k + 1 := ⟨fuel - 1, by omega⟩
    have hrest : (pre ++ ((t ++ [10]) :: q).flatten).drop pre.length = t ++ 10 :: q.flatten := by
      rw [List.drop_left, List.flatten_cons, List.append_assoc]
      rfl
    have hsplit : splitFirst 10 (t ++ 10 :: q.flatten) = some (t, q.flatten) :=
      splitFirst_eq_some.mpr ⟨rfl, ht⟩
    have hmove : pre ++ ((t ++ [10]) :: q).flatten = (pre ++ (t ++ [10])) ++ q.flatten := by
      rw [List.flatten_cons, ← List.append_assoc]
    have hnext : (pre ++ (t ++ [10])).length = pre.length + t.length + 1 := by
      rw [List.length_append, List.length_append, List.length_singleton]
      omega
    rw [List.length_append] at hsize
    rw [discardLoop, makeRoom, hrest, hsplit, List.length_append]
    by_cases hfull : responseFifoSize < ((t ++ [10]) :: q).flatten.length + need
    · rw [if_pos hfull, if_pos ⟨by omega, by omega⟩, hmove]
      dsimp only
      rw [← hnext]
      refine ih hq (pre ++ (t ++ [10])) fuel ?_ (by omega)
      rw [← hmove, List.length_append]
      exact hsize
    · rw [if_neg hfull, if_neg (by omega), List.drop_left]

theorem fifoKept_flatten {need : Nat} {q : List Bytes} (hq : ∀ l ∈ q, IsLine l)
    (hsize : q.flatten.length ≤ responseFifoSize) :
    fifoKept q.flatten need = (makeRoom responseFifoSize need q).flatten := by
  unfold fifoKept
  split
  · exact drop_discardLoop hq [] _ hsize le_rfl
  · next hroom => rw [makeRoom_of_fits (Nat.not_lt.mp hroom)]

/-! ## Every run -/

def pushedData (ops : List FifoOp) : List Bytes :=
  ops.filterMap fun
    | .push data => some data
    | .drain _ => none

def FifoRun.accepted (s : FifoRun) : List Bytes :=
  (s.results.filter fun r => r.2).map fun r => storedLine r.1

def TakesAll (policy : OnFull) (ops : List FifoOp) : Prop :=
  ∀ pre outCap s, pre ++ [.drain outCap] <+: ops → fifoRun policy pre = some s →
    s.fifo.len ≤ outCap

/-- Storing over the oldest, in whole lines: what was drained, what is queued and what was
lost. A line is lost only when a new one needs its room, the oldest first. -/
inductive Overwrites : List FifoOp → List Bytes → List Bytes → List Bytes → Prop
  | start : Overwrites [] [] [] []
  | tooLong {ops sent queue lost data} (h : Overwrites ops sent queue lost)
      (hlong : responseFifoSize < (storedLine data).length) :
      Overwrites (ops ++ [.push data]) sent queue lost
  | push {ops sent queue lost data gone kept} (h : Overwrites ops sent queue lost)
      (hroom : MakesRoom responseFifoSize (storedLine data).length queue gone kept) :
      Overwrites (ops ++ [.push data]) sent (kept ++ [storedLine data]) (lost ++ gone)
  | drain {ops sent queue lost} (outCap : Nat) (h : Overwrites ops sent queue lost) :
      Overwrites (ops ++ [.drain outCap]) (sent ++ queue) [] lost

section Runs

variable {policy : OnFull} {ops : List FifoOp} {s : FifoRun} {sent queue lost : List Bytes}

theorem pushedData_concat (ops : List FifoOp) (op : FifoOp) :
    pushedData (ops ++ [op]) = pushedData ops ++ pushedData [op] := List.filterMap_append

theorem TakesAll.of_append {ops' : List FifoOp} (h : TakesAll policy (ops ++ ops')) :
    TakesAll policy ops :=
  fun pre outCap s hpre => h pre outCap s (hpre.trans (List.prefix_append ops ops'))

theorem FifoRun.accepted_push (s : FifoRun) (f : ResponseFifo) (data : Bytes) (ok : Bool) :
    FifoRun.accepted { s with fifo := f, results := s.results ++ [(data, ok)] } =
      s.accepted ++ if ok then [storedLine data] else [] := by
  rw [FifoRun.accepted, FifoRun.accepted, List.filter_append, List.map_append]
  cases ok <;> rfl

def fittingLines (ops : List FifoOp) : List Bytes :=
  ((pushedData ops).map storedLine).filter fun l => l.length ≤ responseFifoSize

theorem fittingLines_concat (ops : List FifoOp) (op : FifoOp) :
    fittingLines (ops ++ [op]) = fittingLines ops ++ fittingLines [op] := by
  rw [fittingLines, pushedData_concat, List.map_append, List.filter_append, fittingLines,
    fittingLines]

theorem fittingLines_push (data : Bytes) :
    fittingLines [.push data] =
      if (storedLine data).length ≤ responseFifoSize then [storedLine data] else [] := by
  change [storedLine data].filter (fun l => l.length ≤ responseFifoSize) = _
  rw [List.filter_singleton, Bool.cond_decide]

theorem Overwrites.lines (h : Overwrites ops sent queue lost) :
    (sent ++ queue).Sublist (fittingLines ops) ∧
      (lost ++ (sent ++ queue)).Perm (fittingLines ops) := by
  induction h with
  | start => exact ⟨List.Sublist.refl _, List.Perm.refl _⟩
  | tooLong h hlong ih =>
    rw [fittingLines_concat, fittingLines_push, if_neg (Nat.not_le.mpr hlong), List.append_nil]
    exact ih
  | @push ops sent queue lost data gone kept h hroom ih =>
    have hfits : (storedLine data).length ≤ responseFifoSize := by
      have := hroom.fits
      omega
    rw [fittingLines_concat, fittingLines_push, if_pos hfits]
    obtain ⟨hsub, hperm⟩ := ih
    rw [hroom.split] at hsub hperm
    constructor
    · rw [← List.append_assoc]
      refine List.Sublist.append (List.Sublist.trans ?_ hsub) (List.Sublist.refl _)
      exact (List.Sublist.refl sent).append (List.sublist_append_right gone kept)
    · have hmove : (lost ++ gone ++ (sent ++ (kept ++ [storedLine data]))).Perm
          (lost ++ (sent ++ (gone ++ kept)) ++ [storedLine data]) := by
        simp only [List.append_assoc]
        refine List.Perm.append_left lost ?_
        simp only [← List.append_assoc]
        exact ((List.perm_append_comm).append_right _).append_right _
      exact hmove.trans (hperm.append_right _)
  | drain outCap h ih =>
    have hnone : fittingLines [.drain outCap] = [] := rfl
    rw [fittingLines_concat, hnone, List.append_nil, List.append_nil]
    exact ih

structure FifoRun.Kept (ops : List FifoOp) (s : FifoRun) : Prop where
  len : s.fifo.len ≤ responseFifoSize
  pushed : s.results.map Prod.fst = pushedData ops

theorem FifoRun.Kept.push {f : ResponseFifo} {data : Bytes} {ok : Bool} (h : s.Kept ops)
    (hlen : f.len ≤ responseFifoSize) :
    FifoRun.Kept (ops ++ [.push data])
      { s with fifo := f, results := s.results ++ [(data, ok)] } where
  len := hlen
  pushed := by
    rw [List.map_append, h.pushed, pushedData_concat]
    rfl

theorem FifoRun.Kept.drain {f : ResponseFifo} {out : Bytes} (h : s.Kept ops) (outCap : Nat)
    (hlen : f.len ≤ responseFifoSize) :
    FifoRun.Kept (ops ++ [.drain outCap]) { s with fifo := f, drained := s.drained ++ out } where
  len := hlen
  pushed := by
    rw [h.pushed, pushedData_concat]
    exact (List.append_nil _).symm

theorem fifoRun_dropNew (ops : List FifoOp) :
    ∃ s, fifoRun .dropNew ops = some s ∧
      s.Kept ops ∧ s.drained ++ s.fifo.used = s.accepted.flatten := by
  refine foldlM_induction
    (Q := fun ops (s : FifoRun) => s.Kept ops ∧ s.drained ++ s.fifo.used = s.accepted.flatten)
    ⟨⟨Nat.zero_le _, rfl⟩, rfl⟩ (fun ops s op _ h => ?_) ops
  obtain ⟨hkept, hbytes⟩ := h
  cases op with
  | push data =>
    obtain ⟨f', hpush, hlen, hused⟩ := ResponseFifo.push_dropNew hkept.len data
    refine ⟨_, by rw [FifoRun.step, hpush, Option.map_some], hkept.push hlen, ?_⟩
    rw [FifoRun.accepted_push, List.flatten_append, ← hbytes, List.append_assoc, hused,
      responseFifoPush_eq]
    cases responseFifoTakes s.fifo.used data <;> simp
  | drain outCap =>
    obtain ⟨f', hdrain, hlen, hused⟩ := ResponseFifo.drain_spec hkept.len outCap
    refine ⟨_, by rw [FifoRun.step, hdrain, Option.map_some], hkept.drain outCap hlen, ?_⟩
    rw [hused, List.append_assoc, List.take_append_drop]
    exact hbytes

def FifoRun.HoldsLines (ops : List FifoOp) (s : FifoRun) : Prop :=
  s.accepted = fittingLines ops ∧ ∃ sent queue lost, Overwrites ops sent queue lost ∧
    s.drained = sent.flatten ∧ s.fifo.used = queue.flatten ∧ ∀ l ∈ sent ++ queue, IsLine l

theorem FifoRun.HoldsLines.push {f : ResponseFifo} {data : Bytes} {ok : Bool}
    (h : s.HoldsLines ops) (hkept : s.Kept ops) (hone : 10 ∉ data.dropLast)
    (hok : ok = true ↔ (storedLine data).length ≤ responseFifoSize)
    (hused : f.used = if ok then
      fifoKept s.fifo.used (storedLine data).length ++ storedLine data else s.fifo.used) :
    FifoRun.HoldsLines (ops ++ [.push data])
      { s with fifo := f, results := s.results ++ [(data, ok)] } := by
  obtain ⟨haccepted, sent, queue, lost, hrun, hsent, hqueue, hlines⟩ := h
  have hfit : fittingLines [.push data] = if ok then [storedLine data] else [] := by
    rw [fittingLines_push]
    exact if_congr hok.symm rfl rfl
  refine ⟨by rw [FifoRun.accepted_push, fittingLines_concat, haccepted, hfit], ?_⟩
  cases ok with
  | false =>
    have hlong : ¬ (storedLine data).length ≤ responseFifoSize := fun h => by cases hok.mpr h
    exact ⟨sent, queue, lost, hrun.tooLong (Nat.not_le.mp hlong), hsent, hused.trans hqueue,
      hlines⟩
  | true =>
    have hsize : queue.flatten.length ≤ responseFifoSize := by
      rw [← hqueue, ResponseFifo.length_used hkept.len]
      exact hkept.len
    have hq : ∀ l ∈ queue, IsLine l := fun l hl => hlines l (List.mem_append_right _ hl)
    obtain ⟨gone, hroom⟩ := makesRoom_makeRoom (hok.mp rfl) queue
    refine ⟨sent, _, _, hrun.push hroom, hsent, ?_, fun l hl => ?_⟩
    · rw [hused, if_pos rfl, hqueue, fifoKept_flatten hq hsize, List.flatten_append,
        List.flatten_singleton]
    · rw [← List.append_assoc, List.mem_append, List.mem_singleton] at hl
      rcases hl with hl | rfl
      · refine hlines l (List.mem_append.mpr ((List.mem_append.mp hl).imp_right fun hk => ?_))
        rw [hroom.split]
        exact List.mem_append_right _ hk
      · exact isLine_storedLine hone

theorem fifoRun_overwriteOldest (ops : List FifoOp) :
    ∃ s, fifoRun .overwriteOldest ops = some s ∧ s.Kept ops ∧
      ((∀ op ∈ ops, op.OneLine) → TakesAll .overwriteOldest ops → s.HoldsLines ops) := by
  refine foldlM_induction
    (Q := fun ops (s : FifoRun) => s.Kept ops ∧
      ((∀ op ∈ ops, op.OneLine) → TakesAll .overwriteOldest ops → s.HoldsLines ops))
    ⟨⟨Nat.zero_le _, rfl⟩, fun _ _ => ⟨rfl, [], [], [], .start, rfl, rfl,
      fun l hl => absurd hl List.not_mem_nil⟩⟩ (fun ops s op hrun h => ?_) ops
  obtain ⟨hkept, hlines⟩ := h
  have hearlier (hone : ∀ x ∈ ops ++ [op], x.OneLine)
      (hall : TakesAll .overwriteOldest (ops ++ [op])) : s.HoldsLines ops :=
    hlines (fun x hx => hone x (List.mem_append_left _ hx)) hall.of_append
  cases op with
  | push data =>
    obtain ⟨f', ok, hpush, hlen, hok, hused⟩ :=
      ResponseFifo.push_overwriteOldest hkept.len data
    have hstep : s.step .overwriteOldest (.push data) =
        some { s with fifo := f', results := s.results ++ [(data, ok)] } := by
      rw [FifoRun.step, hpush, Option.map_some]
    refine ⟨_, hstep, hkept.push hlen, fun hone hall => ?_⟩
    exact (hearlier hone hall).push hkept (hone (.push data) (by simp)) hok hused
  | drain outCap =>
    obtain ⟨f', hdrain, hlen, hused⟩ := ResponseFifo.drain_spec hkept.len outCap
    have hstep : s.step .overwriteOldest (.drain outCap) =
        some { s with fifo := f', drained := s.drained ++ s.fifo.used.take outCap } := by
      rw [FifoRun.step, hdrain, Option.map_some]
    refine ⟨_, hstep, hkept.drain outCap hlen, fun hone hall => ?_⟩
    obtain ⟨haccepted, sent, queue, lost, hover, hsent, hqueue, hl⟩ := hearlier hone hall
    have hwhole : s.fifo.used.length ≤ outCap := by
      rw [ResponseFifo.length_used hkept.len]
      exact hall ops outCap s (List.prefix_refl _) hrun
    refine ⟨?_, sent ++ queue, [], lost, hover.drain outCap, ?_, ?_, by simpa using hl⟩
    · rw [fittingLines_concat]
      exact haccepted.trans (List.append_nil _).symm
    · rw [hsent, List.take_of_length_le hwhole, hqueue, List.flatten_append]
    · rw [hused, List.drop_of_length_le hwhole]
      rfl

end Runs

/-- For every run of pushes of one line each and of drains of any capacity: the buffer is kept
to. Where a full FIFO refuses, what was drained and what is queued are exactly the accepted
lines, in order. Where it overwrites and every drain takes the whole buffer, they are the lines
that fit, in order, without those lost to a newer line, and these are at every push the oldest
and no more than it needs. -/
theorem response_fifo_lines (policy : OnFull) (ops : List FifoOp)
    (hone : ∀ op ∈ ops, op.OneLine) :
    ∃ s, fifoRun policy ops = some s ∧ s.fifo.len ≤ responseFifoSize ∧
      s.results.map Prod.fst = pushedData ops ∧
      (policy = .dropNew → s.drained ++ s.fifo.used = s.accepted.flatten ∧
        ∀ l ∈ s.accepted, IsLine l) ∧
      (policy = .overwriteOldest → TakesAll policy ops →
        s.accepted = fittingLines ops ∧
        ∃ sent queue lost, Overwrites ops sent queue lost ∧
          s.drained = sent.flatten ∧ s.fifo.used = queue.flatten ∧
          (∀ l ∈ sent ++ queue, IsLine l) ∧ (sent ++ queue).Sublist (fittingLines ops) ∧
          (lost ++ (sent ++ queue)).Perm (fittingLines ops)) := by
  cases policy with
  | dropNew =>
    obtain ⟨s, hrun, hkept, hbytes⟩ := fifoRun_dropNew ops
    refine ⟨s, hrun, hkept.len, hkept.pushed, fun _ => ⟨hbytes, fun l hl => ?_⟩,
      fun h => absurd h (by decide)⟩
    obtain ⟨r, hr, rfl⟩ := List.mem_map.mp hl
    have hdata : r.1 ∈ pushedData ops := by
      rw [← hkept.pushed]
      exact List.mem_map_of_mem (List.mem_of_mem_filter hr)
    obtain ⟨op, hop, hpush⟩ := List.mem_filterMap.mp hdata
    cases op with
    | push data =>
      obtain rfl : data = r.1 := Option.some.inj hpush
      exact isLine_storedLine (hone _ hop)
    | drain outCap => cases hpush
  | overwriteOldest =>
    obtain ⟨s, hrun, hkept, hlines⟩ := fifoRun_overwriteOldest ops
    refine ⟨s, hrun, hkept.len, hkept.pushed, fun h => absurd h (by decide), fun _ hall => ?_⟩
    obtain ⟨haccepted, sent, queue, lost, hover, hsent, hqueue, hl⟩ := hlines hone hall
    exact ⟨haccepted, sent, queue, lost, hover, hsent, hqueue, hl, hover.lines.1, hover.lines.2⟩

theorem takesAll_of_capacity {ops : List FifoOp}
    (h : ∀ outCap, .drain outCap ∈ ops → responseFifoSize ≤ outCap) :
    TakesAll .overwriteOldest ops := by
  intro pre outCap s hpre hrun
  obtain ⟨s', hrun', hkept, -⟩ := fifoRun_overwriteOldest pre
  obtain rfl : s = s' := Option.some.inj (hrun.symm.trans hrun')
  exact hkept.len.trans (h outCap (hpre.subset (by simp)))

def overwritingOps : List FifoOp :=
  [.push (List.replicate 3000 65), .push (List.replicate 3000 66), .drain responseFifoSize,
    .push (ascii "c\n")]

theorem response_fifo_lines_overwriting :
    ∃ s sent queue lost, fifoRun .overwriteOldest overwritingOps = some s ∧
      Overwrites overwritingOps sent queue lost ∧
      s.drained = sent.flatten ∧ s.fifo.used = queue.flatten := by
  have hone : ∀ op ∈ overwritingOps, op.OneLine := by
    have hrep (b : UInt8) (hb : b ≠ 10) : 10 ∉ (List.replicate 3000 b).dropLast := by
      intro h
      exact hb (List.eq_of_mem_replicate (List.dropLast_subset _ h)).symm
    simp only [overwritingOps, List.forall_mem_cons, List.not_mem_nil, false_implies,
      implies_true, and_true]
    have hshort : 10 ∉ (ascii "c\n").dropLast := by decide +kernel
    exact ⟨hrep 65 (by decide), hrep 66 (by decide), trivial, hshort⟩
  have hall : TakesAll .overwriteOldest overwritingOps := by
    refine takesAll_of_capacity fun outCap h => ?_
    simp only [overwritingOps, List.mem_cons, FifoOp.drain.injEq, reduceCtorEq, List.not_mem_nil,
      or_false, false_or] at h
    exact h.ge
  obtain ⟨s, hrun, -, -, -, hover⟩ := response_fifo_lines .overwriteOldest overwritingOps hone
  obtain ⟨-, sent, queue, lost, h, hsent, hqueue, -⟩ := hover rfl hall
  exact ⟨s, sent, queue, lost, hrun, h, hsent, hqueue⟩

theorem partial_drain_splits {data : Bytes} (data' : Bytes) {k : Nat} (hone : 10 ∉ data.dropLast)
    (hk : k < (storedLine data).length) (hfits : (storedLine data).length ≤ responseFifoSize)
    (hfits' : (storedLine data').length ≤ responseFifoSize)
    (hfull : responseFifoSize < (storedLine data).length - k + (storedLine data').length) :
    ∃ s, fifoRun .overwriteOldest [.push data, .drain k, .push data'] = some s ∧
      s.drained ++ s.fifo.used = (storedLine data).take k ++ storedLine data' := by
  have hinit : responseFifoInit.len ≤ responseFifoSize := Nat.zero_le _
  obtain ⟨f₁, ok₁, hpush₁, hlen₁, hok₁, hused₁⟩ :=
    ResponseFifo.push_overwriteOldest hinit data
  have hempty : fifoKept responseFifoInit.used (storedLine data).length = [] :=
    if_neg (Nat.not_lt.mpr (by simpa [ResponseFifo.used, responseFifoInit] using hfits))
  rw [if_pos (hok₁.mpr hfits), hempty, List.nil_append] at hused₁
  obtain ⟨f₂, hdrain, hlen₂, hused₂⟩ := ResponseFifo.drain_spec hlen₁ k
  obtain ⟨f₃, ok₃, hpush₃, hlen₃, hok₃, hused₃⟩ :=
    ResponseFifo.push_overwriteOldest hlen₂ data'
  -- what is left of the first line ends in its newline, so it is discarded as one line
  have hline : IsLine ((storedLine data).drop k) := by
    obtain ⟨t, ht, hno⟩ := isLine_storedLine hone
    rw [ht, List.length_append, List.length_singleton] at hk
    rw [ht, List.drop_append_of_le_length (by omega)]
    exact ⟨t.drop k, rfl, fun hmem => hno (List.mem_of_mem_drop hmem)⟩
  have hgone : fifoKept ((storedLine data).drop k) (storedLine data').length = [] := by
    have hq : ∀ l ∈ [(storedLine data).drop k], IsLine l := by simpa using hline
    have hsize : [(storedLine data).drop k].flatten.length ≤ responseFifoSize := by
      rw [List.flatten_singleton, List.length_drop]
      omega
    have hkept : fifoKept [(storedLine data).drop k].flatten (storedLine data').length = _ :=
      fifoKept_flatten hq hsize
    rw [makeRoom, List.flatten_singleton, List.length_drop, if_pos hfull] at hkept
    exact hkept
  rw [if_pos (hok₃.mpr hfits'), hused₂, hused₁, hgone, List.nil_append] at hused₃
  refine ⟨{ fifo := f₃, drained := f₁.used.take k, results := [(data, ok₁), (data', ok₃)] }, ?_, ?_⟩
  · simp only [fifoRun, List.foldlM_cons, List.foldlM_nil, FifoRun.step, hpush₁, hdrain, hpush₃,
      Option.map_some, Option.bind_eq_bind, Option.bind_some, List.nil_append]
    rfl
  · rw [hused₁, hused₃]

theorem length_storedLine_replicate (n : Nat) {b : UInt8} (hb : b ≠ 10) :
    (storedLine (List.replicate n b)).length = n + 1 := by
  have hlast : (List.replicate n b).getLast? ≠ some 10 := fun h =>
    hb (List.eq_of_mem_replicate (List.mem_of_getLast? h)).symm
  rw [storedLine, if_neg hlast, List.length_append, List.length_replicate, List.length_singleton]

def splittingOps : List FifoOp :=
  [.push (List.replicate 3000 65), .drain 1, .push (List.replicate 3000 66)]

/-- The rest of a line that is drained in part is discarded as if it were a line. -/
theorem partial_drain_no_lines :
    ∃ s, fifoRun .overwriteOldest splittingOps = some s ∧
      s.drained ++ s.fifo.used = (storedLine (List.replicate 3000 65)).take 1 ++
        storedLine (List.replicate 3000 66) ∧
      ∀ lines : List Bytes, lines.Sublist ((pushedData splittingOps).map storedLine) →
        s.drained ++ s.fifo.used ≠ lines.flatten := by
  have hA := length_storedLine_replicate 3000 (b := 65) (by decide)
  have hB := length_storedLine_replicate 3000 (b := 66) (by decide)
  have hone : (10 : UInt8) ∉ (List.replicate 3000 (65 : UInt8)).dropLast := by
    intro h
    cases List.eq_of_mem_replicate (List.dropLast_subset _ h)
  obtain ⟨s, hrun, hbytes⟩ := partial_drain_splits (List.replicate 3000 66) (k := 1) hone
    (by rw [hA]; decide) (by rw [hA]; decide) (by rw [hB]; decide) (by rw [hA, hB]; decide)
  refine ⟨s, hrun, hbytes, fun lines hsub heq => ?_⟩
  -- there are 3002 bytes, and every line has 3001
  have hlines : ∀ l ∈ lines, l.length = 3001 := by
    intro l hl
    obtain ⟨data, hdata, rfl⟩ := List.mem_map.mp (hsub.subset hl)
    rcases List.mem_pair.mp hdata with rfl | rfl
    · exact hA
    · exact hB
  have hcount : lines.flatten.length = lines.length * 3001 := by
    rw [List.length_flatten, List.map_congr_left hlines, List.map_const', List.sum_replicate_nat]
  rw [← heq, hbytes, List.length_append, List.length_take, hA, hB] at hcount
  omega

end CyThing
