import Mathlib.Data.List.Infix
import Mathlib.Data.List.TakeDrop

/-! Cutting a stream at a separator with a bounded collector: a collector that is full before
the separator comes is emptied and goes on collecting. What such a collector hands over of a
line depends on the length of the line modulo its capacity only. -/

namespace Framing

variable {α : Type*} {cap : Nat} {sep : α} {l rest stream : List α}

/-! ## What is left of a line -/

def remainder (cap : Nat) (l : List α) : List α := l.drop (l.length / cap * cap)

def handedOf (cap : Nat) (l : List α) : Option (List α) :=
  if l.length % cap = 0 then none else some (remainder cap l)

theorem length_remainder (cap : Nat) (l : List α) :
    (remainder cap l).length = l.length % cap := by
  rw [remainder, List.length_drop, Nat.mod_eq_sub_div_mul]

theorem remainder_of_lt (h : l.length < cap) : remainder cap l = l := by
  rw [remainder, Nat.div_eq_of_lt h, Nat.zero_mul, List.drop_zero]

theorem remainder_concat (hcap : 0 < cap) (l : List α) (b : α) :
    remainder cap (l ++ [b]) =
      if cap ≤ (remainder cap l).length + 1 then [] else remainder cap l ++ [b] := by
  have hlt : l.length % cap < cap := Nat.mod_lt _ hcap
  have hdiv : cap * (l.length / cap) + l.length % cap = l.length := Nat.div_add_mod ..
  rw [length_remainder]
  split
  · next hfull =>
    have hall : (l ++ [b]).length = (l.length / cap + 1) * cap := by
      rw [List.length_append, List.length_singleton, Nat.add_mul, Nat.mul_comm]
      omega
    rw [remainder, hall, Nat.mul_div_cancel _ hcap, ← hall]
    exact List.drop_length
  · next hroom =>
    have hquot : (l ++ [b]).length / cap = l.length / cap := by
      have hsplit : (l ++ [b]).length = l.length % cap + 1 + cap * (l.length / cap) := by
        rw [List.length_append, List.length_singleton]
        omega
      rw [hsplit, Nat.add_mul_div_left _ _ hcap, Nat.div_eq_of_lt (by omega), Nat.zero_add]
    rw [remainder, hquot, List.drop_append_of_le_length (Nat.div_mul_le_self ..), remainder]

theorem handedOf_of_lt (hpos : 0 < l.length) (h : l.length < cap) : handedOf cap l = some l := by
  rw [handedOf, Nat.mod_eq_of_lt h, if_neg (by omega), remainder_of_lt h]

theorem handedOf_append (hfull : l.length = cap) (hpos : 0 < rest.length)
    (h : rest.length < cap) : handedOf cap (l ++ rest) = some rest := by
  have hlen : (l ++ rest).length = rest.length + cap := by
    rw [List.length_append, hfull, Nat.add_comm]
  have hdiv : (l ++ rest).length / cap * cap = cap := by
    rw [hlen, Nat.add_div_right _ (by omega), Nat.div_eq_of_lt h, Nat.zero_add, Nat.one_mul]
  rw [handedOf, hlen, Nat.add_mod_right, Nat.mod_eq_of_lt h, if_neg (by omega), remainder, hdiv,
    List.drop_left' hfull]

theorem handedOf_isSome : (handedOf cap l).isSome ↔ l.length % cap ≠ 0 := by
  unfold handedOf
  split
  · next h => simp [h]
  · next h => simp [h]

theorem filterMap_handedOf_iff {ls : List (List α)} (hpos : ∀ l ∈ ls, 0 < l.length) :
    ls.filterMap (handedOf cap) = ls.filter (fun l => l.length < cap) ↔
      ∀ l ∈ ls, cap ≤ l.length → cap ∣ l.length := by
  constructor
  · -- a line handed over in part would be one more than there are short lines
    intro heq
    have hcount : ls.countP (fun l => (handedOf cap l).isSome) =
        ls.countP (fun l => l.length < cap) := by
      rw [List.countP_eq_length_filter (p := fun l : List α => decide (l.length < cap)), ← heq,
        List.length_filterMap_eq_countP]
    have hle : ∀ x ∈ ls, decide (x.length < cap) = true → (handedOf cap x).isSome = true := by
      intro x hx hshort
      rw [handedOf_of_lt (hpos x hx) (of_decide_eq_true hshort)]
      rfl
    intro l hl hlong
    by_contra hdvd
    have hsome : (handedOf cap l).isSome = true :=
      handedOf_isSome.mpr fun h0 => hdvd (Nat.dvd_of_mod_eq_zero h0)
    obtain ⟨before, after, rfl⟩ := List.append_of_mem hl
    rw [List.forall_mem_append, List.forall_mem_cons] at hle
    have hbefore := List.countP_mono_left hle.1
    have hafter := List.countP_mono_left hle.2.2
    rw [List.countP_append, List.countP_append, List.countP_cons, List.countP_cons, if_pos hsome,
      if_neg (by simpa using hlong)] at hcount
    omega
  · intro h
    induction ls with
    | nil => rfl
    | cons l ls ih =>
      rw [List.forall_mem_cons] at hpos h
      rw [List.filterMap_cons, List.filter_cons, ih hpos.2 h.2]
      by_cases hshort : l.length < cap
      · simp [handedOf_of_lt hpos.1 hshort, hshort]
      · have hzero : l.length % cap = 0 := Nat.mod_eq_zero_of_dvd (h.1 (Nat.not_lt.mp hshort))
        simp [handedOf, hzero, hshort]

/-! ## The collector -/

theorem stream_induction (sep : α) {Q : List α → Prop} (hnone : ∀ l, sep ∉ l → Q l)
    (hline : ∀ l rest, sep ∉ l → Q rest → Q (l ++ sep :: rest)) (stream : List α) : Q stream := by
  induction hn : stream.length using Nat.strong_induction_on generalizing stream with
  | h n ih =>
    by_cases hmem : sep ∈ stream
    · obtain ⟨l, rest, rfl, hl⟩ := List.eq_append_cons_of_mem hmem
      refine hline l rest hl (ih _ ?_ rest rfl)
      rw [← hn, List.length_append, List.length_cons]
      omega
    · exact hnone stream hmem

section Collector

variable [DecidableEq α]

structure Collector (α : Type*) where
  rx : List α := []
  handed : List (List α) := []

def Collector.push (cap : Nat) (sep : α) (c : Collector α) (b : α) : Collector α :=
  let rx := c.rx ++ [b]
  if cap ≤ rx.length then { c with rx := [] }
  else if b = sep then ⟨[], c.handed ++ [rx]⟩
  else { c with rx := rx }

def completeLines (sep : α) : List α → List (List α)
  | [] => []
  | b :: bs =>
    if b = sep then [b] :: completeLines sep bs
    else (completeLines sep bs).modifyHead (b :: ·)

theorem completeLines_of_not_mem (h : sep ∉ l) : completeLines sep l = [] := by
  induction l with
  | nil => rfl
  | cons b l ih =>
    rw [List.mem_cons, not_or] at h
    rw [completeLines, if_neg (Ne.symm h.1), ih h.2]
    rfl

theorem completeLines_cons (h : sep ∉ l) (rest : List α) :
    completeLines sep (l ++ sep :: rest) = (l ++ [sep]) :: completeLines sep rest := by
  induction l with
  | nil => rw [List.nil_append, completeLines, if_pos rfl, List.nil_append]
  | cons b l ih =>
    rw [List.mem_cons, not_or] at h
    rw [List.cons_append, completeLines, if_neg (Ne.symm h.1), ih h.2]
    rfl

theorem length_pos_of_mem_completeLines (h : l ∈ completeLines sep stream) : 0 < l.length := by
  induction stream using stream_induction sep with
  | hnone s hs => simp [completeLines_of_not_mem hs] at h
  | hline first rest hfirst ih =>
    rw [completeLines_cons hfirst, List.mem_cons] at h
    rcases h with rfl | h
    · simp
    · exact ih h

theorem Collector.push_remainder (hcap : 0 < cap) (l : List α) (hs : List (List α)) (b : α)
    (hb : b ≠ sep) :
    Collector.push cap sep ⟨remainder cap l, hs⟩ b = ⟨remainder cap (l ++ [b]), hs⟩ := by
  rw [remainder_concat hcap, Collector.push, List.length_append, List.length_singleton]
  by_cases hfull : cap ≤ (remainder cap l).length + 1
  · rw [if_pos hfull, if_pos hfull]
  · rw [if_neg hfull, if_neg hfull, if_neg hb]

theorem Collector.foldl_push (hcap : 0 < cap) (hl : sep ∉ l) (hs : List (List α)) :
    l.foldl (Collector.push cap sep) ⟨[], hs⟩ = ⟨remainder cap l, hs⟩ := by
  induction l using List.reverseRecOn with
  | nil => rw [remainder, List.drop_nil, List.foldl_nil]
  | append_singleton l b ih =>
    rw [List.mem_append, List.mem_singleton, not_or] at hl
    rw [List.foldl_append, ih hl.1]
    exact Collector.push_remainder hcap l hs b (Ne.symm hl.2)

theorem Collector.foldl_line (hcap : 0 < cap) (hl : sep ∉ l) (hs : List (List α)) :
    (l ++ [sep]).foldl (Collector.push cap sep) ⟨[], hs⟩ =
      ⟨[], hs ++ (handedOf cap (l ++ [sep])).toList⟩ := by
  have hlen := length_remainder cap (l ++ [sep])
  rw [List.foldl_append, Collector.foldl_push hcap hl, List.foldl_cons, List.foldl_nil,
    Collector.push, List.length_append, List.length_singleton, handedOf, ← hlen,
    remainder_concat hcap]
  by_cases hfull : cap ≤ (remainder cap l).length + 1
  · rw [if_pos hfull, if_pos hfull, List.length_nil, if_pos rfl, Option.toList_none,
      List.append_nil]
  · rw [if_neg hfull, if_neg hfull, if_pos rfl, if_neg (by simp)]
    rfl

/-- What is handed over of a stream, and what the collector still holds: nothing where the
stream stops at the end of a line. -/
theorem Collector.foldl_stream (hcap : 0 < cap) (stream : List α) (hs : List (List α)) :
    (stream.foldl (Collector.push cap sep) ⟨[], hs⟩).handed =
        hs ++ (completeLines sep stream).filterMap (handedOf cap) ∧
      (stream.getLast? = some sep →
        (stream.foldl (Collector.push cap sep) ⟨[], hs⟩).rx = []) := by
  induction stream using stream_induction sep generalizing hs with
  | hnone l hl =>
    rw [Collector.foldl_push hcap hl, completeLines_of_not_mem hl, List.filterMap_nil,
      List.append_nil]
    exact ⟨rfl, fun hlast => absurd (List.mem_of_getLast? hlast) hl⟩
  | hline l rest hl ih =>
    have hsplit : l ++ sep :: rest = (l ++ [sep]) ++ rest := by simp
    obtain ⟨hhanded, hrx⟩ := ih (hs ++ (handedOf cap (l ++ [sep])).toList)
    rw [hsplit, List.foldl_append, Collector.foldl_line hcap hl, ← hsplit, completeLines_cons hl]
    refine ⟨?_, fun hlast => ?_⟩
    · rw [hhanded, List.append_assoc, List.filterMap_cons]
      cases handedOf cap (l ++ [sep]) <;> rfl
    · rcases List.eq_nil_or_concat rest with rfl | ⟨rest', b, rfl⟩
      · rfl
      · rw [hsplit, List.concat_eq_append, ← List.append_assoc, List.getLast?_concat] at hlast
        refine hrx ?_
        rw [List.concat_eq_append, List.getLast?_concat, hlast]

end Collector

end Framing
