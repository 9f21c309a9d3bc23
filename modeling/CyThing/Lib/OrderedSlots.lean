import Mathlib.Data.List.DropRight
import Mathlib.Data.List.Range

/-! A block of slots whose items stand in the order in which they came. An item that leaves
frees its slot and leaves a gap; a new item goes behind the last one, and when the last slot is
taken the gaps are closed first. -/

namespace OrderedSlots

variable {α : Type*} (free : α → Bool)

def live (slots : List α) : List α := slots.filter fun a => !free a

def next (slots : List α) : Nat := (slots.rdropWhile free).length

section Compact

variable (blank : α)

/-- The loop that closes the gaps, in the middle of its work; `gap` is the first free slot
seen. -/
structure Compaction (α : Type*) where
  slots : List α
  gap : Option Nat

def compactAt (s : Compaction α) (i : Nat) : Compaction α :=
  if free (s.slots.getD i blank) then { s with gap := some (s.gap.getD i) }
  else
    match s.gap with
    | none => s
    | some gap => ⟨(s.slots.set gap (s.slots.getD i blank)).set i blank, some (gap + 1)⟩

def compact (slots : List α) : List α :=
  ((List.range slots.length).foldl (compactAt free blank) ⟨slots, none⟩).slots

end Compact

variable {free} {blank a : α} {slots : List α}

theorem live_append (l l' : List α) : live free (l ++ l') = live free l ++ live free l' :=
  List.filter_append ..

theorem live_cons (a : α) (l : List α) :
    live free (a :: l) = if free a then live free l else a :: live free l := by
  rw [live, List.filter_cons]
  cases free a <;> rfl

theorem live_of_free {l : List α} (h : ∀ a ∈ l, free a = true) : live free l = [] := by
  rw [live, List.filter_eq_nil_iff]
  intro a ha
  simp [h a ha]

theorem not_free_of_mem_live (h : a ∈ live free slots) : free a = false := by
  simpa using (List.mem_filter.mp h).2

theorem length_live_le (free : α → Bool) (slots : List α) :
    (live free slots).length ≤ slots.length := List.length_filter_le ..

theorem next_le (free : α → Bool) (slots : List α) : next free slots ≤ slots.length :=
  (List.rdropWhile_prefix free slots).length_le

theorem exists_free_behind (free : α → Bool) (slots : List α) :
    ∃ front behind, slots = front ++ behind ∧ front.length = next free slots ∧
      ∀ a ∈ behind, free a = true :=
  ⟨slots.rdropWhile free, slots.rtakeWhile free,
    (List.rdropWhile_append_rtakeWhile ..).symm, rfl, fun _ ha => List.mem_rtakeWhile_imp ha⟩

theorem length_live_le_next (free : α → Bool) (slots : List α) :
    (live free slots).length ≤ next free slots := by
  obtain ⟨front, behind, hslots, hlen, hfree⟩ := exists_free_behind free slots
  rw [← hlen, hslots, live_append, live_of_free hfree, List.append_nil]
  exact length_live_le free front

theorem next_append_free {l behind : List α} (h : ∀ a ∈ behind, free a = true) :
    next free (l ++ behind) = next free l := by
  induction behind using List.reverseRecOn with
  | nil => rw [List.append_nil]
  | append_singleton behind a ih =>
    rw [next, ← List.append_assoc, List.rdropWhile_concat_pos _ _ _ (h a (by simp))]
    exact ih fun b hb => h b (List.mem_append_left _ hb)

theorem next_concat {l : List α} (h : free a = false) : next free (l ++ [a]) = l.length + 1 := by
  rw [next, List.rdropWhile_concat_neg _ _ _ (by simp [h]), List.length_append,
    List.length_singleton]

theorem next_lt_iff (blank : α) (hne : slots ≠ []) :
    next free slots < slots.length ↔ free (slots.getD (slots.length - 1) blank) = true := by
  obtain ⟨init, last, rfl⟩ := List.eq_nil_or_concat slots |>.resolve_left hne
  have hlast : (init.concat last).getD ((init.concat last).length - 1) blank = last := by simp
  rw [hlast, List.concat_eq_append, List.length_append, List.length_singleton]
  constructor
  · intro hlt
    by_contra hfree
    rw [next_concat (Bool.eq_false_iff.mpr hfree)] at hlt
    omega
  · intro hfree
    rw [next_append_free (by simpa using hfree)]
    exact Nat.lt_succ_of_le (next_le free init)

theorem live_set_next (hroom : next free slots < slots.length) (ha : free a = false) :
    live free (slots.set (next free slots) a) = live free slots ++ [a] := by
  obtain ⟨front, behind, hslots, hlen, hfree⟩ := exists_free_behind free slots
  rw [← hlen] at hroom ⊢
  subst hslots
  cases behind with
  | nil => simp at hroom
  | cons b rest =>
    rw [List.set_append_right _ _ le_rfl, Nat.sub_self, List.set_cons_zero, live_append,
      live_append, live_of_free hfree, List.append_nil, live_cons, ha,
      live_of_free fun c hc => hfree c (List.mem_cons_of_mem _ hc)]
    rfl

/-! ## Closing the gaps -/

section Compact

/-- After `i` slots the items seen stand at the front, what follows up to slot `i` is free,
and the rest is as it was. -/
structure Compacted (free : α → Bool) (slots : List α) (i : Nat) (s : Compaction α)
    (gaps : List α) : Prop where
  slots_eq : s.slots = live free (slots.take i) ++ gaps ++ slots.drop i
  free_gaps : ∀ a ∈ gaps, free a = true
  gap_eq : s.gap = if gaps = [] then none else some (live free (slots.take i)).length
  length_eq : (live free (slots.take i)).length + gaps.length = i

theorem set_gap_set (front : List α) (gap item blank : α) (gaps rest : List α) :
    ((front ++ gap :: gaps ++ item :: rest).set front.length item).set
        (front.length + (gap :: gaps).length) blank =
      front ++ [item] ++ (gaps ++ [blank]) ++ rest := by
  simp [List.set_append_right]

theorem Compacted.step (hblank : free blank = true) {i : Nat} {s : Compaction α}
    {gaps : List α} (h : Compacted free slots i s gaps) (hi : i < slots.length) :
    ∃ gaps', Compacted free slots (i + 1) (compactAt free blank s i) gaps' := by
  have htake : slots.take (i + 1) = slots.take i ++ [slots.get ⟨i, hi⟩] := by simp
  have hdrop : slots.drop i = slots.get ⟨i, hi⟩ :: slots.drop (i + 1) := by simp
  generalize slots.get ⟨i, hi⟩ = item at htake hdrop
  have hlen := h.length_eq
  have hat : s.slots.getD i blank = item := by
    rw [h.slots_eq, hdrop, List.getD_eq_getElem?_getD, List.getElem?_append_right (by simp; omega)]
    simp [hlen]
  unfold compactAt
  rw [hat]
  split
  · next hfree =>
    -- one gap more
    refine ⟨gaps ++ [item], ?_, ?_, ?_, ?_⟩
    · rw [htake, live_append, live_of_free (l := [item]) (by simpa using hfree), h.slots_eq, hdrop]
      simp
    · simpa [or_imp, forall_and] using ⟨h.free_gaps, hfree⟩
    · rw [htake, live_append, live_of_free (l := [item]) (by simpa using hfree), h.gap_eq]
      cases gaps with
      | nil => simpa using hlen.symm
      | cons => simp
    · rw [htake, live_append, live_of_free (l := [item]) (by simpa using hfree)]
      simp
      omega
  · next hfree =>
    have hitem : live free [item] = [item] := by rw [live_cons, if_neg hfree]; rfl
    cases gaps with
    | nil =>
      rw [h.gap_eq, if_pos rfl]
      refine ⟨[], ?_, by simp, ?_, ?_⟩
      · rw [htake, live_append, hitem, h.slots_eq, hdrop]
        simp
      · rw [h.gap_eq, if_pos rfl, if_pos rfl]
      · rw [htake, live_append, hitem]
        simpa using hlen
    | cons g rest =>
      rw [h.gap_eq, if_neg (List.cons_ne_nil g rest)]
      refine ⟨rest ++ [blank], ?_, ?_, ?_, ?_⟩
      · have hset := set_gap_set (live free (slots.take i)) g item blank rest (slots.drop (i + 1))
        rw [hlen] at hset
        rw [htake, live_append, hitem, ← hset, ← hdrop, ← h.slots_eq]
      · intro a ha
        rcases List.mem_append.mp ha with ha | ha
        · exact h.free_gaps a (List.mem_cons_of_mem _ ha)
        · rw [List.mem_singleton.mp ha]
          exact hblank
      · rw [htake, live_append, hitem]
        simp
      · rw [htake, live_append, hitem]
        simp at hlen ⊢
        omega

theorem exists_compact (hblank : free blank = true) (slots : List α) :
    ∃ gaps, compact free blank slots = live free slots ++ gaps ∧ (∀ a ∈ gaps, free a = true) ∧
      (live free slots).length + gaps.length = slots.length := by
  have hrun : ∀ i, i ≤ slots.length →
      ∃ gaps, Compacted free slots i
        ((List.range i).foldl (compactAt free blank) ⟨slots, none⟩) gaps := by
    intro i
    induction i with
    | zero => exact fun _ => ⟨[], by simp [live], by simp, rfl, rfl⟩
    | succ i ih =>
      intro hi
      obtain ⟨gaps, h⟩ := ih (by omega)
      rw [List.range_succ, List.foldl_concat]
      exact h.step hblank hi
  obtain ⟨gaps, h⟩ := hrun slots.length le_rfl
  have htake : slots.take slots.length = slots := List.take_length
  refine ⟨gaps, ?_, h.free_gaps, ?_⟩
  · rw [compact, h.slots_eq, htake, List.drop_length, List.append_nil]
  · simpa only [htake] using h.length_eq

variable (hblank : free blank = true) (slots : List α)
include hblank

theorem length_compact : (compact free blank slots).length = slots.length := by
  obtain ⟨gaps, heq, -, hlen⟩ := exists_compact hblank slots
  rw [heq, List.length_append, hlen]

theorem live_compact : live free (compact free blank slots) = live free slots := by
  obtain ⟨gaps, heq, hfree, -⟩ := exists_compact hblank slots
  have hlive : live free (live free slots) = live free slots := by simp [live]
  rw [heq, live_append, live_of_free hfree, List.append_nil, hlive]

theorem next_compact : next free (compact free blank slots) = (live free slots).length := by
  obtain ⟨gaps, heq, hfree, -⟩ := exists_compact hblank slots
  rw [heq, next_append_free hfree, next, List.rdropWhile_eq_self_iff.mpr]
  intro hne
  simp [not_free_of_mem_live (List.getLast_mem hne)]

end Compact

end OrderedSlots
