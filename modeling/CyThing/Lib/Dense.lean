import Mathlib.Data.List.Range
import Mathlib.Logic.Function.Basic

/-! A dense array: a block of slots of which the first `count` are in use. Removing an
entry shifts the tail down one slot at a time and clears the slot that falls free. -/

namespace Dense

variable {α : Type*}

def toList (slots : Nat → α) (count : Nat) : List α := (List.range count).map slots

def shiftDown : (Nat → α) → Nat → Nat → Nat → α
  | slots, _, 0 => slots
  | slots, i, n + 1 => shiftDown (Function.update slots i (slots (i + 1))) (i + 1) n

def removeAt (zero : α) (slots : Nat → α) (count index : Nat) : Nat → α :=
  Function.update (shiftDown slots index (count - 1 - index)) (count - 1) zero

@[simp] theorem length_toList (slots : Nat → α) (count : Nat) :
    (toList slots count).length = count := by simp [toList]

theorem getElem?_toList (slots : Nat → α) (count i : Nat) :
    (toList slots count)[i]? = if i < count then some (slots i) else none := by
  simp only [toList, List.getElem?_map]
  split_ifs with h
  · simp [h]
  · simp [Nat.le_of_not_lt h]

theorem shiftDown_apply (slots : Nat → α) (i n j : Nat) :
    shiftDown slots i n j = if i ≤ j ∧ j < i + n then slots (j + 1) else slots j := by
  induction n generalizing slots i with
  | zero => simp only [shiftDown, Nat.add_zero]; rw [if_neg (by omega)]
  | succ n ih =>
    rw [shiftDown, ih]
    by_cases hj : j = i
    · subst hj
      rw [if_neg (by omega), if_pos (by omega), Function.update_self]
    · rw [Function.update_of_ne hj]
      by_cases hr : i + 1 ≤ j ∧ j < i + 1 + n
      · rw [if_pos hr, if_pos (by omega), Function.update_of_ne (by omega)]
      · rw [if_neg hr, if_neg (by omega)]

theorem removeAt_apply (zero : α) (slots : Nat → α) {count index : Nat} (h : index < count)
    (j : Nat) : removeAt zero slots count index j =
      if j = count - 1 then zero else if index ≤ j ∧ j < count then slots (j + 1) else slots j := by
  rw [removeAt]
  by_cases hj : j = count - 1
  · rw [if_pos hj, hj, Function.update_self]
  · rw [if_neg hj, Function.update_of_ne hj, shiftDown_apply]
    by_cases hr : index ≤ j ∧ j < index + (count - 1 - index)
    · rw [if_pos hr, if_pos (by omega)]
    · rw [if_neg hr, if_neg (by omega)]

theorem removeAt_clear {zero : α} {slots : Nat → α} {count index : Nat} (h : index < count)
    (hz : ∀ j, count ≤ j → slots j = zero) (j : Nat) (hj : count - 1 ≤ j) :
    removeAt zero slots count index j = zero := by
  rw [removeAt_apply zero slots h]
  split_ifs
  · rfl
  · omega
  · exact hz j (by omega)

theorem drop_toList {slots : Nat → α} {count i : Nat} (h : i < count) :
    (toList slots count).drop i = slots i :: (toList slots count).drop (i + 1) := by
  have hlen : i < (toList slots count).length := by rwa [length_toList]
  rw [List.drop_eq_getElem_cons hlen]
  congr 1
  simp [toList]

theorem toList_removeAt (zero : α) (slots : Nat → α) {count index : Nat} (h : index < count) :
    toList (removeAt zero slots count index) (count - 1) =
      (toList slots count).eraseIdx index := by
  apply List.ext_getElem?
  intro j
  rw [getElem?_toList, List.getElem?_eraseIdx, getElem?_toList, getElem?_toList,
    removeAt_apply zero slots h]
  split_ifs <;> first | rfl | omega

theorem eraseDupsBy_map {α β : Type*} {f : α → β} {eq : α → α → Bool} {eq' : β → β → Bool}
    {as : List α} (h : ∀ a ∈ as, ∀ b ∈ as, eq' (f a) (f b) = eq a b) :
    (as.map f).eraseDupsBy eq' = (as.eraseDupsBy eq).map f := by
  induction hn : as.length using Nat.strongRecOn generalizing as with
  | ind n ih =>
    cases as with
    | nil => rfl
    | cons a as =>
      have hfilter : (as.map f).filter (fun b => decide (eq' b (f a) = false)) =
          (as.filter fun b => decide (eq b a = false)).map f := by
        rw [List.filter_map]
        congr 1
        refine List.filter_congr fun b hb => ?_
        simp only [Function.comp_apply, h b (List.mem_cons_of_mem _ hb) a List.mem_cons_self]
      have hlt : (as.filter fun b => decide (eq b a = false)).length < n := by
        rw [← hn]
        exact Nat.lt_succ_of_le (List.length_filter_le _ _)
      rw [List.map_cons, List.eraseDupsBy_cons, hfilter, List.eraseDupsBy_cons, List.map_cons,
        ih _ hlt (fun b hb c hc => h b (List.mem_cons_of_mem _ (List.mem_of_mem_filter hb)) c
          (List.mem_cons_of_mem _ (List.mem_of_mem_filter hc))) rfl]

end Dense
