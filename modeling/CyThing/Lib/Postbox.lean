import CyThing.Lib.Trace

/-! Letters to addresses that change hands. A letter waits in line with nothing but its address,
and whoever holds the address at its turn gets it. If no address changes hands while a letter
waits for it, every letter goes to the one who held its address when it was posted. -/

namespace Postbox
open Trace

structure Receipt (A C B : Type*) where
  holder : Option C
  addr : A
  body : B
  deriving DecidableEq

structure Box (A C B : Type*) where
  holder : A → Option C
  queue : List (A × B)
  posted : List (Receipt A C B)
  delivered : List (Receipt A C B)

inductive Op (A C B : Type*)
  | assign (a : A) (c : C)
  | vacate (a : A)
  | post (a : A) (b : B)
  /-- The first letter goes to the holder of its address, or is lost for want of one. -/
  | deliver
  | lose
  /-- All addresses fall vacant and all letters are lost. -/
  | clear

variable {A C B : Type*} [DecidableEq A]

def Box.apply (box : Box A C B) : Op A C B → Box A C B
  | .assign a c => { box with holder := Function.update box.holder a (some c) }
  | .vacate a => { box with holder := Function.update box.holder a none }
  | .post a b =>
    { box with
      queue := box.queue ++ [(a, b)]
      posted := box.posted ++ [⟨box.holder a, a, b⟩] }
  | .deliver =>
    match box.queue with
    | [] => box
    | (a, b) :: rest =>
      match box.holder a with
      | some c => { box with queue := rest, delivered := box.delivered ++ [⟨some c, a, b⟩] }
      | none => { box with queue := rest }
  | .lose => { box with queue := box.queue.tail }
  | .clear => { box with holder := fun _ => none, queue := [] }

def Op.Apart (box : Box A C B) : Op A C B → Prop
  | .assign a _ => ∀ x ∈ box.queue, x.1 ≠ a
  | _ => True

def Sound (box : Box A C B) : Prop :=
  ∃ waiting : List (Receipt A C B), waiting.map (fun r => (r.addr, r.body)) = box.queue ∧
    (box.delivered ++ waiting).Sublist box.posted ∧
    ∀ r ∈ waiting, ∀ c, box.holder r.addr = some c → r.holder = some c

omit [DecidableEq A] in
theorem Sound.sublist {box : Box A C B} (h : Sound box) : box.delivered.Sublist box.posted := by
  obtain ⟨waiting, -, hsub, -⟩ := h
  exact (List.sublist_append_left _ _).trans hsub

theorem Sound.lose {box : Box A C B} (h : Sound box) : Sound (box.apply .lose) := by
  obtain ⟨waiting, hqueue, hsub, hholder⟩ := h
  refine ⟨waiting.tail, ?_, ?_, fun r hr => hholder r (List.mem_of_mem_tail hr)⟩
  · rw [Box.apply, ← hqueue, List.map_tail]
  · exact ((List.Sublist.refl _).append (List.tail_sublist _)).trans hsub

theorem Sound.deliver {box : Box A C B} (h : Sound box) : Sound (box.apply .deliver) := by
  rcases hq : box.queue with _ | ⟨⟨a, b⟩, rest⟩
  · simp only [Box.apply, hq]
    exact h
  rcases hc : box.holder a with _ | c
  · have hlose : box.apply .deliver = box.apply .lose := by
      simp only [Box.apply, hq, hc, List.tail_cons]
    rw [hlose]
    exact h.lose
  · obtain ⟨waiting, hqueue, hsub, hholder⟩ := h
    obtain ⟨r, waiting, rfl, hr, hrest⟩ := List.map_eq_cons_iff.mp (hqueue.trans hq)
    obtain ⟨rfl, rfl⟩ := Prod.mk.inj hr
    -- the receipt of the delivery is the one of the post
    have hsame : r = ⟨some c, r.addr, r.body⟩ := by
      rw [← hholder r (List.mem_cons_self ..) c hc]
    simp only [Box.apply, hq, hc]
    refine ⟨waiting, hrest, ?_, fun x hx => hholder x (List.mem_cons_of_mem _ hx)⟩
    rw [← hsame, List.append_assoc]
    exact hsub

theorem Sound.apply {box : Box A C B} {op : Op A C B} (h : Sound box) (hop : op.Apart box) :
    Sound (box.apply op) := by
  cases op with
  | deliver => exact h.deliver
  | lose => exact h.lose
  | clear =>
    obtain ⟨waiting, -, hsub, -⟩ := h
    refine ⟨[], rfl, ?_, fun r hr => absurd hr List.not_mem_nil⟩
    exact ((List.Sublist.refl _).append (List.nil_sublist _)).trans hsub
  | assign a c =>
    obtain ⟨waiting, hqueue, hsub, hholder⟩ := h
    refine ⟨waiting, hqueue, hsub, fun r hr d hd => hholder r hr d ?_⟩
    have hmem : (r.addr, r.body) ∈ box.queue := hqueue ▸ List.mem_map_of_mem hr
    have hne : r.addr ≠ a := hop _ hmem
    simp only [Box.apply, Function.update_of_ne hne] at hd
    exact hd
  | vacate a =>
    obtain ⟨waiting, hqueue, hsub, hholder⟩ := h
    refine ⟨waiting, hqueue, hsub, fun r hr d hd => hholder r hr d ?_⟩
    by_cases ha : r.addr = a
    · simp only [Box.apply, ha, Function.update_self] at hd
      cases hd
    · simp only [Box.apply, Function.update_of_ne ha] at hd
      exact hd
  | post a b =>
    obtain ⟨waiting, hqueue, hsub, hholder⟩ := h
    refine ⟨waiting ++ [⟨box.holder a, a, b⟩], ?_, ?_, fun r hr d hd => ?_⟩
    · rw [List.map_append, hqueue]
      rfl
    · rw [← List.append_assoc]
      exact hsub.append (List.Sublist.refl _)
    · rcases List.mem_append.mp hr with hr | hr
      · exact hholder r hr d hd
      · obtain rfl := List.mem_singleton.mp hr
        exact hd

end Postbox
