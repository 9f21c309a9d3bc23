import Mathlib.Data.List.Infix

/-! Streams of packets that say their own length. A stream is cut into whole packets in one way
only, wherever it is interrupted. -/

namespace PacketStream

variable {α : Type*}

inductive Head
  | incomplete
  | malformed
  | size (n : Nat)
  deriving DecidableEq

/-- How the head of a packet is read: items that come later do not change what was read. -/
structure Format (α : Type*) where
  head : List α → Head
  stable : ∀ s t, head s ≠ .incomplete → head (s ++ t) = head s

variable {F : Format α} {f g s t : List α}

def Whole (F : Format α) (f : List α) : Prop := F.head f = .size f.length

theorem Whole.head_append (h : Whole F f) (s : List α) : F.head (f ++ s) = .size f.length := by
  have hread : F.head f = .size f.length := h
  rw [F.stable f s (by simp [hread]), hread]

theorem Whole.unique (hf : Whole F f) (hg : Whole F g) (h : f ++ s = g ++ t) : f = g ∧ s = t := by
  have hlen := hf.head_append s
  rw [h, hg.head_append t, Head.size.injEq] at hlen
  exact List.append_inj h hlen.symm

theorem cuts_agree {fs gs : List (List α)} (hf : ∀ f ∈ fs, Whole F f) (hg : ∀ g ∈ gs, Whole F g)
    (h : fs.flatten ++ s = gs.flatten ++ t) : fs <+: gs ∨ gs <+: fs := by
  induction fs generalizing gs with
  | nil => exact Or.inl List.nil_prefix
  | cons f fs ih =>
    cases gs with
    | nil => exact Or.inr List.nil_prefix
    | cons g gs =>
      rw [List.flatten_cons, List.flatten_cons, List.append_assoc, List.append_assoc] at h
      obtain ⟨rfl, hrest⟩ := (hf f List.mem_cons_self).unique (hg g List.mem_cons_self) h
      have hagree := ih (fun f' hf' => hf f' (List.mem_cons_of_mem _ hf'))
        (fun g' hg' => hg g' (List.mem_cons_of_mem _ hg')) hrest
      simpa only [List.cons_prefix_cons, true_and] using hagree

end PacketStream
