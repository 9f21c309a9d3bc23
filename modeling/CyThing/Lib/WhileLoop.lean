import CyThing.Lib.Trace

/-! A `while` loop whose rounds each get an answer from outside: after some answers it is still
going, or has stopped and ignores the rest. -/

namespace WhileLoop
open Trace

variable {σ α : Type*}

section Loop

variable (cond : σ → Bool) (body : σ → α → σ)

def round (s : σ) (a : α) : σ := if cond s then body s a else s

abbrev after (s : σ) (answers : List α) : σ := run (round cond body) s answers

end Loop

variable {cond : σ → Bool} {body : σ → α → σ} {s : σ} {answers : List α} {p q : α → Bool}

theorem round_of_going (h : cond s = true) (a : α) : round cond body s a = body s a :=
  if_pos h

theorem round_of_stopped (h : cond s = false) (a : α) : round cond body s a = s :=
  if_neg (Bool.eq_false_iff.mp h)

theorem after_of_stopped (h : cond s = false) (answers : List α) :
    after cond body s answers = s := by
  induction answers with
  | nil => rfl
  | cons a answers ih =>
    rw [after, run_cons, round_of_stopped h]
    exact ih

theorem after_eq_run (cond : σ → Bool) (body : σ → α → σ) (s : σ) (answers : List α) :
    ∃ done, done <+: answers ∧ after cond body s answers = run body s done := by
  induction answers generalizing s with
  | nil => exact ⟨[], List.nil_prefix, rfl⟩
  | cons a answers ih =>
    cases hs : cond s with
    | false => exact ⟨[], List.nil_prefix, after_of_stopped hs _⟩
    | true =>
      obtain ⟨done, hdone, hrun⟩ := ih (body s a)
      refine ⟨a :: done, List.cons_prefix_cons.mpr ⟨rfl, hdone⟩, ?_⟩
      rw [after, run_cons, run_cons, round_of_going hs]
      exact hrun

/-- A machine that makes the rounds of a loop one by one is in the loop's state for as long as
the loop has not stopped. -/
theorem simulates_after {μ β : Type*} {step : μ → β → μ} {f : β → α} {R : μ → σ → Prop}
    (hstep : ∀ m s b, R m s → cond s = true → R (step m b) (body s (f b))) {m : μ} (h : R m s)
    (answers : List β)
    (hgoing : ∀ pre, pre <+: answers → pre.length < answers.length →
      cond (after cond body s (pre.map f)) = true) :
    R (run step m answers) (after cond body s (answers.map f)) := by
  induction answers using List.reverseRecOn with
  | nil => exact h
  | append_singleton answers b ih =>
    have hbefore := hgoing answers (List.prefix_append answers [b]) (by simp)
    have hR := ih fun pre hpre hlen =>
      hgoing pre (hpre.trans (List.prefix_append answers [b])) (by simp; omega)
    rw [run_append, List.map_append, after, run_append, ← after]
    exact (congrArg (R _) (round_of_going hbefore (f b))).mpr (hstep _ _ b hR hbefore)

theorem going_iff (h : ∀ s a, cond (body s a) = p a) :
    cond (after cond body s answers) = true ↔ cond s = true ∧ ∀ a ∈ answers, p a = true := by
  induction answers generalizing s with
  | nil => simp
  | cons a answers ih =>
    rw [after, run_cons, List.forall_mem_cons]
    cases hs : cond s with
    | false =>
      rw [round_of_stopped hs, ← after, after_of_stopped hs, hs]
      simp
    | true =>
      rw [round_of_going hs]
      exact ih.trans (by rw [h, and_iff_right rfl])

/-- Two tests of which one is weaker stop a loop at the same answer, whenever it is looked at,
if and only if the first answer the stronger refuses is refused by the weaker too. -/
theorem prefixes_agree_iff (hqp : ∀ a, q a = true → p a = true) :
    (∀ pre, pre <+: answers → ((∀ a ∈ pre, p a = true) ↔ ∀ a ∈ pre, q a = true)) ↔
      ∀ a ∈ answers.find? fun a => !q a, p a = false := by
  induction answers with
  | nil =>
    refine iff_of_true (fun pre hpre => ?_) (by simp)
    rw [List.prefix_nil.mp hpre]
    simp
  | cons a answers ih =>
    by_cases hq : q a = true
    · have hp := hqp a hq
      rw [List.find?_cons_of_neg (by simp [hq]), ← ih]
      constructor
      · intro h pre hpre
        have hcons := h (a :: pre) (List.cons_prefix_cons.mpr ⟨rfl, hpre⟩)
        simpa [hp, hq] using hcons
      · intro h pre hpre
        cases pre with
        | nil => simp
        | cons b pre =>
          obtain ⟨rfl, hrest⟩ := List.cons_prefix_cons.mp hpre
          simpa [hp, hq] using h pre hrest
    · rw [List.find?_cons_of_pos (by simp [hq])]
      constructor
      · intro h b hb
        obtain rfl := Option.mem_some_iff.mp hb
        have hone := h [a] (List.cons_prefix_cons.mpr ⟨rfl, List.nil_prefix⟩)
        simpa [hq] using hone
      · intro h pre hpre
        cases pre with
        | nil => simp
        | cons b pre =>
          obtain ⟨rfl, -⟩ := List.cons_prefix_cons.mp hpre
          have hp := h b (Option.mem_some_iff.mpr rfl)
          simp [hp, hq]

end WhileLoop
