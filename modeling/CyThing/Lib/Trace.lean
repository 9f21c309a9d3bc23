import Mathlib.Data.List.Induction

/-! Runs of a deterministic transition function, the list of steps a run takes, and
statements about the past of a run: a step that happened, and what every step since then
has kept. -/

namespace Trace

variable {σ ε : Type*}

structure Step (σ ε : Type*) where
  before : σ
  event : ε
  after : σ

section Run

variable (step : σ → ε → σ)

def run (s : σ) (es : List ε) : σ := es.foldl step s

def trace (s : σ) : List ε → List (Step σ ε)
  | [] => []
  | e :: es => ⟨s, e, step s e⟩ :: trace (step s e) es

@[simp] theorem run_nil (s : σ) : run step s [] = s := rfl

@[simp] theorem run_cons (s : σ) (e : ε) (es : List ε) :
    run step s (e :: es) = run step (step s e) es := rfl

theorem run_append (s : σ) (es fs : List ε) :
    run step s (es ++ fs) = run step (run step s es) fs := List.foldl_append

theorem trace_append (s : σ) (es fs : List ε) :
    trace step s (es ++ fs) = trace step s es ++ trace step (run step s es) fs := by
  induction es generalizing s with
  | nil => rfl
  | cons e es ih => simp only [List.cons_append, trace, ih, run_cons]

theorem trace_concat (s : σ) (es : List ε) (e : ε) :
    trace step s (es ++ [e]) =
      trace step s es ++ [⟨run step s es, e, step (run step s es) e⟩] := by
  rw [trace_append]
  rfl

/-- What holds at the start and is kept by every step that meets `ok` holds at the end of
every run all of whose steps meet `ok`; the past of the run may be used on the way. -/
theorem trace_induction {step : σ → ε → σ} {ok : Step σ ε → Prop} {s : σ}
    {Q : List (Step σ ε) → σ → Prop} (h0 : Q [] s)
    (hstep : ∀ tr u e, Q tr u → ok ⟨u, e, step u e⟩ →
      Q (tr ++ [⟨u, e, step u e⟩]) (step u e))
    (es : List ε) (hok : ∀ t ∈ trace step s es, ok t) :
    Q (trace step s es) (run step s es) := by
  induction es using List.reverseRecOn with
  | nil => exact h0
  | append_singleton es e ih =>
    rw [trace_concat] at hok ⊢
    rw [run_append]
    refine hstep _ _ _ (ih fun t ht => hok t (List.mem_append_left _ ht)) (hok _ ?_)
    exact List.mem_append_right _ (List.mem_singleton_self _)

theorem history_induction {step : σ → ε → σ} {s : σ} {Q : List (Step σ ε) → σ → Prop}
    (h0 : Q [] s)
    (hstep : ∀ tr u e, Q tr u → Q (tr ++ [⟨u, e, step u e⟩]) (step u e)) (es : List ε) :
    Q (trace step s es) (run step s es) :=
  trace_induction h0 (fun tr u e h _ => hstep tr u e h) es fun _ _ => trivial

theorem foldlM_induction {step : σ → ε → Option σ} {s : σ} {Q : List ε → σ → Prop}
    (h0 : Q [] s) (hstep : ∀ es u e, es.foldlM step s = some u → Q es u →
      ∃ v, step u e = some v ∧ Q (es ++ [e]) v)
    (es : List ε) : ∃ u, es.foldlM step s = some u ∧ Q es u := by
  induction es using List.reverseRecOn with
  | nil => exact ⟨s, rfl, h0⟩
  | append_singleton es e ih =>
    obtain ⟨u, hrun, hu⟩ := ih
    obtain ⟨v, hv, hQ⟩ := hstep es u e hrun hu
    refine ⟨v, ?_, hQ⟩
    rw [List.foldlM_append, hrun, Option.bind_eq_bind, Option.bind_some, List.foldlM_cons, hv]
    rfl

theorem mem_trace {step : σ → ε → σ} {s : σ} {es : List ε} {t : Step σ ε}
    (ht : t ∈ trace step s es) :
    ∃ pre post, es = pre ++ t.event :: post ∧ t.before = run step s pre ∧
      t.after = step t.before t.event := by
  induction es generalizing s with
  | nil => cases ht
  | cons e es ih =>
    rcases List.mem_cons.mp ht with rfl | ht
    · exact ⟨[], es, rfl, rfl, rfl⟩
    · obtain ⟨pre, post, hes, hb, ha⟩ := ih ht
      exact ⟨e :: pre, post, by rw [hes]; rfl, hb, ha⟩

end Run

section Past

variable {α : Type*} {Q R P S : α → Prop} {tr : List α} {a : α}

def Since (Q P : α → Prop) (tr : List α) : Prop :=
  ∃ pre t post, tr = pre ++ t :: post ∧ Q t ∧ ∀ u ∈ post, P u

theorem Since.now (ha : Q a) : Since Q P (tr ++ [a]) :=
  ⟨tr, a, [], rfl, ha, fun _ hu => absurd hu List.not_mem_nil⟩

theorem Since.concat (h : Since Q P tr) (ha : P a) : Since Q P (tr ++ [a]) := by
  obtain ⟨pre, t, post, rfl, ht, hpost⟩ := h
  refine ⟨pre, t, post ++ [a], by simp, ht, fun u hu => ?_⟩
  rcases List.mem_append.mp hu with hu | hu
  · exact hpost u hu
  · rw [List.mem_singleton.mp hu]
    exact ha

/-- `Q` happened, then `P` was kept up to an `R`, then `S` was kept. -/
def SinceThen (Q P R S : α → Prop) (tr : List α) : Prop :=
  ∃ pre t mid r post, tr = pre ++ t :: (mid ++ r :: post) ∧ Q t ∧ (∀ u ∈ mid, P u) ∧ R r ∧
    ∀ u ∈ post, S u

theorem SinceThen.now (h : Since Q P tr) (ha : R a) : SinceThen Q P R S (tr ++ [a]) := by
  obtain ⟨pre, t, post, rfl, ht, hpost⟩ := h
  exact ⟨pre, t, post, a, [], by simp, ht, hpost, ha, fun _ hu => absurd hu List.not_mem_nil⟩

theorem SinceThen.concat (h : SinceThen Q P R S tr) (ha : S a) :
    SinceThen Q P R S (tr ++ [a]) := by
  obtain ⟨pre, t, mid, r, post, rfl, ht, hmid, hr, hpost⟩ := h
  refine ⟨pre, t, mid, r, post ++ [a], by simp, ht, hmid, hr, fun u hu => ?_⟩
  rcases List.mem_append.mp hu with hu | hu
  · exact hpost u hu
  · rw [List.mem_singleton.mp hu]
    exact ha

theorem SinceThen.append_left (h : SinceThen Q P R S tr) (tr' : List α) :
    SinceThen Q P R S (tr' ++ tr) := by
  obtain ⟨pre, t, mid, r, post, rfl, hrest⟩ := h
  exact ⟨tr' ++ pre, t, mid, r, post, by simp, hrest⟩

theorem SinceThen.exists_first (h : SinceThen Q P R S tr) : ∃ t ∈ tr, Q t := by
  obtain ⟨pre, t, mid, r, post, rfl, ht, -⟩ := h
  exact ⟨t, by simp, ht⟩

theorem SinceThen.two_le_length (h : SinceThen Q P R S tr) : 2 ≤ tr.length := by
  obtain ⟨pre, t, mid, r, post, rfl, -⟩ := h
  simp only [List.length_append, List.length_cons]
  omega

/-- The past up to some item had `H`, that item was an `R`, and every later one kept `P`. -/
def After (H : List α → Prop) (R P : α → Prop) (tr : List α) : Prop :=
  ∃ pre r post, tr = pre ++ r :: post ∧ H pre ∧ R r ∧ ∀ u ∈ post, P u

variable {H : List α → Prop}

theorem not_after_nil : ¬ After H R P [] := by
  rintro ⟨pre, r, post, h, -⟩
  exact List.append_ne_nil_of_right_ne_nil pre (List.cons_ne_nil r post) h.symm

theorem after_concat_iff :
    After H R P (tr ++ [a]) ↔ H tr ∧ R a ∨ After H R P tr ∧ P a := by
  constructor
  · rintro ⟨pre, r, post, htr, hpre, hr, hpost⟩
    rcases List.eq_nil_or_concat post with rfl | ⟨post, b, rfl⟩
    · obtain ⟨rfl, hb⟩ := List.append_inj' htr rfl
      obtain rfl := List.singleton_inj.mp hb
      exact .inl ⟨hpre, hr⟩
    · rw [List.concat_eq_append] at htr hpost
      rw [← List.cons_append, ← List.append_assoc] at htr
      obtain ⟨rfl, hb⟩ := List.append_inj' htr rfl
      obtain rfl := List.singleton_inj.mp hb
      exact .inr ⟨⟨pre, r, post, rfl, hpre, hr, fun u hu => hpost u (by simp [hu])⟩,
        hpost a (by simp)⟩
  · rintro (⟨hH, ha⟩ | ⟨⟨pre, r, post, rfl, hpre, hr, hpost⟩, ha⟩)
    · exact ⟨tr, a, [], rfl, hH, ha, fun _ hu => absurd hu List.not_mem_nil⟩
    · refine ⟨pre, r, post ++ [a], by simp, hpre, hr, fun u hu => ?_⟩
      rcases List.mem_append.mp hu with hu | hu
      · exact hpost u hu
      · rw [List.mem_singleton.mp hu]
        exact ha

def trailing (p : α → Bool) (tr : List α) : Nat := (tr.reverse.takeWhile p).length

theorem trailing_concat (p : α → Bool) (tr : List α) (a : α) :
    trailing p (tr ++ [a]) = if p a then trailing p tr + 1 else 0 := by
  simp only [trailing, List.reverse_append, List.reverse_singleton, List.singleton_append,
    List.takeWhile_cons]
  split <;> rfl

theorem le_trailing_iff {p : α → Bool} {n : Nat} :
    n ≤ trailing p tr ↔ ∃ pre last, tr = pre ++ last ∧ last.length = n ∧ ∀ t ∈ last, p t := by
  induction tr using List.reverseRecOn generalizing n with
  | nil =>
    constructor
    · intro h
      exact ⟨[], [], rfl, (Nat.le_zero.mp h).symm, fun _ ht => absurd ht List.not_mem_nil⟩
    · rintro ⟨pre, last, htr, rfl, -⟩
      have hlast : last = [] := (List.append_eq_nil_iff.mp htr.symm).2
      simp [hlast]
  | append_singleton tr a ih =>
    rw [trailing_concat]
    cases n with
    | zero =>
      exact ⟨fun _ => ⟨tr ++ [a], [], by simp, rfl, by simp⟩, fun _ => Nat.zero_le _⟩
    | succ n =>
      constructor
      · intro h
        split at h
        · next ha =>
          obtain ⟨pre, last, rfl, hlen, hlast⟩ := ih.mp (Nat.le_of_succ_le_succ h)
          refine ⟨pre, last ++ [a], by simp, by simp [hlen], fun t ht => ?_⟩
          rcases List.mem_append.mp ht with ht | ht
          · exact hlast t ht
          · rwa [List.mem_singleton.mp ht]
        · cases h
      · rintro ⟨pre, last, htr, hlen, hlast⟩
        rcases List.eq_nil_or_concat last with rfl | ⟨last', b, rfl⟩
        · cases hlen
        · rw [List.concat_eq_append, ← List.append_assoc] at htr
          obtain ⟨rfl, hb⟩ := List.append_inj' htr rfl
          obtain rfl := List.singleton_inj.mp hb
          have ha : p a = true := hlast a (by simp)
          rw [if_pos ha]
          refine Nat.succ_le_succ (ih.mpr ⟨pre, last', rfl, ?_, fun t ht => hlast t ?_⟩)
          · simpa using hlen
          · simp [ht]

end Past

end Trace
