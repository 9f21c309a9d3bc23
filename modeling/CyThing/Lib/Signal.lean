import CyThing.Lib.Trace
import Mathlib.Logic.Function.Basic

/-! A queue behind a lock with a binary semaphore for its one consumer. Producers put items in
under the lock and give the semaphore after they have released it; the consumer tests under the
lock whether the queue is empty, takes the semaphore only if it is, and then empties the queue.
The semaphore keeps gives that nobody waited for, so the consumer may be woken for nothing, but
it never sleeps on items that nobody will signal. -/

namespace Signal
open Trace

variable {ι σ μ : Type*}

structure Queue (σ μ : Type*) where
  isEmpty : σ → Bool
  /-- Turned away before the lock is taken. -/
  turnsAway : μ → Bool
  put : σ → μ → σ × Bool
  refused : ∀ s m, (put s m).2 = false → (put s m).1 = s
  drain : σ → σ

inductive ProducerPoint (μ : Type*)
  | idle
  | locking (m : μ)
  | locked (m : μ)
  /-- The item is in, the lock still held. -/
  | stored
  /-- There was no room, the lock is still held. -/
  | refused
  | giving

inductive ConsumerPoint
  | testing
  | testLocked
  /-- It knows whether the queue was empty, the lock still held. -/
  | tested (empty : Bool)
  | taking
  | draining
  | drainLocked
  | drained

inductive Task (ι : Type*)
  | producer (i : ι)
  | consumer
  deriving DecidableEq

structure State (ι σ μ : Type*) where
  items : σ
  holder : Option (Task ι) := none
  ready : Bool := false
  producer : ι → ProducerPoint μ := fun _ => .idle
  consumer : ConsumerPoint := .testing

inductive Event (ι μ : Type*)
  /-- A producer that is in no call makes one. -/
  | call (i : ι) (m : μ)
  /-- The task makes its next step, unless it waits for the lock or for the semaphore. -/
  | proceed (t : Task ι)

section Step

variable [DecidableEq ι] (Q : Queue σ μ)

def State.setProducer (s : State ι σ μ) (i : ι) (p : ProducerPoint μ) : State ι σ μ :=
  { s with producer := Function.update s.producer i p }

def stepProducer (s : State ι σ μ) (i : ι) : State ι σ μ :=
  match s.producer i with
  | .idle => s
  | .locking m =>
    if s.holder.isSome then s
    else { s with holder := some (.producer i) }.setProducer i (.locked m)
  | .locked m =>
    let r := Q.put s.items m
    { s with items := r.1 }.setProducer i (if r.2 then .stored else .refused)
  | .stored => { s with holder := none }.setProducer i .giving
  | .refused => { s with holder := none }.setProducer i .idle
  | .giving => { s with ready := true }.setProducer i .idle

def stepConsumer (s : State ι σ μ) : State ι σ μ :=
  match s.consumer with
  | .testing =>
    if s.holder.isSome then s
    else { s with holder := some .consumer, consumer := .testLocked }
  | .testLocked => { s with consumer := .tested (Q.isEmpty s.items) }
  | .tested empty =>
    { s with holder := none, consumer := if empty then .taking else .draining }
  | .taking => if s.ready then { s with ready := false, consumer := .draining } else s
  | .draining =>
    if s.holder.isSome then s
    else { s with holder := some .consumer, consumer := .drainLocked }
  | .drainLocked => { s with items := Q.drain s.items, consumer := .drained }
  | .drained => { s with holder := none, consumer := .testing }

def step (s : State ι σ μ) : Event ι μ → State ι σ μ
  | .call i m =>
    match s.producer i with
    | .idle => if Q.turnsAway m then s else s.setProducer i (.locking m)
    | _ => s
  | .proceed (.producer i) => stepProducer Q s i
  | .proceed .consumer => stepConsumer Q s

end Step

/-! ## Who holds the lock -/

def ProducerPoint.holds : ProducerPoint μ → Bool
  | .locked _ | .stored | .refused => true
  | _ => false

def ConsumerPoint.holds : ConsumerPoint → Bool
  | .testLocked | .tested _ | .drainLocked | .drained => true
  | _ => false

def ProducerPoint.owes : ProducerPoint μ → Bool
  | .stored | .giving => true
  | _ => false

def State.Awake (Q : Queue σ μ) (s : State ι σ μ) : Prop :=
  s.consumer = .taking → Q.isEmpty s.items = false →
    s.ready = true ∨ ∃ i, (s.producer i).owes = true

structure State.Sound (Q : Queue σ μ) (s : State ι σ μ) : Prop where
  producers : ∀ i, (s.producer i).holds = true → s.holder = some (.producer i)
  consumer : s.consumer.holds = true → s.holder = some .consumer
  tested : s.consumer = .tested true → Q.isEmpty s.items = true
  awake : s.Awake Q

theorem State.Sound.init (Q : Queue σ μ) (items : σ) :
    State.Sound Q ({ items := items } : State ι σ μ) where
  producers _ h := by cases h
  consumer h := by cases h
  tested h := by cases h
  awake h := by cases h

section Sound

variable {Q : Queue σ μ} {s : State ι σ μ}

theorem State.Sound.consumer_moves (h : s.Sound Q) {items : σ} {holder : Option (Task ι)}
    {ready : Bool} {c : ConsumerPoint}
    (hlock : s.holder = none ∨ s.holder = some .consumer ∨ holder = s.holder)
    (hholds : c.holds = true → holder = some .consumer)
    (htested : c = .tested true → Q.isEmpty items = true)
    (hsleep : c = .taking → Q.isEmpty items = true) :
    ({ s with items := items, holder := holder, ready := ready, consumer := c }
      : State ι σ μ).Sound Q where
  producers := by
  -- the test that found the queue empty still tells the truth, since the lock was held
    intro j hj
    have hheld := h.producers j hj
    rcases hlock with hlock | hlock | hlock
    · rw [hlock] at hheld
      cases hheld
    · rw [hlock] at hheld
      cases hheld
    · exact hlock.trans hheld
  consumer := hholds
  tested := htested
  awake hc he := by
    have he : Q.isEmpty items = false := he
    rw [hsleep hc] at he
    cases he

theorem State.Sound.producer_held {i : ι} {p : ProducerPoint μ} (h : s.Sound Q)
    (hp : s.producer i = p) (hholds : p.holds = true) : s.holder = some (.producer i) :=
  h.producers i (hp ▸ hholds)

theorem State.Sound.consumer_held {c : ConsumerPoint} (h : s.Sound Q) (hc : s.consumer = c)
    (hholds : c.holds = true) : s.holder = some .consumer :=
  h.consumer (hc ▸ hholds)

theorem State.Sound.consumer_locks {c : ConsumerPoint} (h : s.Sound Q) (htested : c ≠ .tested true)
    (htaking : c ≠ .taking) :
    (if s.holder.isSome then s else { s with holder := some .consumer, consumer := c }).Sound
      Q := by
  split
  · exact h
  · next hfree =>
    have hnone : s.holder = none := by simpa using hfree
    exact h.consumer_moves (.inl hnone) (fun _ => rfl) (fun ht => absurd ht htested)
      (fun ht => absurd ht htaking)

theorem State.Sound.stepConsumer (h : s.Sound Q) : (stepConsumer Q s).Sound Q := by
  unfold Signal.stepConsumer
  cases hc : s.consumer with
  | testing => exact h.consumer_locks (fun ht => by cases ht) (fun ht => by cases ht)
  | testLocked =>
    have hheld := h.consumer_held hc rfl
    exact h.consumer_moves (.inr (.inl hheld)) (fun _ => hheld)
      (fun ht => by injection ht) (fun ht => by cases ht)
  | tested empty =>
    have hheld := h.consumer_held hc rfl
    cases empty with
    | true =>
      exact h.consumer_moves (.inr (.inl hheld)) (fun ht => by cases ht) (fun ht => by cases ht)
        (fun _ => h.tested hc)
    | false =>
      exact h.consumer_moves (.inr (.inl hheld)) (fun ht => by cases ht) (fun ht => by cases ht)
        (fun ht => by cases ht)
  | taking =>
    by_cases hr : s.ready = true
    · simp only [hr, if_true]
      exact h.consumer_moves (.inr (.inr rfl)) (fun ht => by cases ht) (fun ht => by cases ht)
        (fun ht => by cases ht)
    · simpa only [hr, Bool.false_eq_true, if_false] using h
  | draining => exact h.consumer_locks (fun ht => by cases ht) (fun ht => by cases ht)
  | drainLocked =>
    have hheld := h.consumer_held hc rfl
    exact h.consumer_moves (.inr (.inl hheld)) (fun _ => hheld) (fun ht => by cases ht)
      (fun ht => by cases ht)
  | drained =>
    have hheld := h.consumer_held hc rfl
    exact h.consumer_moves (.inr (.inl hheld)) (fun ht => by cases ht) (fun ht => by cases ht)
      (fun ht => by cases ht)

variable [DecidableEq ι] {i : ι}

theorem State.Sound.producer_moves (h : s.Sound Q) {items : σ} {holder : Option (Task ι)}
    {ready : Bool} {p : ProducerPoint μ}
    (hlock : holder = s.holder ∨ s.holder = none ∨ s.holder = some (.producer i))
    (hholds : p.holds = true → holder = some (.producer i))
    (hitems : s.holder = some (.producer i) ∨ items = s.items)
    (hready : s.ready = true → ready = true)
    (howes : p.owes = true ∨ ready = true ∨
      items = s.items ∧ (s.producer i).owes = false) :
    ({ s with items := items, holder := holder, ready := ready }.setProducer i p).Sound Q where
  producers := by
  -- the items change only under the lock, and whoever puts one in owes a give
    intro j hj
    by_cases hji : j = i
    · subst hji
      exact hholds (by simpa [State.setProducer] using hj)
    · have hheld := h.producers j (by simpa [State.setProducer, hji] using hj)
      rcases hlock with hlock | hlock | hlock
      · exact hlock.trans hheld
      · rw [hlock] at hheld
        cases hheld
      · rw [hlock] at hheld
        exact absurd (Task.producer.inj (Option.some.inj hheld)).symm hji
  consumer := by
    intro hc
    have hheld := h.consumer hc
    rcases hlock with hlock | hlock | hlock
    · exact hlock.trans hheld
    · rw [hlock] at hheld
      cases hheld
    · rw [hlock] at hheld
      cases hheld
  tested := by
    intro hc
    have hc : s.consumer = .tested true := hc
    have hheld : s.holder = some .consumer := h.consumer (by rw [hc]; rfl)
    rcases hitems with hitems | hitems
    · rw [hitems] at hheld
      cases hheld
    · exact hitems ▸ h.tested hc
  awake := by
    intro hc he
    rcases howes with howes | howes | ⟨hsame, hnot⟩
    · exact .inr ⟨i, by simpa [State.setProducer] using howes⟩
    · exact .inl howes
    · rcases h.awake hc (hsame ▸ he) with hr | ⟨j, hj⟩
      · exact .inl (hready hr)
      · have hji : j ≠ i := fun hji => by rw [hji, hnot] at hj; cases hj
        exact .inr ⟨j, by simpa [State.setProducer, hji] using hj⟩

theorem State.Sound.stepProducer (h : s.Sound Q) (i : ι) : (stepProducer Q s i).Sound Q := by
  unfold Signal.stepProducer
  cases hp : s.producer i with
  | idle => exact h
  | locking m =>
    by_cases hfree : s.holder.isSome = true
    · simpa only [hfree, if_true] using h
    · have hnone : s.holder = none := by simpa using hfree
      simp only [hfree]
      exact h.producer_moves (.inr (.inl hnone)) (fun _ => rfl) (.inr rfl) id
        (.inr (.inr ⟨rfl, by rw [hp]; rfl⟩))
  | locked m =>
    have hheld := h.producer_held hp rfl
    cases hput : (Q.put s.items m).2 with
    | true =>
      simp only [hput, if_true]
      exact h.producer_moves (.inl rfl) (fun _ => hheld) (.inl hheld) id (.inl rfl)
    | false =>
      simp only [hput, Bool.false_eq_true, if_false]
      exact h.producer_moves (.inl rfl) (fun _ => hheld) (.inl hheld) id
        (.inr (.inr ⟨Q.refused _ _ hput, by rw [hp]; rfl⟩))
  | stored =>
    have hheld := h.producer_held hp rfl
    exact h.producer_moves (.inr (.inr hheld)) (fun hh => by cases hh) (.inr rfl) id (.inl rfl)
  | refused =>
    have hheld := h.producer_held hp rfl
    exact h.producer_moves (.inr (.inr hheld)) (fun hh => by cases hh) (.inr rfl) id
      (.inr (.inr ⟨rfl, by rw [hp]; rfl⟩))
  | giving =>
    exact h.producer_moves (.inl rfl) (fun hh => by cases hh) (.inr rfl) (fun _ => rfl)
      (.inr (.inl rfl))

theorem State.Sound.call (h : s.Sound Q) (i : ι) (m : μ) : (step Q s (.call i m)).Sound Q := by
  simp only [step]
  cases hp : s.producer i with
  | idle =>
    by_cases haway : Q.turnsAway m = true
    · simpa only [haway, if_true] using h
    · simp only [haway]
      exact h.producer_moves (.inl rfl) (fun hh => by cases hh) (.inr rfl) id
        (.inr (.inr ⟨rfl, by rw [hp]; rfl⟩))
  | _ => exact h

theorem State.Sound.step (h : s.Sound Q) (e : Event ι μ) : (step Q s e).Sound Q := by
  cases e with
  | call i m => exact h.call i m
  | proceed t =>
    cases t with
    | producer i => exact h.stepProducer i
    | consumer => exact h.stepConsumer

theorem State.Sound.run (h : s.Sound Q) (es : List (Event ι μ)) :
    (Trace.run (Signal.step Q) s es).Sound Q := by
  induction es generalizing s with
  | nil => exact h
  | cons e es ih => exact ih (h.step e)

end Sound

end Signal
