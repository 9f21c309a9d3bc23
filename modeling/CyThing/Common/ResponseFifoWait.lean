import CyThing.Common.ResponseFifoBuffer
import CyThing.Lib.Signal

/-! The response FIFO between the tasks that push and the one task that waits and drains
(`response_fifo_wait`, `tcp_response_send_task`): the FIFO's mutex and its `data_ready`
semaphore, under any interleaving. -/

namespace CyThing
open CLib Trace Signal

/-! ## The FIFO as the tasks see it -/

abbrev SafeFifo : Type := { f : ResponseFifo // f.len ≤ responseFifoSize }

section Total

variable {f : ResponseFifo} (hlen : f.len ≤ responseFifoSize)
include hlen

theorem ResponseFifo.exists_push (policy : OnFull) (data : Bytes) :
    ∃ r, f.push policy data = some r ∧ r.1.len ≤ responseFifoSize := by
  cases policy with
  | dropNew =>
    obtain ⟨f', hpush, hlen', -⟩ := ResponseFifo.push_dropNew hlen data
    exact ⟨_, hpush, hlen'⟩
  | overwriteOldest =>
    obtain ⟨f', ok, hpush, hlen', -⟩ := ResponseFifo.push_overwriteOldest hlen data
    exact ⟨_, hpush, hlen'⟩

theorem ResponseFifo.isSome_push (policy : OnFull) (data : Bytes) :
    (f.push policy data).isSome := by
  obtain ⟨r, hr, -⟩ := ResponseFifo.exists_push hlen policy data
  rw [hr, Option.isSome_some]

theorem ResponseFifo.len_push (policy : OnFull) (data : Bytes) :
    ((f.push policy data).get (ResponseFifo.isSome_push hlen policy data)).1.len ≤
      responseFifoSize := by
  obtain ⟨r, hr, hlen'⟩ := ResponseFifo.exists_push hlen policy data
  simpa only [hr, Option.get_some] using hlen'

theorem ResponseFifo.isSome_drain (outCap : Nat) : (f.drain outCap).isSome := by
  obtain ⟨f', hf', -⟩ := ResponseFifo.drain_spec hlen outCap
  rw [hf', Option.isSome_some]

theorem ResponseFifo.len_drain (outCap : Nat) :
    ((f.drain outCap).get (ResponseFifo.isSome_drain hlen outCap)).2.len ≤ responseFifoSize := by
  obtain ⟨f', hf', hlen', -⟩ := ResponseFifo.drain_spec hlen outCap
  simpa only [hf', Option.get_some] using hlen'

end Total

theorem ResponseFifo.eq_of_push_false {policy : OnFull} {f f' : ResponseFifo} {data : Bytes}
    (h : f.push policy data = some (f', false)) : f' = f := by
  have hkept : ∀ g : Option ResponseFifo, g.map (fun f => (f, true)) ≠ some (f', false) := by
    intro g hg
    cases g with
    | none => cases hg
    | some g => cases hg
  simp only [ResponseFifo.push, decide_eq_true_eq, ← length_storedLine] at h
  split at h
  · cases h
    rfl
  · split at h
    · cases policy with
      | dropNew =>
        cases h
        rfl
      | overwriteOldest =>
        obtain ⟨g, -, hg⟩ := Option.bind_eq_some_iff.mp h
        exact absurd hg (hkept _)
    · exact absurd h (hkept _)

def SafeFifo.push (policy : OnFull) (f : SafeFifo) (data : Bytes) : SafeFifo × Bool :=
  let r := (f.1.push policy data).get (ResponseFifo.isSome_push f.2 policy data)
  (⟨r.1, ResponseFifo.len_push f.2 policy data⟩, r.2)

def SafeFifo.drain (f : SafeFifo) (outCap : Nat) : SafeFifo :=
  ⟨((f.1.drain outCap).get (ResponseFifo.isSome_drain f.2 outCap)).2,
    ResponseFifo.len_drain f.2 outCap⟩

theorem SafeFifo.push_eq (policy : OnFull) (f : SafeFifo) (data : Bytes) :
    f.1.push policy data = some ((f.push policy data).1.1, (f.push policy data).2) :=
  (Option.some_get _).symm

/-! ## The tasks -/

/-- What the tasks do with the FIFO. `response_fifo_push` turns a line away before it takes the
mutex if the buffer could not hold it even when empty; the test of the length inside
`SafeFifo.push` is then passed. -/
def fifoQueue (policy : OnFull) (outCap : Nat) : Queue SafeFifo Bytes where
  isEmpty f := f.1.len == 0
  turnsAway data := responseFifoSize < (storedLine data).length
  put f data := f.push policy data
  refused f data h := by
    have hpush := f.push_eq policy data
    rw [h] at hpush
    exact Subtype.ext (ResponseFifo.eq_of_push_false hpush)
  drain f := f.drain outCap

abbrev FifoTasks (ι : Type*) : Type _ := State ι SafeFifo Bytes

def fifoTasksInit (ι : Type*) : FifoTasks ι := { items := ⟨responseFifoInit, Nat.zero_le _⟩ }

def fifoTasksRun {ι : Type*} [DecidableEq ι] (policy : OnFull) (outCap : Nat)
    (events : List (Event ι Bytes)) : FifoTasks ι :=
  run (step (fifoQueue policy outCap)) (fifoTasksInit ι) events

theorem sound_fifoTasksRun {ι : Type*} [DecidableEq ι] (policy : OnFull) (outCap : Nat)
    (events : List (Event ι Bytes)) :
    (fifoTasksRun policy outCap events).Sound (fifoQueue policy outCap) :=
  (State.Sound.init _ _).run events

theorem owes_iff {μ : Type*} {p : ProducerPoint μ} :
    p.owes = true ↔ p = .stored ∨ p = .giving := by
  cases p <;> simp [ProducerPoint.owes]

/-- Whenever the task that drains sleeps on a FIFO that is not empty, `data_ready` is given or
a producer is about to give it. -/
theorem no_lost_wakeup {ι : Type*} [DecidableEq ι] (policy : OnFull) (outCap : Nat)
    (events : List (Event ι Bytes))
    (hblocked : (fifoTasksRun policy outCap events).consumer = .taking)
    (hfifo : (fifoTasksRun policy outCap events).items.1.used ≠ []) :
    (fifoTasksRun policy outCap events).ready = true ∨
      ∃ i, (fifoTasksRun policy outCap events).producer i = .stored ∨
        (fifoTasksRun policy outCap events).producer i = .giving := by
  have hsound := sound_fifoTasksRun policy outCap events
  have hlen : (fifoTasksRun policy outCap events).items.1.len ≠ 0 := by
    intro h0
    rw [ResponseFifo.used, h0, List.take_zero] at hfifo
    exact hfifo rfl
  rcases hsound.awake hblocked (by simpa [fifoQueue] using hlen) with hready | ⟨i, hi⟩
  · exact .inl hready
  · exact .inr ⟨i, owes_iff.mp hi⟩

def sleepingRun : List (Event (Fin 2) Bytes) :=
  [.proceed .consumer, .proceed .consumer, .proceed .consumer,
   .call 0 (ascii "A\n"), .proceed (.producer 0), .call 1 (ascii "B\n"),
   .proceed (.producer 0), .proceed (.producer 1)]

theorem no_lost_wakeup_sleeping :
    (fifoTasksRun .dropNew responseFifoSize sleepingRun).ready = true ∨
      ∃ i, (fifoTasksRun .dropNew responseFifoSize sleepingRun).producer i = .stored ∨
        (fifoTasksRun .dropNew responseFifoSize sleepingRun).producer i = .giving :=
  no_lost_wakeup .dropNew responseFifoSize sleepingRun rfl (by decide +kernel)

end CyThing
