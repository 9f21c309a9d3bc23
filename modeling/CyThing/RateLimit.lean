import CyThing.Security.DevicePassword
import CyThing.Lib.Trace

/-! Runs of the rate limiter: failures and successes of addresses in any order, with time
passing in between and the password staying as it is. `device_password_lock_remaining_s`
only reads. -/

namespace CyThing
open CLib Trace

structure Limiter where
  clock : Nat := 0
  pw : DevicePassword

inductive RateOp
  | failure (ip : UInt32) (fate : LockoutFate)
  | success (ip : UInt32) (fate : LockoutFate)
  | tick (us : Nat)

namespace Limiter

def step (s : Limiter) : RateOp → Limiter
  | .failure ip fate => { s with pw := devicePasswordNoteFailure fate s.clock s.pw ip }
  | .success ip fate => { s with pw := devicePasswordNoteSuccess fate s.clock s.pw ip }
  | .tick us => { s with clock := s.clock + us }

def tally (tr : List (Step Limiter RateOp)) : Tally :=
  tr.foldl (fun g s =>
    match s.event with
    | .failure ip _ => g.failure s.before.clock ip
    | .success ip _ => g.success ip
    | .tick _ => g) {}

def RateOp.Of (S : Finset UInt32) : RateOp → Prop
  | .failure ip _ => ip ∈ S
  | .success ip _ => ip ∈ S
  | .tick _ => True

def noHoleBefore (s : Step Limiter RateOp) : Bool :=
  match s.event with
  | .failure ip _ => decide (OwnSlotFirst s.before.pw.ip ip)
  | _ => true

variable {S : Finset UInt32} {s : Limiter} {tr : List (Step Limiter RateOp)}

theorem tally_concat (tr : List (Step Limiter RateOp)) (t : Step Limiter RateOp) :
    tally (tr ++ [t]) =
      match t.event with
      | .failure ip _ => (tally tr).failure t.before.clock ip
      | .success ip _ => (tally tr).success ip
      | .tick _ => tally tr := by
  simp only [tally, List.foldl_append, List.foldl_cons, List.foldl_nil]

structure Faithful (S : Finset UInt32) (tr : List (Step Limiter RateOp)) (s : Limiter) :
    Prop where
  set : devicePasswordIsSet s.pw = true
  accounts : Accounts S (tally tr) s.pw.ip

theorem Faithful.step (h : Faithful S tr s) (hcard : S.card ≤ ipSlots) {op : RateOp}
    (hop : RateOp.Of S op) (hhole : noHoleBefore ⟨s, op, s.step op⟩ = true) :
    Faithful S (tr ++ [⟨s, op, s.step op⟩]) (s.step op) := by
  have hset : ∀ {d : DevicePassword}, d.pair = s.pw.pair → devicePasswordIsSet d = true :=
    fun hpair => by
      rw [devicePasswordIsSet, hpair]
      exact h.set
  cases op with
  | failure ip fate =>
    refine ⟨hset (noteFailure_pair _ _ _ _), ?_⟩
    rw [tally_concat]
    simp only [Limiter.step, noteFailure_ip h.set]
    exact h.accounts.failure hcard hop (of_decide_eq_true hhole) s.clock
  | success ip fate =>
    refine ⟨hset (noteSuccess_ip _ _ _ _).2, ?_⟩
    rw [tally_concat]
    simp only [Limiter.step, (noteSuccess_ip _ _ _ _).1]
    exact h.accounts.success hop
  | tick us =>
    refine ⟨h.set, ?_⟩
    rw [tally_concat]
    exact h.accounts

/-- No brute-force slot escapes, over every run in which no failure meets an empty slot
before the slot of its own address. -/
theorem no_slot_escapes (S : Finset UInt32) (hcard : S.card ≤ ipSlots) (hzero : 0 ∉ S)
    (start : Limiter) (hset : devicePasswordIsSet start.pw = true)
    (hempty : start.pw.ip = fun _ => {}) (ops : List RateOp) (hops : ∀ op ∈ ops, RateOp.Of S op)
    (hhole : ∀ t ∈ trace step start ops, noHoleBefore t = true) :
    let s := run step start ops
    let g := tally (trace step start ops)
    ∀ p ∈ S,
      (∀ i j, (s.pw.ip i).ip = p → (s.pw.ip j).ip = p → i = j) ∧
      (∀ i, (s.pw.ip i).ip = p → (s.pw.ip i).fails = min 255 (g.fails p)) ∧
      ((∀ i, (s.pw.ip i).ip ≠ p) → g.fails p = 0) ∧
      lockSeconds (min 255 (g.fails p)) devicePwIpMaxFails * 1000000 ≤
        devicePasswordLockRemainingS s.clock s.pw p * 1000000 + (s.clock - g.last p) := by
  have hsteps : ∀ t ∈ trace step start ops, RateOp.Of S t.event ∧ noHoleBefore t = true := by
    intro t ht
    obtain ⟨pre, post, hes, -, -⟩ := mem_trace ht
    exact ⟨hops t.event (by rw [hes]; simp), hhole t ht⟩
  have hstart : Faithful S [] start := ⟨hset, hempty ▸ Accounts.empty hzero⟩
  have hrun : Faithful S (trace step start ops) (run step start ops) :=
    trace_induction (Q := Faithful S) hstart
      (fun _ _ _ h hok => h.step hcard hok.1 hok.2) ops hsteps
  intro s g p hp
  have hacc : Accounts S g s.pw.ip := hrun.accounts
  have hne := hacc.ne_zero hp
  refine ⟨fun i j hi hj => hacc.unique i j (hi ▸ hne) (hi.trans hj.symm), fun i hi => ?_,
    hacc.absent p hp, hacc.lock_le hp hrun.set s.clock⟩
  rw [hacc.fails i (hi ▸ hne), hi]

def unguessed : Limiter := { pw := { pair := some ([1], [1]) } }

def orderlyOps : List RateOp :=
  [.failure 1 {}, .failure 2 {}, .success 2 {}, .failure 1 {}, .failure 1 {}, .failure 1 {},
    .failure 1 {}, .tick 1000000]

theorem no_slot_escapes_orderly :
    (trace step unguessed orderlyOps).all noHoleBefore = true ∧
    (tally (trace step unguessed orderlyOps)).fails 1 = 5 ∧
    lockSeconds (min 255 ((tally (trace step unguessed orderlyOps)).fails 1))
        devicePwIpMaxFails * 1000000 ≤
      devicePasswordLockRemainingS (run step unguessed orderlyOps).clock
          (run step unguessed orderlyOps).pw 1 * 1000000 +
        ((run step unguessed orderlyOps).clock -
          (tally (trace step unguessed orderlyOps)).last 1) := by
  have hhole : (trace step unguessed orderlyOps).all noHoleBefore = true := by decide +kernel
  have hops : ∀ op ∈ orderlyOps, RateOp.Of {1, 2} op := by
    simp [orderlyOps, RateOp.Of]
  obtain ⟨-, -, -, hlock⟩ := no_slot_escapes {1, 2} (by decide) (by decide) unguessed rfl rfl
    orderlyOps hops (List.all_eq_true.mp hhole) 1 (by decide)
  exact ⟨hhole, by decide +kernel, hlock⟩

def holeOps : List RateOp :=
  [.failure 1 {}, .failure 2 {}, .failure 2 {}, .failure 2 {}, .failure 2 {}, .success 1 {},
    .failure 2 {}]

/-- After its fifth failure in a row the second address has two slots, one failure in the
slot that counts, and no lock. -/
theorem hole_restarts_count :
    let s := run step unguessed holeOps
    (tally (trace step unguessed holeOps)).fails 2 = 5 ∧
      (s.pw.ip 0).ip = 2 ∧ (s.pw.ip 1).ip = 2 ∧ (s.pw.ip 0).fails = 1 ∧
      lockSeconds 5 devicePwIpMaxFails = 60 ∧
      (tally (trace step unguessed holeOps)).last 2 = s.clock ∧
      devicePasswordLockRemainingS s.clock s.pw 2 = 0 := by
  decide +kernel

end Limiter

end CyThing
