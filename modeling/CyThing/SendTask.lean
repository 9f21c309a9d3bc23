import CyThing.Keying

/-! The send task step by step. Between the check of a destination, the lookup in
`enc_frame_send` and the critical section behind it the other tasks may run, each a whole line
at a time: `linkStep`. In `fineStep` they may run inside the critical section too, since the
functions that end or rekey a session do not take `s_tx_mutex`. -/

namespace CyThing
open CLib Trace

inductive SendPoint
  | idle
  /-- A destination was chosen; `enc_frame_send` is called next. `toAll` for a line that is
  meant for paired phones only. -/
  | routed (dst : Nat) (payload : Bytes) (toAll : Bool)
  /-- `enc_frame_send` has found the keyed session of slot `i` and waits for the lock. -/
  | locking (i : Slot) (dst : Nat) (payload : Bytes) (toAll : Bool)
  deriving DecidableEq

structure Link where
  world : World := World.fresh
  point : SendPoint := .idle

inductive LinkEvent
  /-- A step of any task but the send task. -/
  | other (e : Event)
  | send

def sendRoute (w : World) : World × SendPoint :=
  match w.broadcast with
  | some b =>
    match w.accounts[b.next]? with
    | some dst =>
      let w := { w with broadcast := some { b with next := b.next + 1 } }
      if b.target = responseTargetAll ∧ devicePasswordIsSet w.pw = true ∧
          accessPolicySockAuthenticated w.pool dst = false then (w, .idle)
      else (w, .routed dst b.payload (b.target = responseTargetAll))
    | none => ({ w with broadcast := none }, .idle)
  | none =>
    if w.staging = [] then ({ w with staging := w.tcpFifo, tcpFifo := [] }, .idle)
    else
      let (line, rest) := nextLine w.staging
      let w := { w with staging := rest }
      match routeOf line with
      | none => (w, .idle)
      | some (target, payload) =>
        if target = responseTargetAll ∨ target = responseTargetEveryone then
          ({ w with broadcast := some ⟨target, payload, 0⟩ }, .idle)
        else if 0 ≤ target ∧ target.toNat ∈ w.accounts then
          (w, .routed target.toNat payload false)
        else (w, .idle)

def sendLookup (w : World) (dst : Nat) (payload : Bytes) (toAll : Bool) : World × SendPoint :=
  match localSessionFind w.pool dst with
  | none => (w.send dst payload, .idle)
  | some i =>
    if !(w.pool i).keyed then (w.send dst payload, .idle)
    else if encFramePlainMax < (stripCrLf payload).length then (w, .idle)
    else (w, .locking i dst payload toAll)

/-- `enc_frame_send` under its lock, where the session is looked at again, in one step; `fineSend`
takes it apart. -/
def sendLocked (P : Platform) (w : World) (i : Slot) (dst : Nat) (payload : Bytes) : World :=
  if (w.pool i).keyed = true ∧ (w.pool i).sock = some dst then
    encFrameSeal P w i dst (stripCrLf payload)
  else w

def sendStep (P : Platform) (w : World) : SendPoint → World × SendPoint
  | .idle => sendRoute w
  | .routed dst payload toAll => sendLookup w dst payload toAll
  | .locking i dst payload _ => (sendLocked P w i dst payload, .idle)

def linkStep (P : Platform) (l : Link) : LinkEvent → Link
  | .send => ⟨(sendStep P l.world l.point).1, (sendStep P l.world l.point).2⟩
  | .other .send => l
  | .other (.reboot factory env) => ⟨step P l.world (.reboot factory env), .idle⟩
  | .other e => ⟨step P l.world e, l.point⟩

inductive FinePoint
  | outside (point : SendPoint)
  /-- `enc_frame_send` has looked at the session again and holds the lock; `tx_ctr` and `key` are
  read next. -/
  | locked (i : Slot) (dst : Nat) (payload : Bytes) (toAll : Bool)
  deriving DecidableEq

structure FineLink where
  world : World := World.fresh
  point : FinePoint := .outside .idle

def fineSend (P : Platform) (w : World) : FinePoint → World × FinePoint
  | .outside (.locking i dst payload toAll) =>
    if (w.pool i).keyed = true ∧ (w.pool i).sock = some dst then (w, .locked i dst payload toAll)
    else (w, .outside .idle)
  | .outside point => ((sendStep P w point).1, .outside (sendStep P w point).2)
  | .locked i dst payload _ => (encFrameSeal P w i dst (stripCrLf payload), .outside .idle)

/-- A line that is handled while the send task holds the lock is handled whole. A frame of its
own would wait for the lock; what it does to the sessions does not. -/
def fineStep (P : Platform) (l : FineLink) : LinkEvent → FineLink
  | .send => ⟨(fineSend P l.world l.point).1, (fineSend P l.world l.point).2⟩
  | .other .send => l
  | .other (.reboot factory env) => ⟨step P l.world (.reboot factory env), .outside .idle⟩
  | .other e => ⟨step P l.world e, l.point⟩

theorem linkStep_other (P : Platform) (l : Link) {e : Event} (h : e ≠ .send) :
    (linkStep P l (.other e)).world = step P l.world e := by
  cases e with
  | send => exact absurd rfl h
  | _ => rfl

/-! ## The send task undisturbed -/

section Undisturbed

variable (P : Platform) (w : World)

theorem run_routed (dst : Nat) (payload : Bytes) (toAll : Bool) :
    ∃ n, run (linkStep P) ⟨w, .routed dst payload toAll⟩ (List.replicate n .send) =
      ⟨encFrameSend P w dst payload, .idle⟩ := by
  rcases hf : localSessionFind w.pool dst with _ | i
  · refine ⟨1, ?_⟩
    simp only [encFrameSend, hf, List.replicate, run_cons, run_nil, linkStep, sendStep, sendLookup]
  by_cases hk : (w.pool i).keyed = true
  · by_cases hlong : encFramePlainMax < (stripCrLf payload).length
    · refine ⟨1, ?_⟩
      simp only [encFrameSend, hf, List.replicate, run_cons, run_nil, linkStep, sendStep,
        sendLookup, hk, Bool.not_true, Bool.false_eq_true, if_false, if_pos hlong]
    · refine ⟨2, ?_⟩
      have hlocked : (w.pool i).keyed = true ∧ (w.pool i).sock = some dst :=
        ⟨hk, localSessionFind_sock hf⟩
      simp only [encFrameSend, hf, List.replicate, run_cons, run_nil, linkStep, sendStep,
        sendLookup, hk, Bool.not_true, Bool.false_eq_true, if_false, if_neg hlong]
      rw [sendLocked, if_pos hlocked]
  · rw [Bool.not_eq_true] at hk
    refine ⟨1, ?_⟩
    simp only [encFrameSend, hf, List.replicate, run_cons, run_nil, linkStep, sendStep,
      sendLookup, hk, Bool.not_false, if_true]

theorem sendRoute_ne_locking {w' : World} {i : Slot} {dst : Nat} {payload : Bytes}
    {toAll : Bool} : sendRoute w ≠ (w', .locking i dst payload toAll) := by
  intro h
  unfold sendRoute at h
  split at h
  · split at h
    · simp only at h
      split_ifs at h <;> cases h
    · cases h
  · split_ifs at h
    · cases h
    · simp only at h
      split at h
      · cases h
      · split_ifs at h <;> cases h

def finishRound (P : Platform) : World × SendPoint → World
  | (w, .routed dst payload _) => encFrameSend P w dst payload
  | (w, _) => w

theorem sendTaskStep_eq : sendTaskStep P w = finishRound P (sendRoute w) := by
  rcases hb : w.broadcast with _ | b
  · simp only [sendTaskStep, sendRoute, hb]
    split_ifs
    · rfl
    rcases hroute : routeOf (nextLine w.staging).1 with _ | ⟨target, payload⟩
    · rfl
    · simp only
      split_ifs <;> rfl
  · rcases ha : w.accounts[b.next]? with _ | dst
    · simp only [sendTaskStep, sendRoute, hb, ha, finishRound]
    · simp only [sendTaskStep, sendRoute, hb, ha, broadcastTo]
      split_ifs <;> rfl

theorem run_sendTaskStep :
    ∃ n, run (linkStep P) ⟨w, .idle⟩ (List.replicate n .send) = ⟨sendTaskStep P w, .idle⟩ := by
  have hround : ∃ n, run (linkStep P) ⟨(sendRoute w).1, (sendRoute w).2⟩
      (List.replicate n .send) = ⟨finishRound P (sendRoute w), .idle⟩ := by
    rcases hr : sendRoute w with ⟨w', point⟩
    cases point with
    | idle => exact ⟨0, rfl⟩
    | routed dst payload toAll => exact run_routed P w' dst payload toAll
    | locking i dst payload toAll => exact absurd hr (sendRoute_ne_locking w)
  obtain ⟨n, hn⟩ := hround
  refine ⟨n + 1, ?_⟩
  rw [List.replicate_succ, run_cons, sendTaskStep_eq]
  exact hn

/-- Every run of the device with whole rounds of the send task is one with its single steps. -/
theorem run_link (es : List Event) :
    ∃ ls, run (linkStep P) ⟨w, .idle⟩ ls = ⟨run (step P) w es, .idle⟩ := by
  induction es generalizing w with
  | nil => exact ⟨[], rfl⟩
  | cons e es ih =>
    obtain ⟨ls, hls⟩ := ih (step P w e)
    by_cases hsend : e = .send
    · subst hsend
      obtain ⟨n, hn⟩ := run_sendTaskStep P w
      refine ⟨List.replicate n .send ++ ls, ?_⟩
      rw [run_append, hn]
      exact hls
    · refine ⟨.other e :: ls, ?_⟩
      have hstep : linkStep P ⟨w, .idle⟩ (.other e) = ⟨step P w e, .idle⟩ := by
        cases e with
        | send => exact absurd rfl hsend
        | _ => rfl
      rw [run_cons, hstep]
      exact hls

end Undisturbed

/-! ## The critical section undisturbed -/

def Link.fine (l : Link) : FineLink := ⟨l.world, .outside l.point⟩

theorem run_fine_step (P : Platform) (l : Link) (e : LinkEvent) :
    ∃ fs, run (fineStep P) l.fine fs = (linkStep P l e).fine := by
  obtain ⟨w, point⟩ := l
  cases e with
  | other e => exact ⟨[.other e], by cases e <;> rfl⟩
  | send =>
    cases point with
    | idle | routed => exact ⟨[.send], rfl⟩
    | locking i dst payload toAll =>
      by_cases hstill : (w.pool i).keyed = true ∧ (w.pool i).sock = some dst
      · refine ⟨[.send, .send], ?_⟩
        simp only [run_cons, run_nil, Link.fine, fineStep, fineSend, if_pos hstill, linkStep,
          sendStep, sendLocked]
      · refine ⟨[.send], ?_⟩
        simp only [run_cons, run_nil, Link.fine, fineStep, fineSend, if_neg hstill, linkStep,
          sendStep, sendLocked]

theorem run_fine (P : Platform) (l : Link) (ls : List LinkEvent) :
    ∃ fs, run (fineStep P) l.fine fs = (run (linkStep P) l ls).fine := by
  induction ls generalizing l with
  | nil => exact ⟨[], rfl⟩
  | cons e ls ih =>
    obtain ⟨fs, hfs⟩ := run_fine_step P l e
    obtain ⟨fs', hfs'⟩ := ih (linkStep P l e)
    exact ⟨fs ++ fs', by rw [run_append, hfs, hfs', run_cons]⟩

end CyThing
