import CyThing.SendTask
import CyThing.Lockout

/-! A broadcast to the paired phones against the receive tasks. The send task asks whether a
socket is authenticated, and `enc_frame_send` then looks for the key by itself: what takes the
authentication away in between lets the line out in the clear. Its second look, under the lock,
does not hold the session either: what takes the authentication away behind it lets the line out
under a key that nobody has proved. -/

namespace CyThing
open CLib Trace

def FinePoint.toAll : FinePoint → Option Nat
  | .outside (.routed dst _ true) => some dst
  | .outside (.locking _ dst _ true) => some dst
  | .locked _ dst _ true => some dst
  | _ => none

/-- A line of the kind on `sock` may take the session of `dst` its authentication: a handshake
begun there, and on any socket `REVOKE`, `UNPAIR`, `PWSET` and `RESET`. -/
def LineKind.disturbs (sock dst : Nat) : LineKind → Bool
  | .pake1 | .auth1 => sock == dst
  | .owner .revoke | .owner .unpair | .owner .pwset | .owner .reset => true
  | _ => false

def disturbs (P : Platform) (w : World) (dst : Nat) : Event → Bool
  | .line sock bytes _ =>
    (dispatched P w sock bytes).any fun line => (lineKind line).disturbs sock dst
  | .close sock => sock == dst
  | _ => false

/-- The event may leave `dst` with a key that no account vouches for while a password is set:
the proof of a PAKE on that socket, or the first password. -/
def rekeys (P : Platform) (w : World) (dst : Nat) : Event → Bool
  | .line sock bytes _ =>
    (dispatched P w sock bytes).any fun line =>
      lineKind line = .pake3 && sock == dst ||
        lineKind line = .owner .pwset && !devicePasswordIsSet w.pw
  | _ => false

/-- Between the check and the lookup in `enc_frame_send`, and between the second look and the
encryption, nothing disturbs the socket; while it waits for the lock nothing rekeys it. -/
def Calm (P : Platform) (t : Step FineLink LinkEvent) : Bool :=
  match t.event, t.before.point with
  | .other e, .outside (.routed dst _ true) => !disturbs P t.before.world dst e
  | .other e, .outside (.locking _ dst _ true) => !rekeys P t.before.world dst e
  | .other e, .locked _ dst _ true => !disturbs P t.before.world dst e
  | _, _ => true

def Shielded (P : Platform) (t : Step FineLink LinkEvent) : Prop :=
  ∃ new, t.after.world.out = t.before.world.out ++ new ∧ ∀ x ∈ new, ∃ i nonce plain ct,
    (t.before.world.pool i).sock = some x.sock ∧
    (t.before.world.pool i).authenticated = true ∧
    P.aeadEncrypt (t.before.world.pool i).key nonce plain = some ct ∧
    x.bytes = encLine P nonce ct

/-! ## Between the check and the lookup, and behind the second look -/

def Seated (c : Core) (dst : Nat) (j : Slot) : Prop :=
  (c.pool j).sock = some dst ∧ (c.pool j).authenticated = true

def Admitted (c : Core) (dst : Nat) : Prop :=
  ∃ j, localSessionFind c.pool dst = some j ∧ Seated c dst j

structure StaysSeated (c c' : Core) (dst : Nat) (j : Slot) : Prop where
  seated : Seated c' dst j
  found : localSessionFind c.pool dst = some j → localSessionFind c'.pool dst = some j

section Seated

variable {P : Platform} {T : Set Slot} {env : Env} {w w' : World} {i j : Slot}
  {sock dst : Nat} {line : Bytes}

theorem authenticated_handleKind_self {k : LineKind} (hk : k = .pake3 ∨ k = .enroll ∨ k = .auth3)
    (h : (w.pool i).authenticated = true) :
    ((handleKind P env w i sock line k).pool i).authenticated = true := by
  have hedits {x w' : World} (hx : (x.pool i).authenticated = true) (he : Edits P ∅ x w') :
      (w'.pool i).authenticated = true :=
    (congrArg LocalSession.authenticated (he.untouched (Set.notMem_empty i))).trans hx
  have hkeyed := LocalSession.keyed_iff.mp (LocalSession.keyed_of_authenticated h)
  rcases hk with rfl | rfl | rfl
  · have hs : (w.pool i).state ≠ .pakeWaitProof := by
      rcases hkeyed with hs | hs <;> (rw [hs]; rintro ⟨⟩)
    simp only [handleKind, handlePake3, if_pos hs]
    exact hedits h Edits.refl.err
  · simp only [handleKind, handleEnroll]
    split_ifs with hstate
    · exact hedits h Edits.refl.err
    split
    · exact hedits h Edits.refl.err
    split
    · exact hedits h Edits.refl.setList.err
    · refine hedits ?_ Edits.refl.sendLine.pushEvent
      rw [World.setSession_self, LocalSession.authenticated_iff]
      exact Or.inr ⟨by tauto, rfl⟩
  · have hs : (w.pool i).state ≠ .authWaitProof := by
      rcases hkeyed with hs | hs <;> (rw [hs]; rintro ⟨⟩)
    simp only [handleKind, handleAuth3, if_pos hs]
    exact hedits h Edits.refl.err

theorem Seated.handleKind {k : LineKind} (hi : localSessionFind w.pool sock = some i)
    (h : Seated w.core dst j) (hcalm : k.disturbs sock dst = false) :
    StaysSeated w.core (handleKind P env w i sock line k).core dst j := by
  obtain ⟨hsock, hauth⟩ := h
  have hhandled := handled_handleKind P env w i sock line k
  refine ⟨⟨(hhandled.sock_eq j).trans hsock, ?_⟩,
    fun hj => (localSessionFind_congr hhandled.sock_eq dst).trans hj⟩
  by_cases hT : j ∈ touched i k
  · -- what touches the session and does not disturb it is a proof or an enrolment of its own
    have hself (hk : k = .pake3 ∨ k = .enroll ∨ k = .auth3) (hji : j = i) :
        ((CyThing.handleKind P env w i sock line k).core.pool j).authenticated = true := by
      subst hji
      exact authenticated_handleKind_self hk hauth
    have hbegin (hji : j = i) (hne : (sock == dst) = false) : False := by
      subst hji
      have hsame := (localSessionFind_sock hi).symm.trans hsock
      rw [beq_eq_false_iff_ne] at hne
      exact hne (Option.some.inj hsame)
    cases k with
    | pake1 | auth1 => exact (hbegin hT hcalm).elim
    | pake3 => exact hself (Or.inl rfl) hT
    | enroll => exact hself (Or.inr (Or.inl rfl)) hT
    | auth3 => exact hself (Or.inr (Or.inr rfl)) hT
    | owner c =>
      cases c with
      | revoke | unpair | pwset | reset => cases hcalm
      | list | pwclear | discoverymode | discoverymodeGet => cases hT
    | other => cases hT
  · exact (congrArg LocalSession.authenticated (hhandled.untouched hT)).trans hauth

theorem Seated.tcpDispatchLine (h : Seated w.core dst j)
    (hcalm : (lineKind line).disturbs sock dst = false) :
    StaysSeated w.core (tcpDispatchLine P env w sock line).core dst j := by
  have hcases := tcpDispatchLine_cases P env w sock line
  generalize CyThing.tcpDispatchLine P env w sock line = w' at hcases
  cases hcases with
  | refused => exact ⟨h, id⟩
  | outer =>
    rw [(outer_dispatchBehindPolicy P env w sock line).core]
    exact ⟨h, id⟩
  | noSession =>
    rw [core_sendErr]
    exact ⟨h, id⟩
  | handled hk hf => exact h.handleKind hf hcalm

theorem Seated.update {c : Core} {s : LocalSession} (h : Seated c dst j)
    (hi : (c.pool i).sock ≠ some dst) (hs : s.sock ≠ some dst) :
    StaysSeated c (c.setSession i s) dst j := by
  have hji : j ≠ i := by
    rintro rfl
    exact hi h.1
  refine ⟨?_, fun hj => Eq.trans (SlotTable.findSlot_congr fun k => ?_) hj⟩
  · rw [Seated, Core.setSession_of_ne _ _ _ hji]
    exact h
  · by_cases hk : k = i
    · subst hk
      rw [Core.setSession_self, beq_eq_false_iff_ne.mpr hi, beq_eq_false_iff_ne.mpr hs]
    · rw [Core.setSession_of_ne _ _ _ hk]

theorem Seated.step {e : Event} (h : Seated w.core dst j) (hboot : e.isReboot = false)
    (hcalm : disturbs P w dst e = false) : StaysSeated w.core (step P w e).core dst j := by
  by_cases hline : ∃ sock bytes env line, e = .line sock bytes env ∧
      dispatched P w sock bytes = some line
  · obtain ⟨sock, bytes, env, line, rfl, hl⟩ := hline
    obtain ⟨x, -, hcore, hstep⟩ := step_dispatched P w hl
    rw [hstep, ← hcore]
    refine Seated.tcpDispatchLine (hcore.symm ▸ h) ?_
    simpa only [disturbs, hl, Option.any_some] using hcalm
  have hm := step_move P w e
  generalize (CyThing.step P w e).core = c at hm
  cases hm with
  | line hl ha => exact absurd ⟨_, _, _, _, rfl, hl⟩ hline
  | refused | turnedAway | notOpen | queue | send | pairingTimeout => exact ⟨h, id⟩
  | tick => exact ⟨h, id⟩
  | opened hi hnew =>
    refine h.update (by rw [hi]; rintro ⟨⟩) ?_
    rintro hsame
    cases hsame
    exact beq_eq_false_iff_ne.mp (SlotTable.findSlot_eq_none.mp hnew j) h.1
  | undone hi => exact h.update (by rw [hi]; rintro ⟨⟩) (by rintro ⟨⟩)
  | closed hi =>
    refine h.update ?_ (by rintro ⟨⟩)
    rw [localSessionFind_sock hi]
    rintro ⟨⟩
    simp [disturbs] at hcalm
  | reboot | factory => cases hboot

theorem Admitted.step {e : Event} (h : Admitted w.core dst) (hboot : e.isReboot = false)
    (hcalm : disturbs P w dst e = false) : Admitted (step P w e).core dst := by
  obtain ⟨j, hj, hseated⟩ := h
  obtain ⟨hseated', hfound⟩ := hseated.step hboot hcalm
  exact ⟨j, hfound hj, hseated'⟩

end Seated

/-! ## While the send task waits for the lock -/

def Vouched (dst : Nat) (s : LocalSession) : Prop :=
  s.keyed = true → s.sock = some dst → s.authenticated = true

section Vouched

variable {P : Platform} {env : Env} {enc : Bool} {w : World} {c c' : Core} {i j : Slot}
  {sock dst : Nat} {line : Bytes} {s : LocalSession}

theorem Vouched.of_not_keyed (h : s.keyed = false) : Vouched dst s := by
  intro hk
  rw [h] at hk
  cases hk

theorem Vouched.onPairedRemoved (h : Vouched dst s) (r : Nat) :
    Vouched dst (s.onPairedRemoved r) := by
  rcases s.onPairedRemoved_cases r with ⟨-, -, he⟩ | ⟨k, -, hk, -, he⟩ | ⟨-, he⟩
  · rw [he]
    exact .of_not_keyed rfl
  · rw [he]
    intro hkeyed hsock
    have hauth := h hkeyed hsock
    simpa only [LocalSession.authenticated, hk, Option.isSome_some] using hauth
  · rw [he]
    exact h

theorem Vouched.set (h : Vouched dst (c.pool j)) (hs : Vouched dst s) :
    Vouched dst ((c.setSession i s).pool j) := by
  by_cases hj : j = i
  · subst hj
    rw [Core.setSession_self]
    exact hs
  · rw [Core.setSession_of_ne _ _ _ hj]
    exact h

theorem Vouched.revokeRun (hrun : RevokeRun env c c') (h : Vouched dst (c.pool j)) :
    Vouched dst (c'.pool j) := by
  induction hrun with
  | done c => exact h
  | removed hr hrole hrem hrest ih => exact ih (h.onPairedRemoved _)
  | failed hr hrole hrem hrest ih => exact ih h

theorem Vouched.action (ha : Action P env enc sock line c c')
    (hproof : lineKind line = .pake3 → sock ≠ dst) (h : Vouched dst (c.pool j)) :
    Vouched dst (c'.pool j) := by
  cases ha with
  | idle | enrollFail | removeFail | pwsetFail | pwclear => exact h
  | voided | pake1 | pake3Abort | pake3Bad | auth1 | auth3Bad => exact h.set (.of_not_keyed rfl)
  | pake3Ok hi hk =>
    refine h.set fun _ hsock => ?_
    have hsame : some sock = some dst := (localSessionFind_sock hi).symm.trans hsock
    exact absurd (Option.some.inj hsame) (hproof hk)
  | enroll hi hm hs =>
    refine h.set fun _ _ => ?_
    exact LocalSession.authenticated_iff.mpr (Or.inr ⟨hs, rfl⟩)
  | auth3Ok => exact h.set fun _ _ => LocalSession.authenticated_iff.mpr (Or.inl rfl)
  | remove => exact h.onPairedRemoved _
  | @pwset i password pw c₁ ok l nvs hi hm ho hset hrun =>
    have hdone : Vouched dst (c₁.pool j) := Vouched.revokeRun (c := c.setPw pw) hrun h
    exact hdone
  | reset =>
    change Vouched dst (localSessionDropAllAuth c.pool j)
    rw [localSessionDropAllAuth]
    split_ifs
    · exact h
    · exact .of_not_keyed rfl

theorem vouched_step {e : Event} (hboot : e.isReboot = false) (hcalm : rekeys P w dst e = false)
    (h : Vouched dst (w.core.pool j)) : Vouched dst ((step P w e).core.pool j) := by
  have hm := step_move P w e
  generalize (step P w e).core = c at hm
  cases hm with
  | line hl ha =>
    refine Vouched.action ha (fun hk hsock => ?_) h
    subst hsock
    simp [rekeys, hl, hk] at hcalm
  | refused | turnedAway | notOpen | queue | send | pairingTimeout => exact h
  | tick => exact h
  | opened | undone | closed => exact h.set (.of_not_keyed rfl)
  | reboot | factory => cases hboot

end Vouched

/-! ## The password -/

theorem pwset_of_stepMark {P : Platform} {w w' : World} {e : Event} {i : Slot}
    (h : stepMark P ⟨w, e, w'⟩ = some (.setsPassword i)) :
    ∃ sock bytes env line, e = .line sock bytes env ∧ dispatched P w sock bytes = some line ∧
      lineKind line = .owner .pwset := by
  cases e with
  | line sock bytes env =>
    obtain ⟨line, hl, hmark⟩ := Option.bind_eq_some_iff.mp h
    refine ⟨sock, bytes, env, line, rfl, hl, ?_⟩
    by_contra hk
    exact markOf_ne_setsPassword hk i hmark
  | reboot factory env => cases factory <;> cases h
  | _ => cases h

theorem isSet_of_step {P : Platform} {w : World} {e : Event} (hboot : e.isReboot = false)
    (hset : devicePasswordIsSet (step P w e).pw = true)
    (hfirst : ∀ sock bytes env line, e = .line sock bytes env →
      dispatched P w sock bytes = some line → lineKind line = .owner .pwset →
      devicePasswordIsSet w.pw = true) :
    devicePasswordIsSet w.pw = true := by
  change devicePasswordIsSet (step P w e).core.pw = true at hset
  cases step_guessMove P w e with
  | quiet hg hkeep hpw => rwa [hpw.isSet] at hset
  | wrong hg hkeep hpw => rwa [hpw, devicePasswordIsSet, noteFailure_pair] at hset
  | right hg hkeep hpw => rwa [hpw, devicePasswordIsSet, (noteSuccess_ip ..).2] at hset
  | renewed hpw hnew =>
    rcases hnew with hmark | hnone
    · obtain ⟨i, hi⟩ := hmark w
      obtain ⟨sock, bytes, env, line, rfl, hl, hk⟩ := pwset_of_stepMark hi
      exact hfirst sock bytes env line rfl hl hk
    · rw [hnone] at hset
      cases hset
  | booted he =>
    rw [hboot] at he
    cases he

/-! ## The run -/

def FinePoint.Safe (w : World) : FinePoint → Prop
  | .outside (.routed dst _ true) => Admitted w.core dst
  | .outside (.locking i dst _ true) => Vouched dst (w.core.pool i)
  | .locked i dst _ true => Seated w.core dst i
  | _ => True

def FineLink.Safe (l : FineLink) : Prop :=
  devicePasswordIsSet l.world.pw = true → l.point.Safe l.world

section Run

variable {P : Platform} {w : World}

theorem admitted_of_accessPolicy {dst : Nat}
    (h : accessPolicySockAuthenticated w.pool dst = true) : Admitted w.core dst := by
  unfold accessPolicySockAuthenticated at h
  split at h
  · next i hi => exact ⟨i, (w.localSessionFind_core dst).trans hi, localSessionFind_sock hi, h⟩
  · cases h

theorem safe_sendRoute (w : World) (hset : devicePasswordIsSet (sendRoute w).1.pw = true) :
    (FinePoint.outside (sendRoute w).2).Safe (sendRoute w).1 := by
  rcases hb : w.broadcast with _ | b
  · simp only [sendRoute, hb]
    split_ifs
    · trivial
    rcases routeOf (nextLine w.staging).1 with _ | ⟨target, payload⟩
    · trivial
    · simp only
      split_ifs <;> trivial
  · rcases ha : w.accounts[b.next]? with _ | dst
    · simp only [sendRoute, hb, ha]
      trivial
    · simp only [sendRoute, hb, ha] at hset ⊢
      split_ifs at hset ⊢ with hskip
      · trivial
      · by_cases hall : b.target = responseTargetAll
        · simp only [hall, decide_true]
          refine admitted_of_accessPolicy (Bool.of_not_eq_false fun hno => hskip ⟨hall, hset, hno⟩)
        · simp only [hall, decide_false]
          trivial

theorem safe_sendLookup {dst : Nat} {payload : Bytes} {toAll : Bool}
    (h : (FinePoint.outside (.routed dst payload toAll)).Safe w) :
    (FinePoint.outside (sendLookup w dst payload toAll).2).Safe
      (sendLookup w dst payload toAll).1 := by
  cases toAll with
  | false =>
    unfold sendLookup
    repeat' split
    all_goals trivial
  | true =>
    obtain ⟨i, hi, -, hauth⟩ : Admitted w.core dst := h
    rw [w.localSessionFind_core] at hi
    simp only [sendLookup, hi]
    split_ifs
    · trivial
    · trivial
    · exact fun _ _ => hauth

theorem safe_recheck {i : Slot} {dst : Nat} {payload : Bytes} {toAll : Bool}
    (h : (FinePoint.outside (.locking i dst payload toAll)).Safe w) :
    (fineSend P w (.outside (.locking i dst payload toAll))).2.Safe w := by
  -- the lookup vouched for the session, and nothing has rekeyed it since
  simp only [fineSend]
  split_ifs with hstill
  · cases toAll with
    | false => trivial
    | true => exact ⟨hstill.2, h hstill.1 hstill.2⟩
  · trivial

theorem safe_other {point : FinePoint} {l' : FineLink} {e : Event} (hboot : e.isReboot = false)
    (hset : devicePasswordIsSet (step P w e).pw = true) (h : FineLink.Safe ⟨w, point⟩)
    (hcalm : Calm P ⟨⟨w, point⟩, .other e, l'⟩ = true) : point.Safe (step P w e) := by
  -- a first password disturbs every socket
  have hold {dst : Nat} (hcalm : disturbs P w dst e = false) : point.Safe w := by
    refine h (isSet_of_step hboot hset ?_)
    rintro sock bytes env line rfl hl hk
    simp [disturbs, hl, hk, LineKind.disturbs] at hcalm
  match point with
  | .outside .idle | .outside (.routed _ _ false) | .outside (.locking _ _ _ false) => trivial
  | .locked _ _ _ false => trivial
  | .outside (.routed dst payload true) =>
    have hcalm : disturbs P w dst e = false := by simpa only [Calm, Bool.not_eq_true'] using hcalm
    have hadmitted : Admitted w.core dst := hold hcalm
    exact hadmitted.step hboot hcalm
  | .locked i dst payload true =>
    have hcalm : disturbs P w dst e = false := by simpa only [Calm, Bool.not_eq_true'] using hcalm
    have hseated : Seated w.core dst i := hold hcalm
    exact (hseated.step hboot hcalm).seated
  | .outside (.locking i dst payload true) =>
    have hcalm : rekeys P w dst e = false := by simpa only [Calm, Bool.not_eq_true'] using hcalm
    refine vouched_step hboot hcalm (h (isSet_of_step hboot hset ?_))
    rintro sock bytes env line rfl hl hk
    simpa [rekeys, hl, hk] using hcalm

theorem safe_fineStep {l : FineLink} {e : LinkEvent} (h : l.Safe)
    (hcalm : Calm P ⟨l, e, fineStep P l e⟩ = true) : (fineStep P l e).Safe := by
  obtain ⟨w, point⟩ := l
  intro hset
  cases e with
  | send =>
    match point with
    | .outside .idle => exact safe_sendRoute w hset
    | .outside (.routed dst payload toAll) =>
      refine safe_sendLookup (h ?_)
      have hpw : (sendLookup w dst payload toAll).1.pw = w.pw := by
        unfold sendLookup
        repeat' split
        all_goals rfl
      exact hpw ▸ hset
    | .outside (.locking i dst payload toAll) =>
      have hworld : (fineSend P w (.outside (.locking i dst payload toAll))).1 = w := by
        simp only [fineSend]
        split_ifs <;> rfl
      simp only [fineStep, hworld] at hset ⊢
      exact safe_recheck (h hset)
    | .locked i dst payload toAll => trivial
  | other e =>
    by_cases hsend : e = .send
    · subst hsend
      exact h hset
    by_cases hboot : e.isReboot = true
    · cases e with
      | reboot factory env => trivial
      | _ => cases hboot
    rw [Bool.not_eq_true] at hboot
    have hstep : fineStep P ⟨w, point⟩ (.other e) = ⟨step P w e, point⟩ := by
      cases e with
      | send => exact absurd rfl hsend
      | reboot factory env => cases hboot
      | _ => rfl
    rw [hstep] at hset ⊢
    exact safe_other hboot hset h hcalm

theorem safe_run (P : Platform) (ls : List LinkEvent)
    (hcalm : ∀ t ∈ trace (fineStep P) {} ls, Calm P t = true) :
    (run (fineStep P) {} ls).Safe :=
  trace_induction (Q := fun _ l => l.Safe) (fun _ => trivial)
    (fun _ _ _ h hok => safe_fineStep h hok) ls hcalm

theorem shielded_fineSend {point : FinePoint} (hall : point.toAll ≠ none) (h : point.Safe w) :
    Shielded P ⟨⟨w, point⟩, .send, fineStep P ⟨w, point⟩ .send⟩ := by
  have hsilent {t : Step FineLink LinkEvent} (ht : t.after.world.out = t.before.world.out) :
      Shielded P t := ⟨[], by rw [ht, List.append_nil], fun _ hx => absurd hx List.not_mem_nil⟩
  match point with
  | .outside .idle | .outside (.routed _ _ false) | .outside (.locking _ _ _ false) =>
    exact absurd rfl hall
  | .locked _ _ _ false => exact absurd rfl hall
  | .outside (.routed dst payload true) =>
    obtain ⟨i, hi, -, hauth⟩ : Admitted w.core dst := h
    rw [w.localSessionFind_core] at hi
    have hkeyed : (w.pool i).keyed = true := LocalSession.keyed_of_authenticated hauth
    apply hsilent
    simp only [fineStep, fineSend, sendStep, sendLookup, hi, hkeyed, Bool.not_true,
      Bool.false_eq_true, if_false]
    split_ifs <;> rfl
  | .outside (.locking i dst payload true) =>
    apply hsilent
    simp only [fineStep, fineSend]
    split_ifs <;> rfl
  | .locked i dst payload true =>
    obtain ⟨hsock, hauth⟩ : Seated w.core dst i := h
    simp only [Shielded, fineStep, fineSend, encFrameSeal]
    split
    · next ct hct =>
      refine ⟨[_], rfl, fun x hx => ?_⟩
      obtain rfl := List.mem_singleton.mp hx
      exact ⟨i, _, _, ct, hsock, hauth, hct, rfl⟩
    · exact ⟨[], (List.append_nil _).symm, fun _ hx => absurd hx List.not_mem_nil⟩

end Run

/-- A broadcast for paired phones only stays among them: over every run in which nothing
disturbs a socket between its check and the lookup in `enc_frame_send` or between the second look
there and the encryption, and nothing rekeys it before the lock is taken, the send task transmits
such a line, while a password is set, only in a frame under the key of an authenticated session. -/
theorem broadcast_stays_private (P : Platform) (ls : List LinkEvent)
    (hcalm : ∀ t ∈ trace (fineStep P) {} ls, Calm P t = true) :
    ∀ t ∈ trace (fineStep P) {} ls, t.event = .send → t.before.point.toAll ≠ none →
      devicePasswordIsSet t.before.world.pw = true → Shielded P t := by
  rintro ⟨l, e, l'⟩ ht rfl hall hset
  obtain ⟨pre, post, rfl, hb, ha⟩ := mem_trace ht
  obtain rfl : l = run (fineStep P) {} pre := hb
  obtain rfl : l' = fineStep P (run (fineStep P) {} pre) .send := ha
  refine shielded_fineSend hall (safe_run P pre (fun t ht => hcalm t ?_) hset)
  rw [trace_append]
  exact List.mem_append_left _ ht

namespace Sample

def routedToOwner : List LinkEvent :=
  (ownerJoins ++ [ownerSends 2 "PWSET:c2VjcmV0MTIz" {},
    .queue (.data sendToAll (ascii "hello"))]).map .other ++ List.replicate 3 .send

def calmBroadcast : List LinkEvent :=
  routedToOwner ++ [.other (.tick 1000), .send, .other (.accept 6 2 true), .send,
    .other (.accept 7 3 true), .send]

theorem calm_broadcast_private :
    (trace (fineStep platform) {} calmBroadcast).getLast?.any (fun t =>
      t.before.point.toAll == some 5 && devicePasswordIsSet t.before.world.pw &&
        t.after.world.out.length == t.before.world.out.length + 1) = true ∧
      ∀ t ∈ trace (fineStep platform) {} calmBroadcast, t.event = .send →
        t.before.point.toAll ≠ none → devicePasswordIsSet t.before.world.pw = true →
        Shielded platform t :=
  ⟨by decide +kernel, broadcast_stays_private platform calmBroadcast (by decide +kernel)⟩

theorem not_shielded_of_unproven {P : Platform} {t : Step FineLink LinkEvent} {x : Sent}
    (hout : t.after.world.out = t.before.world.out ++ [x])
    (hno : ∀ i, (t.before.world.pool i).sock = some x.sock →
      (t.before.world.pool i).authenticated = false) : ¬ Shielded P t := by
  rintro ⟨new, hnew, hall⟩
  have hone : new = [x] := List.append_cancel_left (hnew.symm.trans hout)
  obtain ⟨i, nonce, plain, ct, hsock, hauth, -⟩ := hall x (hone ▸ List.mem_singleton_self x)
  rw [hno i hsock] at hauth
  cases hauth

/-- The owner begins a new handshake between the check and the lookup: the line leaves in the
clear on its socket, with the password set. -/
theorem broadcast_leaks :
    let l := run (fineStep platform) {} (routedToOwner ++ [.other (pake1 5 {})])
    let l' := fineStep platform l .send
    (run (fineStep platform) {} routedToOwner).point =
        .outside (.routed 5 (ascii "11:hello\n") true) ∧
      accessPolicySockAuthenticated (run (fineStep platform) {} routedToOwner).world.pool 5 =
        true ∧
      l.point.toAll = some 5 ∧ devicePasswordIsSet l.world.pw = true ∧
      l'.world.out = l.world.out ++ [⟨5, ascii "11:hello\n", none⟩] ∧
      ¬Shielded platform ⟨l, .send, l'⟩ := by
  intro l l'
  obtain ⟨hpoint, hauth, hall, hset, hout, hno⟩ :
      (run (fineStep platform) {} routedToOwner).point =
        .outside (.routed 5 (ascii "11:hello\n") true) ∧
      accessPolicySockAuthenticated (run (fineStep platform) {} routedToOwner).world.pool 5 =
        true ∧
      l.point.toAll = some 5 ∧ devicePasswordIsSet l.world.pw = true ∧
      l'.world.out = l.world.out ++ [⟨5, ascii "11:hello\n", none⟩] ∧
      ∀ i, (l.world.pool i).sock = some 5 → (l.world.pool i).authenticated = false := by
    decide +kernel
  clear_value l' l
  exact ⟨hpoint, hauth, hall, hset, hout, not_shielded_of_unproven hout hno⟩

/-- It does so behind the second look: the line leaves in a frame under a key that is not proved
yet. -/
example :
    let l := run (fineStep platform) {} (routedToOwner ++ [.send, .send, .other (pake1 5 {})])
    let l' := fineStep platform l .send
    l.point = .locked 0 5 (ascii "11:hello\n") true ∧ (l.world.pool 0).state = .pakeWaitProof ∧
      l'.world.seals.getLast?.map Seal.key = some (l.world.pool 0).key ∧
      l'.world.out.length = l.world.out.length + 1 := by
  decide +kernel

end Sample

end CyThing
