import CyThing.Moves

/-! How a session comes to be keyed: by an `AUTH1` that an `AUTH3` with the right proof
followed, or by a `PAKE1` that an accepted `PAKE3` followed, with nothing in between that
abandons or revokes the exchange. -/

namespace CyThing
open CLib Trace

/-! ## Steps of a handshake -/

section Steps

variable (P : Platform) (i : Slot)

def LineAt (k : LineKind) (env : Env) (line : Bytes) (s : Step World Event) : Prop :=
  ∃ sock bytes, s.event = .line sock bytes env ∧ dispatched P s.before sock bytes = some line ∧
    localSessionFind s.before.pool sock = some i ∧ lineKind line = k

def Pake1At (hd : SrpHandle) (s : Step World Event) : Prop :=
  ∃ env line bytesA, LineAt P i .pake1 env line s ∧
    decodePayload P line pake1Prefix srpBytesMax = some bytesA ∧
    (devicePasswordGet P env.initRand s.before.pw).1 = some (hd.salt, hd.verifier) ∧
    srpBegin P env (hd.salt, hd.verifier) bytesA = some hd

def Pake3At (hd : SrpHandle) (s : Step World Event) : Prop :=
  ∃ env line m1 m2, LineAt P i .pake3 env line s ∧ pake3Proof P line = some m1 ∧
    P.srpExchangeProofs hd devicePwSrpIdentity m1 = some m2

def Auth1At (key : Block 32) (np nd : Block localAuthNonceLen) (s : Step World Event) : Prop :=
  ∃ env line sub r entry, LineAt P i .auth1 env line s ∧ parseAuth1 P line = some (sub, np) ∧
    pairedListFind s.before.list sub = some r ∧
    pairedListGet s.before.list (some r) = some entry ∧ key = entry.key ∧
    nd = .fit localAuthNonceLen env.nonceDev

def Auth3At (key : Block 32) (np nd : Block localAuthNonceLen) (s : Step World Event) : Prop :=
  ∃ env line, LineAt P i .auth3 env line s ∧
    parseAuth3 P line = some (P.hmacSha256 key.1 (proofMessage phnLabel nd np))

def BeginsAt (s : Step World Event) : Prop := ∃ sub, stepMark P s = some (.begins i sub)

def RevokedAt (s : Step World Event) : Prop :=
  s.after.core.pool i = (s.before.core.pool i).dropAuth

structure Undisturbed (s : Step World Event) : Prop where
  sameSock : (s.after.pool i).sock = (s.before.pool i).sock
  noBegin : ¬BeginsAt P i s
  noRevocation : ¬RevokedAt i s

end Steps

/-! ## What one step does to one session -/

inductive SessionMove (P : Platform) (i : Slot) (s : Step World Event) : Prop
  | ended (h : (s.after.pool i).state = .new)
  | kept (hstate : (s.after.pool i).state = (s.before.pool i).state)
      (hsock : (s.after.pool i).sock = (s.before.pool i).sock)
      (hip : (s.after.pool i).peerIp = (s.before.pool i).peerIp)
      (hsrp : (s.after.pool i).srp = (s.before.pool i).srp)
      (hkey : (s.after.pool i).key = (s.before.pool i).key)
      (hnp : (s.after.pool i).noncePhone = (s.before.pool i).noncePhone)
      (hnd : (s.after.pool i).nonceDev = (s.before.pool i).nonceDev)
      (hb : ¬BeginsAt P i s)
  | pake1 (hd : SrpHandle) (h : Pake1At P i hd s)
      (hstate : (s.after.pool i).state = .pakeWaitProof)
      (hsrp : (s.after.pool i).srp = some hd)
      (hsock : (s.after.pool i).sock = (s.before.pool i).sock)
  | pake3 (hd : SrpHandle) (hbefore : (s.before.pool i).state = .pakeWaitProof)
      (hsrp : (s.before.pool i).srp = some hd) (h : Pake3At P i hd s)
      (hstate : (s.after.pool i).state = .pakeOk)
      (hsock : (s.after.pool i).sock = (s.before.pool i).sock)
  | auth1 (h : Auth1At P i (s.after.pool i).key (s.after.pool i).noncePhone
      (s.after.pool i).nonceDev s) (hstate : (s.after.pool i).state = .authWaitProof)
      (hsock : (s.after.pool i).sock = (s.before.pool i).sock)
  | auth3 (hbefore : (s.before.pool i).state = .authWaitProof)
      (h : Auth3At P i (s.before.pool i).key (s.before.pool i).noncePhone
        (s.before.pool i).nonceDev s) (hstate : (s.after.pool i).state = .authOk)
      (hsock : (s.after.pool i).sock = (s.before.pool i).sock)

section OneStep

variable {P : Platform} {w w' : World} {e : Event} {i : Slot}

theorem SessionMove.of_pool_eq (h : w'.core.pool i = w.core.pool i)
    (hb : ¬BeginsAt P i ⟨w, e, w'⟩) : SessionMove P i ⟨w, e, w'⟩ :=
  .kept (congrArg LocalSession.state h :) (congrArg LocalSession.sock h :)
    (congrArg LocalSession.peerIp h :) (congrArg LocalSession.srp h :)
    (congrArg LocalSession.key h :) (congrArg LocalSession.noncePhone h :)
    (congrArg LocalSession.nonceDev h :) hb

def KeptOrDropped (s s' : LocalSession) : Prop :=
  s'.state = .new ∨ s' = { s with pairedIndex := s'.pairedIndex, role := s'.role }

theorem KeptOrDropped.trans {s s' s'' : LocalSession} (h : KeptOrDropped s s')
    (h' : KeptOrDropped s' s'') : KeptOrDropped s s'' := by
  rcases h' with h' | h'
  · exact Or.inl h'
  · rcases h with h | h
    · exact Or.inl (by rw [h']; exact h)
    · exact Or.inr (by rw [h', h])

theorem onPairedRemoved_kept (s : LocalSession) (r : Nat) :
    KeptOrDropped s (s.onPairedRemoved r) := by
  rcases s.onPairedRemoved_cases r with ⟨_, _, h⟩ | ⟨k, _, _, _, h⟩ | ⟨_, h⟩
  · exact Or.inl (by rw [h]; rfl)
  · exact Or.inr (by rw [h])
  · exact Or.inr (by rw [h])

theorem RevokeRun.kept {env : Env} {c c' : Core} (h : RevokeRun env c c') (i : Slot) :
    KeptOrDropped (c.pool i) (c'.pool i) := by
  induction h with
  | done c => exact Or.inr rfl
  | removed hr hrole hrem hrest ih => exact (onPairedRemoved_kept _ _).trans ih
  | failed hr hrole hrem hrest ih => exact ih

theorem SessionMove.of_ended {c : Core} (hc : w'.core = c) (h : (c.pool i).state = .new) :
    SessionMove P i ⟨w, e, w'⟩ := .ended (show (w'.core.pool i).state = .new by rw [hc]; exact h)

theorem SessionMove.of_kept {c : Core} (hc : w'.core = c)
    (h : KeptOrDropped (w.core.pool i) (c.pool i))
    (hb : ¬BeginsAt P i ⟨w, e, w'⟩) : SessionMove P i ⟨w, e, w'⟩ := by
  rcases h with h | h
  · exact .of_ended hc h
  · have hp : w'.core.pool i = { w.core.pool i with
        pairedIndex := (c.pool i).pairedIndex, role := (c.pool i).role } := by
      rw [hc]
      exact h
    exact .kept (congrArg LocalSession.state hp :) (congrArg LocalSession.sock hp :)
      (congrArg LocalSession.peerIp hp :) (congrArg LocalSession.srp hp :)
      (congrArg LocalSession.key hp :) (congrArg LocalSession.noncePhone hp :)
      (congrArg LocalSession.nonceDev hp :) hb

theorem SessionMove.of_set {c : Core} {j : Slot} {s : LocalSession}
    (hc : w'.core = c.setSession j s) (hpool : c.pool = w.core.pool)
    (hb : j ≠ i → ¬BeginsAt P i ⟨w, e, w'⟩) (hj : j = i → SessionMove P i ⟨w, e, w'⟩) :
    SessionMove P i ⟨w, e, w'⟩ := by
  by_cases h : j = i
  · exact hj h
  · refine .of_pool_eq ?_ (hb h)
    rw [hc, Core.setSession_of_ne _ _ _ (Ne.symm h), hpool]

end OneStep

theorem srpBegin_pair {P : Platform} {env : Env} {pair : Bytes × Bytes} {bytesA : Bytes}
    {hd : SrpHandle} (h : srpBegin P env pair bytesA = some hd) :
    pair = (hd.salt, hd.verifier) := by
  simp only [srpBegin] at h
  split at h
  · cases h
  · split at h
    · cases h
    · split_ifs at h
      cases h
      rfl

section OfAction

variable {P : Platform} {w w' : World} {i : Slot} {sock : Nat} {bytes line : Bytes} {env : Env}

theorem not_beginsAt_of_mark {m : Option Mark}
    (hm : stepMark P ⟨w, .line sock bytes env, w'⟩ = m) (h : ∀ sub, m ≠ some (.begins i sub)) :
    ¬BeginsAt P i ⟨w, .line sock bytes env, w'⟩ := by
  rintro ⟨sub, hsub⟩
  exact h sub (hm.symm.trans hsub)

theorem Action.sessionMove {c : Core} (hl : dispatched P w sock bytes = some line)
    (ha : Action P env (isEncLine bytes) sock line w.core c) (hc : w'.core = c) :
    SessionMove P i ⟨w, .line sock bytes env, w'⟩ := by
  have hmark : stepMark P ⟨w, .line sock bytes env, w'⟩ = _ := stepMark_line hl
  have hlineAt : ∀ {j : Slot} {k : LineKind}, localSessionFind w.core.pool sock = some j →
      lineKind line = k → LineAt P j k env line ⟨w, .line sock bytes env, w'⟩ :=
    fun hj hk => ⟨sock, bytes, rfl, hl, hj, hk⟩
  have hnone : markOf P env (isEncLine bytes) w.core sock line = none →
      ¬BeginsAt P i ⟨w, .line sock bytes env, w'⟩ := fun hm =>
    not_beginsAt_of_mark (hmark.trans hm) (by rintro _ ⟨⟩)
  have hother : ∀ {j sub}, markOf P env (isEncLine bytes) w.core sock line =
      some (.begins j sub) → j ≠ i → ¬BeginsAt P i ⟨w, .line sock bytes env, w'⟩ :=
    fun hm hj => not_beginsAt_of_mark (hmark.trans hm) fun sub' h => by
      simp only [Option.some.injEq, Mark.begins.injEq] at h
      exact hj h.1
  have hkind : ∀ {j}, localSessionFind w.core.pool sock = some j →
      markOf P env (isEncLine bytes) w.core sock line =
        markAt P env (isEncLine bytes) w.core j line := fun hj => markOf_core hj
  cases ha with
  | idle hm => exact .of_pool_eq (by rw [hc]) (hnone hm)
  | voided hi hm hpw =>
    refine .of_set hc rfl (hother hm) fun hj => .of_ended hc ?_
    rw [hj, Core.setSession_self]
    rfl
  | @pake1 j bytesA pair pw hd hi hk hlock hA hget hhd =>
    have hm := hkind hi
    rw [markAt, hk] at hm
    refine .of_set hc rfl (hother hm) fun hj => ?_
    subst hj
    have hp : w'.core.pool j = { (w.core.pool j).resetHandshake with
        key := .fit 32 hd.sessionKey, srp := some hd, state := .pakeWaitProof } := by
      rw [hc, Core.setSession_self]
    obtain rfl := srpBegin_pair hhd
    exact .pake1 hd ⟨env, line, bytesA, hlineAt hi hk, hA, congrArg Prod.fst hget, hhd⟩
      (congrArg LocalSession.state hp :) (congrArg LocalSession.srp hp :)
      (congrArg LocalSession.sock hp :)
  | pake3Abort hi hm hs =>
    refine .of_set hc rfl (fun _ => hnone hm) fun hj => .of_ended hc ?_
    rw [hj, Core.setSession_self]
    rfl
  | pake3Bad hi hk hs hhd hm1 hbad =>
    have hm := hkind hi
    rw [markAt, hk] at hm
    refine .of_set hc rfl (fun _ => hnone hm) fun hj => .of_ended hc ?_
    rw [hj, Core.setSession_self]
    rfl
  | @pake3Ok j hd m1 m2 hi hk hs hhd hm1 hok =>
    have hm := hkind hi
    rw [markAt, hk] at hm
    refine .of_set hc rfl (fun _ => hnone hm) fun hj => ?_
    subst hj
    have hp : w'.core.pool j = { w.core.pool j with srp := none, state := .pakeOk } := by
      rw [hc, Core.setSession_self]
    exact .pake3 hd hs hhd ⟨env, line, m1, m2, hlineAt hi hk, hm1, hok⟩
      (congrArg LocalSession.state hp :) (congrArg LocalSession.sock hp :)
  | enroll hi hm hs hp he =>
    have hb : ¬BeginsAt P i ⟨w, .line sock bytes env, w'⟩ :=
      not_beginsAt_of_mark (hmark.trans hm) (by rintro _ ⟨⟩)
    refine .of_set hc rfl (fun _ => hb) fun hj => .of_kept hc (Or.inr ?_) hb
    rw [hj, Core.setSession_self]
  | enrollFail hi hm hp he => exact .of_pool_eq (by rw [hc]; rfl) (hnone hm)
  | @auth1 j sub np r hi hk hp hf hr =>
    have hm := hkind hi
    rw [markAt, hk] at hm
    refine .of_set hc rfl (hother hm) fun hj => ?_
    subst hj
    have hs : w'.core.pool j = { (w.core.pool j).resetHandshake with
        noncePhone := np, nonceDev := .fit localAuthNonceLen env.nonceDev
        key := (w.core.list.entries r).key, pairedIndex := some r, state := .authWaitProof } := by
      rw [hc, Core.setSession_self]
    have hnp : np = (w'.pool j).noncePhone := (congrArg LocalSession.noncePhone hs :).symm
    exact .auth1 ⟨env, line, sub, r, w.list.entries r, hlineAt hi hk, hnp ▸ hp, hf, if_pos hr,
      (congrArg LocalSession.key hs :), (congrArg LocalSession.nonceDev hs :)⟩
      (congrArg LocalSession.state hs :) (congrArg LocalSession.sock hs :)
  | auth3Bad hi hm hs =>
    refine .of_set hc rfl (fun _ => hnone hm) fun hj => .of_ended hc ?_
    rw [hj, Core.setSession_self]
  | @auth3Ok j hi hk hs hp =>
    have hm := hkind hi
    rw [markAt, hk] at hm
    refine .of_set hc rfl (fun _ => hnone hm) fun hj => ?_
    subst hj
    have hst : (w'.core.pool j).state = .authOk := by rw [hc, Core.setSession_self]
    have hsock : (w'.core.pool j).sock = (w.core.pool j).sock := by rw [hc, Core.setSession_self]
    exact .auth3 hs ⟨env, line, hlineAt hi hk, hp⟩ hst hsock
  | remove hi hm hr hby hrem =>
    exact .of_kept hc (onPairedRemoved_kept (w.core.pool i) _) (hnone hm)
  | removeFail hi hm hr hrem => exact .of_pool_eq (by rw [hc]; rfl) (hnone hm)
  | pwset hi hm ho hset hrun hend hrot =>
    exact .of_kept hc (hrun.kept i) (not_beginsAt_of_mark (hmark.trans hm) (by rintro _ ⟨⟩))
  | pwsetFail hm hset => exact .of_pool_eq (by rw [hc]; rfl) (hnone hm)
  | pwclear hm => exact .of_pool_eq (by rw [hc]; rfl) (hnone hm)
  | reset hi hm ho =>
    have hb : ¬BeginsAt P i ⟨w, .line sock bytes env, w'⟩ :=
      not_beginsAt_of_mark (hmark.trans hm) (by rintro _ ⟨⟩)
    refine .of_kept hc ?_ hb
    by_cases hs : (w.core.pool i).sock = none
    · exact Or.inr (by simp only [localSessionDropAllAuth, if_pos hs])
    · exact Or.inl (by simp only [localSessionDropAllAuth, if_neg hs]; rfl)

end OfAction

theorem session_move (P : Platform) (w : World) (e : Event) (i : Slot) :
    SessionMove P i ⟨w, e, step P w e⟩ := by
  have hm := step_move P w e
  generalize step P w e = w' at hm ⊢
  generalize hc : w'.core = c at hm
  have hquiet : stepMark P ⟨w, e, w'⟩ = none → ¬BeginsAt P i ⟨w, e, w'⟩ :=
    fun h ⟨_, hsub⟩ => by rw [h] at hsub; cases hsub
  cases hm with
  | line hl ha => exact ha.sessionMove hl hc
  | refused hl => exact .of_pool_eq (by rw [hc]) (hquiet (stepMark_refused hl))
  | opened hi hnew =>
    refine .of_set hc rfl (fun _ => hquiet rfl) fun hj => .of_ended hc ?_
    rw [hj, Core.setSession_self]
    rfl
  | undone hi =>
    refine .of_set hc rfl (fun _ => hquiet rfl) fun hj => .of_ended hc ?_
    rw [hj, Core.setSession_self]
    rfl
  | closed hi =>
    refine .of_set hc rfl (fun _ => hquiet rfl) fun hj => .of_ended hc ?_
    rw [hj, Core.setSession_self]
    rfl
  | turnedAway => exact .of_pool_eq (by rw [hc]) (hquiet rfl)
  | notOpen hi => exact .of_pool_eq (by rw [hc]) (hquiet rfl)
  | queue => exact .of_pool_eq (by rw [hc]) (hquiet rfl)
  | send => exact .of_pool_eq (by rw [hc]) (hquiet rfl)
  | tick => exact .of_pool_eq (by rw [hc]) (hquiet rfl)
  | pairingTimeout => exact .of_pool_eq (by rw [hc]) (hquiet rfl)
  | reboot => exact .of_ended hc rfl
  | factory => exact .of_ended hc rfl

/-! ## Whole runs -/

def Provenance (P : Platform) (i : Slot) (tr : List (Step World Event)) (s : LocalSession) :
    Prop :=
  match s.state with
  | .new => True
  | .pakeWaitProof => ∃ hd, s.srp = some hd ∧ Since (Pake1At P i hd) (Undisturbed P i) tr
  | .pakeOk => ∃ hd, SinceThen (Pake1At P i hd) (Undisturbed P i) (Pake3At P i hd)
      (Undisturbed P i) tr
  | .authWaitProof =>
    Since (Auth1At P i s.key s.noncePhone s.nonceDev) (Undisturbed P i) tr
  | .authOk => ∃ key np nd, SinceThen (Auth1At P i key np nd) (Undisturbed P i)
      (Auth3At P i key np nd) (Undisturbed P i) tr

theorem Provenance.step {P : Platform} {i : Slot} {tr : List (Step World Event)}
    {s : Step World Event} (hm : SessionMove P i s) (h : Provenance P i tr (s.before.pool i)) :
    Provenance P i (tr ++ [s]) (s.after.pool i) := by
  cases hm with
  | ended hn => simp only [Provenance, hn]
  | kept hstate hsock hip hsrp hkey hnp hnd hb =>
    by_cases hnew : (s.after.pool i).state = .new
    · simp only [Provenance, hnew]
    have hu : Undisturbed P i s := ⟨hsock, hb, fun hr => hnew (congrArg LocalSession.state hr :)⟩
    simp only [Provenance, hstate, hsrp, hkey, hnp, hnd] at h ⊢
    split
    · trivial
    · next hs =>
      rw [hs] at h
      obtain ⟨hd, hd', hsince⟩ := h
      exact ⟨hd, hd', hsince.concat hu⟩
    · next hs =>
      rw [hs] at h
      obtain ⟨hd, hsince⟩ := h
      exact ⟨hd, hsince.concat hu⟩
    · next hs =>
      rw [hs] at h
      exact h.concat hu
    · next hs =>
      rw [hs] at h
      obtain ⟨key, np, nd, hsince⟩ := h
      exact ⟨key, np, nd, hsince.concat hu⟩
  | pake1 hd hp hstate hsrp hsock =>
    simp only [Provenance, hstate]
    exact ⟨hd, hsrp, Since.now hp⟩
  | pake3 hd hbefore hsrp hp hstate hsock =>
    simp only [Provenance, hbefore, hsrp] at h
    obtain ⟨hd', hd'', hsince⟩ := h
    cases hd''
    simp only [Provenance, hstate]
    exact ⟨hd, SinceThen.now hsince hp⟩
  | auth1 hp hstate hsock =>
    simp only [Provenance, hstate]
    exact Since.now hp
  | auth3 hbefore hp hstate hsock =>
    simp only [Provenance, hbefore] at h
    simp only [Provenance, hstate]
    exact ⟨_, _, _, SinceThen.now h hp⟩

theorem provenance_run (P : Platform) (i : Slot) {w : World} (h : (w.pool i).state = .new)
    (es : List Event) :
    Provenance P i (trace (step P) w es) ((run (step P) w es).pool i) := by
  refine history_induction (Q := fun tr u => Provenance P i tr (u.pool i)) ?_
    (fun tr u e ih => ih.step (session_move P u e i)) es
  simp only [Provenance, h]

/-! ## `PAKE1` and `AUTH1` start over -/

section Restart

variable {P : Platform} {env : Env} {w : World} {i : Slot} {sock : Nat} {line : Bytes}

theorem localSessionFind_update {p : Pool} {s : LocalSession}
    (hi : localSessionFind p sock = some i) (hs : s.sock = (p i).sock) :
    localSessionFind (Function.update p i s) sock = some i := by
  rw [← hi]
  refine localSessionFind_congr (fun j => ?_) sock
  by_cases hj : j = i
  · subst hj
    rw [Function.update_self, hs]
  · rw [Function.update_of_ne hj]

section Reset

variable {x : World} (hi : localSessionFind w.pool sock = some i)
  (hx : x.pool = (w.setSession i (w.pool i).resetHandshake).pool)

include hi hx

end Reset

theorem tcpDispatchLine_of_handshake (hi : localSessionFind w.pool sock = some i)
    (hshake : isHandshake line = true) (hother : lineKind line ≠ .other) :
    tcpDispatchLine P env w sock line = handleKind P env w i sock line (lineKind line) := by
  simp only [tcpDispatchLine, accessPolicyAllow, hshake, Bool.true_or, if_true, Bool.not_true,
    Bool.false_eq_true, if_false, securityHandleLine_eq, hi, if_neg hother]

end Restart

def LocalSession.blank (s : LocalSession) : LocalSession where
  sock := s.sock
  peerIp := s.peerIp
  state := .new
  role := .none
  pairedIndex := none
  srp := none
  key := ⟨List.replicate 32 0, List.length_replicate⟩
  nonceDev := ⟨List.replicate 16 0, List.length_replicate⟩
  noncePhone := ⟨List.replicate 16 0, List.length_replicate⟩
  txCtr := 0
  rxCtr := 0
  rxEncrypted := false

end CyThing
