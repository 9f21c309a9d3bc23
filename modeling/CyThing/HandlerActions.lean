import CyThing.Action
import CyThing.Edits
import CyThing.Security.PairedList

/-! The handlers of a line do what `Action` allows and nothing else. -/

namespace CyThing
open CLib

/-! ## The sessions behind the view -/

theorem LocalSession.unframed_onPairedRemoved (s : LocalSession) (r : Nat) :
    (s.onPairedRemoved r).unframed = s.unframed.onPairedRemoved r := by
  have hs : s.unframed.sock = s.sock := rfl
  have hp : s.unframed.pairedIndex = s.pairedIndex := rfl
  simp only [LocalSession.onPairedRemoved, hs, hp]
  split_ifs
  · rfl
  · rfl
  · cases s.pairedIndex with
    | none => rfl
    | some k =>
      by_cases hk : r < k
      · simp only [if_pos hk]
        rfl
      · simp only [if_neg hk]

theorem World.core_onPairedRemoved (w : World) (r : Nat) :
    (w.onPairedRemoved r).core = w.core.removed w.list w.nvsList r := by
  simp only [World.onPairedRemoved, World.core, Core.removed, Core.mk.injEq, and_true]
  funext j
  exact (w.pool j).unframed_onPairedRemoved r

theorem unframed_dropAllAuth (pool : Pool) :
    (fun j => (localSessionDropAllAuth pool j).unframed) =
      localSessionDropAllAuth fun j => (pool j).unframed := by
  funext j
  simp only [localSessionDropAllAuth]
  by_cases h : (pool j).sock = none
  · rw [if_pos h, if_pos (show (pool j).unframed.sock = none from h)]
  · rw [if_neg h, if_neg (show (pool j).unframed.sock ≠ none from h)]
    rfl

theorem LocalSession.isOwner_eq (s : LocalSession) :
    s.isOwner = (s.rxEncrypted && s.unframed.ownerRights) := by
  simp only [LocalSession.isOwner, LocalSession.ownerRights, LocalSession.authenticated,
    LocalSession.unframed, Bool.and_assoc]

/-! ## The handlers -/

section Handlers

variable {P : Platform} {env : Env} {enc : Bool} {w : World} {i : Slot} {sock : Nat}
  {line : Bytes}

theorem markOf_core (hi : localSessionFind w.pool sock = some i) :
    markOf P env enc w.core sock line = markAt P env enc w.core i line := by
  simp only [markOf, w.localSessionFind_core, hi, Option.bind_some]

theorem handlePake1_action (hi : localSessionFind w.pool sock = some i)
    (hk : lineKind line = .pake1) :
    Action P env enc sock line w.core (handlePake1 P env w i sock line).core := by
  have hm : markOf P env enc w.core sock line = some (.begins i none) := by
    simp only [markOf_core hi, markAt, hk]
  simp only [handlePake1]
  split_ifs with hlock
  · rw [core_sendErr, World.core_setSession]
    exact Action.voided (c := w.core) hi hm (Or.inl rfl)
  split
  · rw [core_sendErr, World.core_setSession]
    exact Action.voided (c := w.core) hi hm (Or.inl rfl)
  next bytesA hA =>
    split
    · rw [core_sendErr, World.core_setPw, World.core_setSession]
      exact Action.voided (c := w.core) hi hm (Or.inr rfl)
    next pair hpair =>
      split
      · rw [core_sendErr, World.core_setPw, World.core_setSession]
        exact Action.voided (c := w.core) hi hm (Or.inr rfl)
      next hd hhd =>
        rw [core_securitySendLine, World.core_setSession, World.core_setPw,
          World.core_setSession]
        have hget : devicePasswordGet P env.initRand w.core.pw =
            (some pair, (devicePasswordGet P env.initRand w.core.pw).2) := by
          rw [← hpair]
          rfl
        have hlock0 : devicePasswordLockRemainingS w.clock w.pw (w.pool i).peerIp = 0 :=
          Nat.eq_zero_of_not_pos hlock
        have ha : Action P env enc sock line w.core _ :=
          Action.pake1 hi hk hlock0 hA hget hhd
        rw [← Core.setSession_setSession i] at ha
        exact ha

theorem handlePake3_action (hi : localSessionFind w.pool sock = some i)
    (hk : lineKind line = .pake3) :
    Action P env enc sock line w.core (handlePake3 P env w i sock line).core := by
  have hm : markOf P env enc w.core sock line = none := by simp only [markOf_core hi, markAt, hk]
  simp only [handlePake3]
  split_ifs with hs
  · rw [core_sendErr]
    exact Action.idle hm
  have hs : (w.pool i).state = .pakeWaitProof := not_not.mp hs
  split
  · rw [core_sendErr]
    exact Action.idle hm
  next hd hhd =>
    split
    · rw [core_sendErr, World.core_setSession]
      exact Action.pake3Abort hi hm hs
    next m1 hm1 =>
      split
      · next hbad =>
        rw [core_sendErr, World.core_setSession, World.core_setPw]
        exact Action.pake3Bad hi hk hs hhd hm1 hbad
      next m2 hok =>
        rw [World.core_settle, core_securitySendLine, World.core_setPw, World.core_setSession,
          Core.setPw_pool, Core.setSession_self]
        have ha : Action P env enc sock line w.core _ := Action.pake3Ok hi hk hs hhd hm1 hok
        rw [← Core.setSession_setSession i] at ha
        exact ha

theorem handleEnroll_action (hi : localSessionFind w.pool sock = some i)
    (hk : lineKind line = .enroll) (henc : (w.pool i).rxEncrypted = enc) :
    Action P env enc sock line w.core (handleEnroll P env w i sock line).core := by
  have hm : markOf P env enc w.core sock line =
      (enrolledAs P env enc w.core i line).map (.enrolls i) := by
    simp only [markOf_core hi, markAt, hk]
  have hst : (w.core.pool i).state = (w.pool i).state := rfl
  simp only [handleEnroll]
  split_ifs with hs
  · rw [core_sendErr]
    refine Action.idle (hm.trans ?_)
    rw [henc] at hs
    rw [enrolledAs, if_neg (by rw [hst]; rcases hs with h | h <;> simp [h]), Option.map_none]
  have hs : (w.pool i).state = .pakeOk ∧ enc = true := by
    rw [← henc]
    simpa using hs
  split
  · next hp =>
    rw [core_sendErr]
    refine Action.idle (hm.trans ?_)
    rw [enrolledAs, if_pos (by rw [hst]; exact hs), hp, Option.map_none]
  next sub email hp =>
    have hea : enrolledAs P env enc w.core i line =
        (enrollAdd env w.core sub email).enrolled.map fun _ => sub := by
      rw [enrolledAs, if_pos (by rw [hst]; exact hs), hp]
    split
    · next hnone =>
      have he : (enrollAdd env w.core sub email).enrolled = none := hnone
      rw [core_sendErr, World.core_setList]
      refine Action.enrollFail (c := w.core) hi (hm.trans ?_) hp he
      rw [hea, he, Option.map_none, Option.map_none]
    next e hsome =>
      have he : (enrollAdd env w.core sub email).enrolled = some e := hsome
      rw [World.core_pushEvent, core_securitySendLine, World.core_setSession,
        World.core_setList]
      refine Action.enroll (c := w.core) hi (hm.trans ?_) hs.1 hp he
      rw [hea, he, Option.map_some, Option.map_some]

theorem handleAuth1_action (hi : localSessionFind w.pool sock = some i)
    (hk : lineKind line = .auth1) :
    Action P env enc sock line w.core (handleAuth1 P env w i sock line).core := by
  have hm : markOf P env enc w.core sock line =
      some (.begins i ((parseAuth1 P line).map (·.1))) := by
    simp only [markOf_core hi, markAt, hk]
  simp only [handleAuth1]
  split
  · rw [core_sendErr, World.core_setSession]
    exact Action.voided (c := w.core) hi hm (Or.inl rfl)
  next sub np hp =>
    rcases hf : pairedListFind (w.setSession i (w.pool i).resetHandshake).list sub with _ | r
    · simp only [pairedListGet]
      rw [core_sendErr, World.core_setSession]
      exact Action.voided (c := w.core) hi hm (Or.inl rfl)
    · have hr : r < (w.setSession i (w.pool i).resetHandshake).list.count := findLocked_lt hf
      simp only [pairedListGet, if_pos hr]
      rw [core_securitySendLine, World.core_setSession, World.core_setSession]
      have ha : Action P env enc sock line w.core _ := Action.auth1 hi hk hp hf hr
      rw [← Core.setSession_setSession i] at ha
      exact ha

theorem handleAuth3_action (hi : localSessionFind w.pool sock = some i)
    (hk : lineKind line = .auth3) :
    Action P env enc sock line w.core (handleAuth3 P w i sock line).core := by
  have hm : markOf P env enc w.core sock line = none := by simp only [markOf_core hi, markAt, hk]
  simp only [handleAuth3]
  split_ifs with hs
  · rw [core_sendErr]
    exact Action.idle hm
  have hs : (w.pool i).state = .authWaitProof := not_not.mp hs
  split
  · rw [core_sendErr]
    exact Action.idle hm
  next got hp =>
    split_ifs with hgot
    · rw [core_sendErr, World.core_setSession]
      exact Action.auth3Bad (c := w.core) hi hm hs
    · have hp' := not_not.mp hgot ▸ hp
      rw [World.core_settle, core_securitySendLine, World.core_setSession,
        Core.setSession_self]
      have ha : Action P env enc sock line w.core _ := Action.auth3Ok hi hk hs hp'
      rw [← Core.setSession_setSession i] at ha
      exact ha

@[simp] theorem core_handleList : (handleList P w sock).core = w.core := by
  have hfold : ∀ (es : List PairedEntry) (w : World),
      (es.foldl (fun w e => securitySendLine P w sock (pairedLine P e)) w).core = w.core := by
    intro es w
    induction es generalizing w with
    | nil => rfl
    | cons e es ih => rw [List.foldl_cons, ih, core_securitySendLine]
  rw [handleList, core_securitySendLine]
  exact hfold _ w

@[simp] theorem core_handleDiscoverymode :
    (handleDiscoverymode P env w sock line).core = w.core := by
  simp only [handleDiscoverymode]
  split
  · split_ifs
    · exact core_sendErr P w sock _
    · exact core_sendErr P w sock _
    · exact core_securitySendLine P _ sock _
  · exact core_sendErr P w sock _

theorem handleRevoke_action (hi : localSessionFind w.pool sock = some i)
    (hk : lineKind line = .owner .revoke) (ho : (w.core.pool i).ownerRights = true) :
    Action P env enc sock line w.core (handleRevoke P env w i sock line).core := by
  have hm : markOf P env enc w.core sock line = none := by simp only [markOf_core hi, markAt, hk]
  simp only [handleRevoke]
  split
  · rw [core_sendErr]
    exact Action.idle hm
  next sub hp =>
    rcases hf : pairedListFind w.list sub with _ | r
    · rw [core_sendErr]
      exact Action.idle hm
    have hr : r < w.list.count := findLocked_lt hf
    simp only [pairedListGet, if_pos hr]
    by_cases hown : (w.pool i).pairedIndex = some r
    · rw [if_pos hown, core_sendErr]
      exact Action.idle hm
    rw [if_neg hown]
    rcases hrem : pairedListRemove (env.listFate 0) w.list w.nvsList r with ⟨ok, l, nvs⟩
    cases ok with
    | false =>
      simp only [Bool.not_false, if_true, core_sendErr, World.core_setList]
      exact Action.removeFail (c := w.core) hi hm hr hrem
    | true =>
      simp only [Bool.not_true, Bool.false_eq_true, if_false, core_securitySendLine,
        World.core_pushEvent, World.core_onPairedRemoved]
      exact Action.remove (c := w.core) hi hm hr (Or.inl ⟨ho, hown⟩) hrem

theorem handleUnpair_action (hi : localSessionFind w.pool sock = some i)
    (hk : lineKind line = .owner .unpair) :
    Action P env enc sock line w.core (handleUnpair P env w i sock).core := by
  have hm : markOf P env enc w.core sock line = none := by simp only [markOf_core hi, markAt, hk]
  have hcore := core_securitySendLine P w sock (ascii "ACK")
  have hidx : ((securitySendLine P w sock (ascii "ACK")).core.pool i).pairedIndex =
      (w.core.pool i).pairedIndex := by rw [hcore]
  have hlist : (securitySendLine P w sock (ascii "ACK")).core.list = w.core.list := by
    rw [hcore]
  have hnvs : (securitySendLine P w sock (ascii "ACK")).core.nvsList = w.core.nvsList := by
    rw [hcore]
  simp only [World.core, LocalSession.unframed] at hidx hlist hnvs
  simp only [handleUnpair, hidx, hlist, hnvs]
  rcases hr : (w.pool i).pairedIndex with _ | r
  · rw [pairedListGet, core_sendErr]
    exact Action.idle hm
  by_cases hlt : r < w.list.count
  · simp only [pairedListGet, if_pos hlt]
    by_cases hrole : (w.list.entries r).role = .owner
    · rw [if_pos hrole, core_sendErr]
      exact Action.idle hm
    rw [if_neg hrole]
    rcases hrem : pairedListRemove (env.listFate 0) w.list w.nvsList r with ⟨ok, l, nvs⟩
    cases ok with
    | false =>
      simp only [Bool.not_false, if_true, core_securitySendLine, World.core_setList]
      exact Action.removeFail (c := w.core) hi hm hlt hrem
    | true =>
      simp only [Bool.not_true, Bool.false_eq_true, if_false, World.core_pushEvent,
        World.core_onPairedRemoved, World.core_setList, hcore]
      exact Action.remove (c := w.core) hi hm hlt (Or.inr ⟨hr, hrole⟩) hrem
  · simp only [pairedListGet, if_neg hlt, core_sendErr]
    exact Action.idle hm

theorem revokeFrom_run (env : Env) (n i k : Nat) (w : World) :
    RevokeRun env w.core (revokeFrom env n i k w).core ∧
      (w.list.count ≤ i + n → (∀ k, env.listFate k = .ok) →
        (∀ r < i, (w.list.entries r).role = .owner) →
        ∀ r < (revokeFrom env n i k w).list.count,
          ((revokeFrom env n i k w).list.entries r).role = .owner) := by
  induction n generalizing i k w with
  | zero =>
    refine ⟨RevokeRun.done _, fun hn _ hrows r hr => hrows r ?_⟩
    have hr : r < w.list.count := hr
    omega
  | succ n ih =>
    rw [revokeFrom]
    by_cases hi : i < w.list.count
    · rw [if_pos hi]
      by_cases hrole : (w.list.entries i).role = .owner
      · simp only [hrole, ne_eq, not_true_eq_false, if_false]
        obtain ⟨hrun, hend⟩ := ih (i + 1) k w
        refine ⟨hrun, fun hn hok hrows => hend (by omega) hok fun r hr => ?_⟩
        rcases Nat.lt_succ_iff_lt_or_eq.mp hr with h | rfl
        · exact hrows r h
        · exact hrole
      · simp only [ne_eq, hrole, not_false_eq_true, if_true]
        rcases hrem : pairedListRemove (env.listFate k) w.list w.nvsList i with ⟨ok, l, nvs⟩
        have hl := pairedListRemove_list hi hrem
        cases ok with
        | true =>
          simp only [if_true]
          obtain ⟨hrun, hend⟩ := ih i (k + 1)
            (((w.setList l nvs).onPairedRemoved i).pushEvent env (ascii "unpaired")
              (w.list.entries i).userSub (ascii "user"))
          refine ⟨RevokeRun.removed (c := w.core) hi hrole hrem ?_, fun hn hok hrows =>
            hend ?_ hok fun r hr => ?_⟩
          · rwa [World.core_pushEvent, World.core_onPairedRemoved] at hrun
          · have hc : l.count = w.list.count - 1 := by rw [hl, dropRow_count]
            have hg : l.count ≤ i + n := by omega
            exact hg
          · have he : l.entries r = w.list.entries r := by rw [hl, dropRow_entries_lt hi hr]
            have hg : (l.entries r).role = .owner := by rw [he]; exact hrows r hr
            exact hg
        | false =>
          simp only [Bool.false_eq_true, if_false]
          obtain ⟨hrun, -⟩ := ih (i + 1) (k + 1) (w.setList l nvs)
          refine ⟨RevokeRun.failed (c := w.core) hi hrole hrem hrun, fun _ hok _ => ?_⟩
          rw [hok, pairedListRemove_ok hi] at hrem
          cases hrem
    · rw [if_neg hi]
      refine ⟨RevokeRun.done _, fun _ _ hrows r hr => hrows r ?_⟩
      omega

theorem handlePwset_action (hi : localSessionFind w.pool sock = some i)
    (hk : lineKind line = .owner .pwset) (ho : (w.core.pool i).ownerRights = true)
    (henc : enc = true) :
    Action P env enc sock line w.core (handlePwset P env w sock line).core := by
  have hm : markOf P env enc w.core sock line =
      if pwsetAccepted P env w.core line then some (.setsPassword i) else none := by
    simp only [markOf_core hi, markAt, hk, ho, henc, Bool.true_and]
  simp only [handlePwset]
  split
  · next hp =>
    rw [core_sendErr]
    exact Action.idle (hm.trans (by simp [pwsetAccepted, hp]))
  next password hp =>
    rcases hset : devicePasswordSet P env.pairFate env.setRand w.pw password with ⟨ok, pw⟩
    have hacc : pwsetAccepted P env w.core line = ok := by
      simp only [pwsetAccepted, hp]
      exact congrArg Prod.fst hset
    cases ok with
    | false =>
      simp only [Bool.not_false, if_true, core_sendErr, World.core_setPw]
      exact Action.pwsetFail (c := w.core) (hm.trans (by simp [hacc])) hset
    | true =>
      simp only [Bool.not_true, Bool.false_eq_true, if_false, core_securitySendLine,
        World.core_setList]
      obtain ⟨hrun, hend⟩ := revokeFrom_run env w.list.count 0 0 (w.setPw pw)
      refine Action.pwset (c := w.core) hi (hm.trans (by simp [hacc])) ho hset hrun
        (fun hok => hend ?_ hok fun r hr => absurd hr (Nat.not_lt_zero r)) rfl
      have : w.list.count ≤ 0 + w.list.count := by omega
      exact this

theorem handleReset_action (hi : localSessionFind w.pool sock = some i)
    (hk : lineKind line = .owner .reset) (ho : (w.core.pool i).ownerRights = true)
    (henc : enc = true) :
    Action P env enc sock line w.core (handleReset P env w sock).core := by
  have hm : markOf P env enc w.core sock line = some .resets := by
    simp only [markOf_core hi, markAt, hk, ho, henc, Bool.and_self, if_true]
  have hcore := core_securitySendLine P w sock (ascii "ACK")
  have hdrop : (handleReset P env w sock).core =
      { (securitySendLine P w sock (ascii "ACK")).core with
        list := {}
        nvsList := (pairedListClear (env.listFate 0)
          (securitySendLine P w sock (ascii "ACK")).core.nvsList).2.2
        pw := (devicePasswordClear env.pairFate
          (securitySendLine P w sock (ascii "ACK")).core.pw).2
        pool := localSessionDropAllAuth (securitySendLine P w sock (ascii "ACK")).core.pool } := by
    simp only [World.core, ← unframed_dropAllAuth]
    rfl
  rw [hdrop, hcore]
  exact Action.reset (c := w.core) hi hm ho

theorem handlePwclear_action (hi : localSessionFind w.pool sock = some i)
    (hk : lineKind line = .owner .pwclear) :
    Action P env enc sock line w.core (handlePwclear P env w sock).core := by
  have hm : markOf P env enc w.core sock line = none := by simp only [markOf_core hi, markAt, hk]
  have hcore : (handlePwclear P env w sock).core =
      w.core.setPw (devicePasswordClear env.pairFate w.core.pw).2 := by
    simp only [handlePwclear]
    split_ifs
    · rw [core_sendErr]
      rfl
    · rw [core_securitySendLine]
      rfl
  rw [hcore]
  exact Action.pwclear hm

theorem markAt_owner_eq_none {c : OwnerCommand} (hk : lineKind line = .owner c)
    (hr : (enc && (w.core.pool i).ownerRights) = false) :
    markAt P env enc w.core i line = none := by
  rw [markAt, hk]
  cases c <;> simp [hr]

theorem mayRun_iff {c : OwnerCommand} (hc : c ≠ .unpair)
    (henc : (w.pool i).rxEncrypted = enc) :
    (w.pool i).mayRun c = (enc && (w.core.pool i).ownerRights) := by
  rw [LocalSession.mayRun, if_neg hc, LocalSession.isOwner_eq, henc, World.core_pool]

theorem runOwnerCommand_action {c : OwnerCommand} (hi : localSessionFind w.pool sock = some i)
    (henc : (w.pool i).rxEncrypted = enc) (hk : lineKind line = .owner c)
    (hmay : (w.pool i).mayRun c = true) :
    Action P env enc sock line w.core (runOwnerCommand P env w i sock line c).core := by
  have hmark : c ≠ .pwset → c ≠ .reset → markOf P env enc w.core sock line = none := by
    intro h1 h2
    rw [markOf_core hi, markAt, hk]
    cases c <;> first | rfl | contradiction
  have hright : c ≠ .unpair → enc = true ∧ (w.core.pool i).ownerRights = true := by
    intro hc
    rw [mayRun_iff hc henc] at hmay
    simpa using hmay
  cases c with
  | list =>
    rw [runOwnerCommand, core_handleList]
    exact Action.idle (hmark (by decide) (by decide))
  | revoke => exact handleRevoke_action hi hk (hright (by decide)).2
  | pwset => exact handlePwset_action hi hk (hright (by decide)).2 (hright (by decide)).1
  | pwclear => exact handlePwclear_action hi hk
  | discoverymode =>
    rw [runOwnerCommand, core_handleDiscoverymode]
    exact Action.idle (hmark (by decide) (by decide))
  | discoverymodeGet =>
    rw [runOwnerCommand, handleDiscoverymodeGet, core_securitySendLine]
    exact Action.idle (hmark (by decide) (by decide))
  | reset => exact handleReset_action hi hk (hright (by decide)).2 (hright (by decide)).1
  | unpair => exact handleUnpair_action hi hk

theorem handleKind_action (hi : localSessionFind w.pool sock = some i)
    (henc : (w.pool i).rxEncrypted = enc) (hother : lineKind line ≠ .other) :
    Action P env enc sock line w.core (handleKind P env w i sock line (lineKind line)).core := by
  rcases hk : lineKind line with _ | _ | _ | _ | _ | c | _
  · exact handlePake1_action hi hk
  · exact handlePake3_action hi hk
  · exact handleEnroll_action hi hk henc
  · exact handleAuth1_action hi hk
  · exact handleAuth3_action hi hk
  · simp only [handleKind]
    split_ifs with hmay
    · exact runOwnerCommand_action hi henc hk hmay
    · rw [core_sendErr]
      refine Action.idle ?_
      rw [markOf_core hi]
      by_cases hc : c = .unpair
      · rw [markAt, hk, hc]
      · rw [mayRun_iff hc henc, Bool.not_eq_true] at hmay
        exact markAt_owner_eq_none hk hmay
  · exact absurd hk hother

theorem markOf_of_find_none (hf : localSessionFind w.pool sock = none) :
    markOf P env enc w.core sock line = none := by
  simp only [markOf, w.localSessionFind_core, hf, Option.bind_none]

inductive Dispatch (P : Platform) (env : Env) (w : World) (sock : Nat) (line : Bytes) :
    World → Prop
  | refused {answer : Bytes} (hshake : isHandshake line = false)
      (hauth : ∀ i, localSessionFind w.pool sock = some i →
        ((w.pool i).authenticated && (w.pool i).rxEncrypted) = false)
      (hanswer : answer = ascii "ERR:AUTH\n" ∨ answer = ascii "ERR:ENC\n") :
      Dispatch P env w sock line (w.send sock answer)
  | outer (hallow : (accessPolicyAllow P w sock line).1 = true) (hk : lineKind line = .other) :
      Dispatch P env w sock line (dispatchBehindPolicy P env w sock line)
  | noSession (hk : lineKind line ≠ .other) (hf : localSessionFind w.pool sock = none) :
      Dispatch P env w sock line (sendErr P w sock (ascii "NOSESSION"))
  | handled {i : Slot} (hk : lineKind line ≠ .other) (hf : localSessionFind w.pool sock = some i)
      (hallow : (accessPolicyAllow P w sock line).1 = true) :
      Dispatch P env w sock line (handleKind P env w i sock line (lineKind line))

theorem accessPolicyAllow_eq (h : (accessPolicyAllow P w sock line).1 = true) :
    accessPolicyAllow P w sock line = (true, w) := by
  simp only [accessPolicyAllow] at h ⊢
  split_ifs at h ⊢
  · rfl
  · rfl

theorem dispatch_allowed (h : accessPolicyAllow P w sock line = (true, w)) :
    Dispatch P env w sock line (tcpDispatchLine P env w sock line) := by
  simp only [tcpDispatchLine, h, Bool.not_true, Bool.false_eq_true, if_false,
    securityHandleLine_eq]
  by_cases hother : lineKind line = .other
  · rw [if_pos hother]
    exact .outer (congrArg Prod.fst h) hother
  · rw [if_neg hother]
    rcases hf : localSessionFind w.pool sock with _ | i
    · exact .noSession hother hf
    · exact .handled hother hf (congrArg Prod.fst h)

theorem dispatch_refused {answer : Bytes} (hshake : isHandshake line = false)
    (hauth : ∀ i, localSessionFind w.pool sock = some i →
      ((w.pool i).authenticated && (w.pool i).rxEncrypted) = false)
    (hanswer : answer = ascii "ERR:AUTH\n" ∨ answer = ascii "ERR:ENC\n")
    (h : accessPolicyAllow P w sock line = (false, w.send sock answer)) :
    Dispatch P env w sock line (tcpDispatchLine P env w sock line) := by
  simp only [tcpDispatchLine, h, Bool.not_false, if_true]
  exact .refused hshake hauth hanswer

theorem tcpDispatchLine_cases (P : Platform) (env : Env) (w : World) (sock : Nat)
    (line : Bytes) : Dispatch P env w sock line (tcpDispatchLine P env w sock line) := by
  by_cases hopen : (isHandshake line || isPublic P w.pw line) = true
  · exact dispatch_allowed (by rw [accessPolicyAllow, if_pos hopen])
  have hshake : isHandshake line = false :=
    (Bool.or_eq_false_iff.mp (Bool.eq_false_iff.mpr hopen)).1
  rcases hf : localSessionFind w.pool sock with _ | i
  · refine dispatch_refused hshake (fun i hi => ?_) (Or.inl rfl) ?_
    · cases hf.symm.trans hi
    · simp only [accessPolicyAllow, if_neg hopen, accessPolicySockAuthenticated, hf,
        Bool.and_false, Bool.not_false, if_true, Bool.false_eq_true, if_false]
  by_cases hok : ((w.pool i).authenticated && (w.pool i).rxEncrypted) = true
  · exact dispatch_allowed (by
      simp only [accessPolicyAllow, if_neg hopen, accessPolicySockAuthenticated, hf, if_pos hok])
  have hauth : ∀ j, localSessionFind w.pool sock = some j →
      ((w.pool j).authenticated && (w.pool j).rxEncrypted) = false := by
    intro j hj
    cases hf.symm.trans hj
    exact Bool.eq_false_iff.mpr hok
  cases ha : (w.pool i).authenticated with
  | false =>
    exact dispatch_refused hshake hauth (Or.inl rfl) (by
      simp only [accessPolicyAllow, if_neg hopen, accessPolicySockAuthenticated, hf, ha,
        Bool.false_and, Bool.not_false, if_true, Bool.false_eq_true, if_false])
  | true =>
    have hrx : (w.pool i).rxEncrypted = false := by simpa only [ha, Bool.true_and] using hauth i hf
    exact dispatch_refused hshake hauth (Or.inr rfl) (by
      simp only [accessPolicyAllow, if_neg hopen, accessPolicySockAuthenticated, hf, ha, hrx,
        Bool.and_false, Bool.not_true, Bool.false_eq_true, if_false])

theorem lineKind_of_not_handshake (h : isHandshake line = false) :
    lineKind line = .other ∨ ∃ c, lineKind line = .owner c := by
  simp only [isHandshake, Bool.or_eq_false_iff] at h
  obtain ⟨⟨⟨⟨h1, h3⟩, ha1⟩, ha3⟩, he⟩ := h
  simp only [lineKind, pake1Prefix, h1, pake3Prefix, h3, enrollPrefix, he, auth1Prefix, ha1,
    auth3Prefix, ha3, Bool.false_eq_true, if_false]
  cases ownerCommand line with
  | none => exact Or.inl rfl
  | some c => exact Or.inr ⟨c, rfl⟩

theorem tcpDispatchLine_action
    (henc : ∀ i, localSessionFind w.pool sock = some i → (w.pool i).rxEncrypted = enc) :
    Action P env enc sock line w.core (tcpDispatchLine P env w sock line).core := by
  have hcases := tcpDispatchLine_cases P env w sock line
  generalize tcpDispatchLine P env w sock line = w' at hcases
  cases hcases with
  | refused hshake hauth =>
    rw [World.core_send]
    refine Action.idle ?_
    rcases hf : localSessionFind w.pool sock with _ | i
    · exact markOf_of_find_none hf
    rw [markOf_core hf]
    rcases lineKind_of_not_handshake hshake with hk | ⟨c, hk⟩
    · rw [markAt, hk]
    · refine markAt_owner_eq_none hk ?_
      have ha : ((w.core.pool i).authenticated && enc) = false := henc i hf ▸ hauth i hf
      rw [LocalSession.ownerRights, Bool.and_left_comm, Bool.and_comm enc, ha, Bool.and_false]
  | outer hallow hother =>
    rw [(outer_dispatchBehindPolicy P env w sock line).core]
    refine Action.idle ?_
    rcases hf : localSessionFind w.pool sock with _ | i
    · exact markOf_of_find_none hf
    · rw [markOf_core hf, markAt, hother]
  | noSession hk hf =>
    rw [core_sendErr]
    exact Action.idle (markOf_of_find_none hf)
  | handled hk hf => exact handleKind_action hf (henc _ hf) hk

end Handlers

end CyThing
