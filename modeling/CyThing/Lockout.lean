import CyThing.Moves
import CyThing.Sample
import CyThing.Security.DevicePassword

/-! Guesses at the password against the lock. `PAKE1` asks for the lock and `PAKE3` is where
a guess is checked, so a lock that starts while another exchange is open does not hold that
exchange back. -/

namespace CyThing
open CLib Trace SlotTable

/-! ## Guesses -/

def guessAt (P : Platform) (c : Core) (sock : Nat) (line : Bytes) : Option (Slot × Bool) :=
  if lineKind line = .pake3 then
    (localSessionFind c.pool sock).bind fun i =>
      if (c.pool i).state = .pakeWaitProof then
        (c.pool i).srp.bind fun hd =>
          (pake3Proof P line).map fun m1 =>
            (i, (P.srpExchangeProofs hd devicePwSrpIdentity m1).isSome)
      else none
  else none

def guess (P : Platform) (s : Step World Event) : Option (Slot × Bool) :=
  match s.event with
  | .line sock bytes _ =>
    (dispatched P s.before sock bytes).bind (guessAt P s.before.core sock)
  | _ => none

structure SameLimits (d d' : DevicePassword) : Prop where
  pair : d'.pair = d.pair
  ip : d'.ip = d.ip
  globalUntil : d'.globalUntilUs = d.globalUntilUs

structure Unlocked (d : DevicePassword) : Prop where
  ip : d.ip = fun _ => {}
  globalUntil : d.globalUntilUs = 0

section Limits

variable {P : Platform} {env : Env} {w : World} {d d' : DevicePassword} {now now' : Nat}
  {p : UInt32}

theorem SameLimits.refl (d : DevicePassword) : SameLimits d d := ⟨rfl, rfl, rfl⟩

theorem SameLimits.isSet (h : SameLimits d d') :
    devicePasswordIsSet d' = devicePasswordIsSet d := by
  rw [devicePasswordIsSet, h.pair, devicePasswordIsSet]

theorem SameLimits.lock (h : SameLimits d d') :
    devicePasswordLockRemainingS now d' p = devicePasswordLockRemainingS now d p := by
  simp only [devicePasswordLockRemainingS, h.isSet, h.ip, h.globalUntil]

theorem remainingS_mono (h : now ≤ now') (untilUs : Nat) :
    remainingS untilUs now' ≤ remainingS untilUs now := by
  unfold remainingS
  exact Nat.div_le_div_right (by omega)

theorem lock_mono (h : now ≤ now') :
    devicePasswordLockRemainingS now' d p ≤ devicePasswordLockRemainingS now d p := by
  simp only [devicePasswordLockRemainingS]
  split_ifs
  · exact le_rfl
  · refine max_le_max (remainingS_mono h _) ?_
    split
    · exact remainingS_mono h _
    · exact le_rfl

theorem Unlocked.lock (h : Unlocked d) : devicePasswordLockRemainingS now d p = 0 := by
  refine lock_eq_zero ?_ fun k _ => ?_
  · rw [h.globalUntil]
    exact remainingS_zero now
  · rw [h.ip]
    exact remainingS_zero now

theorem lock_of_not_set (h : devicePasswordIsSet d = false) :
    devicePasswordLockRemainingS now d p = 0 := by
  simp only [devicePasswordLockRemainingS, h, Bool.not_false, if_true]

theorem devicePasswordGet_limits (P : Platform) (rand : Bytes) (d : DevicePassword) :
    SameLimits d (devicePasswordGet P rand d).2 := by
  simp only [devicePasswordGet]
  split_ifs
  · exact SameLimits.refl d
  · simp only [deriveInitialLocked]
    split
    · exact SameLimits.refl d
    split
    · split_ifs
      · exact ⟨rfl, rfl, rfl⟩
      · exact SameLimits.refl d
    · exact SameLimits.refl d

theorem devicePasswordSet_cases {fate : PairFate} {rand password : Bytes} {ok : Bool}
    (h : devicePasswordSet P fate rand d password = (ok, d')) :
    (ok = true ∧ Unlocked d') ∨ (ok = false ∧ SameLimits d d') := by
  simp only [devicePasswordSet] at h
  split_ifs at h
  · cases h
    exact Or.inr ⟨rfl, SameLimits.refl d⟩
  split at h
  · cases h
    exact Or.inr ⟨rfl, SameLimits.refl d⟩
  split_ifs at h
  · cases h
    exact Or.inr ⟨rfl, SameLimits.refl d⟩
  · cases h
    exact Or.inl ⟨rfl, rfl, rfl⟩
  · cases h
    exact Or.inr ⟨rfl, rfl, rfl, rfl⟩

end Limits

/-! ## What a step does to the limits -/

def Event.isReboot : Event → Bool
  | .reboot _ _ => true
  | _ => false

def KeepsPassword (P : Platform) (w : World) (e : Event) : Prop :=
  e.isReboot = false ∧ ∀ w' i, stepMark P ⟨w, e, w'⟩ ≠ some (.setsPassword i)

def Ends (pool pool' : Pool) (i : Slot) : Prop :=
  ∃ s, s.state ≠ .pakeWaitProof ∧ pool' = Function.update pool i s

inductive GuessMove (P : Platform) (w : World) (e : Event) (c : Core) : Prop
  | quiet (hg : ∀ w', guess P ⟨w, e, w'⟩ = none) (hkeep : KeepsPassword P w e)
      (hpw : SameLimits w.pw c.pw) (hclock : w.clock ≤ c.clock)
  | wrong {i : Slot} {fate : LockoutFate} (hg : ∀ w', guess P ⟨w, e, w'⟩ = some (i, false))
      (hkeep : KeepsPassword P w e)
      (hpw : c.pw = devicePasswordNoteFailure fate w.clock w.pw (w.pool i).peerIp)
      (hclock : c.clock = w.clock) (hpool : Ends w.core.pool c.pool i)
  | right {i : Slot} {fate : LockoutFate} (hg : ∀ w', guess P ⟨w, e, w'⟩ = some (i, true))
      (hkeep : KeepsPassword P w e)
      (hpw : c.pw = devicePasswordNoteSuccess fate w.clock w.pw (w.pool i).peerIp)
      (hclock : c.clock = w.clock) (hpool : Ends w.core.pool c.pool i)
  | renewed (hpw : Unlocked c.pw)
      (hset : (∀ w', ∃ i, stepMark P ⟨w, e, w'⟩ = some (.setsPassword i)) ∨
        devicePasswordIsSet c.pw = false)
  | booted (he : e.isReboot = true)
      (hpool : c.pool = localSessionInit) (hip : c.pw.ip = fun _ => {})

theorem Ends.of_set {pool : Pool} {c : Core} {i : Slot} {s s' : LocalSession}
    (hc : c.pool = Function.update pool i s) (hs : s'.state ≠ .pakeWaitProof) :
    Ends pool (c.setSession i s').pool i := by
  refine ⟨s', hs, ?_⟩
  rw [Core.setSession, hc]
  exact Function.update_idem ..

section Moves

variable {P : Platform} {env : Env} {w : World} {sock : Nat} {bytes line : Bytes}

theorem isHandshake_of_pake3 (h : lineKind line = .pake3) : isHandshake line = true := by
  have hpre : hasPrefix line (ascii "PAKE3:") = true := by
    by_contra hno
    rw [Bool.not_eq_true] at hno
    simp only [lineKind, pake3Prefix, hno, Bool.false_eq_true, if_false] at h
    split_ifs at h
    split at h <;> cases h
  simp only [isHandshake, hpre, Bool.or_true, Bool.true_or]

theorem tcpDispatchLine_pake3 (h : lineKind line = .pake3) :
    tcpDispatchLine P env w sock line =
      match localSessionFind w.pool sock with
      | none => sendErr P w sock (ascii "NOSESSION")
      | some i => handlePake3 P env w i sock line := by
  have hpolicy : accessPolicyAllow P w sock line = (true, w) := by
    simp only [accessPolicyAllow, isHandshake_of_pake3 h, Bool.true_or, if_true]
  simp only [tcpDispatchLine, hpolicy, Bool.not_true, Bool.false_eq_true, if_false,
    securityHandleLine_eq, h, reduceCtorEq]
  cases localSessionFind w.pool sock <;> rfl

theorem handlePake3_limits (P : Platform) (env : Env) {i : Slot}
    (hi : localSessionFind w.pool sock = some i)
    (hk : lineKind line = .pake3) :
    (handlePake3 P env w i sock line).core.clock = w.clock ∧
    ((guessAt P w.core sock line = none ∧
        (handlePake3 P env w i sock line).core.pw = w.pw) ∨
      (guessAt P w.core sock line = some (i, false) ∧
        (handlePake3 P env w i sock line).core.pw =
          devicePasswordNoteFailure env.lockoutFate w.clock w.pw (w.pool i).peerIp ∧
        Ends w.core.pool (handlePake3 P env w i sock line).core.pool i) ∨
      (guessAt P w.core sock line = some (i, true) ∧
        (handlePake3 P env w i sock line).core.pw =
          devicePasswordNoteSuccess env.lockoutFate w.clock w.pw (w.pool i).peerIp ∧
        Ends w.core.pool (handlePake3 P env w i sock line).core.pool i)) := by
  have hguess : guessAt P w.core sock line =
      if (w.pool i).state = .pakeWaitProof then
        (w.pool i).srp.bind fun hd =>
          (pake3Proof P line).map fun m1 =>
            (i, (P.srpExchangeProofs hd devicePwSrpIdentity m1).isSome)
      else none := by
    have hfind : localSessionFind w.core.pool sock = some i := hi
    simp only [guessAt, hk, if_true, hfind, Option.bind_some]
    rfl
  rw [hguess]
  simp only [handlePake3]
  by_cases hs : (w.pool i).state = .pakeWaitProof
  · rw [if_neg (not_not.mpr hs)]
    simp only [hs, if_true]
    rcases (w.pool i).srp with _ | hd
    · simp only [core_sendErr]
      exact ⟨rfl, Or.inl ⟨rfl, rfl⟩⟩
    rcases pake3Proof P line with _ | m1
    · simp only [core_sendErr]
      exact ⟨rfl, Or.inl ⟨rfl, rfl⟩⟩
    rcases hx : P.srpExchangeProofs hd devicePwSrpIdentity m1 with _ | m2
    · simp only [core_sendErr, Option.bind_some, Option.map_some, hx]
      refine ⟨rfl, Or.inr (Or.inl ⟨rfl, rfl, (w.pool i).abortPake.unframed, by rintro ⟨⟩,
        ?_⟩)⟩
      rw [World.core_setSession]
      rfl
    · simp only [World.core_settle, core_securitySendLine, Option.bind_some, Option.map_some, hx]
      exact ⟨rfl, Or.inr (Or.inr ⟨rfl, rfl, Ends.of_set
        (congrArg Core.pool (World.core_setSession w i _)) (by rintro ⟨⟩)⟩)⟩
  · rw [if_pos hs, core_sendErr]
    simp only [hs, if_false]
    exact ⟨rfl, Or.inl ⟨trivial, rfl⟩⟩

theorem Action.limits {enc : Bool} {c c' : Core} (hk : lineKind line ≠ .pake3)
    (ha : Action P env enc sock line c c') :
    c'.clock = c.clock ∧
    ((SameLimits c.pw c'.pw ∧ ∀ i, markOf P env enc c sock line ≠ some (.setsPassword i)) ∨
      (Unlocked c'.pw ∧ ((∃ i, markOf P env enc c sock line = some (.setsPassword i)) ∨
        devicePasswordIsSet c'.pw = false))) := by
  have hrefl := SameLimits.refl c.pw
  have hnone : markOf P env enc c sock line = none →
      ∀ i, markOf P env enc c sock line ≠ some (.setsPassword i) := fun h i => by
    rw [h]
    exact nofun
  have hkind : ∀ {k}, lineKind line = k → k ≠ .owner .pwset →
      ∀ i, markOf P env enc c sock line ≠ some (.setsPassword i) := fun h hne i =>
    markOf_ne_setsPassword (h ▸ hne) i
  cases ha with
  | idle hm => exact ⟨rfl, Or.inl ⟨hrefl, hnone hm⟩⟩
  | voided hi hm hpw =>
    refine ⟨rfl, Or.inl ⟨?_, fun i => by rw [hm]; exact nofun⟩⟩
    rcases hpw with rfl | rfl
    · exact hrefl
    · exact devicePasswordGet_limits P _ _
  | pake1 hi hk' hlock hA hget hhd =>
    have hlimits := devicePasswordGet_limits P env.initRand c.pw
    rw [hget] at hlimits
    exact ⟨rfl, Or.inl ⟨hlimits, hkind hk' nofun⟩⟩
  | pake3Abort hi hm hs => exact ⟨rfl, Or.inl ⟨hrefl, hnone hm⟩⟩
  | pake3Bad hi hk' hs hhd hm1 hbad => exact absurd hk' hk
  | pake3Ok hi hk' hs hhd hm1 hok => exact absurd hk' hk
  | enroll hi hm hs hp he => exact ⟨rfl, Or.inl ⟨hrefl, fun i => by rw [hm]; exact nofun⟩⟩
  | enrollFail hi hm hp he => exact ⟨rfl, Or.inl ⟨hrefl, hnone hm⟩⟩
  | auth1 hi hk' hp hf hr => exact ⟨rfl, Or.inl ⟨hrefl, hkind hk' nofun⟩⟩
  | auth3Bad hi hm hs => exact ⟨rfl, Or.inl ⟨hrefl, hnone hm⟩⟩
  | auth3Ok hi hk' hs hp => exact ⟨rfl, Or.inl ⟨hrefl, hkind hk' nofun⟩⟩
  | remove hi hm hr hby hrem => exact ⟨rfl, Or.inl ⟨hrefl, hnone hm⟩⟩
  | removeFail hi hm hr hrem => exact ⟨rfl, Or.inl ⟨hrefl, hnone hm⟩⟩
  | @pwset i password pw c₁ ok l nvs hi hm ho hset hrun hend hrot =>
    obtain ⟨hpw, hclock⟩ := hrun.pw
    refine ⟨hclock, Or.inr ⟨?_, Or.inl ⟨i, hm⟩⟩⟩
    change Unlocked c₁.pw
    rw [hpw]
    rcases devicePasswordSet_cases hset with ⟨-, h⟩ | ⟨h, -⟩
    · exact h
    · cases h
  | pwsetFail hm hset =>
    rcases devicePasswordSet_cases hset with ⟨h, -⟩ | ⟨-, h⟩
    · cases h
    · exact ⟨rfl, Or.inl ⟨h, hnone hm⟩⟩
  | pwclear hm => exact ⟨rfl, Or.inr ⟨⟨rfl, rfl⟩, Or.inr rfl⟩⟩
  | reset hi hm ho => exact ⟨rfl, Or.inr ⟨⟨rfl, rfl⟩, Or.inr rfl⟩⟩

theorem guess_line (hl : dispatched P w sock bytes = some line) (env : Env) (w' : World) :
    guess P ⟨w, .line sock bytes env, w'⟩ = guessAt P w.core sock line := by
  simp only [guess, hl, Option.bind_some]

theorem line_guessMove (hl : dispatched P w sock bytes = some line) :
    GuessMove P w (.line sock bytes env) (step P w (.line sock bytes env)).core := by
  have hg := guess_line hl env
  have hkeeps : (∀ i, markOf P env (isEncLine bytes) w.core sock line ≠
      some (.setsPassword i)) → KeepsPassword P w (.line sock bytes env) := fun h =>
    ⟨rfl, fun w' i hi => h i ((stepMark_line hl).symm.trans hi)⟩
  by_cases hk : lineKind line = .pake3
  · have hkeep := hkeeps fun i => markOf_ne_setsPassword (hk ▸ nofun) i
    obtain ⟨x, -, hcore, hstep⟩ := step_dispatched P w hl
    have hpw : x.core.pw = w.core.pw := by rw [hcore]
    have hclock : x.core.clock = w.core.clock := by rw [hcore]
    have hip : ∀ i, (x.core.pool i).peerIp = (w.core.pool i).peerIp := fun i => by rw [hcore]
    change x.pw = w.pw at hpw
    change x.clock = w.clock at hclock
    rw [hstep, tcpDispatchLine_pake3 hk]
    rcases hf : localSessionFind x.pool sock with _ | i
    · have hnone : guessAt P w.core sock line = none := by
        have : localSessionFind w.core.pool sock = none := by rw [← hcore]; exact hf
        simp only [guessAt, hk, if_true, this, Option.bind_none]
      simp only [core_sendErr]
      refine GuessMove.quiet (fun w' => (hg w').trans hnone) hkeep ?_ hclock.ge
      exact hpw ▸ SameLimits.refl _
    · obtain ⟨hclock', hcases⟩ := handlePake3_limits P env hf hk
      have hpeer : (x.pool i).peerIp = (w.pool i).peerIp := hip i
      rw [hcore, hpw, hclock, hpeer] at hcases
      have hsame := hclock'.trans hclock
      rcases hcases with ⟨hga, hp⟩ | ⟨hga, hp, hend⟩ | ⟨hga, hp, hend⟩
      · exact GuessMove.quiet (fun w' => (hg w').trans hga) hkeep (hp ▸ SameLimits.refl _)
          hsame.ge
      · exact GuessMove.wrong (fun w' => (hg w').trans hga) hkeep hp hsame hend
      · exact GuessMove.right (fun w' => (hg w').trans hga) hkeep hp hsame hend
  · have hnone : guessAt P w.core sock line = none := if_neg hk
    have hm := step_move P w (.line sock bytes env)
    generalize (step P w (.line sock bytes env)).core = c at hm
    cases hm with
    | line hl' ha =>
      cases hl.symm.trans hl'
      obtain ⟨hclock, ⟨hpw, hmark⟩ | ⟨hpw, hset⟩⟩ := ha.limits hk
      · exact GuessMove.quiet (fun w' => (hg w').trans hnone) (hkeeps hmark) hpw hclock.ge
      · exact GuessMove.renewed hpw
          (hset.imp_left fun hmark w' => hmark.imp fun i hi => (stepMark_line hl).trans hi)
    | refused hl' => cases hl.symm.trans hl'

theorem step_guessMove (P : Platform) (w : World) (e : Event) :
    GuessMove P w e (step P w e).core := by
  by_cases hline : ∃ sock bytes env line, e = .line sock bytes env ∧
      dispatched P w sock bytes = some line
  · obtain ⟨sock, bytes, env, line, rfl, hl⟩ := hline
    exact line_guessMove hl
  have hrefl := SameLimits.refl w.pw
  have hm := step_move P w e
  generalize (step P w e).core = c at hm
  -- what is neither a line nor a restart has no mark
  have hother : e.isReboot = false → (∀ w', stepMark P ⟨w, e, w'⟩ = none) →
      KeepsPassword P w e := fun he hmark =>
    ⟨he, fun w' i hi => Option.some_ne_none _ (hi.symm.trans (hmark w'))⟩
  cases hm with
  | line hl ha => exact absurd ⟨_, _, _, _, rfl, hl⟩ hline
  | refused hl =>
    exact .quiet (fun _ => by simp only [guess, hl, Option.bind_none])
      (hother rfl fun _ => stepMark_refused hl) hrefl le_rfl
  | opened hi hnew => exact .quiet (fun _ => rfl) (hother rfl fun _ => rfl) hrefl le_rfl
  | undone hi => exact .quiet (fun _ => rfl) (hother rfl fun _ => rfl) hrefl le_rfl
  | turnedAway => exact .quiet (fun _ => rfl) (hother rfl fun _ => rfl) hrefl le_rfl
  | closed hi => exact .quiet (fun _ => rfl) (hother rfl fun _ => rfl) hrefl le_rfl
  | notOpen hi => exact .quiet (fun _ => rfl) (hother rfl fun _ => rfl) hrefl le_rfl
  | queue => exact .quiet (fun _ => rfl) (hother rfl fun _ => rfl) hrefl le_rfl
  | send => exact .quiet (fun _ => rfl) (hother rfl fun _ => rfl) hrefl le_rfl
  | tick =>
    exact .quiet (fun _ => rfl) (hother rfl fun _ => rfl) hrefl (Nat.le_add_right _ _)
  | pairingTimeout => exact .quiet (fun _ => rfl) (hother rfl fun _ => rfl) hrefl le_rfl
  | reboot => exact .booted rfl rfl rfl
  | factory => exact .booted rfl rfl rfl

end Moves

/-! ## Open exchanges -/

def LocalSession.waiting (s : LocalSession) : Bool := s.state == .pakeWaitProof

theorem LocalSession.waiting_iff {s : LocalSession} :
    s.waiting = true ↔ s.state = .pakeWaitProof := by
  simp [LocalSession.waiting]

def NoOpenLocked (c : Core) : Prop :=
  ∀ j, (c.pool j).waiting = true →
    devicePasswordLockRemainingS c.clock c.pw (c.pool j).peerIp = 0

def noSlotLocked (now : Nat) (t : IpTable) (q : UInt32) : Bool :=
  (List.finRange ipSlots).all fun k => (t k).ip != q || remainingS (t k).untilUs now == 0

def startsNoLock (d : DevicePassword) (p q : UInt32) : Bool :=
  decide (bumpFails d.globalFails < devicePwGlobalMaxFails) &&
    (q != p || decide (bumpFails (ipFails d.ip p) < devicePwIpMaxFails))

/-- When a guess is checked, every other open exchange is free of locks, and the guess, if
wrong, starts none that covers it. -/
def noLockOverOpen (P : Platform) (s : Step World Event) : Bool :=
  match guess P s with
  | none => true
  | some (i, ok) =>
    !devicePasswordIsSet s.before.pw || (List.finRange localSessionMax).all fun j =>
      j == i || !(s.before.pool j).waiting ||
        (noSlotLocked s.before.clock s.before.pw.ip (s.before.pool j).peerIp &&
          (ok || startsNoLock s.before.pw (s.before.pool i).peerIp (s.before.pool j).peerIp))

section Open

variable {P : Platform} {env : Env} {enc : Bool} {w : World} {sock : Nat} {line : Bytes}
  {c c' : Core} {e : Event}

def OpenedUnlocked (c c' : Core) : Prop :=
  ∀ j, (c'.pool j).waiting = true →
    ((c.pool j).waiting = true ∧ (c'.pool j).peerIp = (c.pool j).peerIp) ∨
      devicePasswordLockRemainingS c.clock c.pw (c'.pool j).peerIp = 0

theorem OpenedUnlocked.of_pool (h : c'.pool = c.pool) : OpenedUnlocked c c' := by
  intro j hj
  rw [h] at hj ⊢
  exact Or.inl ⟨hj, rfl⟩

theorem OpenedUnlocked.of_set {i : Slot} {s : LocalSession}
    (h : c'.pool = Function.update c.pool i s)
    (hs : s.waiting = true → devicePasswordLockRemainingS c.clock c.pw s.peerIp = 0) :
    OpenedUnlocked c c' := by
  intro j hj
  rw [h] at hj ⊢
  by_cases hji : j = i
  · rw [hji, Function.update_self] at hj ⊢
    exact Or.inr (hs hj)
  · rw [Function.update_of_ne hji] at hj ⊢
    exact Or.inl ⟨hj, rfl⟩

theorem OpenedUnlocked.of_sessions
    (h : ∀ j, (c'.pool j).waiting = true →
      (c.pool j).waiting = true ∧ (c'.pool j).peerIp = (c.pool j).peerIp) :
    OpenedUnlocked c c' := fun j hj => Or.inl (h j hj)

theorem removed_waiting (pool : Pool) (r : Nat) (j : Slot)
    (h : (localSessionOnPairedRemoved pool r j).waiting = true) :
    (pool j).waiting = true ∧ (localSessionOnPairedRemoved pool r j).peerIp = (pool j).peerIp := by
  have hpool : localSessionOnPairedRemoved pool r j = (pool j).onPairedRemoved r := rfl
  rw [hpool] at h ⊢
  rcases (pool j).onPairedRemoved_cases r with ⟨-, -, he⟩ | ⟨k, -, -, -, he⟩ | ⟨-, he⟩
  · rw [he] at h
    cases h
  · rw [he] at h ⊢
    exact ⟨h, rfl⟩
  · rw [he] at h ⊢
    exact ⟨h, rfl⟩

theorem RevokeRun.waiting (hrun : RevokeRun env c c') (j : Slot)
    (h : (c'.pool j).waiting = true) :
    (c.pool j).waiting = true ∧ (c'.pool j).peerIp = (c.pool j).peerIp := by
  induction hrun with
  | done c => exact ⟨h, rfl⟩
  | removed hr hrole hrem hrest ih =>
    obtain ⟨hw, hip⟩ := ih h
    obtain ⟨hw', hip'⟩ := removed_waiting _ _ j hw
    exact ⟨hw', hip.trans hip'⟩
  | failed hr hrole hrem hrest ih => exact ih h

theorem Action.openedUnlocked (ha : Action P env enc sock line c c') : OpenedUnlocked c c' := by
  cases ha with
  | idle hm => exact .of_pool rfl
  | voided hi hm hpw => exact .of_set rfl nofun
  | pake1 hi hk hlock hA hget hhd => exact .of_set rfl fun _ => hlock
  | pake3Abort hi hm hs => exact .of_set rfl nofun
  | pake3Bad hi hk hs hhd hm1 hbad => exact .of_set rfl nofun
  | pake3Ok hi hk hs hhd hm1 hok => exact .of_set rfl nofun
  | enroll hi hm hs hp he =>
    refine .of_set rfl fun hw => ?_
    have := LocalSession.waiting_iff.mp hw
    rw [show _ = LocalSessionState.pakeOk from hs] at this
    cases this
  | enrollFail hi hm hp he => exact .of_pool rfl
  | auth1 hi hk hp hf hr => exact .of_set rfl nofun
  | auth3Bad hi hm hs => exact .of_set rfl nofun
  | auth3Ok hi hk hs hp => exact .of_set rfl nofun
  | remove hi hm hr hby hrem => exact .of_sessions (removed_waiting c.pool _)
  | removeFail hi hm hr hrem => exact .of_pool rfl
  | pwset hi hm ho hset hrun hend hrot => exact .of_sessions hrun.waiting
  | pwsetFail hm hset => exact .of_pool rfl
  | pwclear hm => exact .of_pool rfl
  | reset hi hm ho =>
    refine .of_sessions fun j hj => ?_
    change (localSessionDropAllAuth c.pool j).waiting = true at hj
    change (c.pool j).waiting = true ∧ (localSessionDropAllAuth c.pool j).peerIp = _
    rw [localSessionDropAllAuth] at hj ⊢
    split_ifs at hj ⊢
    · exact ⟨hj, rfl⟩
    · cases hj

theorem Move.openedUnlocked (hm : Move P w e c) : OpenedUnlocked w.core c := by
  cases hm with
  | line hl ha => exact ha.openedUnlocked
  | refused hl => exact .of_pool rfl
  | opened hi hnew => exact .of_set rfl nofun
  | undone hi => exact .of_set rfl nofun
  | turnedAway => exact .of_pool rfl
  | closed hi => exact .of_set rfl nofun
  | notOpen hi => exact .of_pool rfl
  | queue => exact .of_pool rfl
  | send => exact .of_pool rfl
  | tick => exact .of_pool rfl
  | pairingTimeout => exact .of_pool rfl
  | reboot => exact fun j hj => nomatch hj
  | factory => exact fun j hj => nomatch hj

theorem Ends.other {pool pool' : Pool} {i j : Slot} (h : Ends pool pool' i)
    (hj : (pool' j).waiting = true) :
    j ≠ i ∧ (pool j).waiting = true ∧ (pool' j).peerIp = (pool j).peerIp := by
  obtain ⟨s, hs, rfl⟩ := h
  have hji : j ≠ i := by
    rintro rfl
    rw [Function.update_self] at hj
    exact hs (LocalSession.waiting_iff.mp hj)
  rw [Function.update_of_ne hji] at hj ⊢
  exact ⟨hji, hj, rfl⟩

theorem global_of_lock {now : Nat} {d : DevicePassword} {q : UInt32}
    (hset : devicePasswordIsSet d = true) (h : devicePasswordLockRemainingS now d q = 0) :
    remainingS d.globalUntilUs now = 0 := by
  simp only [devicePasswordLockRemainingS, hset, Bool.not_true, Bool.false_eq_true, if_false] at h
  exact (Nat.max_eq_zero_iff.mp h).1

theorem noSlotLocked_iff {now : Nat} {t : IpTable} {q : UInt32} :
    noSlotLocked now t q = true ↔ ∀ k, (t k).ip = q → remainingS (t k).untilUs now = 0 := by
  simp only [noSlotLocked, List.all_eq_true, List.mem_finRange, forall_const, Bool.or_eq_true,
    bne_iff_ne, beq_iff_eq, ne_eq, ← imp_iff_not_or]

theorem noLockOverOpen_other {w' : World} {i j : Slot} {ok : Bool}
    (hok : noLockOverOpen P ⟨w, e, w'⟩ = true) (hg : guess P ⟨w, e, w'⟩ = some (i, ok))
    (hset : devicePasswordIsSet w.pw = true) (hj : j ≠ i)
    (hw : (w.core.pool j).waiting = true) :
    (∀ k, (w.pw.ip k).ip = (w.pool j).peerIp → remainingS (w.pw.ip k).untilUs w.clock = 0) ∧
      (ok = true ∨ startsNoLock w.pw (w.pool i).peerIp (w.pool j).peerIp = true) := by
  have hw : (w.pool j).waiting = true := hw
  simp only [noLockOverOpen, hg, hset, Bool.not_true, Bool.false_or, List.all_eq_true,
    List.mem_finRange, forall_const] at hok
  have := hok j
  simp only [Bool.or_eq_true, beq_iff_eq, hj, hw, Bool.not_true, Bool.false_eq_true, false_or,
    Bool.and_eq_true, noSlotLocked_iff] at this
  exact this

theorem noOpenLocked_step (h : NoOpenLocked w.core)
    (hok : noLockOverOpen P ⟨w, e, step P w e⟩ = true) : NoOpenLocked (step P w e).core := by
  have hopen := (step_move P w e).openedUnlocked
  have hbefore : ∀ j, ((step P w e).core.pool j).waiting = true →
      devicePasswordLockRemainingS w.clock w.pw ((step P w e).core.pool j).peerIp = 0 := by
    intro j hj
    rcases hopen j hj with ⟨hw, hip⟩ | hzero
    · rw [hip]
      exact h j hw
    · exact hzero
  intro j hj
  cases step_guessMove P w e with
  | quiet hg hkeep hpw hclock =>
    rw [hpw.lock]
    exact Nat.eq_zero_of_le_zero (hbefore j hj ▸ lock_mono hclock)
  | @wrong i fate hg hkeep hpw hclock hpool =>
    obtain ⟨hji, hw, hip⟩ := hpool.other hj
    rw [hpw, hclock, hip]
    cases hset : devicePasswordIsSet w.pw with
    | false =>
      refine lock_of_not_set ?_
      rw [devicePasswordIsSet, noteFailure_pair]
      exact hset
    | true =>
      obtain ⟨hslots, hstart⟩ := noLockOverOpen_other hok (hg _) hset hji hw
      simp only [Bool.false_eq_true, false_or, startsNoLock, Bool.and_eq_true, Bool.or_eq_true,
        decide_eq_true_eq, bne_iff_ne, ne_eq, ← imp_iff_not_or] at hstart
      exact lock_noteFailure hset fate (global_of_lock hset (h j hw)) hslots hstart.1 hstart.2
  | @right i fate hg hkeep hpw hclock hpool =>
    obtain ⟨hji, hw, hip⟩ := hpool.other hj
    rw [hpw, hclock, hip]
    cases hset : devicePasswordIsSet w.pw with
    | false =>
      refine lock_of_not_set ?_
      rw [devicePasswordIsSet, (noteSuccess_ip _ _ _ _).2]
      exact hset
    | true =>
      exact lock_noteSuccess fate (noLockOverOpen_other hok (hg _) hset hji hw).1
  | renewed hpw hset => exact hpw.lock
  | booted he hpool hip =>
    rw [hpool] at hj
    cases hj

theorem noOpenLocked_run (P : Platform) (es : List Event)
    (hok : ∀ s ∈ trace (step P) World.fresh es, noLockOverOpen P s = true) :
    NoOpenLocked (run (step P) World.fresh es).core :=
  trace_induction (s := World.fresh) (Q := fun _ w => NoOpenLocked w.core)
    (fun _ hj => absurd hj Bool.false_ne_true)
    (fun _ _ _ h hstep => noOpenLocked_step h hstep) es hok

theorem guess_waiting {s : Step World Event} {i : Slot} {ok : Bool}
    (h : guess P s = some (i, ok)) : (s.before.core.pool i).waiting = true := by
  simp only [guess] at h
  split at h
  · obtain ⟨line, -, hg⟩ := Option.bind_eq_some_iff.mp h
    simp only [guessAt] at hg
    split_ifs at hg
    obtain ⟨k, -, hk⟩ := Option.bind_eq_some_iff.mp hg
    split_ifs at hk with hs
    obtain ⟨hd, -, hhd⟩ := Option.bind_eq_some_iff.mp hk
    obtain ⟨m1, -, hm1⟩ := Option.map_eq_some_iff.mp hhd
    cases hm1
    exact LocalSession.waiting_iff.mpr hs
  · cases h

end Open

/-! ## Counting guesses -/

def clearsCounters (P : Platform) (s : Step World Event) : Bool :=
  !devicePasswordIsSet s.after.pw || s.event.isReboot ||
    match stepMark P s with
    | some (.setsPassword _) => true
    | _ => false

/-- The wrong guesses of each address in a row: since its own last right one, and since the
counters last started over. -/
def guessTally (P : Platform) (tr : List (Step World Event)) : Tally :=
  tr.foldl (fun g s =>
    if clearsCounters P s then {}
    else match guess P s with
      | some (i, true) => g.success (s.before.pool i).peerIp
      | some (i, false) => g.failure s.before.clock (s.before.pool i).peerIp
      | none => g) {}

/-- The guess of a step comes from an address of `S`, and a wrong one meets no empty slot
before the slot of its address. -/
def guessesInOrder (P : Platform) (S : Finset UInt32) (s : Step World Event) : Bool :=
  match guess P s with
  | some (i, ok) =>
    decide ((s.before.pool i).peerIp ∈ S) &&
      (ok || decide (OwnSlotFirst s.before.pw.ip (s.before.pool i).peerIp))
  | none => true

section Counting

variable {P : Platform} {S : Finset UInt32} {w : World} {e : Event}
  {tr : List (Step World Event)}

theorem guessTally_concat (P : Platform) (tr : List (Step World Event))
    (s : Step World Event) :
    guessTally P (tr ++ [s]) =
      if clearsCounters P s then {}
      else match guess P s with
        | some (i, true) => (guessTally P tr).success (s.before.pool i).peerIp
        | some (i, false) => (guessTally P tr).failure s.before.clock (s.before.pool i).peerIp
        | none => guessTally P tr := by
  simp only [guessTally, List.foldl_append, List.foldl_cons, List.foldl_nil]

theorem clearsCounters_of_unset {s : Step World Event}
    (h : devicePasswordIsSet s.after.pw = false) : clearsCounters P s = true := by
  simp only [clearsCounters, h, Bool.not_false, Bool.true_or]

theorem clearsCounters_of_keeps {w' : World} (hkeep : KeepsPassword P w e)
    (hset : devicePasswordIsSet w'.pw = true) : clearsCounters P ⟨w, e, w'⟩ = false := by
  simp only [clearsCounters, hset, hkeep.1, Bool.not_true, Bool.false_or]
  split
  · next hm => exact absurd hm (hkeep.2 _ _)
  · rfl

theorem clearedTable_empty (p : UInt32) : clearedTable (fun _ => {}) p = fun _ => {} := by
  unfold clearedTable
  split
  · exact Function.update_eq_self ..
  · rfl

structure Counted (P : Platform) (S : Finset UInt32) (tr : List (Step World Event))
    (w : World) : Prop where
  accounts : Accounts S (guessTally P tr) w.pw.ip
  unset : devicePasswordIsSet w.pw = false → w.pw.ip = fun _ => {}

theorem Counted.clear {w' : World} (h : Counted P S tr w)
    (hclear : clearsCounters P ⟨w, e, w'⟩ = true) (hip : w'.pw.ip = fun _ => {}) :
    Counted P S (tr ++ [⟨w, e, w'⟩]) w' := by
  refine ⟨?_, fun _ => hip⟩
  rw [guessTally_concat, if_pos hclear, hip]
  exact Accounts.empty h.accounts.zero

theorem Counted.keep {w' : World} {g : Tally} (hkeep : KeepsPassword P w e)
    (hset : devicePasswordIsSet w'.pw = true)
    (hg : clearsCounters P ⟨w, e, w'⟩ = false → guessTally P (tr ++ [⟨w, e, w'⟩]) = g)
    (hacc : Accounts S g w'.pw.ip) : Counted P S (tr ++ [⟨w, e, w'⟩]) w' where
  accounts := by
    rw [hg (clearsCounters_of_keeps hkeep hset)]
    exact hacc
  unset := fun hno => absurd (hset.symm.trans hno) Bool.noConfusion

theorem Counted.quiet {w' : World} (h : Counted P S tr w) (hg : guess P ⟨w, e, w'⟩ = none)
    (hkeep : KeepsPassword P w e) (hpw : SameLimits w.pw w'.pw) :
    Counted P S (tr ++ [⟨w, e, w'⟩]) w' := by
  cases hs : devicePasswordIsSet w'.pw with
  | false =>
    exact h.clear (clearsCounters_of_unset hs) (hpw.ip.trans (h.unset (hpw.isSet ▸ hs)))
  | true =>
    refine Counted.keep hkeep hs (fun hno => ?_) (hpw.ip ▸ h.accounts)
    rw [guessTally_concat, hno, hg]
    rfl

theorem Counted.wrong {w' : World} {i : Slot} {fate : LockoutFate} (h : Counted P S tr w)
    (hcard : S.card ≤ ipSlots) (hg : guess P ⟨w, e, w'⟩ = some (i, false))
    (hkeep : KeepsPassword P w e) (hok : guessesInOrder P S ⟨w, e, w'⟩ = true)
    (hpw : w'.pw = devicePasswordNoteFailure fate w.clock w.pw (w.pool i).peerIp) :
    Counted P S (tr ++ [⟨w, e, w'⟩]) w' := by
  have hsame : devicePasswordIsSet w'.pw = devicePasswordIsSet w.pw := by
    rw [devicePasswordIsSet, hpw, noteFailure_pair, devicePasswordIsSet]
  cases hs : devicePasswordIsSet w.pw with
  | false =>
    refine h.clear (clearsCounters_of_unset (hsame.trans hs)) ?_
    rw [hpw, devicePasswordNoteFailure, hs]
    exact h.unset hs
  | true =>
    simp only [guessesInOrder, hg, Bool.false_or, Bool.and_eq_true, decide_eq_true_eq] at hok
    refine Counted.keep hkeep (hsame.trans hs) (fun hno => ?_)
      (g := (guessTally P tr).failure w.clock (w.pool i).peerIp) ?_
    · rw [guessTally_concat, hno, hg]
      rfl
    · rw [hpw, noteFailure_ip hs]
      exact h.accounts.failure hcard hok.1 hok.2 w.clock

theorem Counted.right {w' : World} {i : Slot} {fate : LockoutFate} (h : Counted P S tr w)
    (hg : guess P ⟨w, e, w'⟩ = some (i, true)) (hkeep : KeepsPassword P w e)
    (hok : guessesInOrder P S ⟨w, e, w'⟩ = true)
    (hpw : w'.pw = devicePasswordNoteSuccess fate w.clock w.pw (w.pool i).peerIp) :
    Counted P S (tr ++ [⟨w, e, w'⟩]) w' := by
  obtain ⟨hip, hpair⟩ := noteSuccess_ip fate w.clock w.pw (w.pool i).peerIp
  rw [← hpw] at hip hpair
  have hsame : devicePasswordIsSet w'.pw = devicePasswordIsSet w.pw := by
    rw [devicePasswordIsSet, hpair, devicePasswordIsSet]
  cases hs : devicePasswordIsSet w.pw with
  | false =>
    refine h.clear (clearsCounters_of_unset (hsame.trans hs)) ?_
    rw [hip, h.unset hs, clearedTable_empty]
  | true =>
    simp only [guessesInOrder, hg, Bool.true_or, Bool.and_true, decide_eq_true_eq] at hok
    refine Counted.keep hkeep (hsame.trans hs) (fun hno => ?_)
      (g := (guessTally P tr).success (w.pool i).peerIp) ?_
    · rw [guessTally_concat, hno, hg]
      rfl
    · rw [hip]
      exact h.accounts.success hok

theorem Counted.step (h : Counted P S tr w) (hcard : S.card ≤ ipSlots)
    (hok : guessesInOrder P S ⟨w, e, step P w e⟩ = true) :
    Counted P S (tr ++ [⟨w, e, step P w e⟩]) (step P w e) := by
  have hmove := step_guessMove P w e
  generalize hw' : CyThing.step P w e = w' at hmove hok ⊢
  cases hmove with
  | quiet hg hkeep hpw hclock => exact h.quiet (hg w') hkeep hpw
  | wrong hg hkeep hpw hclock hpool => exact h.wrong hcard (hg w') hkeep hok hpw
  | right hg hkeep hpw hclock hpool => exact h.right (hg w') hkeep hok hpw
  | renewed hpw hset =>
    refine h.clear ?_ hpw.ip
    rcases hset with hmark | hno
    · obtain ⟨i, hi⟩ := hmark w'
      simp only [clearsCounters, hi, Bool.or_true]
    · exact clearsCounters_of_unset hno
  | booted he hpool hip =>
    refine h.clear ?_ hip
    simp only [clearsCounters, he, Bool.or_true, Bool.true_or]

theorem counted_run (P : Platform) {S : Finset UInt32} (hcard : S.card ≤ ipSlots) (h0 : 0 ∉ S)
    (es : List Event)
    (hok : ∀ s ∈ trace (CyThing.step P) World.fresh es, guessesInOrder P S s = true) :
    Counted P S (trace (CyThing.step P) World.fresh es) (run (CyThing.step P) World.fresh es) :=
  trace_induction (s := World.fresh) (Q := Counted P S) ⟨Accounts.empty h0, fun _ => rfl⟩
    (fun _ _ _ h hstep => h.step hcard hstep) es hok

end Counting

/-- No guess is checked during a lockout, over every run in which no lock starts over an
open exchange; and, with the guesses of at most eight addresses counted in order, a guess
after five or more wrong ones in a row is checked only once their lock has run out. -/
theorem no_guess_under_lock (P : Platform) (es : List Event)
    (hopen : ∀ s ∈ trace (step P) World.fresh es, noLockOverOpen P s = true) :
    (∀ s ∈ trace (step P) World.fresh es, ∀ i ok, guess P s = some (i, ok) →
      devicePasswordLockRemainingS s.before.clock s.before.pw (s.before.pool i).peerIp = 0) ∧
    ∀ S : Finset UInt32, S.card ≤ ipSlots → 0 ∉ S →
      (∀ s ∈ trace (step P) World.fresh es, guessesInOrder P S s = true) →
      ∀ pre e post, es = pre ++ e :: post →
        let w := run (step P) World.fresh pre
        let g := guessTally P (trace (step P) World.fresh pre)
        ∀ i ok, guess P ⟨w, e, step P w e⟩ = some (i, ok) → devicePasswordIsSet w.pw = true →
          devicePwIpMaxFails ≤ g.fails (w.pool i).peerIp →
            g.last (w.pool i).peerIp +
              lockSeconds (min 255 (g.fails (w.pool i).peerIp)) devicePwIpMaxFails * 1000000 ≤
                w.clock := by
  have hlock : ∀ s ∈ trace (step P) World.fresh es, ∀ i ok, guess P s = some (i, ok) →
      devicePasswordLockRemainingS s.before.clock s.before.pw (s.before.pool i).peerIp = 0 := by
    intro s hs i ok hg
    obtain ⟨pre, post, hes, hb, -⟩ := mem_trace hs
    have hpre : ∀ t ∈ trace (step P) World.fresh pre, noLockOverOpen P t = true := fun t ht =>
      hopen t (by rw [hes, trace_append]; exact List.mem_append_left _ ht)
    have hinv := noOpenLocked_run P pre hpre
    rw [← hb] at hinv
    exact hinv i (guess_waiting hg)
  refine ⟨hlock, ?_⟩
  intro S hcard h0 hok pre e post hes w g i ok hg hset hmany
  have hmem : (⟨w, e, step P w e⟩ : Step World Event) ∈ trace (step P) World.fresh es := by
    rw [hes, trace_append]
    exact List.mem_append_right _ List.mem_cons_self
  have hpre : ∀ t ∈ trace (step P) World.fresh pre, guessesInOrder P S t = true := fun t ht =>
    hok t (by rw [hes, trace_append]; exact List.mem_append_left _ ht)
  have hcounted : Counted P S (trace (step P) World.fresh pre) w := counted_run P hcard h0 pre hpre
  have hfrom : (w.pool i).peerIp ∈ S := by
    have horder := hok _ hmem
    simp only [guessesInOrder, hg, Bool.and_eq_true, decide_eq_true_eq] at horder
    exact horder.1
  have hle := hcounted.accounts.lock_le hfrom hset w.clock
  have hzero : devicePasswordLockRemainingS w.clock w.pw (w.pool i).peerIp = 0 :=
    hlock _ hmem i ok hg
  have hbase : 60 ≤ lockSeconds (min 255 (g.fails (w.pool i).peerIp)) devicePwIpMaxFails :=
    le_lockSeconds (le_min (by decide) hmany)
  rw [hzero] at hle
  change lockSeconds (min 255 (g.fails (w.pool i).peerIp)) devicePwIpMaxFails * 1000000 ≤
    0 * 1000000 + (w.clock - g.last (w.pool i).peerIp) at hle
  generalize lockSeconds (min 255 (g.fails (w.pool i).peerIp)) devicePwIpMaxFails = lock
    at hle hbase ⊢
  omega

def passwordSet : List Event :=
  Sample.ownerJoins ++ [.line 5 (Sample.sealed (Sample.pakeKey (ascii "initial0")) 2
    (ascii "PWSET:" ++ Sample.b64 "secret00")) {}]

def wrongGuess (sock : Nat) : List Event :=
  [Sample.pake1 sock {}, Sample.pake3 sock (ascii "wrong")]

def patientGuesses : List Event :=
  passwordSet ++ .accept 6 2 true :: wrongGuess 6 ++ wrongGuess 6 ++ wrongGuess 6 ++
    wrongGuess 6 ++ wrongGuess 6 ++ wrongGuess 6 ++ .tick 60000000 :: wrongGuess 6

theorem no_guess_under_lock_patient :
    (trace (step Sample.platform) World.fresh patientGuesses).all
      (noLockOverOpen Sample.platform) = true ∧
    ((trace (step Sample.platform) World.fresh patientGuesses).filterMap
      (guess Sample.platform)).length = 7 ∧
    (∀ s ∈ trace (step Sample.platform) World.fresh patientGuesses, ∀ i ok,
      guess Sample.platform s = some (i, ok) →
        devicePasswordLockRemainingS s.before.clock s.before.pw (s.before.pool i).peerIp = 0) ∧
    let w := run (step Sample.platform) World.fresh patientGuesses.dropLast
    let g := guessTally Sample.platform
      (trace (step Sample.platform) World.fresh patientGuesses.dropLast)
    g.fails (w.pool 1).peerIp = 5 ∧
      g.last (w.pool 1).peerIp + lockSeconds (min 255 (g.fails (w.pool 1).peerIp))
        devicePwIpMaxFails * 1000000 ≤ w.clock := by
  have hopen : (trace (step Sample.platform) World.fresh patientGuesses).all
      (noLockOverOpen Sample.platform) = true := by decide +kernel
  have horder : (trace (step Sample.platform) World.fresh patientGuesses).all
      (guessesInOrder Sample.platform {1, 2}) = true := by decide +kernel
  obtain ⟨hlock, hwaited⟩ := no_guess_under_lock Sample.platform patientGuesses
    (List.all_eq_true.mp hopen)
  refine ⟨hopen, by decide +kernel, hlock, by decide +kernel, ?_⟩
  exact hwaited {1, 2} (by decide) (by decide) (List.all_eq_true.mp horder)
    patientGuesses.dropLast (Sample.pake3 6 (ascii "wrong")) [] rfl 1 false (by decide +kernel)
    (by decide +kernel) (by decide +kernel)

def overlappingGuesses : List Event :=
  passwordSet ++ .accept 6 2 true :: .accept 7 2 true :: wrongGuess 6 ++ wrongGuess 6 ++
    wrongGuess 6 ++ wrongGuess 6 ++ [Sample.pake1 7 {}] ++ wrongGuess 6

/-- The guess on the second socket is checked although the address is locked. -/
theorem guess_checked_under_lock :
    let w := run (step Sample.platform) World.fresh overlappingGuesses
    let e := Sample.pake3 7 (ascii "secret00")
    devicePasswordIsSet w.pw = true ∧
      guess Sample.platform ⟨w, e, step Sample.platform w e⟩ = some (2, true) ∧
      devicePasswordLockRemainingS w.clock w.pw (w.pool 2).peerIp = 60 := by
  decide +kernel

end CyThing
