import CyThing.System

/-! The core of the device: the sessions without their frame counters, the paired list, the
password and the clock. Nothing that is sent, queued or framed changes it, so that what a
line does can be said without the replies, and `Action` says it once for every handler. -/

namespace CyThing
open CLib

/-! ## The view -/

def LocalSession.unframed (s : LocalSession) : LocalSession :=
  { s with txCtr := 0, rxCtr := 0, rxEncrypted := false }

def World.core (w : World) : Core :=
  { w.toCore with pool := fun i => (w.pool i).unframed }

def Core.setSession (c : Core) (i : Slot) (s : LocalSession) : Core :=
  { c with pool := Function.update c.pool i s }

def Core.setPw (c : Core) (pw : DevicePassword) : Core := { c with pw := pw }

def Core.setList (c : Core) (list : PairedBlob) (nvs : Option StoredList) : Core :=
  { c with list := list, nvsList := nvs }

section View

variable (P : Platform) (env : Env) (w : World) (i : Slot) (s : LocalSession) (sock : Nat)

theorem World.core_pool : w.core.pool i = (w.pool i).unframed := rfl

theorem World.localSessionFind_core :
    localSessionFind w.core.pool sock = localSessionFind w.pool sock := rfl

@[simp] theorem World.core_setSession :
    (w.setSession i s).core = w.core.setSession i s.unframed := by
  simp only [World.core, World.setSession, Core.setSession, Core.mk.injEq, and_true]
  funext j
  by_cases hj : j = i
  · subst hj
    simp only [Function.update_self]
  · simp only [Function.update_of_ne hj]

@[simp] theorem World.setSession_self : (w.setSession i s).pool i = s :=
  Function.update_self ..

@[simp] theorem Core.setSession_setSession (c : Core) (t : LocalSession) :
    (c.setSession i s).setSession i t = c.setSession i t := by
  simp [Core.setSession]

@[simp] theorem Core.setSession_self (c : Core) : (c.setSession i s).pool i = s :=
  Function.update_self ..

theorem Core.setSession_of_ne (c : Core) {j : Slot} (h : j ≠ i) :
    (c.setSession i s).pool j = c.pool j := Function.update_of_ne h ..

@[simp] theorem Core.setSession_pool (c : Core) : c.setSession i (c.pool i) = c := by
  simp [Core.setSession]

@[simp] theorem Core.setPw_pool (c : Core) (pw : DevicePassword) : (c.setPw pw).pool = c.pool := rfl

theorem World.core_settle (st : LocalSessionState) :
    (w.setSession i { w.pool i with txCtr := 0, rxCtr := 0, state := st }).core =
      w.core.setSession i { w.core.pool i with state := st } := by
  rw [World.core_setSession]
  rfl

@[simp] theorem World.core_setPw (pw : DevicePassword) : (w.setPw pw).core = w.core.setPw pw := rfl

@[simp] theorem World.core_setList (list : PairedBlob) (nvs : Option StoredList) :
    (w.setList list nvs).core = w.core.setList list nvs := rfl

@[simp] theorem World.core_send (bytes : Bytes) : (w.send sock bytes).core = w.core := rfl

@[simp] theorem World.core_pushEvent (event userSub role : Bytes) :
    (w.pushEvent env event userSub role).core = w.core := rfl

@[simp] theorem World.core_sendData (target : Int) (data : Bytes) :
    (w.sendData target data).core = w.core := by
  simp only [World.sendData]
  split_ifs
  · split <;> rfl
  · rfl

@[simp] theorem World.core_appReply (r : AppReply) : (w.appReply r).core = w.core := by
  cases r with
  | data target data => exact w.core_sendData target data
  | raw target text => rfl

@[simp] theorem World.core_recordSeal (x : Seal) : (w.recordSeal x).core = w.core := rfl

theorem core_encFrameSeal (plain : Bytes) : (encFrameSeal P w i sock plain).core = w.core := by
  have hbump : ∀ n, (w.setSession i { w.pool i with txCtr := n }).core = w.core := fun n => by
    rw [World.core_setSession]
    exact Core.setSession_pool i w.core
  simp only [encFrameSeal]
  split
  · rw [World.core_send, World.core_recordSeal, hbump]
  · rw [World.core_recordSeal, hbump]

@[simp] theorem core_encFrameSend (payload : Bytes) :
    (encFrameSend P w sock payload).core = w.core := by
  simp only [encFrameSend]
  split
  · rfl
  · split_ifs
    · rfl
    · rfl
    · exact core_encFrameSeal P w _ sock _

@[simp] theorem core_securitySendLine (text : Bytes) :
    (securitySendLine P w sock text).core = w.core := by
  simp only [securitySendLine]
  split_ifs
  · exact core_encFrameSend P w sock _
  · rfl

@[simp] theorem core_sendErr (code : Bytes) : (sendErr P w sock code).core = w.core :=
  core_securitySendLine P w sock _

inductive Unwrapped (bytes : Bytes) : Option Bytes × World → Prop
  | stray (henc : isEncLine bytes = false) (hf : localSessionFind w.pool sock = none) :
      Unwrapped bytes (some bytes, w)
  | plain {i : Slot} (henc : isEncLine bytes = false)
      (hf : localSessionFind w.pool sock = some i) :
      Unwrapped bytes (some bytes, w.setSession i { w.pool i with rxEncrypted := false })
  | refused (henc : isEncLine bytes = true)
      (hopen : ∀ i, localSessionFind w.pool sock = some i → (w.pool i).keyed = true →
        openFrame P (w.pool i) bytes = none) :
      Unwrapped bytes (none, w.send sock (ascii "ERR:ENC\n"))
  | opened {i : Slot} {ctr : Nat} {line : Bytes} (henc : isEncLine bytes = true)
      (hf : localSessionFind w.pool sock = some i) (hk : (w.pool i).keyed = true)
      (hopen : openFrame P (w.pool i) bytes = some (ctr, line)) :
      Unwrapped bytes
        (some line, w.setSession i { w.pool i with rxCtr := ctr, rxEncrypted := true })

theorem encFrameUnwrap_unwrapped (bytes : Bytes) :
    Unwrapped P w sock bytes (encFrameUnwrap P w sock bytes) := by
  simp only [encFrameUnwrap]
  cases henc : isEncLine bytes with
  | false =>
    rw [Bool.not_false, if_pos rfl]
    split
    · next hf => exact .plain henc hf
    · next hf => exact .stray henc hf
  | true =>
    rw [Bool.not_true, if_neg Bool.false_ne_true]
    split
    · next hf => exact .refused henc fun i hi => by rw [hf] at hi; cases hi
    next i hf =>
    cases hk : (w.pool i).keyed with
    | false =>
      rw [Bool.not_false, if_pos rfl]
      refine .refused henc fun j hj hkj => ?_
      rw [hf] at hj
      cases hj
      rw [hk] at hkj
      cases hkj
    | true =>
      rw [Bool.not_true, if_neg Bool.false_ne_true]
      split
      · next hopen =>
        refine .refused henc fun j hj _ => ?_
        rw [hf] at hj
        cases hj
        exact hopen
      · next hopen => exact .opened henc hf hk hopen

@[simp] theorem core_encFrameUnwrap (bytes : Bytes) :
    (encFrameUnwrap P w sock bytes).2.core = w.core := by
  have hu := encFrameUnwrap_unwrapped P w sock bytes
  generalize encFrameUnwrap P w sock bytes = x at hu
  cases hu with
  | stray henc hf | refused henc hopen => rfl
  | plain henc hf | opened henc hf hk hopen =>
    rw [World.core_setSession]
    exact Core.setSession_pool _ w.core

end View

/-! ## Which handler a line belongs to -/

inductive LineKind
  | pake1
  | pake3
  | enroll
  | auth1
  | auth3
  | owner (c : OwnerCommand)
  | other
  deriving DecidableEq

def lineKind (line : Bytes) : LineKind :=
  if hasPrefix line pake1Prefix then .pake1
  else if hasPrefix line pake3Prefix then .pake3
  else if hasPrefix line enrollPrefix then .enroll
  else if hasPrefix line auth1Prefix then .auth1
  else if hasPrefix line auth3Prefix then .auth3
  else match ownerCommand line with
    | some c => .owner c
    | none => .other

def handleKind (P : Platform) (env : Env) (w : World) (i : Slot) (sock : Nat) (line : Bytes) :
    LineKind → World
  | .pake1 => handlePake1 P env w i sock line
  | .pake3 => handlePake3 P env w i sock line
  | .enroll => handleEnroll P env w i sock line
  | .auth1 => handleAuth1 P env w i sock line
  | .auth3 => handleAuth3 P w i sock line
  | .owner c =>
    if (w.pool i).mayRun c then runOwnerCommand P env w i sock line c
    else sendErr P w sock (ascii "AUTH")
  | .other => w

/-- The three security dispatchers in a row are one choice by the kind of the line. -/
theorem securityHandleLine_eq (P : Platform) (env : Env) (w : World) (sock : Nat)
    (line : Bytes) :
    securityHandleLine P env w sock line =
      if lineKind line = .other then none
      else match localSessionFind w.pool sock with
        | none => some (sendErr P w sock (ascii "NOSESSION"))
        | some i => some (handleKind P env w i sock line (lineKind line)) := by
  by_cases h1 : hasPrefix line pake1Prefix = true
  · have hk : lineKind line = .pake1 := by simp [lineKind, h1]
    cases hf : localSessionFind w.pool sock <;>
      simp [securityHandleLine, pakeHandleLine, handleKind, hk, hf, h1]
  by_cases h3 : hasPrefix line pake3Prefix = true
  · have hk : lineKind line = .pake3 := by simp [lineKind, h1, h3]
    cases hf : localSessionFind w.pool sock <;>
      simp [securityHandleLine, pakeHandleLine, handleKind, hk, hf, h1, h3]
  have hp : pakeHandleLine P env w sock line = none := by simp [pakeHandleLine, h1, h3]
  by_cases he : hasPrefix line enrollPrefix = true
  · have hk : lineKind line = .enroll := by simp [lineKind, h1, h3, he]
    cases hf : localSessionFind w.pool sock <;>
      simp [securityHandleLine, hp, localAuthHandleLine, handleKind, hk, hf, he]
  by_cases ha1 : hasPrefix line auth1Prefix = true
  · have hk : lineKind line = .auth1 := by simp [lineKind, h1, h3, he, ha1]
    cases hf : localSessionFind w.pool sock <;>
      simp [securityHandleLine, hp, localAuthHandleLine, handleKind, hk, hf, he, ha1]
  by_cases ha3 : hasPrefix line auth3Prefix = true
  · have hk : lineKind line = .auth3 := by simp [lineKind, h1, h3, he, ha1, ha3]
    cases hf : localSessionFind w.pool sock <;>
      simp [securityHandleLine, hp, localAuthHandleLine, handleKind, hk, hf, he, ha1, ha3]
  have hl : localAuthHandleLine P env w sock line = none := by
    simp [localAuthHandleLine, he, ha1, ha3]
  cases hc : ownerCommand line with
  | none =>
    have hk : lineKind line = .other := by simp [lineKind, h1, h3, he, ha1, ha3, hc]
    simp [securityHandleLine, hp, hl, ownerCommandsHandleLine, hk, hc]
  | some c =>
    have hk : lineKind line = .owner c := by simp [lineKind, h1, h3, he, ha1, ha3, hc]
    cases hf : localSessionFind w.pool sock with
    | none => simp [securityHandleLine, hp, hl, ownerCommandsHandleLine, hk, hc, hf]
    | some i =>
      by_cases hr : (w.pool i).mayRun c = true <;>
        simp [securityHandleLine, hp, hl, ownerCommandsHandleLine, handleKind, hk, hc, hf, hr]

/-! ## What the other tasks do -/

section Tasks

variable (P : Platform) (w : World) (sock : Nat) (peerIp : UInt32) (taskOk : Bool)

inductive Sends : World → Prop
  | moved (fifo staging : Bytes) (broadcast : Option Broadcast) :
      Sends { w with tcpFifo := fifo, staging := staging, broadcast := broadcast }
  | sent (staging : Bytes) (broadcast : Option Broadcast) (dst : Nat) (payload : Bytes) :
      Sends (encFrameSend P { w with staging := staging, broadcast := broadcast } dst payload)

theorem sendTaskStep_sends : Sends P w (sendTaskStep P w) := by
  simp only [sendTaskStep]
  split
  · split
    · simp only [broadcastTo]
      split_ifs
      · exact .moved ..
      · exact .sent ..
    · exact .moved ..
  split_ifs
  · exact .moved ..
  split
  · exact .moved ..
  split_ifs
  · exact .moved ..
  · exact .sent ..
  · exact .moved ..

inductive Accepts : World → Prop
  | turnedAway (accounts : List Nat) : Accepts { w with accounts := accounts }
  | opened (accounts : List Nat) :
      Accepts { w with accounts := accounts, pool := (localSessionAcquire w.pool sock peerIp).2 }
  | undone (accounts : List Nat) :
      Accepts { w with accounts := accounts
                       pool := localSessionRelease (localSessionAcquire w.pool sock peerIp).2 sock }

theorem acceptConnection_accepts :
    Accepts w sock peerIp (acceptConnection w sock peerIp taskOk) := by
  simp only [acceptConnection]
  by_cases hheld : (localSessionFind w.pool sock).isSome = true
  · rw [if_pos hheld]
    exact .turnedAway ..
  rw [if_neg hheld]
  by_cases hfull : tcpClientMax ≤ localSessionCount w.pool ∧
      localSessionShutdownPeer w.pool peerIp = 0
  · rw [if_pos hfull]
    exact .turnedAway ..
  rw [if_neg hfull]
  split
  · exact .turnedAway ..
  rcases hacq : localSessionAcquire w.pool sock peerIp with ⟨_ | i, pool⟩
  · exact .turnedAway ..
  obtain rfl : (localSessionAcquire w.pool sock peerIp).2 = pool := congrArg Prod.snd hacq
  cases taskOk with
  | true => exact .opened ..
  | false => exact .undone ..

end Tasks

end CyThing
