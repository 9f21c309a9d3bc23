import CyThing.Core

/-! What one event can do to the core: `Action` for a line that reached the dispatcher,
`Move` for every event, and the proof that the device does nothing else. -/

namespace CyThing
open CLib

/-! ## Marks: what a line says about accounts and authentication -/

inductive Mark
  /-- `PAKE1` or `AUTH1`, with the account a well-formed `AUTH1` names. -/
  | begins (i : Slot) (sub : Option Bytes)
  /-- An `ENROLL` that is answered `ENROLLED`. -/
  | enrolls (i : Slot) (sub : Bytes)
  /-- A `PWSET` that is answered `ACK`. -/
  | setsPassword (i : Slot)
  /-- A `RESET` of the owner, or the factory reset. -/
  | resets
  deriving DecidableEq

def LocalSession.ownerRights (s : LocalSession) : Bool := s.role == .owner && s.authenticated

def enrollAdd (env : Env) (c : Core) (sub email : Bytes) : AddResult :=
  pairedListAdd (env.listFate 0) c.list c.nvsList sub email (.fit pairedKeyLen env.kAccount)
    (unixOrZero env.unix)

def enrolledAs (P : Platform) (env : Env) (enc : Bool) (c : Core) (i : Slot) (line : Bytes) :
    Option Bytes :=
  if (c.pool i).state = .pakeOk ∧ enc = true then
    match parseEnroll P line with
    | some (sub, email) => (enrollAdd env c sub email).enrolled.map fun _ => sub
    | none => none
  else none

def pwsetAccepted (P : Platform) (env : Env) (c : Core) (line : Bytes) : Bool :=
  match parsePwset P line with
  | some password => (devicePasswordSet P env.pairFate env.setRand c.pw password).1
  | none => false

def markAt (P : Platform) (env : Env) (enc : Bool) (c : Core) (i : Slot) (line : Bytes) :
    Option Mark :=
  match lineKind line with
  | .pake1 => some (.begins i none)
  | .auth1 => some (.begins i ((parseAuth1 P line).map (·.1)))
  | .enroll => (enrolledAs P env enc c i line).map (.enrolls i)
  | .owner .pwset =>
    if enc && (c.pool i).ownerRights && pwsetAccepted P env c line then some (.setsPassword i)
    else none
  | .owner .reset => if enc && (c.pool i).ownerRights then some .resets else none
  | _ => none

def markOf (P : Platform) (env : Env) (enc : Bool) (c : Core) (sock : Nat) (line : Bytes) :
    Option Mark :=
  (localSessionFind c.pool sock).bind fun i => markAt P env enc c i line

/-! ## Actions -/

def Core.removed (c : Core) (l : PairedBlob) (nvs : Option StoredList) (r : Nat) : Core :=
  { c with list := l, nvsList := nvs, pool := localSessionOnPairedRemoved c.pool r }

def MayRemove (c : Core) (i : Slot) (r : Nat) : Prop :=
  ((c.pool i).ownerRights = true ∧ (c.pool i).pairedIndex ≠ some r) ∨
  ((c.pool i).pairedIndex = some r ∧ (c.list.entries r).role ≠ .owner)

inductive RevokeRun (env : Env) : Core → Core → Prop
  | done (c : Core) : RevokeRun env c c
  | removed {c c' : Core} {r k : Nat} {l : PairedBlob} {nvs : Option StoredList}
      (hr : r < c.list.count) (hrole : (c.list.entries r).role ≠ .owner)
      (hrem : pairedListRemove (env.listFate k) c.list c.nvsList r = (true, l, nvs))
      (hrest : RevokeRun env (c.removed l nvs r) c') : RevokeRun env c c'
  | failed {c c' : Core} {r k : Nat} {l : PairedBlob} {nvs : Option StoredList}
      (hr : r < c.list.count) (hrole : (c.list.entries r).role ≠ .owner)
      (hrem : pairedListRemove (env.listFate k) c.list c.nvsList r = (false, l, nvs))
      (hrest : RevokeRun env (c.setList l nvs) c') : RevokeRun env c c'

section Actions

variable (P : Platform) (env : Env) (enc : Bool) (sock : Nat) (line : Bytes)

inductive Action (c : Core) : Core → Prop
  | idle (hm : markOf P env enc c sock line = none) : Action c c
  | voided {i : Slot} {sub : Option Bytes} {pw : DevicePassword}
      (hi : localSessionFind c.pool sock = some i)
      (hm : markOf P env enc c sock line = some (.begins i sub))
      (hpw : pw = c.pw ∨ pw = (devicePasswordGet P env.initRand c.pw).2) :
      Action c ((c.setPw pw).setSession i (c.pool i).resetHandshake)
  | pake1 {i : Slot} {bytesA : Bytes} {pair : Bytes × Bytes} {pw : DevicePassword}
      {hd : SrpHandle} (hi : localSessionFind c.pool sock = some i)
      (hk : lineKind line = .pake1)
      (hlock : devicePasswordLockRemainingS c.clock c.pw (c.pool i).peerIp = 0)
      (hA : decodePayload P line pake1Prefix srpBytesMax = some bytesA)
      (hget : devicePasswordGet P env.initRand c.pw = (some pair, pw))
      (hhd : srpBegin P env pair bytesA = some hd) :
      Action c ((c.setPw pw).setSession i
        { (c.pool i).resetHandshake with
          key := .fit 32 hd.sessionKey, srp := some hd, state := .pakeWaitProof })
  | pake3Abort {i : Slot} (hi : localSessionFind c.pool sock = some i)
      (hm : markOf P env enc c sock line = none)
      (hs : (c.pool i).state = .pakeWaitProof) :
      Action c (c.setSession i (c.pool i).abortPake)
  | pake3Bad {i : Slot} {hd : SrpHandle} {m1 : Bytes}
      (hi : localSessionFind c.pool sock = some i) (hk : lineKind line = .pake3)
      (hs : (c.pool i).state = .pakeWaitProof) (hhd : (c.pool i).srp = some hd)
      (hm1 : pake3Proof P line = some m1)
      (hbad : P.srpExchangeProofs hd devicePwSrpIdentity m1 = none) :
      Action c ((c.setPw
        (devicePasswordNoteFailure env.lockoutFate c.clock c.pw (c.pool i).peerIp)).setSession i
          (c.pool i).abortPake)
  | pake3Ok {i : Slot} {hd : SrpHandle} {m1 m2 : Bytes}
      (hi : localSessionFind c.pool sock = some i) (hk : lineKind line = .pake3)
      (hs : (c.pool i).state = .pakeWaitProof) (hhd : (c.pool i).srp = some hd)
      (hm1 : pake3Proof P line = some m1)
      (hok : P.srpExchangeProofs hd devicePwSrpIdentity m1 = some m2) :
      Action c ((c.setPw
        (devicePasswordNoteSuccess env.lockoutFate c.clock c.pw (c.pool i).peerIp)).setSession i
          { c.pool i with srp := none, state := .pakeOk })
  | enroll {i : Slot} {sub email : Bytes} {e : Enrolled}
      (hi : localSessionFind c.pool sock = some i)
      (hm : markOf P env enc c sock line = some (.enrolls i sub))
      (hs : (c.pool i).state = .pakeOk)
      (hp : parseEnroll P line = some (sub, email))
      (he : (enrollAdd env c sub email).enrolled = some e) :
      Action c ((c.setList (enrollAdd env c sub email).list
        (enrollAdd env c sub email).nvs).setSession i
          { c.pool i with pairedIndex := some e.index, role := sessionRole e.role })
  | enrollFail {i : Slot} {sub email : Bytes} (hi : localSessionFind c.pool sock = some i)
      (hm : markOf P env enc c sock line = none)
      (hp : parseEnroll P line = some (sub, email))
      (he : (enrollAdd env c sub email).enrolled = none) :
      Action c (c.setList (enrollAdd env c sub email).list (enrollAdd env c sub email).nvs)
  | auth1 {i : Slot} {sub : Bytes} {np : Block localAuthNonceLen} {r : Nat}
      (hi : localSessionFind c.pool sock = some i) (hk : lineKind line = .auth1)
      (hp : parseAuth1 P line = some (sub, np)) (hf : pairedListFind c.list sub = some r)
      (hr : r < c.list.count) :
      Action c (c.setSession i
        { (c.pool i).resetHandshake with
          noncePhone := np, nonceDev := .fit localAuthNonceLen env.nonceDev
          key := (c.list.entries r).key, pairedIndex := some r, state := .authWaitProof })
  | auth3Bad {i : Slot} (hi : localSessionFind c.pool sock = some i)
      (hm : markOf P env enc c sock line = none)
      (hs : (c.pool i).state = .authWaitProof) :
      Action c (c.setSession i
        { c.pool i with key := zeroKey, pairedIndex := none, state := .new })
  | auth3Ok {i : Slot} (hi : localSessionFind c.pool sock = some i)
      (hk : lineKind line = .auth3) (hs : (c.pool i).state = .authWaitProof)
      (hp : parseAuth3 P line =
        some (proof P (c.pool i).key phnLabel (c.pool i).nonceDev (c.pool i).noncePhone)) :
      Action c (c.setSession i
        { c.pool i with
          key := localAuthHkdf32 P (c.pool i).key.1
            ((c.pool i).noncePhone.1 ++ (c.pool i).nonceDev.1) localAuthHkdfInfo
          role := authRole (pairedListGet c.list (c.pool i).pairedIndex), state := .authOk })
  | remove {i : Slot} {r : Nat} {l : PairedBlob} {nvs : Option StoredList}
      (hi : localSessionFind c.pool sock = some i)
      (hm : markOf P env enc c sock line = none) (hr : r < c.list.count)
      (hby : MayRemove c i r)
      (hrem : pairedListRemove (env.listFate 0) c.list c.nvsList r = (true, l, nvs)) :
      Action c (c.removed l nvs r)
  | removeFail {i : Slot} {r : Nat} {l : PairedBlob} {nvs : Option StoredList}
      (hi : localSessionFind c.pool sock = some i)
      (hm : markOf P env enc c sock line = none) (hr : r < c.list.count)
      (hrem : pairedListRemove (env.listFate 0) c.list c.nvsList r = (false, l, nvs)) :
      Action c (c.setList l nvs)
  | pwset {i : Slot} {password : Bytes} {pw : DevicePassword} {c₁ : Core} {ok : Bool}
      {l : PairedBlob} {nvs : Option StoredList}
      (hi : localSessionFind c.pool sock = some i)
      (hm : markOf P env enc c sock line = some (.setsPassword i))
      (ho : (c.pool i).ownerRights = true)
      (hset : devicePasswordSet P env.pairFate env.setRand c.pw password = (true, pw))
      (hrun : RevokeRun env (c.setPw pw) c₁)
      (hend : (∀ k, env.listFate k = .ok) →
        ∀ r < c₁.list.count, (c₁.list.entries r).role = .owner)
      (hrot : pairedListRotateOwnerKey env.rotateFate c₁.list c₁.nvsList
        (.fit pairedKeyLen env.ownerKey) = (ok, l, nvs)) :
      Action c (c₁.setList l nvs)
  | pwsetFail {password : Bytes} {pw : DevicePassword}
      (hm : markOf P env enc c sock line = none)
      (hset : devicePasswordSet P env.pairFate env.setRand c.pw password = (false, pw)) :
      Action c (c.setPw pw)
  | pwclear (hm : markOf P env enc c sock line = none) :
      Action c (c.setPw (devicePasswordClear env.pairFate c.pw).2)
  | reset {i : Slot} (hi : localSessionFind c.pool sock = some i)
      (hm : markOf P env enc c sock line = some .resets)
      (ho : (c.pool i).ownerRights = true) :
      Action c
        { c with
          list := {}, nvsList := (pairedListClear (env.listFate 0) c.nvsList).2.2
          pw := (devicePasswordClear env.pairFate c.pw).2
          pool := localSessionDropAllAuth c.pool }

end Actions

/-! ## Events -/

def dispatched (P : Platform) (w : World) (sock : Nat) (bytes : Bytes) : Option Bytes :=
  (encFrameUnwrap P w sock bytes).1

def Core.boot (env : Env) (c : Core) : Core :=
  { list := (pairedListInit (env.listFate 0) c.nvsList).1
    nvsList := (pairedListInit (env.listFate 0) c.nvsList).2
    pw := passwordNvsLoad 0 c.pw.nvs }

def Core.factoryReset (env : Env) (c : Core) : Core :=
  { c with
    list := {}, nvsList := (pairedListClear (env.listFate 1) c.nvsList).2.2
    pw := (devicePasswordClear env.pairFate c.pw).2 }

inductive Move (P : Platform) (w : World) : Event → Core → Prop
  | line {sock : Nat} {bytes line : Bytes} {env : Env} {c : Core}
      (hl : dispatched P w sock bytes = some line)
      (ha : Action P env (isEncLine bytes) sock line w.core c) : Move P w (.line sock bytes env) c
  | refused {sock : Nat} {bytes : Bytes} {env : Env}
      (hl : dispatched P w sock bytes = none) : Move P w (.line sock bytes env) w.core
  | opened {sock : Nat} {peerIp : UInt32} {taskOk : Bool} {i : Slot}
      (hi : (w.core.pool i).sock = none) (hnew : localSessionFind w.core.pool sock = none) :
      Move P w (.accept sock peerIp taskOk)
        (w.core.setSession i { (w.core.pool i).wipe with sock := some sock, peerIp := peerIp })
  | undone {sock : Nat} {peerIp : UInt32} {taskOk : Bool} {i : Slot}
      (hi : (w.core.pool i).sock = none) :
      Move P w (.accept sock peerIp taskOk) (w.core.setSession i (w.core.pool i).wipe)
  | turnedAway {sock : Nat} {peerIp : UInt32} {taskOk : Bool} :
      Move P w (.accept sock peerIp taskOk) w.core
  | closed {sock : Nat} {i : Slot} (hi : localSessionFind w.core.pool sock = some i) :
      Move P w (.close sock) (w.core.setSession i (w.core.pool i).wipe)
  | notOpen {sock : Nat} (hi : localSessionFind w.core.pool sock = none) :
      Move P w (.close sock) w.core
  | queue {reply : AppReply} : Move P w (.queue reply) w.core
  | send : Move P w .send w.core
  | tick {us : Nat} : Move P w (.tick us) { w.core with clock := w.core.clock + us }
  | pairingTimeout : Move P w .pairingTimeout w.core
  | reboot {env : Env} : Move P w (.reboot false env) (w.core.boot env)
  | factory {env : Env} :
      Move P w (.reboot true env) (((w.core.boot env).factoryReset env).boot env)

def stepMark (P : Platform) (s : Trace.Step World Event) : Option Mark :=
  match s.event with
  | .line sock bytes env =>
    (dispatched P s.before sock bytes).bind fun line =>
      markOf P env (isEncLine bytes) s.before.core sock line
  | .reboot true _ => some .resets
  | _ => none

end CyThing
