import CyThing.Platform
import CyThing.Lib.SlotTable

/-! The device password: the SRP salt and verifier, and the rate limiting of guesses
(`security/device_password`). Times are microseconds of the boot clock. -/

namespace CyThing
open CLib SlotTable

abbrev devicePwMinLen : Nat := 8
abbrev devicePwMaxLen : Nat := 64
abbrev devicePwVerifierMax : Nat := 384
abbrev devicePwIpMaxFails : Nat := 5
abbrev devicePwGlobalMaxFails : Nat := 20
abbrev devicePwLockBaseS : Nat := 60
abbrev devicePwLockMaxS : Nat := 3600
abbrev ipSlots : Nat := 8

def devicePwSrpIdentity : Bytes := ascii "cy-device"

structure IpSlot where
  ip : UInt32 := 0
  fails : Nat := 0
  untilUs : Nat := 0
  deriving DecidableEq

abbrev IpTable := Fin ipSlots → IpSlot

structure PasswordNvs where
  salt : Option Bytes := none
  ver : Option Bytes := none
  fails : Option Nat := none
  lock : Option Nat := none
  deriving DecidableEq

/-- The RAM side of the module and its flash keys. `pair` is the salt with its verifier,
there when both lengths are positive; `initPair` the pair of the initial password. -/
structure DevicePassword where
  pair : Option (Bytes × Bytes) := none
  initPair : Option (Bytes × Bytes) := none
  ip : IpTable := fun _ => {}
  globalFails : Nat := 0
  globalUntilUs : Nat := 0
  nvs : PasswordNvs := {}

structure PairFate where
  openOk : Bool := true
  saltOk : Bool := true
  verOk : Bool := true
  failsOk : Bool := true
  lockOk : Bool := true
  commitOk : Bool := true
  deriving DecidableEq

structure LockoutFate where
  openOk : Bool := true
  failsOk : Bool := true
  lockOk : Bool := true
  deriving DecidableEq

/-! ## Lock lengths -/

def lockDoubling : Nat → Nat → Nat
  | 0, s => s
  | n + 1, s => if s < devicePwLockMaxS then lockDoubling n (s * 2) else s

def lockSeconds (fails threshold : Nat) : Nat :=
  if fails < threshold then 0
  else min (lockDoubling (fails - threshold) devicePwLockBaseS) devicePwLockMaxS

def remainingS (untilUs now : Nat) : Nat := (untilUs - now + 999999) / 1000000

/-! ## Flash -/

def passwordNvsLoad (now : Nat) (nvs : PasswordNvs) : DevicePassword :=
  { pair := match nvs.salt, nvs.ver with
      | some salt, some ver => some (salt, ver)
      | _, _ => none
    globalFails := nvs.fails.getD 0
    globalUntilUs := if 0 < nvs.lock.getD 0 then now + nvs.lock.getD 0 * 1000000 else 0
    nvs := nvs }

def nvsStorePairTail (fate : PairFate) (nvs : PasswordNvs) : Bool × PasswordNvs :=
  if !fate.failsOk then (false, nvs)
  else
    let nvs := { nvs with fails := some 0 }
    if !fate.lockOk then (false, nvs)
    else (fate.commitOk, { nvs with lock := some 0 })

/-- `nvs_store_pair`; without a pair the keys are erased and the erase results ignored. -/
def nvsStorePair (fate : PairFate) (pair : Option (Bytes × Bytes)) (nvs : PasswordNvs) :
    Bool × PasswordNvs :=
  if !fate.openOk then (false, nvs)
  else match pair with
    | none =>
      nvsStorePairTail fate
        { nvs with
          salt := if fate.saltOk then none else nvs.salt
          ver := if fate.verOk then none else nvs.ver }
    | some (salt, ver) =>
      if !fate.saltOk then (false, nvs)
      else
        let nvs := { nvs with salt := some salt }
        if !fate.verOk then (false, nvs)
        else nvsStorePairTail fate { nvs with ver := some ver }

def DevicePassword.nvsStoreLockout (fate : LockoutFate) (now : Nat) (d : DevicePassword) :
    DevicePassword :=
  if !fate.openOk then d
  else
    { d with
      nvs := { d.nvs with
        fails := if fate.failsOk then some d.globalFails else d.nvs.fails
        lock := if fate.lockOk then some (remainingS d.globalUntilUs now) else d.nvs.lock } }

/-! ## The public operations -/

def devicePasswordIsSet (d : DevicePassword) : Bool := d.pair.isSome

def devicePasswordSet (P : Platform) (fate : PairFate) (rand : Bytes) (d : DevicePassword)
    (password : Bytes) : Bool × DevicePassword :=
  if password.length < devicePwMinLen ∨ devicePwMaxLen < password.length then (false, d)
  else match P.srpGenSaltVerifier devicePwSrpIdentity password rand with
    | none => (false, d)
    | some (salt, ver) =>
      if ver.length = 0 ∨ devicePwVerifierMax < ver.length then (false, d)
      else
        let (ok, nvs) := nvsStorePair fate (some (salt, ver)) d.nvs
        if ok then
          (true, { d with
            pair := some (salt, ver), globalFails := 0, globalUntilUs := 0,
            ip := fun _ => {}, nvs := nvs })
        else (false, { d with nvs := nvs })

/-- `device_password_clear` clears RAM whatever the flash said. -/
def devicePasswordClear (fate : PairFate) (d : DevicePassword) : Bool × DevicePassword :=
  let (ok, nvs) := nvsStorePair fate none d.nvs
  (ok, { d with
    pair := none, globalFails := 0, globalUntilUs := 0, ip := fun _ => {}, nvs := nvs })

def deriveInitialLocked (P : Platform) (rand : Bytes) (d : DevicePassword) : DevicePassword :=
  match d.initPair with
  | some _ => d
  | none =>
    match P.srpGenSaltVerifier devicePwSrpIdentity P.initialPassword rand with
    | some (salt, ver) =>
      if 0 < ver.length ∧ ver.length ≤ devicePwVerifierMax then
        { d with initPair := some (salt, ver) }
      else d
    | none => d

/-- `device_password_get`: the pair PAKE runs against, and the state with the initial pair
derived when there was need of it. -/
def devicePasswordGet (P : Platform) (rand : Bytes) (d : DevicePassword) :
    Option (Bytes × Bytes) × DevicePassword :=
  if devicePasswordIsSet d then (d.pair, d)
  else
    let d' := deriveInitialLocked P rand d
    (d'.initPair, d')

/-! ## Rate limiting -/

/-- The loop of `ip_slot` over the slots left, with the victim so far: the slot and whether
it already belongs to `ip`. The search ends at the first empty slot. -/
def ipSearch (t : IpTable) (ip : UInt32) : List (Fin ipSlots) → Fin ipSlots → Bool × Fin ipSlots
  | [], victim => (false, victim)
  | i :: rest, victim =>
    if (t i).ip = ip then (true, i)
    else if (t i).ip = 0 then (false, i)
    else ipSearch t ip rest (if (t i).untilUs < (t victim).untilUs then i else victim)

def ipSlot (t : IpTable) (ip : UInt32) : Fin ipSlots × IpTable :=
  match ipSearch t ip (List.finRange ipSlots) 0 with
  | (true, i) => (i, t)
  | (false, victim) => (victim, Function.update t victim { ip := ip })

def devicePasswordLockRemainingS (now : Nat) (d : DevicePassword) (peerIp : UInt32) : Nat :=
  if !devicePasswordIsSet d then 0
  else
    let g := remainingS d.globalUntilUs now
    let p := match findSlot d.ip fun s => s.ip == peerIp with
      | some i => remainingS (d.ip i).untilUs now
      | none => 0
    max g p

def bumpFails (fails : Nat) : Nat := if fails < 255 then fails + 1 else fails

def lockAfterFailure (threshold now fails untilUs : Nat) : Nat :=
  let ls := lockSeconds fails threshold
  if ls ≠ 0 then now + ls * 1000000 else untilUs

def devicePasswordNoteFailure (fate : LockoutFate) (now : Nat) (d : DevicePassword)
    (peerIp : UInt32) : DevicePassword :=
  if !devicePasswordIsSet d then d
  else
    let (i, t) := ipSlot d.ip peerIp
    let fails := bumpFails (t i).fails
    let slot : IpSlot :=
      { t i with
        fails := fails
        untilUs := lockAfterFailure devicePwIpMaxFails now fails (t i).untilUs }
    let gfails := bumpFails d.globalFails
    let d := { d with
      ip := Function.update t i slot
      globalFails := gfails
      globalUntilUs := lockAfterFailure devicePwGlobalMaxFails now gfails d.globalUntilUs }
    d.nvsStoreLockout fate now

def devicePasswordNoteSuccess (fate : LockoutFate) (now : Nat) (d : DevicePassword)
    (peerIp : UInt32) : DevicePassword :=
  let ip := match findSlot d.ip fun s => s.ip == peerIp with
    | some i => Function.update d.ip i {}
    | none => d.ip
  let dirty := d.globalFails != 0 || d.globalUntilUs != 0
  let d := { d with ip := ip, globalFails := 0, globalUntilUs := 0 }
  if dirty then d.nvsStoreLockout fate now else d

end CyThing
