import CyThing.PasswordStorage
import CyThing.Aws.Provisioning
import CyThing.Lib.Publish
import CyThing.Sample

/-! The TXT record of the mDNS service (`mdns/mdns_discovery`) against the paired list and the
password it shows. Every change of these is made under the lock of its module and then calls
`mdns_discovery_refresh`, which reads the two modules again, outside their locks. -/

namespace CyThing
open CLib Trace Publish

/-! ## The record -/

inductive TxtKey
  | id | ch | v | type | paired | pw | prov
  deriving DecidableEq

structure MdnsConfig where
  channelTag : Bytes
  firmwareVersion : Bytes
  deviceType : Bytes

abbrev mdnsTagMax : Nat := 16

structure Discoverable where
  list : PairedBlob := {}
  nvsList : Option StoredList := none
  pw : DevicePassword := {}
  prov : Provisioning := {}

def txtFlag (b : Bool) : Bytes := if b then ascii "1" else ascii "0"

def buildTxt (cfg : MdnsConfig) (d : Discoverable) : TxtKey → Bytes
  | .id => if d.prov.active then snprintf provDeviceIdMax d.prov.deviceId else []
  | .ch => snprintf (mdnsTagMax + 1) cfg.channelTag
  | .v => cfg.firmwareVersion
  | .type => cfg.deviceType
  | .paired => txtFlag (decide (0 < d.list.count))
  | .pw => txtFlag (devicePasswordIsSet d.pw)
  | .prov => txtFlag d.prov.active

/-! ## The changes -/

inductive DiscoveryOp
  | listAdd (fate : NvsFate) (userSub userEmail : Bytes) (key : Block pairedKeyLen)
      (pairedAt : Nat)
  | listRemove (fate : NvsFate) (index : Nat)
  | listRotate (fate : NvsFate) (freshKey : Block pairedKeyLen)
  | listClear (fate : NvsFate)
  | passwordSet (fate : PairFate) (rand password : Bytes)
  | passwordClear (fate : PairFate)
  | provision (prov : Provisioning)

/-- The locked part of an operation, and whether it goes on to `mdns_discovery_refresh`. -/
def discoveryMutate (P : Platform) (d : Discoverable) : DiscoveryOp → Discoverable × Bool
  | .listAdd fate userSub userEmail key pairedAt =>
    let r := pairedListAdd fate d.list d.nvsList userSub userEmail key pairedAt
    ({ d with list := r.list, nvsList := r.nvs }, r.enrolled.isSome)
  | .listRemove fate index =>
    let r := pairedListRemove fate d.list d.nvsList index
    ({ d with list := r.2.1, nvsList := r.2.2 }, decide (index < d.list.count))
  | .listRotate fate freshKey =>
    let r := pairedListRotateOwnerKey fate d.list d.nvsList freshKey
    ({ d with list := r.2.1, nvsList := r.2.2 }, false)
  | .listClear fate =>
    let r := pairedListClear fate d.nvsList
    ({ d with list := r.2.1, nvsList := r.2.2 }, true)
  | .passwordSet fate rand password =>
    let r := devicePasswordSet P fate rand d.pw password
    ({ d with pw := r.2 }, r.1)
  | .passwordClear fate => ({ d with pw := (devicePasswordClear fate d.pw).2 }, true)
  | .provision prov => ({ d with prov := prov }, false)

def mdnsSource (P : Platform) (cfg : MdnsConfig) :
    Source Discoverable DiscoveryOp TxtKey Bytes where
  items := [.id, .ch, .v, .type, .paired, .pw, .prov]
  view := buildTxt cfg
  mutate := discoveryMutate P

/-! ## Changes without a refresh -/

theorem pairedListAdd_count {fate : NvsFate} {l : PairedBlob} {nvs : Option StoredList}
    {userSub userEmail : Bytes} {key : Block pairedKeyLen} {pairedAt : Nat}
    (h : (pairedListAdd fate l nvs userSub userEmail key pairedAt).enrolled = none) :
    (pairedListAdd fate l nvs userSub userEmail key pairedAt).list.count = l.count := by
  revert h
  simp only [pairedListAdd]
  generalize (if (l.ownerSub == []) = true then copyField (pairedSubMax + 1) userSub
    else l.ownerSub) = owner
  split
  · exact fun _ => rfl
  · split
    · -- a known account: no branch touches the count
      exact fun _ => by split <;> rfl
    · split
      · exact fun _ => rfl
      · split
        · exact fun h => absurd h (Option.some_ne_none _)
        · exact fun _ => rfl

theorem discoveryMutate_quiet {P : Platform} {d : Discoverable} {op : DiscoveryOp}
    (h : (discoveryMutate P d op).2 = false) :
    (discoveryMutate P d op).1.list.count = d.list.count ∧
      (discoveryMutate P d op).1.pw.pair = d.pw.pair := by
  cases op with
  | listAdd fate userSub userEmail key pairedAt =>
    exact ⟨pairedListAdd_count (Option.not_isSome_iff_eq_none.mp (Bool.eq_false_iff.mp h)), rfl⟩
  | listRemove fate index =>
    have hout : d.list.count ≤ index := Nat.not_lt.mp (of_decide_eq_false h)
    refine ⟨?_, rfl⟩
    change (pairedListRemove fate d.list d.nvsList index).2.1.count = d.list.count
    rw [pairedListRemove, if_pos hout]
  | listRotate fate freshKey =>
    refine ⟨?_, rfl⟩
    change (pairedListRotateOwnerKey fate d.list d.nvsList freshKey).2.1.count = d.list.count
    rcases hr : pairedListRotateOwnerKey fate d.list d.nvsList freshKey with ⟨ok, l', nvs'⟩
    rcases pairedListRotateOwnerKey_cases hr with ⟨rfl, -⟩ | ⟨r, -, -, rfl, -⟩
    · rfl
    · rfl
  | listClear fate => cases h
  | passwordSet fate rand password =>
    refine ⟨rfl, ?_⟩
    change (devicePasswordSet P fate rand d.pw password).2.pair = d.pw.pair
    obtain ⟨nvs, hsame⟩ := devicePasswordSet_failed h
    rw [hsame]
  | passwordClear fate => cases h
  | provision prov => exact ⟨rfl, rfl⟩

/-- Whatever tasks do to the list, to the password and to the responder, in any order: when
the responder is started and no task is at work, the record says whether the device is paired
and whether it has a password. -/
theorem txt_record_current {τ : Type*} [DecidableEq τ] (P : Platform) (cfg : MdnsConfig)
    (d : Discoverable) (es : List (Publish.Event τ DiscoveryOp)) :
    let b := run (Publish.step (mdnsSource P cfg)) { state := d } es
    b.started = true → (∀ t, (b.point t).isIdle = true) →
      b.record .paired = some (txtFlag (decide (0 < b.state.list.count))) ∧
        b.record .pw = some (txtFlag (devicePasswordIsSet b.state.pw)) := by
  intro b hstarted hidle
  have hpaired : Shows (mdnsSource P cfg) .paired b :=
    run_shows (by simp [mdnsSource]) (fun s m h => by
      simp only [mdnsSource, buildTxt, (discoveryMutate_quiet h).1]) d es
  have hpw : Shows (mdnsSource P cfg) .pw b :=
    run_shows (by simp [mdnsSource]) (fun s m h => by
      simp only [mdnsSource, buildTxt, devicePasswordIsSet, (discoveryMutate_quiet h).2]) d es
  exact ⟨hpaired.record_eq hidle hstarted, hpw.record_eq hidle hstarted⟩

def pairedDuringStart : List (Publish.Event Bool DiscoveryOp) :=
  [.start false, .take false] ++ List.replicate 5 (.read false) ++
    [.mutate true (.listAdd .ok (ascii "u1") [] (.fit _ []) 0), .take true] ++
    List.replicate 2 (.read false) ++ [.publish false true, .take true] ++
    List.replicate 7 (.read true) ++ [.publish true true]

theorem txt_record_current_race :
    let b := run (Publish.step (mdnsSource Sample.platform ⟨[], [], []⟩)) { state := {} }
      pairedDuringStart
    b.started = true ∧ (∀ t, (b.point t).isIdle = true) ∧ b.state.list.count = 1 ∧
      b.record .paired = some (txtFlag (decide (0 < b.state.list.count))) ∧
        b.record .pw = some (txtFlag (devicePasswordIsSet b.state.pw)) := by
  have hrun :
      let b := run (Publish.step (mdnsSource Sample.platform ⟨[], [], []⟩)) { state := {} }
        pairedDuringStart
      b.started = true ∧ (∀ t, (b.point t).isIdle = true) ∧ b.state.list.count = 1 := by
    decide +kernel
  obtain ⟨hstarted, hidle, hcount⟩ := hrun
  exact ⟨hstarted, hidle, hcount, txt_record_current Sample.platform ⟨[], [], []⟩ {}
    pairedDuringStart hstarted hidle⟩

end CyThing
