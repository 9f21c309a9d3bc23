import CyThing.Lib.Bytes
import CyThing.Lib.Trace
import Mathlib.Tactic.Common

/-! The scan beacon of a device in station mode (`ble/ble_beacon`, `ble/discovery_mode`). Three
tasks drive it: the host task with the callbacks of NimBLE, the event loop with those of the
station, and the tasks of clients that store a discovery mode and then apply it. The variables of
the beacon are changed under its lock only. The set that is on the air, the state of the host and
the stored mode change on their own while another task has the lock. -/

namespace CyThing.BleBeacon
open CLib Trace

/-! ## The variables -/

inductive DiscoveryMode
  | wifi
  | ble
  | both
  deriving DecidableEq

def DiscoveryMode.shouldAdvertiseBle : DiscoveryMode → Bool
  | .wifi => false
  | .ble => true
  | .both => true

abbrev Ip4 := Block 4

def mfgData (ip : Ip4) : Bytes := [0xff, 0xff, 1] ++ ip.1

inductive Task
  | host
  | station
  | command
  deriving DecidableEq

inductive Callback
  | sync
  | reset
  | complete
  deriving DecidableEq

inductive Point
  /-- at the head of `start_advertising_locked` -/
  | entered
  /-- before a stop after which it leaves -/
  | stopping
  /-- before the stop of a restart -/
  | restarting
  /-- before `ble_gap_adv_set_fields` and `ble_gap_adv_start` -/
  | starting
  deriving DecidableEq

structure Beacon where
  hostReady : Bool := false
  haveIp : Bool := false
  advertising : Bool := false
  ip : Ip4 := .zero 4
  mode : DiscoveryMode := .both
  holder : Option (Task × Point) := none
  /-- The set on the air, with its manufacturer data. -/
  radio : Option Bytes := none
  /-- Whether the host is in sync with its controller. -/
  synced : Bool := false
  /-- The address the station holds. -/
  held : Option Ip4 := none
  /-- The callback the host task is about to make. -/
  hostDue : Option Callback := none
  /-- The call the event loop is about to make: `ble_beacon_on_ip` or, with no address,
  `ble_beacon_on_ip_lost`. -/
  stationDue : Option (Option Ip4) := none
  /-- How many commands have stored a mode and not yet got the lock to apply it. -/
  appliesDue : Nat := 0
  /-- Whether a call of NimBLE has failed. -/
  failed : Bool := false
  deriving DecidableEq

/-! ## The code under the lock -/

/-- `stop_advertising_locked`. When the set has ended already, `ble_gap_adv_stop` answers
`BLE_HS_EALREADY`, which the code takes for a success. -/
def stopAdvertisingLocked (s : Beacon) : Beacon :=
  if s.advertising then { s with radio := none, advertising := false } else s

/-- The end of `start_advertising_locked`. NimBLE starts no set without its controller, and none
while one is on the air. -/
def gapAdvStart (s : Beacon) : Beacon :=
  if s.synced ∧ s.radio = none then { s with radio := some (mfgData s.ip), advertising := true }
  else { s with failed := true }

def Beacon.give (s : Beacon) : Beacon := { s with holder := none }

def goOn (s : Beacon) (t : Task) : Point → Beacon
  | .entered =>
    if !s.hostReady || !s.haveIp then s.give
    else if s.mode.shouldAdvertiseBle then { s with holder := some (t, .restarting) }
    else { s with holder := some (t, .stopping) }
  | .stopping => (stopAdvertisingLocked s).give
  | .restarting => { stopAdvertisingLocked s with holder := some (t, .starting) }
  | .starting => (gapAdvStart s).give

def takeLock (s : Beacon) : Task → Beacon
  | .host =>
    match s.hostDue with
    | some .sync =>
      { s with hostDue := none, hostReady := true, holder := some (.host, .entered) }
    | some .reset => { s with hostDue := none, hostReady := false, advertising := false }
    | some .complete =>
      { s with hostDue := none, advertising := false, holder := some (.host, .entered) }
    | none => s
  | .station =>
    match s.stationDue with
    | some (some ip) =>
      { s with stationDue := none, ip := ip, haveIp := true, holder := some (.station, .entered) }
    | some none =>
      { s with stationDue := none, haveIp := false, holder := some (.station, .stopping) }
    | none => s
  | .command =>
    if 0 < s.appliesDue then
      { s with appliesDue := s.appliesDue - 1, holder := some (.command, .entered) }
    else s

/-! ## The system -/

inductive Event
  /-- The host comes into sync, or is reset, or finds that the set has ended; its callback is
  then due. -/
  | hostSyncs
  | hostResets
  | setEnds
  | gotIp (ip : Ip4)
  | lostIp
  /-- `discovery_mode_set`, which leaves the mode as it is when a store fails. -/
  | setMode (mode : DiscoveryMode) (storeOk : Bool)
  | take (t : Task)
  | go

def Beacon.hostIdle (s : Beacon) : Bool :=
  s.hostDue.isNone && s.holder.all fun h => h.1 != .host

def Beacon.stationIdle (s : Beacon) : Bool :=
  s.stationDue.isNone && s.holder.all fun h => h.1 != .station

def step (s : Beacon) : Event → Beacon
  | .hostSyncs => if s.hostIdle then { s with synced := true, hostDue := some .sync } else s
  | .hostResets =>
    if s.hostIdle then { s with synced := false, radio := none, hostDue := some .reset } else s
  | .setEnds =>
    if s.hostIdle && s.radio.isSome then { s with radio := none, hostDue := some .complete }
    else s
  | .gotIp ip =>
    if s.stationIdle then { s with held := some ip, stationDue := some (some ip) } else s
  | .lostIp => if s.stationIdle then { s with held := none, stationDue := some none } else s
  | .setMode mode storeOk =>
    if storeOk then { s with mode := mode, appliesDue := s.appliesDue + 1 } else s
  | .take t => if s.holder.isNone then takeLock s t else s
  | .go =>
    match s.holder with
    | some (t, p) => goOn s t p
    | none => s

def Beacon.Quiet (s : Beacon) : Prop :=
  s.holder = none ∧ s.hostDue = none ∧ s.stationDue = none ∧ s.appliesDue = 0

def Beacon.Reflects (s : Beacon) : Prop :=
  s.radio = (if s.synced ∧ s.mode.shouldAdvertiseBle then s.held.map mfgData else none) ∧
    s.advertising = s.radio.isSome

instance (s : Beacon) : Decidable s.Quiet := inferInstanceAs (Decidable (_ ∧ _))

instance (s : Beacon) : Decidable s.Reflects := inferInstanceAs (Decidable (_ ∧ _))

def CompletesOff (s : Step Beacon Event) : Prop :=
  match s.event with
  | .take .host =>
    s.before.holder = none → s.before.hostDue = some .complete → s.before.radio = none
  | _ => True

instance : DecidablePred CompletesOff := fun s =>
  match s with
  | ⟨b, .take .host, _⟩ =>
    inferInstanceAs (Decidable (b.holder = none → b.hostDue = some .complete → b.radio = none))
  | ⟨_, .take .station, _⟩ | ⟨_, .take .command, _⟩ => .isTrue trivial
  | ⟨_, .hostSyncs, _⟩ | ⟨_, .hostResets, _⟩ | ⟨_, .setEnds, _⟩ => .isTrue trivial
  | ⟨_, .gotIp _, _⟩ | ⟨_, .lostIp, _⟩ | ⟨_, .setMode _ _, _⟩ | ⟨_, .go, _⟩ => .isTrue trivial

/-! ## What every run keeps -/

def Beacon.wanted (s : Beacon) : Option Bytes :=
  if s.hostReady ∧ s.haveIp ∧ s.mode.shouldAdvertiseBle then some (mfgData s.ip) else none

/-- What the holder of the lock relies on. A mode it has read may have changed since, but then a
command is waiting to apply the new one. -/
def PointOk (s : Beacon) : Point → Prop
  | .entered => s.haveIp = false → s.radio = none
  | .stopping => s.haveIp = false ∨ s.mode.shouldAdvertiseBle = false ∨ 0 < s.appliesDue
  | .restarting =>
    s.hostReady = true ∧ s.haveIp = true ∧ (s.mode.shouldAdvertiseBle = true ∨ 0 < s.appliesDue)
  | .starting =>
    s.hostReady = true ∧ s.haveIp = true ∧
      (s.mode.shouldAdvertiseBle = true ∨ 0 < s.appliesDue) ∧ s.radio = none

structure Settled (s : Beacon) : Prop where
  data : s.radio = none ∨ s.radio = some (mfgData s.ip)
  no_ip : s.haveIp = false → s.radio = none
  shown : s.appliesDue = 0 → s.hostDue ≠ some .reset → s.hostDue ≠ some .complete →
    s.radio = s.wanted

@[grind cases]
structure Tracks (s : Beacon) : Prop where
  flag_of_radio : s.radio ≠ none → s.advertising = true
  radio_of_flag : s.advertising = true →
    s.radio ≠ none ∨ s.hostDue = some .reset ∨ s.hostDue = some .complete
  radio_synced : s.radio ≠ none → s.synced = true
  radio_ready : s.radio ≠ none → s.hostReady = true
  ready : s.hostReady = true → s.synced = true ∨ s.hostDue = some .reset
  synced_ready : s.synced = true → s.hostReady = true ∨ s.hostDue = some .sync
  sync_due : s.hostDue = some .sync → s.synced = true
  reset_due : s.hostDue = some .reset → s.synced = false
  held_eq : s.stationDue = none → s.held = if s.haveIp then some s.ip else none
  held_due : ∀ x, s.stationDue = some x → s.held = x

structure Inv (s : Beacon) : Prop where
  tracks : Tracks s
  point : ∀ t p, s.holder = some (t, p) → PointOk s p
  settled : s.holder = none → Settled s

section Steps

variable {s s' : Beacon} {p : Point}

theorem inv_start (mode : DiscoveryMode) : Inv { mode := mode } where
  tracks := by constructor <;> simp
  point t p h := by cases h
  settled _ := ⟨Or.inl rfl, fun _ => rfl, fun _ _ _ => rfl⟩

theorem Inv.ite {c : Prop} [Decidable c] (h : Inv s) (h' : c → Inv s') :
    Inv (if c then s' else s) := by
  split
  · next hc => exact h' hc
  · exact h

theorem PointOk.of_radio (h : PointOk s p) (hready : s'.hostReady = s.hostReady)
    (hip : s'.haveIp = s.haveIp) (hmode : s'.mode = s.mode) (hdue : s'.appliesDue = s.appliesDue)
    (hradio : s'.radio = none ∨ s'.radio = s.radio) : PointOk s' p := by
  cases p with
  | entered =>
    intro hno
    rw [hip] at hno
    rcases hradio with hoff | hsame
    · exact hoff
    · rw [hsame]
      exact h hno
  | stopping =>
    unfold PointOk
    rw [hip, hmode, hdue]
    exact h
  | restarting =>
    unfold PointOk
    rw [hready, hip, hmode, hdue]
    exact h
  | starting =>
    obtain ⟨h1, h2, h3, hoff⟩ := h
    unfold PointOk
    rw [hready, hip, hmode, hdue]
    refine ⟨h1, h2, h3, ?_⟩
    rcases hradio with hnone | hsame
    · exact hnone
    · rw [hsame, hoff]

theorem not_due {c : Callback} (h : s.hostDue = none) : s.hostDue ≠ some c := by
  rw [h]
  exact (Option.some_ne_none c).symm

theorem hostIdle_due (h : s.hostIdle = true) : s.hostDue = none := by
  simp only [Beacon.hostIdle, Bool.and_eq_true, Option.isNone_iff_eq_none] at h
  exact h.1

/-! ### Outside the lock -/

theorem Inv.hostSyncs (h : Inv s) (hidle : s.hostIdle = true) :
    Inv { s with synced := true, hostDue := some .sync } := by
  have hdue := hostIdle_due hidle
  refine ⟨?_, fun t p hp => ?_, fun hfree => ?_⟩
  · have htracks := h.tracks
    constructor <;> grind
  · exact (h.point t p hp).of_radio rfl rfl rfl rfl (Or.inr rfl)
  · have hs := h.settled hfree
    exact ⟨hs.data, hs.no_ip, fun happlies _ _ => hs.shown happlies (not_due hdue) (not_due hdue)⟩

theorem Inv.hostResets (h : Inv s) (hidle : s.hostIdle = true) :
    Inv { s with synced := false, radio := none, hostDue := some .reset } := by
  have hdue := hostIdle_due hidle
  refine ⟨?_, fun t p hp => ?_, fun hfree => ?_⟩
  · have htracks := h.tracks
    constructor <;> grind
  · exact (h.point t p hp).of_radio rfl rfl rfl rfl (Or.inl rfl)
  · exact ⟨Or.inl rfl, fun _ => rfl, fun _ hreset _ => absurd rfl hreset⟩

theorem Inv.setEnds (h : Inv s) (hidle : s.hostIdle = true) :
    Inv { s with radio := none, hostDue := some .complete } := by
  have hdue := hostIdle_due hidle
  refine ⟨?_, fun t p hp => ?_, fun hfree => ?_⟩
  · have htracks := h.tracks
    constructor <;> grind
  · exact (h.point t p hp).of_radio rfl rfl rfl rfl (Or.inl rfl)
  · exact ⟨Or.inl rfl, fun _ => rfl, fun _ _ hcomplete => absurd rfl hcomplete⟩

theorem Inv.stationCalls (h : Inv s) (held : Option Ip4) :
    Inv { s with held := held, stationDue := some held } where
  tracks := { h.tracks with
    held_eq := fun hnone => by cases hnone
    held_due := fun x hx => Option.some.inj hx }
  point t p hp := (h.point t p hp).of_radio rfl rfl rfl rfl (Or.inr rfl)
  settled hfree := { h.settled hfree with }

theorem Inv.setMode (h : Inv s) (mode : DiscoveryMode) :
    Inv { s with mode := mode, appliesDue := s.appliesDue + 1 } where
  tracks := { h.tracks with }
  point t p hp := by
    have hdue : 0 < s.appliesDue + 1 := Nat.succ_pos _
    have hok := h.point t p hp
    cases p with
    | entered => exact hok
    | stopping => exact Or.inr (Or.inr hdue)
    | restarting => exact ⟨hok.1, hok.2.1, Or.inr hdue⟩
    | starting => exact ⟨hok.1, hok.2.1, Or.inr hdue, hok.2.2.2⟩
  settled hfree :=
    { data := (h.settled hfree).data
      no_ip := (h.settled hfree).no_ip
      shown := fun hzero => absurd hzero (Nat.succ_ne_zero _) }

/-! ### Taking the lock -/

theorem Inv.takeSync (h : Inv s) (hfree : s.holder = none) (hdue : s.hostDue = some .sync) :
    Inv { s with hostDue := none, hostReady := true, holder := some (.host, .entered) } := by
  refine ⟨?_, fun t p hp => ?_, fun hheld => by cases hheld⟩
  · have htracks := h.tracks
    constructor <;> grind
  · cases hp
    exact (h.settled hfree).no_ip

theorem Inv.takeReset (h : Inv s) (hfree : s.holder = none) (hdue : s.hostDue = some .reset) :
    Inv { s with hostDue := none, hostReady := false, advertising := false } := by
  have hoff : s.radio = none := by
    by_contra hon
    have := h.tracks.radio_synced hon
    rw [h.tracks.reset_due hdue] at this
    cases this
  refine ⟨?_, fun t p hp => ?_, fun _ => ⟨Or.inl hoff, fun _ => hoff, fun _ _ _ => ?_⟩⟩
  · have htracks := h.tracks
    constructor <;> grind
  · rw [show s.holder = some (t, p) from hp] at hfree
    cases hfree
  · rw [hoff]
    exact (if_neg fun hw => Bool.false_ne_true hw.1).symm

theorem Inv.takeComplete (h : Inv s) (hfree : s.holder = none)
    (hdue : s.hostDue = some .complete) (hoff : s.radio = none) :
    Inv { s with hostDue := none, advertising := false, holder := some (.host, .entered) } := by
  -- `gap_event` clears the flag whatever is on the air
  refine ⟨?_, fun t p hp => ?_, fun hheld => by cases hheld⟩
  · have htracks := h.tracks
    constructor <;> grind
  · cases hp
    exact (h.settled hfree).no_ip

theorem Inv.takeOnIp (h : Inv s) {ip : Ip4} (hdue : s.stationDue = some (some ip)) :
    Inv { s with stationDue := none, ip := ip, haveIp := true,
                 holder := some (.station, .entered) } := by
  have hheld := h.tracks.held_due _ hdue
  refine ⟨{ h.tracks with
    held_eq := fun _ => hheld
    held_due := fun x hx => by cases hx }, fun t p hp => ?_, fun hlock => by cases hlock⟩
  cases hp
  exact fun hno => absurd hno.symm Bool.false_ne_true

theorem Inv.takeOnIpLost (h : Inv s) (hdue : s.stationDue = some none) :
    Inv { s with stationDue := none, haveIp := false, holder := some (.station, .stopping) } := by
  have hheld := h.tracks.held_due _ hdue
  refine ⟨{ h.tracks with
    held_eq := fun _ => hheld
    held_due := fun x hx => by cases hx }, fun t p hp => ?_, fun hlock => by cases hlock⟩
  cases hp
  exact Or.inl rfl

theorem Inv.takeApply (h : Inv s) (hfree : s.holder = none) :
    Inv { s with appliesDue := s.appliesDue - 1, holder := some (.command, .entered) } := by
  refine ⟨{ h.tracks with }, fun t p hp => ?_, fun hlock => by cases hlock⟩
  cases hp
  exact (h.settled hfree).no_ip

theorem Inv.takeLock (h : Inv s) (hfree : s.holder = none) (t : Task)
    (hok : t = .host → s.hostDue = some .complete → s.radio = none) :
    Inv (BleBeacon.takeLock s t) := by
  cases t with
  | host =>
    unfold BleBeacon.takeLock
    cases hdue : s.hostDue with
    | none => exact h
    | some c =>
      cases c with
      | sync => exact h.takeSync hfree hdue
      | reset => exact h.takeReset hfree hdue
      | complete => exact h.takeComplete hfree hdue (hok rfl hdue)
  | station =>
    unfold BleBeacon.takeLock
    cases hdue : s.stationDue with
    | none => exact h
    | some x =>
      cases x with
      | some ip => exact h.takeOnIp hdue
      | none => exact h.takeOnIpLost hdue
  | command => exact h.ite fun _ => h.takeApply hfree

/-! ### Under the lock -/

theorem Tracks.stop_radio (h : Tracks s) : (stopAdvertisingLocked s).radio = none := by
  unfold stopAdvertisingLocked
  split
  · rfl
  · next hflag =>
    by_contra hon
    exact hflag (h.flag_of_radio hon)

theorem Tracks.stop (h : Tracks s) (holder : Option (Task × Point)) :
    Tracks { stopAdvertisingLocked s with holder := holder } := by
  unfold stopAdvertisingLocked
  split
  · constructor <;> grind
  · constructor <;> grind

theorem stop_vars (s : Beacon) :
    (stopAdvertisingLocked s).hostReady = s.hostReady ∧
      (stopAdvertisingLocked s).haveIp = s.haveIp ∧ (stopAdvertisingLocked s).mode = s.mode ∧
      (stopAdvertisingLocked s).appliesDue = s.appliesDue := by
  unfold stopAdvertisingLocked
  split
  · exact ⟨rfl, rfl, rfl, rfl⟩
  · exact ⟨rfl, rfl, rfl, rfl⟩

theorem Inv.goEntered (h : Inv s) {t : Task} (hlock : s.holder = some (t, .entered)) :
    Inv (goOn s t .entered) := by
  have hentered : s.haveIp = false → s.radio = none := h.point t _ hlock
  unfold goOn
  dsimp only
  split
  · next hwait =>
    -- nothing is on the air without the host or an address
    have hoff : s.radio = none := by
      by_contra hon
      have hready := h.tracks.radio_ready hon
      simp only [hready, Bool.not_true, Bool.false_or, Bool.not_eq_true'] at hwait
      exact hon (hentered hwait)
    refine ⟨{ h.tracks with }, fun t p hp => (by cases hp), fun _ => ?_⟩
    refine ⟨Or.inl hoff, fun _ => hoff, fun _ _ _ => ?_⟩
    show s.radio = s.wanted
    rw [hoff, Beacon.wanted, if_neg]
    rintro ⟨hready, hip, -⟩
    rw [hready, hip] at hwait
    cases hwait
  · next hgo =>
    simp only [Bool.or_eq_true, Bool.not_eq_true', not_or, Bool.not_eq_false] at hgo
    split
    · next hble =>
      refine ⟨{ h.tracks with }, fun t p hp => ?_, fun hfree => by cases hfree⟩
      cases hp
      exact ⟨hgo.1, hgo.2, Or.inl hble⟩
    · next hwifi =>
      refine ⟨{ h.tracks with }, fun t p hp => ?_, fun hfree => by cases hfree⟩
      cases hp
      exact Or.inr (Or.inl (Bool.eq_false_of_not_eq_true hwifi))

theorem Inv.goStopping (h : Inv s) {t : Task} (hlock : s.holder = some (t, .stopping)) :
    Inv (goOn s t .stopping) := by
  have hoff := h.tracks.stop_radio
  obtain ⟨hready, hip, hmode, hdue⟩ := stop_vars s
  have hpoint := h.point t _ hlock
  refine ⟨h.tracks.stop none, fun t p hp => (by cases hp), fun _ => ?_⟩
  refine ⟨Or.inl hoff, fun _ => hoff, fun hzero _ _ => hoff.trans ?_⟩
  have hzero' : s.appliesDue = 0 := hdue.symm.trans hzero
  refine (if_neg ?_).symm
  rintro ⟨-, hip', hble⟩
  rcases hpoint with hno | hwifi | hmore
  · rw [← hip] at hno
    rw [show (stopAdvertisingLocked s).haveIp = true from hip'] at hno
    cases hno
  · rw [← hmode] at hwifi
    rw [show (stopAdvertisingLocked s).mode.shouldAdvertiseBle = true from hble] at hwifi
    cases hwifi
  · omega

theorem Inv.goRestarting (h : Inv s) {t : Task} (hlock : s.holder = some (t, .restarting)) :
    Inv (goOn s t .restarting) := by
  obtain ⟨hready, hip, hmode, hdue⟩ := stop_vars s
  obtain ⟨hr, hi, hm⟩ := h.point t _ hlock
  refine ⟨h.tracks.stop _, fun t p hp => ?_, fun hfree => by cases hfree⟩
  cases hp
  refine ⟨hready.trans hr, hip.trans hi, ?_, h.tracks.stop_radio⟩
  show (stopAdvertisingLocked s).mode.shouldAdvertiseBle = true ∨
    0 < (stopAdvertisingLocked s).appliesDue
  rw [hmode, hdue]
  exact hm

theorem Inv.goStarting (h : Inv s) {t : Task} (hlock : s.holder = some (t, .starting)) :
    Inv (goOn s t .starting) := by
  obtain ⟨hready, hip, hmode, hoff⟩ := h.point t _ hlock
  show Inv (gapAdvStart s).give
  unfold gapAdvStart
  by_cases hsynced : s.synced = true
  · rw [if_pos ⟨hsynced, hoff⟩]
    refine ⟨?_, fun t p hp => (by cases hp), fun _ => ?_⟩
    · have htracks := h.tracks
      constructor <;> grind [Beacon.give]
    · refine ⟨Or.inr rfl, fun hno => ?_, fun hzero _ _ => ?_⟩
      · rw [show s.haveIp = false from hno] at hip
        cases hip
      · have hble : s.mode.shouldAdvertiseBle = true := by
          rcases hmode with hble | hmore
          · exact hble
          · rw [show s.appliesDue = 0 from hzero] at hmore
            cases hmore
        exact (if_pos ⟨hready, hip, hble⟩).symm
  · -- the host has been reset meanwhile and will say so
    rw [if_neg fun hboth => hsynced hboth.1]
    have hreset : s.hostDue = some .reset := (h.tracks.ready hready).resolve_left hsynced
    refine ⟨{ h.tracks with }, fun t p hp => (by cases hp), fun _ => ?_⟩
    exact ⟨Or.inl hoff, fun _ => hoff, fun _ hdue _ => absurd hreset hdue⟩

theorem Inv.step (h : Inv s) (e : Event) (hok : CompletesOff ⟨s, e, BleBeacon.step s e⟩) :
    Inv (BleBeacon.step s e) := by
  cases e with
  | hostSyncs => exact h.ite fun hidle => h.hostSyncs hidle
  | hostResets => exact h.ite fun hidle => h.hostResets hidle
  | setEnds => exact h.ite fun hidle => h.setEnds (Bool.and_eq_true_iff.mp hidle).1
  | gotIp ip => exact h.ite fun _ => h.stationCalls (some ip)
  | lostIp => exact h.ite fun _ => h.stationCalls none
  | setMode mode storeOk => exact h.ite fun _ => h.setMode mode
  | take t =>
    refine h.ite fun hfree => ?_
    have hfree' := Option.isNone_iff_eq_none.mp hfree
    refine h.takeLock hfree' t fun ht hdue => ?_
    subst ht
    exact hok hfree' hdue
  | go =>
    unfold BleBeacon.step
    dsimp only
    cases hlock : s.holder with
    | none => exact h
    | some x =>
      obtain ⟨t, p⟩ := x
      cases p with
      | entered => exact h.goEntered hlock
      | stopping => exact h.goStopping hlock
      | restarting => exact h.goRestarting hlock
      | starting => exact h.goStarting hlock

theorem Inv.reflects (h : Inv s) (hquiet : s.Quiet) : s.Reflects := by
  obtain ⟨hfree, hhost, hstation, happlies⟩ := hquiet
  have hready : s.hostReady = s.synced := by
    rw [Bool.eq_iff_iff]
    exact ⟨fun hr => (h.tracks.ready hr).resolve_right (not_due hhost),
      fun hs => (h.tracks.synced_ready hs).resolve_right (not_due hhost)⟩
  have hshown : s.radio = s.wanted :=
    (h.settled hfree).shown happlies (not_due hhost) (not_due hhost)
  constructor
  · rw [hshown, Beacon.wanted, h.tracks.held_eq hstation, hready]
    cases s.haveIp <;> simp
  · have hnot : ¬(s.hostDue = some .reset ∨ s.hostDue = some .complete) :=
      not_or.mpr ⟨not_due hhost, not_due hhost⟩
    rw [Bool.eq_iff_iff, Option.isSome_iff_ne_none]
    exact ⟨fun hflag => (h.tracks.radio_of_flag hflag).resolve_right hnot,
      h.tracks.flag_of_radio⟩

end Steps

theorem run_inv (mode : DiscoveryMode) (es : List Event)
    (hok : ∀ t ∈ trace step { mode := mode } es, CompletesOff t) :
    Inv (run step { mode := mode } es) :=
  trace_induction (Q := fun _ s => Inv s) (inv_start mode) (fun _ _ e h ht => h.step e ht) es hok

/-- In every run in which the host never gets the lock for a set that has ended while another one
is on the air, the beacon shows the state of the host, the station and the mode whenever no call
is in progress. -/
theorem beacon_reflects_state (mode : DiscoveryMode) (es : List Event)
    (hok : ∀ t ∈ trace step { mode := mode } es, CompletesOff t)
    (hquiet : (run step { mode := mode } es).Quiet) : (run step { mode := mode } es).Reflects :=
  (run_inv mode es hok).reflects hquiet

namespace Sample

def firstIp : Ip4 := ⟨[192, 168, 1, 20], rfl⟩

def secondIp : Ip4 := ⟨[192, 168, 1, 21], rfl⟩

def onTheAir : List Event :=
  [.hostSyncs, .take .host, .go, .gotIp firstIp, .take .station, .go, .go, .go]

theorem beacon_reflects_state_on :
    (∀ t ∈ trace step {} onTheAir, CompletesOff t) ∧ (run step {} onTheAir).Quiet ∧
      (run step {} onTheAir).Reflects ∧
      (run step {} onTheAir).radio = some (mfgData firstIp) :=
  ⟨by decide, by decide, beacon_reflects_state .both onTheAir (by decide) (by decide), by decide⟩

def lateComplete : List Event :=
  onTheAir ++ [.gotIp secondIp, .take .station, .go, .setEnds, .go, .go, .setMode .wifi true,
    .take .host, .go, .go, .take .command, .go, .go]

/-- `gap_event` clears the flag of the new set, and from then on no stop reaches it. No call of
NimBLE has failed. -/
theorem beacon_left_on :
    (run step {} lateComplete).Quiet ∧ (run step {} lateComplete).failed = false ∧
      (run step {} lateComplete).mode = .wifi ∧
      (run step {} lateComplete).radio = some (mfgData secondIp) ∧
      ¬(run step {} lateComplete).Reflects := by
  decide

end Sample

end CyThing.BleBeacon
