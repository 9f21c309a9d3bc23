import CyThing.Ble.BlePairing

/-! When a pairable device advertises (`gap_event` and `on_sync` of `ble/ble_pairing`). The
controller stops advertising on its own, at a connection and at the end of an advertising
period; only the GAP callbacks start it again, and they look at `commit_in_progress`, which
the commit task clears on its own time. -/

namespace CyThing
open CLib Trace

/-! ## The host -/

structure BleHost where
  ble : Ble := {}
  advertising : Bool := false
  /-- `none` is `BLE_HS_CONN_HANDLE_NONE`. -/
  connHandleSaved : Option Nat := none
  deriving DecidableEq

inductive BleHostEvent
  /-- `BLE_GAP_EVENT_CONNECT` with its status, zero for a connection. -/
  | connect (status connHandle : Nat)
  | disconnect
  | advComplete
  /-- A write of the phone or a step of the commit task. -/
  | pairing (e : BleEvent)

/-- `ble_gap_adv_start` is taken to succeed. -/
def startAdvertising (h : BleHost) : BleHost := { h with advertising := true }

def onSync (h : BleHost) : BleHost := startAdvertising h

def gapEvent (h : BleHost) : BleHostEvent → BleHost
  | .connect status connHandle =>
    if status = 0 then { h with connHandleSaved := some connHandle } else startAdvertising h
  | .disconnect =>
    let h := { h with connHandleSaved := none }
    if !h.ble.commitInProgress then startAdvertising h else h
  | .advComplete => if !h.ble.commitInProgress then startAdvertising h else h
  | .pairing _ => h

/-- One event. A connection attempt ends advertising, whatever comes of it, and only an
advertising device can get one; only a connected phone can go. -/
def bleHostStep (h : BleHost) : BleHostEvent → BleHost
  | .connect status connHandle =>
    if h.advertising then gapEvent { h with advertising := false } (.connect status connHandle)
    else h
  | .disconnect => if h.connHandleSaved.isSome then gapEvent h .disconnect else h
  | .advComplete =>
    if h.advertising then gapEvent { h with advertising := false } .advComplete else h
  | .pairing e => { h with ble := bleStep h.ble e }

/-! ## The flag and the task -/

inductive CommitMove (b b' : Ble) : Prop
  | keep (hflag : b'.commitInProgress = b.commitInProgress) (htask : b'.task = b.task)
      (hcommits : b'.commits = b.commits)
  | start (hfree : b.commitInProgress = false) (hflag : b'.commitInProgress = true)
      (hcommits : b'.commits = b.commits)
  | running (hbefore : b.task ≠ .none) (hflag : b'.commitInProgress = b.commitInProgress)
      (hcommits : b'.commits = b.commits)
  | fail (hbefore : b.task ≠ .none) (htask : b'.task = .none) (hcommits : b'.commits = b.commits)
  | store (hbefore : b.task ≠ .none) (hflag : b'.commitInProgress = b.commitInProgress)
      (htask : b'.task = .none)

theorem handleControl_move (taskOk : Bool) (opcode : UInt8) (b : Ble) :
    CommitMove b (handleControl taskOk opcode b) := by
  unfold handleControl
  split_ifs with _ hbusy
  · exact .keep rfl rfl rfl
  · exact .keep rfl rfl rfl
  · exact .start (Bool.eq_false_of_not_eq_true hbusy) rfl rfl
  · exact .keep (Bool.eq_false_of_not_eq_true hbusy).symm rfl rfl
  · exact .keep rfl rfl rfl

theorem commitTaskStep_move (env : CommitEnv) (b : Ble) :
    CommitMove b (commitTaskStep env b) := by
  have hbefore {p : CommitPoint} (hp : b.task = p) (hne : p ≠ .none) : b.task ≠ .none := hp ▸ hne
  unfold commitTaskStep
  split
  · exact .keep rfl rfl rfl
  · next hp =>
    split
    · exact .running (hbefore hp nofun) rfl rfl
    · exact .fail (hbefore hp nofun) rfl rfl
  · next hp => exact .running (hbefore hp nofun) rfl rfl
  · next hp =>
    split
    · exact .running (hbefore hp nofun) rfl rfl
    · exact .fail (hbefore hp nofun) rfl rfl
  · next hp => exact .running (hbefore hp nofun) rfl rfl
  · next hp =>
    split
    · exact .running (hbefore hp nofun) rfl rfl
    · exact .fail (hbefore hp nofun) rfl rfl
  · next hp =>
    split
    · exact .store (hbefore hp nofun) rfl rfl
    · exact .fail (hbefore hp nofun) rfl rfl

theorem bleStep_move (b : Ble) (e : BleEvent) : CommitMove b (bleStep b e) := by
  cases e with
  | write chr value taskOk =>
    simp only [bleStep]
    split
    · next b' hw =>
      rcases gattWrite_cases hw with ⟨credSsid, status, rfl⟩ | ⟨credPass, rfl⟩ | ⟨opcode, rfl⟩
      · exact .keep rfl rfl rfl
      · exact .keep rfl rfl rfl
      · exact handleControl_move taskOk opcode b
    · exact .keep rfl rfl rfl
  | task env => exact commitTaskStep_move env b

def Ble.RebootArmed (b : Ble) : Prop := b.commits ≠ []

instance (b : Ble) : Decidable b.RebootArmed := inferInstanceAs (Decidable (b.commits ≠ []))

structure Ble.FlagKept (b : Ble) : Prop where
  busy : b.task ≠ .none → b.commitInProgress = true
  armed : b.RebootArmed → b.commitInProgress = true ∧ b.task = .none

theorem Ble.FlagKept.step {b : Ble} (h : b.FlagKept) (e : BleEvent) : (bleStep b e).FlagKept := by
  -- once the reboot is armed, nothing but `keep` is left
  have hidle (hbefore : b.task ≠ .none) (harmed : b.RebootArmed) : False :=
    hbefore (h.armed harmed).2
  cases bleStep_move b e with
  | keep hflag htask hcommits =>
    refine ⟨fun ht => ?_, fun harmed => ?_⟩
    · rw [hflag]
      exact h.busy (htask ▸ ht)
    · rw [Ble.RebootArmed, hcommits] at harmed
      rw [hflag, htask]
      exact h.armed harmed
  | start hfree hflag hcommits =>
    refine ⟨fun _ => hflag, fun harmed => ?_⟩
    rw [Ble.RebootArmed, hcommits] at harmed
    exact absurd (hfree.symm.trans (h.armed harmed).1) Bool.false_ne_true
  | running hbefore hflag hcommits =>
    refine ⟨fun _ => hflag.trans (h.busy hbefore), fun harmed => ?_⟩
    rw [Ble.RebootArmed, hcommits] at harmed
    exact (hidle hbefore harmed).elim
  | fail hbefore htask hcommits =>
    refine ⟨fun ht => absurd htask ht, fun harmed => ?_⟩
    rw [Ble.RebootArmed, hcommits] at harmed
    exact (hidle hbefore harmed).elim
  | store hbefore hflag htask =>
    exact ⟨fun ht => absurd htask ht, fun _ => ⟨hflag.trans (h.busy hbefore), htask⟩⟩

theorem Ble.FlagKept.rebootArmed_step {b : Ble} (h : b.FlagKept) (harmed : b.RebootArmed)
    (e : BleEvent) : (bleStep b e).RebootArmed := by
  obtain ⟨hset, hnone⟩ := h.armed harmed
  cases bleStep_move b e with
  | keep hflag htask hcommits => rwa [Ble.RebootArmed, hcommits]
  | start hfree hflag hcommits => exact absurd (hfree.symm.trans hset) Bool.false_ne_true
  | running hbefore hflag hcommits => exact absurd hnone hbefore
  | fail hbefore htask hcommits => exact absurd hnone hbefore
  | store hbefore hflag htask => exact absurd hnone hbefore

/-! ## The device stays findable -/

def BleHost.Idle (h : BleHost) : Prop :=
  h.connHandleSaved = none ∧ h.ble.commitInProgress = false ∧ ¬ h.ble.RebootArmed

instance (h : BleHost) : Decidable h.Idle := inferInstanceAs (Decidable (_ ∧ _))

def BleHost.InReach (h : BleHost) : Prop := h.connHandleSaved.isSome ∨ h.advertising = true

instance (h : BleHost) : Decidable h.InReach := inferInstanceAs (Decidable (_ ∨ _))

def GivesUp (t : Step BleHost BleHostEvent) : Prop :=
  t.before.ble.commitInProgress = true ∧ t.after.ble.commitInProgress = false

instance (t : Step BleHost BleHostEvent) : Decidable (GivesUp t) :=
  inferInstanceAs (Decidable (_ ∧ _))

/-- No phone goes, and no advertising period ends, during a commit that has not stored yet. -/
def LinkKept (t : Step BleHost BleHostEvent) : Prop :=
  t.event = .disconnect ∨ t.event = .advComplete → t.before.ble.commitInProgress = true →
    t.before.ble.RebootArmed

theorem BleHost.inReach_restart (h : BleHost) :
    (if !h.ble.commitInProgress then startAdvertising h else h).InReach ∨
      h.ble.commitInProgress = true := by
  cases hc : h.ble.commitInProgress with
  | false => exact .inl (.inr rfl)
  | true => exact .inr rfl

/-- Writes and the commit task leave the link alone. The other events leave the pairing state
alone, and the device in reach unless a commit is in progress. -/
theorem bleHostStep_cases (h : BleHost) (e : BleHostEvent) :
    (∃ e', bleHostStep h e = { h with ble := bleStep h.ble e' }) ∨
      (bleHostStep h e).ble = h.ble ∧ ((bleHostStep h e).InReach ∨ bleHostStep h e = h ∨
        (e = .disconnect ∨ e = .advComplete) ∧ h.ble.commitInProgress = true) := by
  cases e with
  | pairing e => exact .inl ⟨e, rfl⟩
  | connect status connHandle =>
    right
    simp only [bleHostStep, gapEvent]
    split
    · split
      · exact ⟨rfl, .inl (.inl rfl)⟩
      · exact ⟨rfl, .inl (.inr rfl)⟩
    · exact ⟨rfl, .inr (.inl rfl)⟩
  | disconnect =>
    right
    simp only [bleHostStep, gapEvent]
    split
    · refine ⟨by split <;> rfl, ?_⟩
      exact (BleHost.inReach_restart { h with connHandleSaved := none }).imp id
        fun hflag => .inr ⟨by simp, hflag⟩
    · exact ⟨rfl, .inr (.inl rfl)⟩
  | advComplete =>
    right
    simp only [bleHostStep, gapEvent]
    split
    · refine ⟨by split <;> rfl, ?_⟩
      exact (BleHost.inReach_restart { h with advertising := false }).imp id
        fun hflag => .inr ⟨by simp, hflag⟩
    · exact ⟨rfl, .inr (.inl rfl)⟩

section Step

variable {h : BleHost} {e : BleHostEvent}

theorem BleHost.flagKept_step (hi : h.ble.FlagKept) (e : BleHostEvent) :
    (bleHostStep h e).ble.FlagKept := by
  rcases bleHostStep_cases h e with ⟨e', heq⟩ | ⟨hsame, -⟩
  · rw [heq]
    exact hi.step e'
  · rw [hsame]
    exact hi

theorem inReach_of_givesUp {t : Step BleHost BleHostEvent}
    (hafter : t.after = bleHostStep t.before t.event) (hup : GivesUp t)
    (hreach : t.after.InReach) : t.before.InReach := by
  obtain ⟨hbefore, hclear⟩ := hup
  rw [hafter] at hreach hclear
  rcases bleHostStep_cases t.before t.event with ⟨e', heq⟩ | ⟨hsame, -⟩
  · rw [heq] at hreach
    exact hreach
  · rw [hsame, hbefore] at hclear
    cases hclear

theorem inReach_step (hi : h.ble.commitInProgress = true ∨ h.InReach)
    (hok : GivesUp ⟨h, e, bleHostStep h e⟩ → h.InReach) :
    (bleHostStep h e).ble.commitInProgress = true ∨ (bleHostStep h e).InReach := by
  rcases bleHostStep_cases h e with ⟨e', heq⟩ | ⟨hsame, hreach | heq | ⟨-, hflag⟩⟩
  · cases hafter : (bleHostStep h e).ble.commitInProgress with
    | true => exact .inl rfl
    | false =>
      have hbefore : h.InReach := hi.elim (fun hflag => hok ⟨hflag, hafter⟩) id
      rw [heq]
      exact .inr hbefore
  · exact .inr hreach
  · rw [heq]
    exact hi
  · rw [hsame]
    exact .inl hflag

theorem inReach_step_of_linkKept (hflag : h.ble.FlagKept)
    (hi : h.ble.RebootArmed ∨ h.InReach) (hok : LinkKept ⟨h, e, bleHostStep h e⟩) :
    (bleHostStep h e).ble.RebootArmed ∨ (bleHostStep h e).InReach := by
  rcases bleHostStep_cases h e with ⟨e', heq⟩ | ⟨hsame, hreach | heq | ⟨hgone, hset⟩⟩
  · rw [heq]
    exact hi.imp (fun harmed => hflag.rebootArmed_step harmed e') id
  · exact .inr hreach
  · rw [heq]
    exact hi
  · rw [hsame]
    exact .inl (hok hgone hset)

theorem BleHost.InReach.advertises (hi : h.InReach) (hphone : h.connHandleSaved = none) :
    h.advertising = true := by
  rcases hi with hconn | hadv
  · rw [hphone] at hconn
    cases hconn
  · exact hadv

end Step

theorem flagKept_onSync : (onSync {}).ble.FlagKept :=
  ⟨fun ht => absurd rfl ht, fun harmed => absurd rfl harmed⟩

theorem flagKept_run (es : List BleHostEvent) : (run bleHostStep (onSync {}) es).ble.FlagKept :=
  history_induction (Q := fun _ (h : BleHost) => h.ble.FlagKept) flagKept_onSync
    (fun _ _ e hi => BleHost.flagKept_step hi e) es

/-- What holds at the first sync and is kept by every step that meets `ok` holds after every step
of a run all of whose steps meet it. -/
theorem hostRun_induction {Q : BleHost → Prop} {ok : Step BleHost BleHostEvent → Prop}
    (h0 : Q (onSync {}))
    (hstep : ∀ h e, h.ble.FlagKept → Q h → ok ⟨h, e, bleHostStep h e⟩ → Q (bleHostStep h e))
    (es : List BleHostEvent) (hok : ∀ t ∈ trace bleHostStep (onSync {}) es, ok t) :
    ∀ t ∈ trace bleHostStep (onSync {}) es, Q t.after := by
  have hrun := trace_induction (Q := fun tr (h : BleHost) =>
    (h.ble.FlagKept ∧ Q h) ∧ ∀ t ∈ tr, Q t.after)
    ⟨⟨flagKept_onSync, h0⟩, fun _ ht => absurd ht List.not_mem_nil⟩
    (fun tr h e hi hstep' => by
      have hnext := hstep h e hi.1.1 hi.1.2 hstep'
      refine ⟨⟨BleHost.flagKept_step hi.1.1 e, hnext⟩, fun t ht => ?_⟩
      rcases List.mem_append.mp ht with ht | ht
      · exact hi.2 t ht
      · rw [List.mem_singleton.mp ht]
        exact hnext) es hok
  exact hrun.2

/-- After the first sync, over any events: the device advertises in every state without a phone,
a commit in progress and a reboot to come, exactly if the commit task never gives up with no
phone connected and advertising off. If no phone goes and no advertising period ends while a commit
is being tried, it does so whether or not a commit is in progress. -/
theorem idle_device_advertises_iff (es : List BleHostEvent) :
    ((∀ t ∈ trace bleHostStep (onSync {}) es, t.after.Idle → t.after.advertising = true) ↔
      ∀ t ∈ trace bleHostStep (onSync {}) es, GivesUp t → t.before.InReach) ∧
    ((∀ t ∈ trace bleHostStep (onSync {}) es, LinkKept t) →
      ∀ t ∈ trace bleHostStep (onSync {}) es, t.after.connHandleSaved = none →
        ¬ t.after.ble.RebootArmed → t.after.advertising = true) := by
  refine ⟨⟨?_, ?_⟩, ?_⟩
  · intro hidle t ht hup
    obtain ⟨pre, -, -, hbefore, hafter⟩ := mem_trace ht
    have hkept : t.after.ble.FlagKept := by
      rw [hafter, hbefore]
      exact BleHost.flagKept_step (flagKept_run pre) t.event
    have hnotArmed : ¬ t.after.ble.RebootArmed := fun harmed =>
      absurd (hup.2.symm.trans (hkept.armed harmed).1) Bool.false_ne_true
    refine inReach_of_givesUp hafter hup ?_
    cases hphone : t.after.connHandleSaved with
    | some connHandle => exact .inl (by rw [hphone]; rfl)
    | none => exact .inr (hidle t ht ⟨hphone, hup.2, hnotArmed⟩)
  · rintro hok t ht ⟨hphone, hcommit, -⟩
    rcases hostRun_induction (Q := fun h => h.ble.commitInProgress = true ∨ h.InReach)
      (.inr (.inr rfl)) (fun _ _ _ hi hstep => inReach_step hi hstep) es hok t ht with
      hflag | hreach
    · exact absurd (hcommit.symm.trans hflag) Bool.false_ne_true
    · exact hreach.advertises hphone
  · intro hok t ht hphone hnotArmed
    rcases hostRun_induction (Q := fun h => h.ble.RebootArmed ∨ h.InReach) (.inr (.inr rfl))
      (fun _ _ hflag hi hstep => inReach_step_of_linkKept hflag hi hstep) es hok t ht with
      harmed | hreach
    · exact absurd harmed hnotArmed
    · exact hreach.advertises hphone

def patientPhone : List BleHostEvent :=
  [.connect 1 0, .connect 0 1, .pairing (.write .ssid (ascii "Home") true),
    .pairing (.write .ctrl [blePairCtrlCommit] true), .pairing (.task {}), .pairing (.task {}),
    .pairing (.task { trial := .authFail }), .disconnect, .connect 0 1,
    .pairing (.write .ctrl [blePairCtrlCommit] true), .pairing (.task {}), .disconnect,
    .pairing (.task {}), .pairing (.task {})]

theorem idle_device_advertises_patient :
    ∀ t ∈ trace bleHostStep (onSync {}) patientPhone, t.after.Idle → t.after.advertising = true :=
  (idle_device_advertises_iff patientPhone).1.mpr (by decide +kernel)

def impatientPhone : List BleHostEvent :=
  [.connect 0 1, .pairing (.write .ssid (ascii "Home") true),
    .pairing (.write .ctrl [blePairCtrlCommit] true), .pairing (.task {}), .disconnect,
    .pairing (.task {}), .pairing (.task { trial := .timeout })]

/-- The failed trial leaves a device that no phone can find. -/
theorem idle_device_silent :
    (run bleHostStep (onSync {}) impatientPhone).connHandleSaved = none ∧
      (run bleHostStep (onSync {}) impatientPhone).ble.commitInProgress = false ∧
      ¬(run bleHostStep (onSync {}) impatientPhone).ble.RebootArmed ∧
      (run bleHostStep (onSync {}) impatientPhone).advertising = false := by
  decide +kernel

end CyThing
