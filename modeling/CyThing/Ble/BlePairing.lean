import CyThing.Wifi.StationConfig
import CyThing.Lib.Trace

/-! Wi-Fi pairing over BLE (`ble/ble_pairing`): the access callback on the NimBLE host task
and `ble_commit_task`, interleaved at every point where the task reads the two credential
buffers. -/

namespace CyThing
open CLib Trace

abbrev blePairSsidMax : Nat := 32
abbrev blePairPassMax : Nat := 64
abbrev blePairCtrlCommit : UInt8 := 1

/-! ## The buffers -/

structure CredBuffer (max : Nat) where
  bytes : Bytes
  length_eq : bytes.length = max + 1
  terminated : (0 : UInt8) ∈ bytes
  deriving DecidableEq

def CredBuffer.text {max : Nat} (b : CredBuffer max) : Bytes := cstr b.bytes

def CredBuffer.empty (max : Nat) : CredBuffer max :=
  ⟨List.replicate (max + 1) 0, List.length_replicate, by simp⟩

inductive AttError
  | invalidAttrValueLen
  | writeNotPermitted
  deriving DecidableEq

/-- `take_write`: what is behind the new terminator stays from earlier writes. -/
def takeWrite {max : Nat} (dst : CredBuffer max) (min : Nat) (value : Bytes) :
    Except AttError (CredBuffer max) :=
  if h : min ≤ value.length ∧ value.length ≤ max then
    .ok ⟨value ++ 0 :: dst.bytes.drop (value.length + 1), by simp [dst.length_eq]; omega,
      by simp⟩
  else .error .invalidAttrValueLen

theorem CredBuffer.take_text {max : Nat} (b : CredBuffer max) :
    b.bytes.take (b.text.length + 1) = b.text ++ [0] := take_length_cstr b.terminated

theorem takeWrite_ok {max min : Nat} {dst cred : CredBuffer max} {value : Bytes}
    (h : takeWrite dst min value = .ok cred) :
    (min ≤ value.length ∧ value.length ≤ max) ∧ cred.text = cstr value := by
  unfold takeWrite at h
  split at h
  · next hlen =>
    cases h
    exact ⟨hlen, cstr_append_zero value _⟩
  · cases h

/-! ## The state -/

inductive Characteristic
  | ssid | pass | ctrl | status | info | disModel | disFw | disHw
  deriving DecidableEq

inductive WifiTrialResult
  | ok | notFound | authFail | timeout | error
  deriving DecidableEq

inductive BlePairErr
  | noSsid | flash | badOpcode | busy | wifiNotFound | wifiAuth | wifiTimeout
  deriving DecidableEq

inductive BleStatus
  | idle | ready | stored | trying | wifiJoined
  | error (detail : BlePairErr)
  deriving DecidableEq

inductive CommitPoint
  /-- There is no commit task. -/
  | none
  | created
  /-- `wifi_trial_run` has copied the SSID into its configuration. -/
  | ssidCopied (ssid : Bytes)
  /-- It has copied the password as well and waits for an address. -/
  | trying (tried : Bytes × Bytes)
  /-- The trial succeeded; 1.5 s for the phone to read Info. -/
  | joined (tried : Bytes × Bytes)
  /-- `pairing_commit` has measured both strings. -/
  | measured (tried : Bytes × Bytes) (ssidLen passLen : Nat)
  /-- The SSID field of the partition is written. -/
  | ssidWritten (tried : Bytes × Bytes) (ssid : Bytes) (passLen : Nat)
  deriving DecidableEq

structure BleCommit where
  tried : Bytes × Bytes
  stored : Bytes × Bytes
  deriving DecidableEq

structure Ble where
  credSsid : CredBuffer blePairSsidMax := .empty blePairSsidMax
  credPass : CredBuffer blePairPassMax := .empty blePairPassMax
  haveSsid : Bool := false
  commitInProgress : Bool := false
  status : BleStatus := .idle
  task : CommitPoint := .none
  commits : List BleCommit := []
  deriving DecidableEq

/-! ## The host task -/

def setStatus (s : BleStatus) (b : Ble) : Ble := { b with status := s }

def handleControl (taskOk : Bool) (opcode : UInt8) (b : Ble) : Ble :=
  if opcode = blePairCtrlCommit then
    if b.commitInProgress then setStatus (.error .busy) b
    else if !b.haveSsid then setStatus (.error .noSsid) b
    else if taskOk then { b with commitInProgress := true, task := .created }
    else setStatus (.error .flash) { b with commitInProgress := false }
  else setStatus (.error .badOpcode) b

def gattWrite (taskOk : Bool) (b : Ble) (chr : Characteristic) (value : Bytes) :
    Except AttError Ble :=
  match chr with
  | .ssid =>
    (takeWrite b.credSsid 1 value).map fun cred =>
      let b := { b with credSsid := cred, haveSsid := true }
      if b.commitInProgress then b else setStatus .ready b
  | .pass => (takeWrite b.credPass 0 value).map fun cred => { b with credPass := cred }
  | .ctrl =>
    (takeWrite (CredBuffer.empty 1) 1 value).map fun opcode =>
      handleControl taskOk (opcode.bytes.headD 0) b
  | _ => .error .writeNotPermitted

/-! ## The commit task -/

def trialDetail : WifiTrialResult → BlePairErr
  | .notFound => .wifiNotFound
  | .authFail => .wifiAuth
  | _ => .wifiTimeout

def commitFailed (e : BlePairErr) (b : Ble) : Ble :=
  setStatus (.error e) { b with commitInProgress := false, task := .none }

structure CommitEnv where
  initOk : Bool := true
  trial : WifiTrialResult := .ok
  flashOk : Bool := true

def commitTaskStep (env : CommitEnv) (b : Ble) : Ble :=
  match b.task with
  | .none => b
  | .created =>
    if env.initOk then setStatus .trying { b with task := .ssidCopied b.credSsid.text }
    else commitFailed (trialDetail .error) b
  | .ssidCopied ssid => { b with task := .trying (ssid, b.credPass.text) }
  | .trying tried =>
    if env.trial = .ok then setStatus .wifiJoined { b with task := .joined tried }
    else commitFailed (trialDetail env.trial) b
  | .joined tried =>
    { b with task := .measured tried (b.credSsid.text.length + 1) (b.credPass.text.length + 1) }
  | .measured tried ssidLen passLen =>
    if env.flashOk then
      { b with task := .ssidWritten tried (b.credSsid.bytes.take ssidLen) passLen }
    else commitFailed .flash b
  | .ssidWritten tried ssid passLen =>
    if env.flashOk then
      -- `commit_in_progress` stays set: the reboot is armed
      setStatus .stored { b with
        task := .none
        commits := b.commits ++ [⟨tried, ssid, b.credPass.bytes.take passLen⟩] }
    else commitFailed .flash b

inductive BleEvent
  /-- A complete write arrives, from any connection. -/
  | write (chr : Characteristic) (value : Bytes) (taskOk : Bool)
  /-- The commit task takes its next step. -/
  | task (env : CommitEnv)

def bleStep (b : Ble) : BleEvent → Ble
  | .write chr value taskOk =>
    match gattWrite taskOk b chr value with
    | .ok b' => b'
    | .error _ => b
  | .task env => commitTaskStep env b

theorem gattWrite_cases {taskOk : Bool} {b b' : Ble} {chr : Characteristic} {value : Bytes}
    (h : gattWrite taskOk b chr value = .ok b') :
    (∃ credSsid status, b' = { b with credSsid, haveSsid := true, status }) ∨
      (∃ credPass, b' = { b with credPass }) ∨ ∃ opcode, b' = handleControl taskOk opcode b := by
  cases chr with
  | ssid =>
    cases hw : takeWrite b.credSsid 1 value with
    | error e =>
      rw [gattWrite, hw] at h
      cases h
    | ok cred =>
      rw [gattWrite, hw] at h
      cases h
      dsimp only
      split
      · exact .inl ⟨cred, b.status, rfl⟩
      · exact .inl ⟨cred, .ready, rfl⟩
  | pass =>
    cases hw : takeWrite b.credPass 0 value with
    | error e =>
      rw [gattWrite, hw] at h
      cases h
    | ok cred =>
      rw [gattWrite, hw] at h
      cases h
      exact .inr (.inl ⟨cred, rfl⟩)
  | ctrl =>
    cases hw : takeWrite (CredBuffer.empty 1) 1 value with
    | error e =>
      rw [gattWrite, hw] at h
      cases h
    | ok opcode =>
      rw [gattWrite, hw] at h
      cases h
      exact .inr (.inr ⟨_, rfl⟩)
  | _ => cases h

theorem commits_handleControl (taskOk : Bool) (opcode : UInt8) (b : Ble) :
    (handleControl taskOk opcode b).commits = b.commits := by
  unfold handleControl
  split_ifs <;> rfl

theorem commits_write (b : Ble) (chr : Characteristic) (value : Bytes) (taskOk : Bool) :
    (bleStep b (.write chr value taskOk)).commits = b.commits := by
  simp only [bleStep]
  split
  · next b' hw =>
    rcases gattWrite_cases hw with ⟨credSsid, status, rfl⟩ | ⟨credPass, rfl⟩ | ⟨opcode, rfl⟩
    · rfl
    · rfl
    · exact commits_handleControl taskOk opcode b
  · rfl

/-! ## What the task holds against the buffers -/

def CommitPoint.Agrees (ssid pass : Bytes) : CommitPoint → Prop
  | .none | .created => True
  | .ssidCopied s => s = ssid
  | .trying tried | .joined tried => tried = (ssid, pass)
  | .measured tried ssidLen passLen =>
    tried = (ssid, pass) ∧ ssidLen = ssid.length + 1 ∧ passLen = pass.length + 1
  | .ssidWritten tried s passLen =>
    tried = (ssid, pass) ∧ s = ssid ++ [0] ∧ passLen = pass.length + 1

def CommitPoint.reading : CommitPoint → Bool
  | .none | .created => false
  | _ => true

structure Ble.Faithful (b : Ble) : Prop where
  agrees : b.task.Agrees b.credSsid.text b.credPass.text
  commits : ∀ c ∈ b.commits, c.stored = terminated c.tried
  /-- A second commit task is never created beside a running one. -/
  busy : b.task ≠ .none → b.commitInProgress = true

def BleEvent.Rewrites (b : Ble) : BleEvent → Prop
  | .write .ssid value _ =>
    1 ≤ value.length → value.length ≤ blePairSsidMax → cstr value = b.credSsid.text
  | .write .pass value _ => value.length ≤ blePairPassMax → cstr value = b.credPass.text
  | _ => True

instance (b : Ble) (e : BleEvent) : Decidable (e.Rewrites b) :=
  match e with
  | .write .ssid value _ =>
    inferInstanceAs (Decidable (1 ≤ value.length → value.length ≤ blePairSsidMax →
      cstr value = b.credSsid.text))
  | .write .pass value _ =>
    inferInstanceAs (Decidable (value.length ≤ blePairPassMax → cstr value = b.credPass.text))
  | .write .ctrl _ _ | .write .status _ _ | .write .info _ _ | .write .disModel _ _
  | .write .disFw _ _ | .write .disHw _ _ | .task _ => inferInstanceAs (Decidable True)

def CommitUndisturbed (t : Step Ble BleEvent) : Prop :=
  t.before.task.reading = true → t.event.Rewrites t.before

instance (t : Step Ble BleEvent) : Decidable (CommitUndisturbed t) :=
  inferInstanceAs (Decidable (t.before.task.reading = true → t.event.Rewrites t.before))

theorem CommitPoint.Agrees.of_not_reading {p : CommitPoint} (h : p.reading = false)
    (ssid pass : Bytes) :
    p.Agrees ssid pass := by
  cases p with
  | none => trivial
  | created => trivial
  | _ => cases h

theorem Ble.Faithful.handleControl {b : Ble} (h : b.Faithful) (taskOk : Bool) (opcode : UInt8) :
    (handleControl taskOk opcode b).Faithful := by
  unfold CyThing.handleControl
  split_ifs with _ hbusy
  · exact ⟨h.agrees, h.commits, h.busy⟩
  · exact ⟨h.agrees, h.commits, h.busy⟩
  · exact ⟨trivial, h.commits, fun _ => rfl⟩
  · -- no task runs while the flag is clear, so clearing it again changes nothing
    exact ⟨h.agrees, h.commits, fun ht => absurd (h.busy ht) hbusy⟩
  · exact ⟨h.agrees, h.commits, h.busy⟩

theorem CommitPoint.Agrees.rewrite {p : CommitPoint} {ssid pass ssid' pass' : Bytes}
    (h : p.Agrees ssid pass) (hq : p.reading = true → ssid' = ssid ∧ pass' = pass) :
    p.Agrees ssid' pass' := by
  rcases hr : p.reading with _ | _
  · exact .of_not_reading hr ssid' pass'
  · obtain ⟨rfl, rfl⟩ := hq hr
    exact h

theorem Ble.Faithful.write {b : Ble} (h : b.Faithful) (chr : Characteristic) (value : Bytes)
    (taskOk : Bool) (hq : b.task.reading = true → (BleEvent.write chr value taskOk).Rewrites b) :
    (bleStep b (.write chr value taskOk)).Faithful := by
  cases chr with
  | ssid =>
    cases hw : takeWrite b.credSsid 1 value with
    | error e => simpa only [bleStep, gattWrite, hw, Except.map] using h
    | ok cred =>
      obtain ⟨hlen, htext⟩ := takeWrite_ok hw
      have hagrees : b.task.Agrees cred.text b.credPass.text :=
        h.agrees.rewrite fun hr => ⟨htext.trans (hq hr hlen.1 hlen.2), rfl⟩
      simp only [bleStep, gattWrite, hw, Except.map]
      split
      · exact ⟨hagrees, h.commits, h.busy⟩
      · exact ⟨hagrees, h.commits, h.busy⟩
  | pass =>
    cases hw : takeWrite b.credPass 0 value with
    | error e => simpa only [bleStep, gattWrite, hw, Except.map] using h
    | ok cred =>
      obtain ⟨hlen, htext⟩ := takeWrite_ok hw
      simp only [bleStep, gattWrite, hw, Except.map]
      exact ⟨h.agrees.rewrite fun hr => ⟨rfl, htext.trans (hq hr hlen.2)⟩, h.commits, h.busy⟩
  | ctrl =>
    cases hw : takeWrite (CredBuffer.empty 1) 1 value with
    | error e => simpa only [bleStep, gattWrite, hw, Except.map] using h
    | ok opcode =>
      simp only [bleStep, gattWrite, hw, Except.map]
      exact h.handleControl taskOk _
  | _ => exact h

theorem Ble.Faithful.commitFailed {b : Ble} (h : b.Faithful) (e : BlePairErr) :
    (commitFailed e b).Faithful :=
  ⟨trivial, h.commits, fun ht => absurd rfl ht⟩

theorem Ble.Faithful.task {b : Ble} (h : b.Faithful) (env : CommitEnv) :
    (commitTaskStep env b).Faithful := by
  -- every point that goes on to another one is of a running task, so the flag is set
  have hbusy {p : CommitPoint} (hp : b.task = p) (hne : p ≠ .none) : b.commitInProgress = true :=
    h.busy (hp ▸ hne)
  have hagrees := h.agrees
  cases hp : b.task with
  | none => simpa only [commitTaskStep, hp] using h
  | created =>
    simp only [commitTaskStep, hp]
    split
    · exact ⟨rfl, h.commits, fun _ => hbusy hp (by rintro ⟨⟩)⟩
    · exact h.commitFailed _
  | ssidCopied ssid =>
    rw [hp] at hagrees
    simp only [commitTaskStep, hp]
    exact ⟨congrArg (·, b.credPass.text) hagrees, h.commits, fun _ => hbusy hp (by rintro ⟨⟩)⟩
  | trying tried =>
    rw [hp] at hagrees
    simp only [commitTaskStep, hp]
    split
    · exact ⟨hagrees, h.commits, fun _ => hbusy hp (by rintro ⟨⟩)⟩
    · exact h.commitFailed _
  | joined tried =>
    rw [hp] at hagrees
    simp only [commitTaskStep, hp]
    exact ⟨⟨hagrees, rfl, rfl⟩, h.commits, fun _ => hbusy hp (by rintro ⟨⟩)⟩
  | measured tried ssidLen passLen =>
    rw [hp] at hagrees
    obtain ⟨htried, hssid, hpass⟩ := hagrees
    simp only [commitTaskStep, hp]
    split
    · refine ⟨⟨htried, ?_, hpass⟩, h.commits, fun _ => hbusy hp (by rintro ⟨⟩)⟩
      rw [hssid, CredBuffer.take_text]
    · exact h.commitFailed _
  | ssidWritten tried ssid passLen =>
    rw [hp] at hagrees
    obtain ⟨htried, hssid, hpass⟩ := hagrees
    simp only [commitTaskStep, hp]
    split
    · refine ⟨trivial, fun c hc => ?_, fun ht => absurd rfl ht⟩
      rcases List.mem_append.mp hc with hc | hc
      · exact h.commits c hc
      · rw [List.mem_singleton.mp hc, htried, hssid, hpass, CredBuffer.take_text]
        rfl
    · exact h.commitFailed _

theorem bleStep_faithful {b : Ble} {e : BleEvent} (h : b.Faithful)
    (hq : CommitUndisturbed ⟨b, e, bleStep b e⟩) : (bleStep b e).Faithful := by
  cases e with
  | write chr value taskOk => exact h.write chr value taskOk hq
  | task env => exact h.task env

/-! ## Runs -/

/-- Whether the commit that is running after the step has been disturbed; `disturbed` says it of
the one before. -/
def disturbedAfter (disturbed : Bool) (t : Step Ble BleEvent) : Bool :=
  decide (t.after.task ≠ .none) && (disturbed || decide (¬ CommitUndisturbed t))

def StoresUndisturbed : Bool → List (Step Ble BleEvent) → Prop
  | _, [] => True
  | disturbed, t :: tr => (t.after.commits ≠ t.before.commits → disturbed = false) ∧
      StoresUndisturbed (disturbedAfter disturbed t) tr

instance decidableStoresUndisturbed :
    (disturbed : Bool) → (tr : List (Step Ble BleEvent)) →
      Decidable (StoresUndisturbed disturbed tr)
  | _, [] => inferInstanceAs (Decidable True)
  | _, _ :: tr => @instDecidableAnd _ _ _ (decidableStoresUndisturbed _ tr)

structure Ble.StoresTried (disturbed : Bool) (b : Ble) : Prop where
  commits : ∀ c ∈ b.commits, c.stored = terminated c.tried
  faithful : disturbed = false → b.Faithful

theorem Ble.StoresTried.step {disturbed : Bool} {b : Ble} (h : b.StoresTried disturbed)
    {e : BleEvent} (hstore : (bleStep b e).commits ≠ b.commits → disturbed = false) :
    (bleStep b e).StoresTried (disturbedAfter disturbed ⟨b, e, bleStep b e⟩) := by
  have hcommits : ∀ c ∈ (bleStep b e).commits, c.stored = terminated c.tried := by
    cases e with
    | write chr value taskOk =>
      rw [commits_write]
      exact h.commits
    | task env =>
      by_cases hsame : (bleStep b (.task env)).commits = b.commits
      · rw [hsame]
        exact h.commits
      · exact ((h.faithful (hstore hsame)).task env).commits
  refine ⟨hcommits, fun hcalm => ?_⟩
  simp only [disturbedAfter, Bool.and_eq_false_iff, Bool.or_eq_false_iff, decide_eq_false_iff_not,
    not_not] at hcalm
  rcases hcalm with hended | ⟨hdisturbed, hquiet⟩
  · -- without a task there is nothing to compare
    exact ⟨by rw [hended]; trivial, hcommits, fun ht => absurd hended ht⟩
  · exact bleStep_faithful (h.faithful hdisturbed) hquiet

theorem bleRun_storesTried (es : List BleEvent) {disturbed : Bool} {b : Ble}
    (h : b.StoresTried disturbed) (hq : StoresUndisturbed disturbed (trace bleStep b es)) :
    ∀ c ∈ (run bleStep b es).commits, c.stored = terminated c.tried := by
  induction es generalizing disturbed b with
  | nil => exact h.commits
  | cons e es ih =>
    obtain ⟨hstore, hrest⟩ := hq
    exact ih (h.step hstore) hrest

/-- Whatever is written to the characteristics and however the commit task is scheduled
between the writes: if no credential changes while the task is at work on a pair that it goes on
to store, every pair it stores is the one its trial succeeded with. -/
theorem ble_commit_stores_tried (es : List BleEvent)
    (hq : StoresUndisturbed false (trace bleStep {} es)) :
    ∀ c ∈ (run bleStep {} es).commits, c.stored = terminated c.tried := by
  have hnone : ∀ c ∈ ({} : Ble).commits, c.stored = terminated c.tried :=
    fun _ hc => absurd hc List.not_mem_nil
  exact bleRun_storesTried es
    ⟨hnone, fun _ => ⟨trivial, hnone, fun ht => absurd rfl ht⟩⟩ hq

def bleCommitRun : List BleEvent :=
  [.write .ssid (ascii "Hom") true, .write .pass (ascii "secret") true,
    .write .ctrl [blePairCtrlCommit] true, .task {}, .write .ssid (ascii "Home") true,
    .task {}, .task { trial := .notFound }, .write .ctrl [blePairCtrlCommit] true, .task {},
    .task {}, .write .ssid (ascii "Home") true, .task {}, .task {}, .task {}, .task {}]

theorem ble_commit_stores_tried_home :
    (run bleStep {} bleCommitRun).commits.length = 1 ∧
      ∀ c ∈ (run bleStep {} bleCommitRun).commits, c.stored = terminated c.tried :=
  ⟨by decide +kernel, ble_commit_stores_tried bleCommitRun (by decide +kernel)⟩

def bleLateWriteRun : List BleEvent :=
  [.write .ssid (ascii "Home") true, .write .pass (ascii "secret") true,
    .write .ctrl [blePairCtrlCommit] true, .task {}, .task {}, .task {},
    .write .ssid (ascii "Hotel") true, .task {}, .task {}, .task {}]

/-- The trial succeeded with one network and another one is stored. -/
theorem ble_commit_stores_untried :
    ∃ c ∈ (run bleStep {} bleLateWriteRun).commits, c.stored ≠ terminated c.tried :=
  ⟨⟨(ascii "Home", ascii "secret"), terminated (ascii "Hotel", ascii "secret")⟩,
    by decide +kernel, by decide +kernel⟩

end CyThing
