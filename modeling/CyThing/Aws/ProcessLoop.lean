import CyThing.Aws.PairingUplink
import CyThing.CoreMqtt.Types
import CyThing.Lib.WhileLoop
import CyThing.TcpServer.ResponseFifo

/-! The polling loops of `aws_iot_task` (`aws/aws_iot_handler`): `waitForPacketAck` and
`processLoopWithTimeout`, which also sends what is waiting in the MQTT response FIFO. -/

namespace CyThing
open CLib Trace WhileLoop

/-! ## coreMQTT and the clock -/

def MqttStatus.good (status : MqttStatus) : Bool :=
  status = .success || status = .needMoreBytes

def clockGetTimeMs (us : Nat) : UInt32 := UInt32.ofNat (us / 1000)

/-! ## `waitForPacketAck` -/

structure AckAnswer where
  status : MqttStatus
  ack : Nat
  now : UInt32
  deriving DecidableEq

structure AckWait where
  ack : Nat
  current : UInt32
  status : MqttStatus
  deriving DecidableEq

def AckWait.polling (packetIdentifier : Nat) (timeoutTime : UInt32) (s : AckWait) : Bool :=
  s.ack != packetIdentifier && decide (s.current < timeoutTime) && s.status.good

def waitForPacketAck (t timeout : UInt32) (packetIdentifier : Nat) (answers : List AckAnswer) :
    AckWait :=
  after (AckWait.polling packetIdentifier (t + timeout)) (fun _ a => ⟨a.ack, a.now, a.status⟩)
    ⟨0, t, .success⟩ answers

def AckWait.returnsSuccess (packetIdentifier : Nat) (s : AckWait) : Bool :=
  s.status.good && s.ack == packetIdentifier

/-! ## `processLoopWithTimeout` -/

def pdMsToTicks (ms : Nat) : UInt32 := UInt32.ofNat ms * 100 / 1000

inductive Incoming
  | puback (packetId : Nat)
  /-- A command that is answered with a publish. -/
  | command (packetId : Nat) (accepted : Bool)
  deriving DecidableEq

def Incoming.event : Incoming → UplinkEvent
  | .puback packetId => .puback packetId
  | .command packetId accepted => .publishOther packetId accepted

structure PollRound where
  periodMs : Nat
  sendTick : UInt32
  sentTick : UInt32
  packetId : Nat
  accepted : Bool
  pairingTick : UInt32
  pairingSentTick : UInt32
  pairingPacketId : Nat
  pairingAccepted : Bool
  popStored : Bool
  incoming : List Incoming
  status : MqttStatus
  now : UInt32
  deriving DecidableEq

/-- The task's data, and two records: the lines `response_fifo_push` has accepted and the
messages for which `publishToTopic` has returned `EXIT_SUCCESS`. -/
structure MqttTask where
  uplink : Uplink
  fifo : Bytes := []
  lastSendTick : UInt32 := 0
  pairingLastSendTick : UInt32 := 0
  accepted : List Bytes := []
  published : List Bytes := []

def MqttTask.drains (s : MqttTask) (r : PollRound) : Bool :=
  s.uplink.isConnectedToServer &&
    decide (pdMsToTicks r.periodMs ≤ r.sendTick - s.lastSendTick) && !s.fifo.isEmpty

/-- The FIFO as one message; `publishToTopic` measures it with `strlen`, and the loop does not
look at what it returns. -/
def MqttTask.drain (s : MqttTask) (r : PollRound) : MqttTask :=
  if s.drains r then
    let message := cstr (s.fifo.take responseFifoSize)
    let sent := publishToTopic s.uplink.table r.packetId r.accepted .other none
    { s with
      fifo := s.fifo.drop responseFifoSize
      uplink := { s.uplink with table := sent.2 }
      lastSendTick := r.sentTick
      published := if sent.1 then s.published ++ [message] else s.published }
  else s

def MqttTask.sendsPairing (s : MqttTask) (r : PollRound) : Bool :=
  s.uplink.isConnectedToServer &&
    decide (pdMsToTicks 1000 ≤ r.pairingTick - s.pairingLastSendTick) &&
    (pairingEventsPeek s.uplink.queue).isSome

def MqttTask.pairingEvent (s : MqttTask) (r : PollRound) : MqttTask :=
  if s.sendsPairing r then
    { s with
      uplink := (s.uplink.peek.publish r.pairingPacketId r.pairingAccepted).pop r.popStored
      pairingLastSendTick := r.pairingSentTick }
  else s

def MqttTask.processLoop (s : MqttTask) (incoming : List Incoming) : MqttTask :=
  { s with uplink := run uplinkStep s.uplink (incoming.map Incoming.event) }

def MqttTask.round (s : MqttTask) (r : PollRound) : MqttTask :=
  ((s.drain r).pairingEvent r).processLoop r.incoming

structure PollState where
  task : MqttTask
  current : UInt32
  status : MqttStatus

def PollState.polling (timeoutTime : UInt32) (s : PollState) : Bool :=
  decide (s.current < timeoutTime) && s.status.good

def PollState.round (s : PollState) (r : PollRound) : PollState :=
  ⟨s.task.round r, r.now, r.status⟩

def processLoopWithTimeout (task : MqttTask) (t timeout : UInt32) (rounds : List PollRound) :
    PollState :=
  after (PollState.polling (t + timeout)) PollState.round ⟨task, t, .success⟩ rounds

/-! ## Timeouts -/

def inTime (t timeout now : UInt32) : Bool := decide (now - t < timeout)

def AckAnswer.good (packetIdentifier : Nat) (a : AckAnswer) : Bool :=
  a.ack != packetIdentifier && a.status.good

section Clock

variable {t timeout now : UInt32}

theorem lt_deadline_iff (h : t.toNat + timeout.toNat < 2 ^ 32) :
    now < t + timeout ↔ now.toNat < t.toNat + timeout.toNat := by
  rw [UInt32.lt_iff_toNat_lt, UInt32.toNat_add, Nat.mod_eq_of_lt h]

theorem inTime_iff (h : t.toNat + timeout.toNat < 2 ^ 32) :
    inTime t timeout now = true ↔ t ≤ now ∧ now < t + timeout := by
  rw [inTime, decide_eq_true_eq, lt_deadline_iff h, UInt32.lt_iff_toNat_lt, UInt32.toNat_sub,
    UInt32.le_iff_toNat_le]
  have ht := t.toNat_lt
  have hnow := now.toNat_lt
  omega

theorem deadline_le (h : 2 ^ 32 ≤ t.toNat + timeout.toNat) : t + timeout ≤ t := by
  rw [UInt32.le_iff_toNat_le, UInt32.toNat_add]
  have ht := t.toNat_lt
  have htimeout := timeout.toNat_lt
  omega

end Clock

section Polling

variable {α : Type*} (t timeout : UInt32) (now : α → UInt32) (good : α → Bool)
  (answers : List α)

def PollsInTime (polling : List α → Bool) : Prop :=
  ∀ pre, pre <+: answers → (polling pre = true ↔
    0 < timeout ∧ ∀ a ∈ pre, (inTime t timeout (now a) && good a) = true)

/-- The deadline does not pass the end of the clock's range, nor does the clock before the first
answer that has to end the wait, unless that one is not good. -/
def StaysOnClock : Prop :=
  timeout = 0 ∨ t.toNat + timeout.toNat < 2 ^ 32 ∧
    ∀ a ∈ answers.find? fun a => !(inTime t timeout (now a) && good a),
      good a = true → t ≤ now a

theorem late_iff {a : α} (h : t.toNat + timeout.toNat < 2 ^ 32)
    (hlate : (inTime t timeout (now a) && good a) = false) :
    (decide (now a < t + timeout) && good a) = false ↔ (good a = true → t ≤ now a) := by
  cases hgood : good a with
  | false => simp
  | true =>
    have hout : ¬ (t ≤ now a ∧ now a < t + timeout) := by
      rw [← inTime_iff h]
      simpa [hgood] using hlate
    have hstart : t ≤ t + timeout := by
      rw [UInt32.le_iff_toNat_le, UInt32.toNat_add, Nat.mod_eq_of_lt h]
      exact Nat.le_add_right _ _
    simp only [Bool.and_true, decide_eq_false_iff_not, forall_const]
    constructor
    · intro hnot
      exact UInt32.le_trans hstart (UInt32.not_lt.mp hnot)
    · exact fun hle hlt => hout ⟨hle, hlt⟩

theorem pollsInTime_iff {polling : List α → Bool}
    (hpolling : ∀ pre, polling pre = true ↔
      t < t + timeout ∧ ∀ a ∈ pre, (decide (now a < t + timeout) && good a) = true) :
    PollsInTime t timeout now good answers polling ↔
      StaysOnClock t timeout now good answers := by
  unfold PollsInTime StaysOnClock
  simp only [hpolling]
  by_cases hzero : timeout = 0
  · subst hzero
    refine iff_of_true (fun pre _ => iff_of_false ?_ ?_) (.inl rfl)
    · exact fun h => UInt32.lt_irrefl t (by simpa using h.1)
    · exact fun h => UInt32.lt_irrefl 0 h.1
  rw [or_iff_right hzero]
  have hpos : 0 < timeout := UInt32.pos_iff_ne_zero.mpr hzero
  by_cases hwrap : t.toNat + timeout.toNat < 2 ^ 32
  · have hstart : t < t + timeout := by
      rw [lt_deadline_iff hwrap]
      have := UInt32.lt_iff_toNat_lt.mp hpos
      simpa using this
    rw [and_iff_right hwrap]
    simp only [hstart, hpos, true_and]
    rw [prefixes_agree_iff]
    · refine forall₂_congr fun a ha => late_iff t timeout now good hwrap ?_
      have hrefused := List.find?_some (Option.mem_def.mp ha)
      rwa [Bool.not_eq_true'] at hrefused
    · intro a ha
      rw [Bool.and_eq_true, inTime_iff hwrap] at ha
      rw [Bool.and_eq_true, decide_eq_true_eq]
      exact ⟨ha.1.2, ha.2⟩
  · refine iff_of_false (fun h => ?_) fun h => hwrap h.1
    have hnow := (h [] List.nil_prefix).mpr ⟨hpos, by simp⟩
    exact UInt32.not_lt.mpr (deadline_le (Nat.not_lt.mp hwrap)) hnow.1

end Polling

theorem polling_waitForPacketAck (t timeout : UInt32) {packetIdentifier : Nat}
    (hid : packetIdentifier ≠ 0) (answers : List AckAnswer) :
    (waitForPacketAck t timeout packetIdentifier answers).polling packetIdentifier (t + timeout) =
        true ↔
      t < t + timeout ∧ ∀ a ∈ answers,
        (decide (a.now < t + timeout) && a.good packetIdentifier) = true := by
  have hanswer (s : AckWait) (a : AckAnswer) :
      AckWait.polling packetIdentifier (t + timeout) ⟨a.ack, a.now, a.status⟩ =
        (decide (a.now < t + timeout) && a.good packetIdentifier) := by
    rw [AckWait.polling, AckAnswer.good, Bool.and_left_comm, Bool.and_assoc]
  have hstart : AckWait.polling packetIdentifier (t + timeout) ⟨0, t, .success⟩ = true ↔
      t < t + timeout := by simp [AckWait.polling, MqttStatus.good, hid.symm]
  exact (going_iff hanswer).trans (and_congr_left fun _ => hstart)

theorem polling_processLoopWithTimeout (task : MqttTask) (t timeout : UInt32)
    (rounds : List PollRound) :
    (processLoopWithTimeout task t timeout rounds).polling (t + timeout) = true ↔
      t < t + timeout ∧ ∀ r ∈ rounds,
        (decide (r.now < t + timeout) && r.status.good) = true := by
  have hanswer (s : PollState) (r : PollRound) :
      PollState.polling (t + timeout) (s.round r) =
        (decide (r.now < t + timeout) && r.status.good) := rfl
  have hstart : PollState.polling (t + timeout) ⟨task, t, .success⟩ = true ↔ t < t + timeout := by
    simp [PollState.polling, MqttStatus.good]
  exact (going_iff hanswer).trans (and_congr_left fun _ => hstart)

/-- For every start, timeout and sequence of readings, both loops keep to their timeout exactly
when neither the deadline nor the clock passes the end of the clock's range on the way. -/
theorem timeouts_survive_wraparound_iff (t timeout : UInt32) (packetIdentifier : Nat)
    (hid : packetIdentifier ≠ 0) (answers : List AckAnswer) (task : MqttTask)
    (rounds : List PollRound) :
    (PollsInTime t timeout AckAnswer.now (AckAnswer.good packetIdentifier) answers (fun pre =>
          (waitForPacketAck t timeout packetIdentifier pre).polling packetIdentifier
            (t + timeout)) ↔
        StaysOnClock t timeout AckAnswer.now (AckAnswer.good packetIdentifier) answers) ∧
      (PollsInTime t timeout PollRound.now (fun r => r.status.good) rounds (fun pre =>
          (processLoopWithTimeout task t timeout pre).polling (t + timeout)) ↔
        StaysOnClock t timeout PollRound.now (fun r => r.status.good) rounds) :=
  ⟨pollsInTime_iff _ _ _ _ _ (polling_waitForPacketAck t timeout hid),
    pollsInTime_iff _ _ _ _ _ (polling_processLoopWithTimeout task t timeout)⟩

namespace Sample

def idleTask : MqttTask := { uplink := Uplink.boot {} }

def ackAnswers : List AckAnswer := [⟨.success, 0, 1010⟩, ⟨.needMoreBytes, 7, 1020⟩]

theorem timeouts_survive_wraparound_ack :
    PollsInTime 1000 5000 AckAnswer.now (AckAnswer.good 7) ackAnswers fun pre =>
      (waitForPacketAck 1000 5000 7 pre).polling 7 (1000 + 5000) := by
  refine (timeouts_survive_wraparound_iff 1000 5000 7 (by decide) ackAnswers idleTask []).1.mpr ?_
  unfold StaysOnClock
  decide +kernel

/-- Six milliseconds before the clock wraps, the deadline is a small number that has long passed:
the wait for an ACK does not poll at all, and returns a failure. Entered earlier, with a deadline
just below the end, the same wait goes on past it once the clock has wrapped. -/
theorem deadline_wraps :
    clockGetTimeMs 4294967290000 = 4294967290 ∧
      (waitForPacketAck (clockGetTimeMs 4294967290000) 5000 7 []).polling 7
        (clockGetTimeMs 4294967290000 + 5000) = false ∧
      (waitForPacketAck (clockGetTimeMs 4294967290000) 5000 7 [⟨.success, 7, 0⟩]).returnsSuccess 7 =
        false ∧
      ¬ PollsInTime (clockGetTimeMs 4294967290000) 5000 AckAnswer.now (AckAnswer.good 7) []
        (fun pre => (waitForPacketAck (clockGetTimeMs 4294967290000) 5000 7 pre).polling 7
          (clockGetTimeMs 4294967290000 + 5000)) ∧
      (waitForPacketAck 4294962290 5000 7 [⟨.success, 0, clockGetTimeMs 4294967296000⟩]).polling 7
        (4294962290 + 5000) = true ∧
      inTime 4294962290 5000 (clockGetTimeMs 4294967296000) = false := by
  obtain ⟨htime, hstopped, hfailed, hlate, hout⟩ :
      clockGetTimeMs 4294967290000 = 4294967290 ∧
      (waitForPacketAck (clockGetTimeMs 4294967290000) 5000 7 []).polling 7
        (clockGetTimeMs 4294967290000 + 5000) = false ∧
      (waitForPacketAck (clockGetTimeMs 4294967290000) 5000 7 [⟨.success, 7, 0⟩]).returnsSuccess 7 =
        false ∧
      (waitForPacketAck 4294962290 5000 7 [⟨.success, 0, clockGetTimeMs 4294967296000⟩]).polling 7
        (4294962290 + 5000) = true ∧
      inTime 4294962290 5000 (clockGetTimeMs 4294967296000) = false := by decide +kernel
  refine ⟨htime, hstopped, hfailed, fun h => ?_, hlate, hout⟩
  exact Bool.false_ne_true
    (hstopped.symm.trans ((h [] List.nil_prefix).mpr ⟨by decide, by simp⟩))

end Sample

/-! ## The lines of the FIFO -/

inductive TaskEvent
  | push (data : Bytes)
  | round (r : PollRound)
  | uplink (e : UplinkEvent)

def taskStep (s : MqttTask) : TaskEvent → MqttTask
  | .push data =>
    { s with
      fifo := responseFifoPush s.fifo data
      accepted :=
        if responseFifoTakes s.fifo data then s.accepted ++ [storedLine data] else s.accepted }
  | .round r => s.round r
  | .uplink e => { s with uplink := uplinkStep s.uplink e }

theorem task_run_round (s : PollState) (rounds : List PollRound) :
    (run PollState.round s rounds).task = run taskStep s.task (rounds.map .round) := by
  induction rounds generalizing s with
  | nil => rfl
  | cons r rounds ih => exact ih (s.round r)

theorem processLoopWithTimeout_rounds (task : MqttTask) (t timeout : UInt32)
    (rounds : List PollRound) :
    ∃ done, done <+: rounds ∧ (processLoopWithTimeout task t timeout rounds).task =
      run taskStep task (done.map .round) := by
  obtain ⟨done, hdone, hrun⟩ :=
    after_eq_run (PollState.polling (t + timeout)) PollState.round ⟨task, t, .success⟩ rounds
  exact ⟨done, hdone, (congrArg PollState.task hrun).trans (task_run_round _ done)⟩

def MqttTask.NothingLost (s : MqttTask) : Prop :=
  ∃ (groups : List (List Bytes)) (queued : List Bytes),
    s.published = groups.map List.flatten ∧ s.accepted = groups.flatten ++ queued ∧
      s.fifo = queued.flatten

def DrainPublishes (t : Step MqttTask TaskEvent) : Prop :=
  match t.event with
  | .push data => (0 : UInt8) ∉ data
  | .round r => t.before.drains r = true →
      (getNextFreeIndexForOutgoingPublishes t.before.uplink.table).isSome ∧
        r.accepted = true ∧ r.packetId ≠ 0
  | .uplink _ => True

instance (t : Step MqttTask TaskEvent) : Decidable (DrainPublishes t) :=
  match t with
  | ⟨_, .push data, _⟩ => inferInstanceAs (Decidable ((0 : UInt8) ∉ data))
  | ⟨s, .round r, _⟩ => inferInstanceAs (Decidable (s.drains r = true →
      (getNextFreeIndexForOutgoingPublishes s.uplink.table).isSome ∧
        r.accepted = true ∧ r.packetId ≠ 0))
  | ⟨_, .uplink _, _⟩ => inferInstanceAs (Decidable True)

structure MqttTask.Backlog (s : MqttTask) : Prop where
  kept : s.NothingLost
  size : s.fifo.length ≤ responseFifoSize
  text : (0 : UInt8) ∉ s.fifo

section Backlog

variable {s s' : MqttTask} {r : PollRound} {data : Bytes}

theorem publishToTopic_succeeds {t : OutgoingPublishes} {packetId : Nat} {payload : PayloadRef}
    {serial : Option Nat} (hfree : (getNextFreeIndexForOutgoingPublishes t).isSome)
    (hid : packetId ≠ 0) : (publishToTopic t packetId true payload serial).1 = true := by
  obtain ⟨i, hi⟩ := Option.isSome_iff_exists.mp hfree
  simp [publishToTopic, hi, hid]

theorem MqttTask.Backlog.congr (h : s.Backlog) (hfifo : s'.fifo = s.fifo)
    (haccepted : s'.accepted = s.accepted) (hpublished : s'.published = s.published) :
    s'.Backlog where
  kept := by
    rw [MqttTask.NothingLost, hfifo, haccepted, hpublished]
    exact h.kept
  size := hfifo ▸ h.size
  text := hfifo ▸ h.text

theorem MqttTask.Backlog.push (h : s.Backlog) (hdata : (0 : UInt8) ∉ data) :
    (taskStep s (.push data)).Backlog := by
  rw [taskStep, responseFifoPush_eq]
  cases htakes : responseFifoTakes s.fifo data with
  | false => exact h.congr rfl rfl rfl
  | true =>
    have hfits : s.fifo.length + (storedLine data).length ≤ responseFifoSize := by
      rw [responseFifoTakes, Bool.and_eq_true, decide_eq_true_eq, decide_eq_true_eq] at htakes
      exact htakes.2
    have hline : (0 : UInt8) ∉ storedLine data := by
      unfold storedLine
      split
      · exact hdata
      · simpa using hdata
    obtain ⟨groups, queued, hpublished, haccepted, hfifo⟩ := h.kept
    refine ⟨⟨groups, queued ++ [storedLine data], hpublished, ?_, ?_⟩, ?_, ?_⟩
    · simp [haccepted]
    · simp [hfifo]
    · simpa using hfits
    · simpa using ⟨h.text, hline⟩

theorem MqttTask.Backlog.drain (h : s.Backlog)
    (hok : s.drains r = true → (getNextFreeIndexForOutgoingPublishes s.uplink.table).isSome ∧
      r.accepted = true ∧ r.packetId ≠ 0) : (s.drain r).Backlog := by
  unfold MqttTask.drain
  by_cases hdrains : s.drains r = true
  · obtain ⟨hfree, haccept, hid⟩ := hok hdrains
    have hempty : s.fifo.drop responseFifoSize = [] := List.drop_of_length_le h.size
    have hmessage : cstr (s.fifo.take responseFifoSize) = s.fifo := by
      rw [List.take_of_length_le h.size, cstr_eq_self h.text]
    simp only [hdrains, if_true, haccept, publishToTopic_succeeds hfree hid, hempty, hmessage]
    obtain ⟨groups, queued, hpublished, haccepted, hfifo⟩ := h.kept
    refine ⟨⟨groups ++ [queued], [], ?_, ?_, rfl⟩, Nat.zero_le _, List.not_mem_nil⟩
    · simp [hpublished, hfifo]
    · simp [haccepted]
  · simpa only [hdrains, Bool.false_eq_true, if_false] using h

theorem MqttTask.Backlog.pairingEvent (h : s.Backlog) : (s.pairingEvent r).Backlog := by
  unfold MqttTask.pairingEvent
  split
  · exact h.congr rfl rfl rfl
  · exact h

theorem MqttTask.Backlog.step (h : s.Backlog) (e : TaskEvent)
    (hok : DrainPublishes ⟨s, e, taskStep s e⟩) : (taskStep s e).Backlog := by
  cases e with
  | push data => exact h.push hok
  | round r => exact (h.drain hok).pairingEvent.congr rfl rfl rfl
  | uplink e => exact h.congr rfl rfl rfl

end Backlog

/-- From a task that has nothing to send, over any pushes, rounds with any outcome and anything
that happens to the connection: where every message finds a slot and is taken by coreMQTT, no
accepted line is ever lost. -/
theorem accepted_lines_published (u : Uplink) (events : List TaskEvent)
    (hok : ∀ t ∈ trace taskStep { uplink := u } events, DrainPublishes t) :
    (run taskStep { uplink := u } events).NothingLost := by
  have hstart : MqttTask.Backlog { uplink := u } :=
    ⟨⟨[], [], rfl, rfl, rfl⟩, Nat.zero_le _, List.not_mem_nil⟩
  exact (trace_induction (Q := fun _ (s : MqttTask) => s.Backlog) hstart
    (fun _ _ e h hok => h.step e hok) events hok).kept

namespace Sample

def sendRound (packetId : Nat) (accepted : Bool) : PollRound where
  periodMs := 1000
  sendTick := 200
  sentTick := 200
  packetId := packetId
  accepted := accepted
  pairingTick := 200
  pairingSentTick := 200
  pairingPacketId := 0
  pairingAccepted := false
  popStored := true
  incoming := []
  status := .success
  now := 10

def broadcastRun (accepted : Bool) : List TaskEvent :=
  [.uplink (.connect false), .push (ascii "11:on\n"), .round (sendRound 1 accepted)]

theorem accepted_lines_published_broadcast :
    (run taskStep idleTask (broadcastRun true)).NothingLost ∧
      (run taskStep idleTask (broadcastRun true)).published = [ascii "11:on\n"] :=
  ⟨accepted_lines_published (Uplink.boot {}) (broadcastRun true) (by decide +kernel),
    by decide +kernel⟩

/-- `MQTT_Publish` fails: the line was taken from the FIFO before, and is nowhere now. -/
theorem failed_publish_loses_line :
    (run taskStep idleTask (broadcastRun false)).accepted = [ascii "11:on\n"] ∧
      (run taskStep idleTask (broadcastRun false)).published = [] ∧
      (run taskStep idleTask (broadcastRun false)).fifo = [] ∧
      ¬ (run taskStep idleTask (broadcastRun false)).NothingLost := by
  obtain ⟨haccepted, hpublished, hfifo⟩ :
      (run taskStep idleTask (broadcastRun false)).accepted = [ascii "11:on\n"] ∧
      (run taskStep idleTask (broadcastRun false)).published = [] ∧
      (run taskStep idleTask (broadcastRun false)).fifo = [] := by decide +kernel
  refine ⟨haccepted, hpublished, hfifo, ?_⟩
  rintro ⟨groups, queued, hgroups, hlines, hqueued⟩
  rw [hpublished] at hgroups
  obtain rfl := List.map_eq_nil_iff.mp hgroups.symm
  rw [haccepted, List.flatten_nil, List.nil_append] at hlines
  rw [hfifo, ← hlines] at hqueued
  exact absurd hqueued (by decide +kernel)

end Sample

end CyThing
