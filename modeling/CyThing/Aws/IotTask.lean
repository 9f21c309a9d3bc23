import CyThing.Aws.ProcessLoop

/-! `aws_iot_task` (`aws/aws_iot_handler`) as a whole: it connects, subscribes, polls, and starts
over. -/

namespace CyThing
open CLib Trace WhileLoop

/-! ## The task -/

def mqttProcessLoopTimeoutMs : UInt32 := 5000

inductive IotAction
  | connect
  | disconnect
  | drain
  | pairingPublish
  | processLoop (status : MqttStatus)
  deriving DecidableEq

inductive IotPoint
  | start
  | connecting
  | subscribing
  | waiting (again : Bool) (timeoutTime : UInt32) (wait : AckWait)
  | resubscribing
  | looping
  | polling (timeoutTime current : UInt32) (status : MqttStatus)
  | closing

structure IotTask where
  task : MqttTask
  point : IotPoint := .start
  subscribePacketIdentifier : Nat := 0
  subAckFailure : Bool := true
  log : List IotAction := []

/-- What the task is answered next, whatever it asks: the state of the Wi-Fi, whether a call
succeeds, the packet id, the clock, what `MQTT_ProcessLoop` brings, the status of a SUBACK. -/
structure IotAnswer where
  wifi : Bool := true
  initOk : Bool := true
  tlsOk : Bool := true
  sessionOk : Bool := true
  session : Bool := false
  resendOk : Bool := true
  subscribeOk : Bool := true
  packetId : Nat := 1
  now : UInt32 := 0
  ack : AckAnswer := ⟨.success, 0, 0⟩
  incoming : List Incoming := []
  subAck : Option Bool := none
  backoffOk : Bool := true
  round : PollRound

inductive IotEvent
  | push (data : Bytes)
  | pairingPush (storeOk : Bool) (unix : Nat) (event userSub role : Bytes)
  | answer (a : IotAnswer)

section Calls

variable (s : IotTask) (a : IotAnswer)

def IotTask.initializeMqtt : IotTask :=
  if a.wifi then
    { s with
      task := taskStep s.task (.uplink .restart)
      subscribePacketIdentifier := 0
      subAckFailure := false
      point := if a.initOk then .connecting else .closing }
  else s

/-- An attempt of `connectToServerWithBackoffRetries`; the next one is made by the same call, or
by another after the backoff is exhausted. -/
def IotTask.connectToServerWithBackoffRetries : IotTask :=
  if a.tlsOk && a.sessionOk then
    let brokerSessionPresent := a.session && s.task.uplink.clientSessionPresent
    { s with
      task := taskStep s.task (.uplink (.connect a.session))
      point := if brokerSessionPresent && !a.resendOk then .closing else .subscribing
      log := s.log ++ [.connect] }
  else { s with log := s.log ++ [.disconnect] }

def IotAnswer.wait (again : Bool) : IotPoint :=
  .waiting again (a.now + mqttProcessLoopTimeoutMs) ⟨0, a.now, .success⟩

def IotTask.subscribeToTopics : IotTask :=
  { s with
    subscribePacketIdentifier := a.packetId
    point := if a.subscribeOk then a.wait false else .closing }

def IotTask.resubscribe : IotTask :=
  { s with point := if a.subscribeOk then a.wait true else .closing }

def IotTask.acked (again : Bool) (wait : AckWait) : IotPoint :=
  if wait.returnsSuccess s.subscribePacketIdentifier then
    if s.subAckFailure then
      if again && !a.backoffOk then .closing else .resubscribing
    else .looping
  else .closing

def IotTask.waitForPacketAck (again : Bool) (timeoutTime : UInt32) (wait : AckWait) : IotTask :=
  if wait.polling s.subscribePacketIdentifier timeoutTime then
    { s with
      task := s.task.processLoop a.incoming
      subAckFailure := a.subAck.getD s.subAckFailure
      point := .waiting again timeoutTime ⟨a.ack.ack, a.ack.now, a.ack.status⟩
      log := s.log ++ [.processLoop a.ack.status] }
  else { s with point := s.acked a again wait }

def MqttTask.actions (s : MqttTask) (r : PollRound) : List IotAction :=
  (if s.drains r then [.drain] else []) ++
    (if (s.drain r).sendsPairing r then [.pairingPublish] else []) ++ [.processLoop r.status]

def IotTask.processLoopWithTimeout (timeoutTime current : UInt32) (status : MqttStatus) :
    IotTask :=
  let p : PollState := ⟨s.task, current, status⟩
  if p.polling timeoutTime then
    { s with
      task := (p.round a.round).task
      point := .polling timeoutTime (p.round a.round).current (p.round a.round).status
      log := s.log ++ s.task.actions a.round }
  else { s with point := if status = .recvFailed then .closing else .looping }

def IotTask.next : IotTask :=
  match s.point with
  | .start => s.initializeMqtt a
  | .connecting => s.connectToServerWithBackoffRetries a
  | .subscribing => s.subscribeToTopics a
  | .waiting again timeoutTime wait => s.waitForPacketAck a again timeoutTime wait
  | .resubscribing => s.resubscribe a
  | .looping => { s with point := .polling (a.now + mqttProcessLoopTimeoutMs) a.now .success }
  | .polling timeoutTime current status =>
    s.processLoopWithTimeout a timeoutTime current status
  | .closing => { s with point := .start, log := s.log ++ [.disconnect] }

end Calls

def iotStep (s : IotTask) : IotEvent → IotTask
  | .push data => { s with task := taskStep s.task (.push data) }
  | .pairingPush storeOk unix event userSub role =>
    { s with task := taskStep s.task (.uplink (.push storeOk unix event userSub role)) }
  | .answer a => s.next a

def IotTask.boot (u : Uplink) : IotTask := { task := { uplink := u } }

/-! ## The loops it calls -/

section Loops

variable {s : IotTask} {again : Bool} {t : UInt32} (answers : List IotAnswer)

theorem waiting_run
    (hpoint : s.point = .waiting again (t + mqttProcessLoopTimeoutMs) ⟨0, t, .success⟩)
    (hgoing : ∀ pre, pre <+: answers → pre.length < answers.length →
      (waitForPacketAck t mqttProcessLoopTimeoutMs s.subscribePacketIdentifier
        (pre.map IotAnswer.ack)).polling s.subscribePacketIdentifier
          (t + mqttProcessLoopTimeoutMs) = true) :
    (run IotTask.next s answers).point = .waiting again (t + mqttProcessLoopTimeoutMs)
      (waitForPacketAck t mqttProcessLoopTimeoutMs s.subscribePacketIdentifier
        (answers.map IotAnswer.ack)) := by
  refine (simulates_after (R := fun (m : IotTask) w =>
    m.point = .waiting again (t + mqttProcessLoopTimeoutMs) w ∧
      m.subscribePacketIdentifier = s.subscribePacketIdentifier) ?_ ⟨hpoint, rfl⟩ answers
    hgoing).1
  rintro m w a ⟨hm, hid⟩ hpolling
  rw [← hid] at hpolling
  simp only [IotTask.next, hm, IotTask.waitForPacketAck, hpolling, if_true, true_and]
  exact hid

theorem polling_run (hpoint : s.point = .polling (t + mqttProcessLoopTimeoutMs) t .success)
    (hgoing : ∀ pre, pre <+: answers → pre.length < answers.length →
      (processLoopWithTimeout s.task t mqttProcessLoopTimeoutMs
        (pre.map IotAnswer.round)).polling (t + mqttProcessLoopTimeoutMs) = true) :
    (run IotTask.next s answers).task =
        (processLoopWithTimeout s.task t mqttProcessLoopTimeoutMs
          (answers.map IotAnswer.round)).task ∧
      (run IotTask.next s answers).point = .polling (t + mqttProcessLoopTimeoutMs)
        (processLoopWithTimeout s.task t mqttProcessLoopTimeoutMs
          (answers.map IotAnswer.round)).current
        (processLoopWithTimeout s.task t mqttProcessLoopTimeoutMs
          (answers.map IotAnswer.round)).status := by
  refine simulates_after (R := fun (m : IotTask) (p : PollState) => m.task = p.task ∧
    m.point = .polling (t + mqttProcessLoopTimeoutMs) p.current p.status) ?_ ⟨rfl, hpoint⟩ answers
    hgoing
  rintro m ⟨task, current, status⟩ a ⟨rfl, hm⟩ hpolling
  dsimp only at hm
  simp only [IotTask.next, hm, IotTask.processLoopWithTimeout, hpolling, if_true, and_self]

end Loops

theorem processLoop_eq_run (s : MqttTask) (incoming : List Incoming) :
    s.processLoop incoming =
      run taskStep s (incoming.map fun i => .uplink i.event) := by
  induction incoming generalizing s with
  | nil => rfl
  | cons i incoming ih => exact ih (taskStep s (.uplink i.event))

theorem iotStep_task (s : IotTask) (e : IotEvent) :
    ∃ events, (iotStep s e).task = run taskStep s.task events := by
  cases e with
  | push data => exact ⟨[.push data], rfl⟩
  | pairingPush storeOk unix event userSub role =>
    exact ⟨[.uplink (.push storeOk unix event userSub role)], rfl⟩
  | answer a =>
    change ∃ events, (s.next a).task = _
    unfold IotTask.next
    split
    · unfold IotTask.initializeMqtt
      split
      · exact ⟨[.uplink .restart], rfl⟩
      · exact ⟨[], rfl⟩
    · unfold IotTask.connectToServerWithBackoffRetries
      split
      · exact ⟨[.uplink (.connect a.session)], rfl⟩
      · exact ⟨[], rfl⟩
    · exact ⟨[], rfl⟩
    · unfold IotTask.waitForPacketAck
      split
      · exact ⟨_, processLoop_eq_run _ _⟩
      · exact ⟨[], rfl⟩
    · exact ⟨[], rfl⟩
    · exact ⟨[], rfl⟩
    · unfold IotTask.processLoopWithTimeout
      dsimp only
      split
      · exact ⟨[.round a.round], rfl⟩
      · exact ⟨[], rfl⟩
    · exact ⟨[], rfl⟩

theorem iotTask_run (s : IotTask) (es : List IotEvent) :
    ∃ events, (run iotStep s es).task = run taskStep s.task events := by
  induction es generalizing s with
  | nil => exact ⟨[], rfl⟩
  | cons e es ih =>
    obtain ⟨first, hfirst⟩ := iotStep_task s e
    obtain ⟨rest, hrest⟩ := ih (iotStep s e)
    refine ⟨first ++ rest, ?_⟩
    rw [run_cons, hrest, hfirst, run_append]

/-! ## A failed connection is not used -/

def IotAction.uses : IotAction → Bool
  | .drain | .pairingPublish | .processLoop _ => true
  | .connect | .disconnect => false

def NeverUsedDead (log : List IotAction) : Prop :=
  ∀ pre status mid use post, log = pre ++ .processLoop status :: (mid ++ use :: post) →
    status.good = false → use.uses = true →
      ∃ before since, mid = before ++ .disconnect :: since ∧ .connect ∈ since

inductive Connection
  | closed | live | failed
  deriving DecidableEq

def Connection.step : Connection → IotAction → Connection
  | .failed, .connect => .failed
  | _, .connect => .live
  | _, .disconnect => .closed
  | c, .processLoop status => if status.good then c else .failed
  | c, .drain => c
  | c, .pairingPublish => c

def connection (log : List IotAction) : Connection := run Connection.step .closed log

def UsedLive (log : List IotAction) : Prop :=
  ∀ t ∈ trace Connection.step .closed log, t.event.uses = true → t.before = .live

section Connection

variable {log : List IotAction} {c : Connection} {action : IotAction}

theorem connection_concat (log : List IotAction) (action : IotAction) :
    connection (log ++ [action]) = (connection log).step action := by
  rw [connection, run_append]
  rfl

theorem UsedLive.concat (h : UsedLive log) (haction : action.uses = true → connection log = .live) :
    UsedLive (log ++ [action]) := by
  rw [UsedLive, trace_concat]
  exact List.forall_mem_append.mpr ⟨h, List.forall_mem_singleton.mpr haction⟩

theorem Connection.step_ne_live (hc : c ≠ .live) (haction : action ≠ .connect) :
    c.step action ≠ .live := by
  cases action with
  | connect => exact absurd rfl haction
  | disconnect => cases c <;> decide
  | drain => cases c <;> simp_all [Connection.step]
  | pairingPublish => cases c <;> simp_all [Connection.step]
  | processLoop status =>
    have hstep : c.step (.processLoop status) = if status.good then c else .failed := by
      cases c <;> rfl
    rw [hstep]
    split
    · exact hc
    · decide

theorem connect_mem_of_live (hc : c ≠ .live) (h : run Connection.step c log = .live) :
    .connect ∈ log := by
  induction log generalizing c with
  | nil => exact absurd h hc
  | cons action log ih =>
    by_cases haction : action = .connect
    · exact haction ▸ List.mem_cons_self
    · exact List.mem_cons_of_mem _ (ih (Connection.step_ne_live hc haction) h)

theorem reconnected_of_live (h : run Connection.step .failed log = .live) :
    ∃ before since, log = before ++ .disconnect :: since ∧ .connect ∈ since := by
  induction log with
  | nil => cases h
  | cons action log ih =>
    by_cases haction : action = .disconnect
    · subst haction
      exact ⟨[], log, rfl, connect_mem_of_live (by decide) h⟩
    · have hstep : Connection.step .failed action = .failed := by
        cases action with
        | disconnect => exact absurd rfl haction
        | processLoop status => exact ite_self _
        | _ => rfl
      rw [run_cons, hstep] at h
      obtain ⟨before, since, rfl, hsince⟩ := ih h
      exact ⟨action :: before, since, rfl, hsince⟩

theorem UsedLive.neverUsedDead (h : UsedLive log) : NeverUsedDead log := by
  rintro pre status mid use post rfl hbad huse
  have hlive : connection (pre ++ .processLoop status :: mid) = .live := by
    have hlog : pre ++ .processLoop status :: (mid ++ use :: post) =
        (pre ++ .processLoop status :: mid) ++ use :: post := by simp
    rw [UsedLive, hlog, trace_append] at h
    exact h _ (List.mem_append_right _ List.mem_cons_self) huse
  refine reconnected_of_live ?_
  have hfailed : (connection pre).step (.processLoop status) = .failed := by
    cases connection pre <;> exact if_neg (ne_true_of_eq_false hbad)
  rwa [connection, run_append, run_cons, ← connection, hfailed] at hlive

end Connection

def IotPoint.Fits : IotPoint → Connection → Prop
  | .start, c => c = .closed
  | .connecting, c => c = .closed
  | .subscribing, c => c = .live
  | .waiting _ _ wait, c => wait.status.good = true → c = .live
  | .resubscribing, c => c = .live
  | .looping, c => c = .live
  | .polling _ _ status, c => status.good = true ∧ c = .live ∨ status = .recvFailed
  | .closing, _ => True

structure IotTask.Sound (s : IotTask) : Prop where
  used : UsedLive s.log
  fits : s.point.Fits (connection s.log)

def IotPoint.polls : IotPoint → Bool
  | .polling .. => true
  | _ => false

def IotEvent.pollStatus? : IotEvent → Option MqttStatus
  | .answer a => some a.round.status
  | _ => none

def StatusHandled (t : Step IotTask IotEvent) : Prop :=
  t.before.point.polls = true → ∀ status ∈ t.event.pollStatus?,
    status.good = true ∨ status = .recvFailed

instance (t : Step IotTask IotEvent) : Decidable (StatusHandled t) :=
  inferInstanceAs (Decidable (_ → _))

section Sound

variable {s : IotTask} {log : List IotAction}

theorem UsedLive.actions (h : UsedLive log) (hlive : connection log = .live) (task : MqttTask)
    (r : PollRound) : UsedLive (log ++ task.actions r) ∧
      connection (log ++ task.actions r) = if r.status.good then .live else .failed := by
  have hone {log : List IotAction} (h : UsedLive log ∧ connection log = .live) (b : Bool)
      (action : IotAction) (hstep : Connection.step .live action = .live) :
      UsedLive (log ++ if b then [action] else []) ∧
        connection (log ++ if b then [action] else []) = .live := by
    cases b with
    | false => simpa using h
    | true =>
      rw [if_pos rfl, connection_concat, h.2]
      exact ⟨h.1.concat fun _ => h.2, hstep⟩
  have hsent := hone (hone ⟨h, hlive⟩ (task.drains r) .drain rfl)
    ((task.drain r).sendsPairing r) .pairingPublish rfl
  rw [MqttTask.actions, ← List.append_assoc, ← List.append_assoc]
  refine ⟨hsent.1.concat fun _ => hsent.2, ?_⟩
  rw [connection_concat, hsent.2]
  rfl

theorem IotTask.Sound.fits_at {point : IotPoint} (h : s.Sound) (hpoint : s.point = point) :
    point.Fits (connection s.log) := hpoint ▸ h.fits

theorem sound_initializeMqtt (h : s.Sound) (hpoint : s.point = .start) (a : IotAnswer) :
    (s.initializeMqtt a).Sound := by
  have hclosed : connection s.log = .closed := h.fits_at hpoint
  unfold IotTask.initializeMqtt
  split
  · refine ⟨h.used, ?_⟩
    dsimp only
    split
    · exact hclosed
    · exact trivial
  · exact h

theorem sound_connect (h : s.Sound) (hpoint : s.point = .connecting) (a : IotAnswer) :
    (s.connectToServerWithBackoffRetries a).Sound := by
  have hclosed : connection s.log = .closed := h.fits_at hpoint
  unfold IotTask.connectToServerWithBackoffRetries
  split
  · refine ⟨h.used.concat (fun huse => absurd huse Bool.false_ne_true), ?_⟩
    dsimp only
    split
    · exact trivial
    · rw [connection_concat, hclosed]
      rfl
  · refine ⟨h.used.concat (fun huse => absurd huse Bool.false_ne_true), ?_⟩
    dsimp only
    rw [hpoint, connection_concat, hclosed]
    rfl

theorem fits_wait (hlive : connection log = .live) (a : IotAnswer) (again : Bool) :
    (if a.subscribeOk then a.wait again else .closing).Fits (connection log) := by
  split
  · exact fun _ => hlive
  · exact trivial

theorem sound_waitForPacketAck {again : Bool} {timeoutTime : UInt32} {wait : AckWait}
    (h : s.Sound) (hpoint : s.point = .waiting again timeoutTime wait) (a : IotAnswer) :
    (s.waitForPacketAck a again timeoutTime wait).Sound := by
  have hfits : wait.status.good = true → connection s.log = .live :=
    h.fits_at hpoint
  unfold IotTask.waitForPacketAck
  split
  · next hpolling =>
    rw [AckWait.polling, Bool.and_eq_true] at hpolling
    have hlive := hfits hpolling.2
    refine ⟨h.used.concat fun _ => hlive, fun hgood => ?_⟩
    rw [connection_concat, hlive]
    exact if_pos hgood
  · refine ⟨h.used, ?_⟩
    dsimp only
    unfold IotTask.acked
    split
    · next hsuccess =>
      -- Only a wait that saw no failure is followed by a use of the connection.
      rw [AckWait.returnsSuccess, Bool.and_eq_true] at hsuccess
      have hlive := hfits hsuccess.1
      split
      · split
        · exact trivial
        · exact hlive
      · exact hlive
    · exact trivial

theorem sound_processLoopWithTimeout {timeoutTime current : UInt32} {status : MqttStatus}
    (h : s.Sound) (hpoint : s.point = .polling timeoutTime current status) (a : IotAnswer)
    (hok : a.round.status.good = true ∨ a.round.status = .recvFailed) :
    (s.processLoopWithTimeout a timeoutTime current status).Sound := by
  have hfits : status.good = true ∧ connection s.log = .live ∨ status = .recvFailed :=
    h.fits_at hpoint
  unfold IotTask.processLoopWithTimeout
  dsimp only
  split
  · next hpolling =>
    rw [PollState.polling, Bool.and_eq_true] at hpolling
    have hlive : connection s.log = .live := by
      rcases hfits with ⟨-, hlive⟩ | rfl
      · exact hlive
      · cases hpolling.2
    obtain ⟨hused, hconnection⟩ := h.used.actions hlive s.task a.round
    refine ⟨hused, hok.imp_left fun hgood => ⟨hgood, ?_⟩⟩
    exact hconnection.trans (if_pos hgood)
  · refine ⟨h.used, ?_⟩
    dsimp only
    split
    · exact trivial
    · next hstatus => exact (hfits.resolve_right hstatus).2

theorem IotTask.Sound.next (h : s.Sound) (a : IotAnswer)
    (hok : s.point.polls = true → a.round.status.good = true ∨ a.round.status = .recvFailed) :
    (s.next a).Sound := by
  unfold IotTask.next
  split
  · next hpoint => exact sound_initializeMqtt h hpoint a
  · next hpoint => exact sound_connect h hpoint a
  · next hpoint => exact ⟨h.used, fits_wait (h.fits_at hpoint) a false⟩
  · next hpoint => exact sound_waitForPacketAck h hpoint a
  · next hpoint => exact ⟨h.used, fits_wait (h.fits_at hpoint) a true⟩
  · next hpoint => exact ⟨h.used, .inl ⟨rfl, h.fits_at hpoint⟩⟩
  · next hpoint => exact sound_processLoopWithTimeout h hpoint a (hok (by rw [hpoint]; rfl))
  · refine ⟨h.used.concat (fun huse => absurd huse Bool.false_ne_true), ?_⟩
    dsimp only
    rw [connection_concat]
    cases connection s.log <;> rfl

theorem IotTask.Sound.step (h : s.Sound) (e : IotEvent)
    (hok : StatusHandled ⟨s, e, iotStep s e⟩) : (iotStep s e).Sound := by
  cases e with
  | push data => exact ⟨h.used, h.fits⟩
  | pairingPush storeOk unix event userSub role => exact ⟨h.used, h.fits⟩
  | answer a => exact h.next a fun hpolls => hok hpolls _ rfl

end Sound

/-- Over every run of the task from boot, with whatever answers and whatever is pushed: where the
statuses of `MQTT_ProcessLoop` in `processLoopWithTimeout` are ones that the task knows, no
connection is used after it failed. -/
theorem failed_session_unused (u : Uplink) (events : List IotEvent)
    (hok : ∀ t ∈ trace iotStep (.boot u) events, StatusHandled t) :
    NeverUsedDead (run iotStep (.boot u) events).log := by
  have hboot : (IotTask.boot u).Sound := ⟨List.forall_mem_nil _, rfl⟩
  exact (trace_induction (Q := fun _ s => IotTask.Sound s) hboot
    (fun _ _ e h hok => h.step e hok) events hok).used.neverUsedDead

namespace Sample

def iotAnswer (status : MqttStatus) : IotAnswer where
  ack := ⟨.success, 1, 10⟩
  round := { sendRound 1 true with status := status }

def pollRun (status : MqttStatus) (more : Nat) : List IotEvent :=
  List.replicate 6 (.answer (iotAnswer .success)) ++
    [.answer (iotAnswer status), .push (ascii "11:on\n")] ++
    List.replicate more (.answer (iotAnswer .success))

theorem failed_session_unused_reconnecting :
    NeverUsedDead (run iotStep (.boot (Uplink.boot {})) (pollRun .recvFailed 9)).log ∧
      (run iotStep (.boot (Uplink.boot {})) (pollRun .recvFailed 9)).log =
        [.connect, .processLoop .success, .processLoop .recvFailed, .disconnect, .connect,
          .processLoop .success, .drain, .processLoop .success] :=
  ⟨failed_session_unused (Uplink.boot {}) (pollRun .recvFailed 9) (by decide +kernel),
    by decide +kernel⟩

/-- The broker does not answer a ping: `processLoopWithTimeout` returns, is called again, and
publishes on the same connection. -/
theorem timed_out_session_used :
    (run iotStep (.boot (Uplink.boot {})) (pollRun .keepAliveTimeout 3)).log =
        [.connect, .processLoop .success, .processLoop .keepAliveTimeout, .drain,
          .processLoop .success] ∧
      ¬ NeverUsedDead (run iotStep (.boot (Uplink.boot {})) (pollRun .keepAliveTimeout 3)).log := by
  have hlog : (run iotStep (.boot (Uplink.boot {})) (pollRun .keepAliveTimeout 3)).log =
      [.connect, .processLoop .success, .processLoop .keepAliveTimeout, .drain,
        .processLoop .success] := by decide +kernel
  refine ⟨hlog, fun h => ?_⟩
  obtain ⟨before, since, hmid, -⟩ := h [.connect, .processLoop .success] .keepAliveTimeout []
    .drain [.processLoop .success] hlog rfl rfl
  exact absurd hmid.symm (by simp)

end Sample

end CyThing
