import CyThing.CoreMqtt.Protocol
import CyThing.CoreMqtt.ReceiveLoop

/-! What the client does to its records, to the application, on the wire and in its log: every
run of the client, over any number of connections, is a list of events, each of them one of a few
kinds. -/

namespace CyThing.CoreMqtt
open CLib Trace Simulation

/-! ## Reading -/

def Read (c c' : Context) : Prop :=
  ∃ networkBuffer index reads times now received,
    c' = { c with networkBuffer, index, reads, times, now, received }

theorem Read.refl (c : Context) : Read c c :=
  ⟨c.networkBuffer, c.index, c.reads, c.times, c.now, c.received, rfl⟩

theorem Read.trans {c c' c'' : Context} (h : Read c c') (h' : Read c' c'') : Read c c'' := by
  obtain ⟨_, _, _, _, _, _, rfl⟩ := h
  obtain ⟨networkBuffer, index, reads, times, now, received, rfl⟩ := h'
  exact ⟨networkBuffer, index, reads, times, now, received, rfl⟩

theorem read_getTime (c : Context) : Read c (getTime c).2 := by
  rw [getTime]
  split
  · exact Read.refl c
  · next now times _ => exact ⟨c.networkBuffer, c.index, c.reads, times, now, c.received, rfl⟩

theorem read_buffer (c : Context) (networkBuffer : Bytes) (index : Nat) :
    Read c { c with networkBuffer, index } :=
  ⟨networkBuffer, index, c.reads, c.times, c.now, c.received, rfl⟩

theorem read_espTlsTransportRecv (c : Context) (dataLen : Nat) :
    Read c (espTlsTransportRecv c dataLen).2 := by
  rcases espTlsTransportRecv_cases c dataLen with ⟨reads, heq⟩ | ⟨bytes, reads, -, heq⟩ <;> rw [heq]
  · exact ⟨c.networkBuffer, c.index, reads, c.times, c.now, c.received, rfl⟩
  · exact ⟨c.networkBuffer, c.index, reads, c.times, c.now, _, rfl⟩

theorem read_recvExactLoop (reads : List TlsRead) (c : Context) (total remaining : Nat)
    (lastDataRecvTimeMs : UInt32) :
    Read c (recvExactLoop reads c total remaining lastDataRecvTimeMs).2 := by
  induction reads generalizing c total remaining lastDataRecvTimeMs with
  | nil => exact read_espTlsTransportRecv c remaining
  | cons read reads ih =>
    have hread := read_espTlsTransportRecv c remaining
    rw [recvExactLoop]
    rcases hrecv : espTlsTransportRecv c remaining with ⟨_ | bytes, c'⟩ <;> rw [hrecv] at hread
    · exact hread
    have htime := hread.trans (read_getTime c')
    simp only
    split
    · split
      · exact htime
      · exact htime.trans (ih _ _ _ _)
    · have hstore := htime.trans (read_buffer (getTime c').2
        (store (getTime c').2.networkBuffer total bytes) (getTime c').2.index)
      split
      · exact hstore
      · exact hstore.trans (ih _ _ _ _)

theorem read_recvExact (c : Context) (bytesToRecv : Nat) : Read c (recvExact c bytesToRecv).2 := by
  simp only [recvExact]
  split
  · exact read_getTime c
  · exact (read_getTime c).trans (read_recvExactLoop _ _ _ _ _)

theorem read_discardLoop (rounds : Nat) (c : Context) (bytesToReceive remaining : Nat) :
    Read c (discardLoop rounds c bytesToReceive remaining).2 := by
  induction rounds generalizing c bytesToReceive remaining with
  | zero => exact Read.refl c
  | succ rounds ih =>
    rw [discardLoop]
    split
    · exact Read.refl c
    · have hread := read_recvExact c (min remaining bytesToReceive)
      simp only
      split
      · exact hread
      · exact hread.trans (ih _ _ _)

theorem read_discardStoredPacket (c : Context) (mqttPacketSize : Nat) :
    Read c (discardStoredPacket c mqttPacketSize).2 :=
  (read_discardLoop _ c _ _).trans (read_buffer _ _ _)

theorem read_getRemainingLengthLoop (rounds : Nat) (c : Context)
    (remainingLength multiplier bytesDecoded : Nat) :
    Read c (getRemainingLengthLoop rounds c remainingLength multiplier bytesDecoded).2 := by
  induction rounds generalizing c remainingLength multiplier bytesDecoded with
  | zero => exact Read.refl c
  | succ rounds ih =>
    have hread := read_espTlsTransportRecv c 1
    rw [getRemainingLengthLoop]
    split
    · exact Read.refl c
    · split
      · next encodedByte c' heq =>
        rw [heq] at hread
        simp only
        split
        · exact hread.trans (ih _ _ _ _)
        · exact hread
      · next c' _ heq =>
        rw [heq] at hread
        exact hread

theorem read_getRemainingLength (c : Context) : Read c (getRemainingLength c).2 := by
  have hread := read_getRemainingLengthLoop 5 c 0 1 0
  rw [getRemainingLength]
  split
  · next heq =>
    rw [heq] at hread
    exact hread
  · next heq =>
    rw [heq] at hread
    exact hread

theorem getIncoming_cases {c c' : Context} {status : MqttStatus} {packet : UInt8 × Nat}
    (h : mqttGetIncomingPacketTypeAndLength c = (status, packet, c')) :
    (∃ bytes, espTlsTransportRecv c 1 = (bytes, c') ∧ status ≠ .success ∧
      (status = .noDataAvailable → bytes = some [])) ∨
    ∃ type c₁ remainingLength, espTlsTransportRecv c 1 = (some [type], c₁) ∧
      getRemainingLength c₁ = (remainingLength, c') ∧ status ≠ .noDataAvailable ∧
      (status = .success → packet.1 = type ∧ remainingLength = some packet.2) := by
  rw [mqttGetIncomingPacketTypeAndLength] at h
  -- the length of what came decides, 0, 1 or more bytes
  rcases hrecv : espTlsTransportRecv c 1 with ⟨_ | _ | ⟨type, _ | ⟨_, _⟩⟩, c₁⟩ <;>
    simp only [hrecv] at h
  · cases h
    exact .inl ⟨_, rfl, by decide, fun h => by cases h⟩
  · cases h
    exact .inl ⟨_, rfl, by decide, fun _ => rfl⟩
  · by_cases hvalid : incomingPacketValid type
    · rcases hlength : getRemainingLength c₁ with ⟨_ | remainingLength, c₂⟩ <;>
        simp only [hvalid, if_true, hlength] at h <;> cases h
      · exact .inr ⟨type, c₁, none, rfl, hlength, by decide, fun h => by cases h⟩
      · exact .inr ⟨type, c₁, some remainingLength, rfl, hlength, by decide, fun _ => ⟨rfl, rfl⟩⟩
    · rw [if_neg hvalid] at h
      cases h
      exact .inl ⟨_, rfl, by decide, fun h => by cases h⟩
  · cases h
    exact .inl ⟨_, rfl, by decide, fun h => by cases h⟩

theorem read_getIncoming (c : Context) : Read c (mqttGetIncomingPacketTypeAndLength c).2.2 := by
  have hread := read_espTlsTransportRecv c 1
  rcases hincoming : mqttGetIncomingPacketTypeAndLength c with ⟨status, packet, c'⟩
  obtain ⟨bytes, hrecv, -⟩ | ⟨type, c₁, remainingLength, hrecv, hlength, -⟩ :=
    getIncoming_cases hincoming
  · rw [hrecv] at hread
    exact hread
  · rw [hrecv] at hread
    have hrest := read_getRemainingLength c₁
    rw [hlength] at hrest
    exact hread.trans hrest

theorem read_connackLoop (timeoutMs entryTimeMs : UInt32) (reads : List TlsRead) (c : Context)
    (loopCount : Nat) : Read c (connackLoop timeoutMs entryTimeMs reads c loopCount).2.2 := by
  induction reads generalizing c loopCount with
  | nil => exact read_getIncoming c
  | cons read reads ih =>
    have hread := read_getIncoming c
    rw [connackLoop]
    rcases hincoming : mqttGetIncomingPacketTypeAndLength c with ⟨status, packet, c'⟩
    simp only [hincoming] at hread ⊢
    by_cases htimeout : timeoutMs > 0
    · simp only [htimeout, if_true]
      have htime := hread.trans (read_getTime c')
      split
      · exact htime.trans (ih _ _)
      · exact htime
    · simp only [htimeout, if_false]
      split
      · exact hread.trans (ih _ _)
      · exact hread

theorem read_discardPacketLoop (timeoutMs entryTimeMs : UInt32) (rounds : Nat) (c : Context)
    (bytesToReceive remaining : Nat) :
    Read c (discardPacketLoop timeoutMs entryTimeMs rounds c bytesToReceive remaining).2 := by
  induction rounds generalizing c bytesToReceive remaining with
  | zero => exact Read.refl c
  | succ rounds ih =>
    rw [discardPacketLoop]
    split
    · exact Read.refl c
    · have hread := read_recvExact c (min remaining bytesToReceive)
      simp only
      split
      · exact hread
      · have htime := hread.trans (read_getTime _)
        split
        · exact htime
        · exact htime.trans (ih _ _ _)

theorem read_receivePacket (c : Context) (remainingLength : Nat) (remainingTimeMs : UInt32) :
    Read c (receivePacket c remainingLength remainingTimeMs).2 := by
  simp only [receivePacket]
  split
  · exact (read_getTime c).trans (read_discardPacketLoop _ _ _ _ _ _)
  · exact read_recvExact c remainingLength

theorem read_receiveConnack (c : Context) (timeoutMs : UInt32)
    (cleanSession sessionPresent : Bool) :
    Read c (receiveConnack c timeoutMs cleanSession sessionPresent).2.2 := by
  have hread := (read_getTime c).trans
    (read_connackLoop timeoutMs (getTime c).1 (getTime c).2.reads (getTime c).2 0)
  simp only [receiveConnack]
  rcases hloop : connackLoop timeoutMs (getTime c).1 (getTime c).2.reads (getTime c).2 0 with
    ⟨status, ⟨type, remainingLength⟩, c'⟩
  simp only [hloop] at hread ⊢
  split
  · exact hread
  have htime := hread.trans (read_getTime c')
  split
  · exact htime
  generalize (if calculateElapsedTime (getTime c').1 (getTime c).1 < timeoutMs then
    timeoutMs - calculateElapsedTime (getTime c').1 (getTime c).1 else 0) = remainingTimeMs
  have hpacket := htime.trans (read_receivePacket (getTime c').2 remainingLength remainingTimeMs)
  split
  · exact hpacket
  · exact hpacket

/-! ## Events -/

structure View where
  records : PublishRecords
  calls : List AppCall
  sent : Bytes
  log : List LogEntry

def Context.view (c : Context) : View := ⟨c.publishRecords, c.calls, c.sent, c.log⟩

def PubAckType.byte : PubAckType → UInt8
  | .puback => packetTypePuback
  | .pubrec => packetTypePubrec
  | .pubrel => packetTypePubrel
  | .pubcomp => packetTypePubcomp

inductive Event
  /-- bytes that change no record: what is cut short, and all that is not acknowledged by ids -/
  | wrote (bytes : Bytes)
  /-- a callback that is not a publish of QoS 1 or 2 -/
  | called (call : AppCall)
  /-- a publish gets no record to be sent with -/
  | unreserved (packetId : UInt16) (qos : Qos)
  /-- a publish has a record, and not all of it is sent -/
  | unsent (packetId : UInt16) (qos : Qos) (bytes : Bytes)
  /-- a publish has a record and is sent -/
  | published (packetId : UInt16) (qos : Qos) (bytes : Bytes)
  /-- a publish gets a record and goes to the application -/
  | delivered (call : AppCall) (qos : Qos)
  /-- a publish that came gets no record -/
  | refused (packetId : UInt16) (qos : Qos)
  | ackReceived (packetId : UInt16) (packetType : PubAckType)
  /-- an acknowledgement is sent and noted in the record -/
  | ackSent (packetId : UInt16) (packetType : PubAckType)
  /-- a new session -/
  | cleared
  deriving DecidableEq

def Event.engineCalls : Event → List EngineCall
  | .wrote _ | .called _ => []
  | .unreserved packetId qos | .unsent packetId qos _ => [.reserve packetId qos]
  | .published packetId qos _ => [.reserve packetId qos, .publish packetId .send qos]
  | .delivered call qos => [.publish call.packetIdentifier .receive qos]
  | .refused packetId qos => [.publish packetId .receive qos]
  | .ackReceived packetId packetType => [.ack packetId packetType .receive]
  | .ackSent packetId packetType => [.ack packetId packetType .send]
  | .cleared => [.clear]

def Event.calls : Event → List AppCall
  | .called call | .delivered call _ => [call]
  | _ => []

def Event.bytes : Event → Bytes
  | .wrote bytes | .unsent _ _ bytes | .published _ _ bytes => bytes
  | .ackSent packetId packetType => packetType.byte :: 2 :: uint16Bytes packetId
  | _ => []

def Event.entry : Event → Option LogEntry
  | .unsent packetId qos _ => some (.unsent packetId qos)
  | .published packetId qos _ => some (.published packetId qos)
  | .delivered call qos => some (.delivered call.packetIdentifier qos)
  | .ackReceived packetId packetType => some (.ackReceived packetId packetType)
  | .ackSent packetId packetType => some (.ackSent packetId packetType)
  | .cleared => some .cleared
  | .wrote _ | .called _ | .unreserved _ _ | .refused _ _ => none

def ClientCall.dup : ClientCall → Bool
  | .request (.publish publishInfo _) => publishInfo.dup
  | _ => false

structure Scope where
  resends : Prop
  restarts : Prop

section Explained

-- the sizes of the record arrays
variable (m n : Nat) (scope : Scope)

def View.step (v : View) (e : Event) : View where
  records := run (advance (engineStep m n)) v.records e.engineCalls
  calls := v.calls ++ e.calls
  sent := v.sent ++ e.bytes
  log := v.log ++ e.entry.toList

def View.answer (v : View) (call : EngineCall) : MqttStatus := (engineStep m n v.records call).1.1

/-- A publish has a record: a new one, or, sent again, the one that it had. -/
def View.Reserves (v : View) (packetId : UInt16) (qos : Qos) : Prop :=
  qos ≠ .qos0 ∧ (v.answer m n (.reserve packetId qos) = .success ∨
    v.answer m n (.reserve packetId qos) = .stateCollision ∧ scope.resends)

def Event.Allowed (v : View) : Event → Prop
  | .called call => ∀ publishInfo, call.publishInfo = some publishInfo → publishInfo.qos = .qos0
  | .unsent packetId qos _ | .published packetId qos _ => v.Reserves m n scope packetId qos
  | .delivered call qos =>
    qos ≠ .qos0 ∧ (∃ publishInfo, call.publishInfo = some publishInfo ∧ publishInfo.qos = qos) ∧
      v.answer m n (.publish call.packetIdentifier .receive qos) = .success
  | .cleared => scope.restarts
  | .wrote _ | .unreserved _ _ | .refused _ _ | .ackReceived _ _ | .ackSent _ _ => True

structure Explained (v : View) (events : List Event) (v' : View) : Prop where
  run_eq : run (View.step m n) v events = v'
  allowed : ∀ t ∈ trace (View.step m n) v events, t.event.Allowed m n scope t.before

variable {m n scope}

theorem Explained.nil (v : View) : Explained m n scope v [] v :=
  ⟨rfl, fun _ ht => absurd ht List.not_mem_nil⟩

theorem Explained.single {v v' : View} {e : Event} (h : e.Allowed m n scope v)
    (hstep : v.step m n e = v') : Explained m n scope v [e] v' := by
  refine ⟨hstep, fun t ht => ?_⟩
  rw [List.mem_singleton.mp ht]
  exact h

theorem Explained.append {v v' v'' : View} {events more : List Event}
    (h : Explained m n scope v events v') (h' : Explained m n scope v' more v'') :
    Explained m n scope v (events ++ more) v'' := by
  obtain ⟨rfl, hallowed⟩ := h
  obtain ⟨rfl, hallowed'⟩ := h'
  refine ⟨run_append .., fun t ht => ?_⟩
  rw [trace_append] at ht
  rcases List.mem_append.mp ht with ht | ht
  · exact hallowed t ht
  · exact hallowed' t ht

theorem Explained.keeps {Q : View → Prop} {v v' : View} {events : List Event}
    (h : Explained m n scope v events v') (hv : Q v)
    (hstep : ∀ u e, Q u → e.Allowed m n scope u → Q (u.step m n e)) : Q v' := by
  obtain ⟨rfl, hallowed⟩ := h
  exact trace_induction (Q := fun _ u => Q u) hv (fun _ u e hu he => hstep u e hu he) events
    hallowed

theorem Read.view {c c' : Context} (h : Read c c') : c'.view = c.view := by
  obtain ⟨_, _, _, _, _, _, rfl⟩ := h
  rfl

def View.wrote (v : View) (bytes : Bytes) : View := { v with sent := v.sent ++ bytes }

theorem explained_wrote (v : View) (bytes : Bytes) :
    Explained m n scope v [.wrote bytes] (v.wrote bytes) := by
  refine Explained.single trivial ?_
  simp [View.step, View.wrote, Event.engineCalls, Event.calls, Event.bytes, Event.entry]

theorem Wrote.view {c c' : Context} {bytes : Bytes} (h : Wrote c bytes c') :
    c'.view = c.view.wrote bytes := by
  obtain ⟨_, _, _, _, rfl⟩ := h
  rfl

theorem Wrote.explained {c c' : Context} {bytes : Bytes} (h : Wrote c bytes c') :
    Explained m n scope c.view [.wrote bytes] c'.view := by
  rw [h.view]
  exact explained_wrote c.view bytes

theorem mqttPublish_explained (c : Context) (publishInfo : PublishInfo) (packetId : UInt16)
    (hdup : publishInfo.dup = true → scope.resends) :
    ∃ events, Explained m n scope c.view events (mqttPublish c publishInfo packetId).2.view := by
  rcases mqttPublish_cases c publishInfo packetId with
    heq | ⟨-, -, heq⟩ | ⟨remainingLength, packetSize, -, -, hreserve, heq⟩ <;> rw [heq]
  · exact ⟨[], Explained.nil _⟩
  · refine ⟨[.unreserved packetId publishInfo.qos], Explained.single trivial ?_⟩
    simp [View.step, Context.view, Event.engineCalls, Event.calls, Event.bytes, Event.entry,
      advance, engineStep]
  obtain ⟨k, c', hwrote, hresult⟩ := publishReserved_cases
    { c with publishRecords := (mqttReserveState c.publishRecords packetId publishInfo.qos).2 }
    publishInfo remainingLength packetId
  have hrecord (hqos : publishInfo.qos ≠ .qos0) :
      c.view.Reserves m n scope packetId publishInfo.qos :=
    ⟨hqos, (hreserve.resolve_left hqos).imp id fun h => ⟨h.1, hdup h.2⟩⟩
  rcases hresult with ⟨hqos, status, hresult, -⟩ | ⟨hqos, hresult⟩ | ⟨hwhole, hqos, hresult⟩ <;>
    rw [hresult]
  · -- no record is asked for
    have hsame : (mqttReserveState c.publishRecords packetId publishInfo.qos).2 =
        c.publishRecords := by rw [mqttReserveState, hqos, if_pos rfl]
    rw [hsame] at hwrote
    exact ⟨_, hwrote.explained⟩
  · refine ⟨[.unsent packetId publishInfo.qos
      ((publishBytes publishInfo remainingLength packetId).take k)],
      Explained.single (hrecord hqos) ?_⟩
    obtain ⟨_, _, _, _, rfl⟩ := hwrote
    simp [View.step, Context.view, Context.note, Event.engineCalls, Event.calls, Event.bytes,
      Event.entry, advance, engineStep]
  · refine ⟨[.published packetId publishInfo.qos
      ((publishBytes publishInfo remainingLength packetId).take k)],
      Explained.single (hrecord hqos) ?_⟩
    obtain ⟨_, _, _, _, rfl⟩ := hwrote
    simp [View.step, Context.view, Context.note, Event.engineCalls, Event.calls, Event.bytes,
      Event.entry, advance, engineStep]

/-! ## Handlers -/

theorem byte_getAckFromPacketType {publishState : PublishState}
    (h : getAckTypeToSend publishState ≠ 0) :
    (getAckFromPacketType (getAckTypeToSend publishState)).byte =
      getAckTypeToSend publishState := by
  revert h
  cases publishState <;> decide

theorem eq_of_mqttSerializeAck {packetType : UInt8} {packetId : UInt16} {packet : Bytes}
    (h : mqttSerializeAck packetType packetId = .ok packet) :
    packet = packetType :: 2 :: uint16Bytes packetId := by
  rw [mqttSerializeAck] at h
  split at h
  · cases h
  split at h <;> cases h
  rfl

theorem sendPublishAcks_explained (c : Context) (packetId : UInt16) (publishState : PublishState) :
    ∃ events, Explained m n scope c.view events
      (sendPublishAcks c packetId publishState).2.view := by
  have hnone : ∃ events, Explained m n scope c.view events c.view := ⟨[], Explained.nil _⟩
  rw [sendPublishAcks]
  split
  swap
  · exact hnone
  next htype =>
  split
  · exact hnone
  next pubAckPacket hpacket =>
  obtain ⟨k, hk, hwrote, hresult⟩ := wrote_sendMessageVector c [pubAckPacket]
  rw [← sendBuffer_eq, List.flatten_singleton] at hwrote
  rw [← sendBuffer_eq] at hresult
  rw [List.flatten_singleton] at hk
  simp only
  split
  swap
  · exact ⟨_, hwrote.explained⟩
  next hsent =>
  have hbytes := eq_of_mqttSerializeAck hpacket
  have hlength : pubAckPacket.length = 4 := by
    rw [hbytes]
    rfl
  have hall : k = pubAckPacket.length := by omega
  rw [hall, List.take_length] at hwrote
  refine ⟨[.ackSent packetId (getAckFromPacketType (getAckTypeToSend publishState))],
    Explained.single trivial ?_⟩
  obtain ⟨_, _, _, _, hsame⟩ := hwrote
  subst hbytes
  simp [View.step, Context.view, Context.note, Event.engineCalls, Event.calls, Event.bytes,
    Event.entry, advance, engineStep, hsame, byte_getAckFromPacketType htype]

section App

variable {app : AppCall → List PublishInfo}

theorem appCallback_explained (c : Context) (call : AppCall)
    (happ : ∀ publishInfo ∈ app call, publishInfo.dup = true → scope.resends) :
    ∃ events, Explained m n scope { c with calls := c.calls ++ [call] }.view events
      (appCallback app c call).view := by
  rw [appCallback]
  generalize { c with calls := c.calls ++ [call] } = start
  generalize app call = replies at happ ⊢
  induction replies generalizing start with
  | nil => exact ⟨[], Explained.nil _⟩
  | cons publishInfo replies ih =>
    rw [List.foldl_cons]
    obtain ⟨events, hevents⟩ := mqttPublish_explained (mqttGetPacketId start).2 publishInfo
      (mqttGetPacketId start).1 (happ publishInfo (List.mem_cons_self ..))
    obtain ⟨more, hmore⟩ := ih
      (mqttPublish (mqttGetPacketId start).2 publishInfo (mqttGetPacketId start).1).2
      (fun reply hreply => happ reply (List.mem_cons_of_mem _ hreply))
    exact ⟨events ++ more, hevents.append hmore⟩

variable (happ : ∀ call, ∀ publishInfo ∈ app call, publishInfo.dup = true → scope.resends)
include happ

theorem answer_explained {c : Context} {v : View} {e : Event} (call : AppCall)
    (hallowed : e.Allowed m n scope v)
    (hstep : v.step m n e = { c with calls := c.calls ++ [call] }.view)
    (packetId : UInt16) (publishState : PublishState) :
    ∃ events, Explained m n scope v events
      (sendPublishAcks (appCallback app c call) packetId publishState).2.view := by
  obtain ⟨events, hevents⟩ := appCallback_explained c call (happ call)
  obtain ⟨more, hmore⟩ :=
    sendPublishAcks_explained (appCallback app c call) packetId publishState
  exact ⟨_, ((Explained.single hallowed hstep).append hevents).append hmore⟩

theorem handleIncomingPublish_explained (c : Context) (packet : PacketInfo) :
    ∃ events, Explained m n scope c.view events
      (handleIncomingPublish app c packet).2.view := by
  rw [handleIncomingPublish]
  split
  · exact ⟨[], Explained.nil _⟩
  next packetIdentifier publishInfo _ =>
  rcases hupdate : mqttUpdateStatePublish c.publishRecords packetIdentifier .receive
    publishInfo.qos with ⟨status, publishRecordState, publishRecords⟩
  simp only
  have hanswer : View.answer m n c.view (.publish packetIdentifier .receive publishInfo.qos) =
      status := by
    rw [View.answer, engineStep, Context.view, hupdate]
  split
  · next hsuccess =>
    subst hsuccess
    by_cases hqos : publishInfo.qos = .qos0
    · -- no record is looked at
      rw [if_pos hqos]
      rw [hqos, mqttUpdateStatePublish, if_pos rfl] at hupdate
      cases hupdate
      refine answer_explained happ (e := .called ⟨packet, packetIdentifier, some publishInfo,
        .success⟩) _ ?_ ?_ _ _
      · rintro _ ⟨⟩
        exact hqos
      · simp [View.step, Context.view, Event.engineCalls, Event.calls, Event.bytes, Event.entry]
    · rw [if_neg hqos]
      refine answer_explained happ (e := .delivered ⟨packet, packetIdentifier, some publishInfo,
        .success⟩ publishInfo.qos) _ ⟨hqos, ⟨publishInfo, rfl, rfl⟩, hanswer⟩ ?_ _ _
      simp [View.step, Context.view, Context.note, Event.engineCalls, Event.calls, Event.bytes,
        Event.entry, advance, engineStep, hupdate]
  · next hfailed =>
    have hrefused : Explained m n scope c.view [.refused packetIdentifier publishInfo.qos]
        { c with publishRecords }.view := by
      refine Explained.single trivial ?_
      simp [View.step, Context.view, Event.engineCalls, Event.calls, Event.bytes, Event.entry,
        advance, engineStep, hupdate]
    split
    · obtain ⟨events, hevents⟩ := sendPublishAcks_explained { c with publishRecords }
        packetIdentifier (mqttCalculateStatePublish .receive publishInfo.qos)
      exact ⟨_, hrefused.append hevents⟩
    · exact ⟨_, hrefused⟩

theorem handlePublishAcks_explained (c : Context) (packet : PacketInfo) :
    ∃ events, Explained m n scope c.view events (handlePublishAcks app c packet).2.view := by
  rw [handlePublishAcks]
  rcases mqttDeserializeAck packet false with ⟨status, packetIdentifier, sessionPresent⟩
  simp only
  split
  swap
  · exact ⟨[], Explained.nil _⟩
  rcases hupdate : mqttUpdateStateAck c.publishRecords packetIdentifier
    (getAckFromPacketType packet.type) .receive with ⟨status, publishRecordState, publishRecords⟩
  simp only [Context.note_publishRecords, hupdate]
  generalize hnoted : ({ c.note (.ackReceived packetIdentifier
    (getAckFromPacketType packet.type)) with publishRecords } : Context) = c'
  have hack : Explained m n scope c.view
      [.ackReceived packetIdentifier (getAckFromPacketType packet.type)] c'.view := by
    refine Explained.single trivial ?_
    simp [View.step, Context.view, Context.note, Event.engineCalls, Event.calls, Event.bytes,
      Event.entry, advance, engineStep, hupdate, ← hnoted]
  split
  · obtain ⟨events, hevents⟩ := answer_explained happ (c := c') (v := c'.view)
      (e := .called ⟨packet, packetIdentifier, none, .success⟩)
      ⟨packet, packetIdentifier, none, .success⟩ (fun _ h => by cases h)
      (by simp [View.step, Context.view, Event.engineCalls, Event.calls, Event.bytes, Event.entry])
      packetIdentifier publishRecordState
    exact ⟨_, hack.append hevents⟩
  · exact ⟨_, hack⟩

theorem called_explained (c : Context) (call : AppCall) (hcall : call.publishInfo = none) :
    ∃ events, Explained m n scope c.view events (appCallback app c call).view := by
  obtain ⟨events, hevents⟩ := appCallback_explained c call (happ call)
  refine ⟨[.called call] ++ events, Explained.append (Explained.single ?_ ?_) hevents⟩
  · intro publishInfo h
    rw [hcall] at h
    cases h
  · simp [View.step, Context.view, Event.engineCalls, Event.calls, Event.bytes, Event.entry]

theorem handleIncomingAck_explained (c : Context) (packet : PacketInfo) (manageKeepAlive : Bool) :
    ∃ events, Explained m n scope c.view events
      (handleIncomingAck app c packet manageKeepAlive).2.view := by
  have hnone : ∃ events, Explained m n scope c.view events c.view := ⟨[], Explained.nil _⟩
  rw [handleIncomingAck]
  split
  · exact handlePublishAcks_explained happ c packet
  rcases mqttDeserializeAck packet false with ⟨status, packetIdentifier, sessionPresent⟩
  simp only
  split
  · split
    · split
      · exact hnone
      · exact called_explained happ c _ rfl
    · exact hnone
  split
  · split
    · exact called_explained happ c _ rfl
    · exact hnone
  · exact hnone

theorem handlePacket_explained (c : Context) (header : UInt8 × Nat × Nat)
    (manageKeepAlive : Bool) :
    ∃ events, Explained m n scope c.view events
      (handlePacket app c header manageKeepAlive).2.view := by
  obtain ⟨type, remainingLength, headerLength⟩ := header
  by_cases hpublish : type &&& 0xF0 = packetTypePublish
  · simp only [handlePacket, if_pos hpublish]
    exact handleIncomingPublish_explained happ c _
  · simp only [handlePacket, if_neg hpublish]
    exact handleIncomingAck_explained happ c _ manageKeepAlive

end App

/-! ## Polls -/

theorem view_mqttPing (c : Context) : ∃ bytes, (mqttPing c).2.view = c.view.wrote bytes := by
  obtain ⟨k, -, hwrote, -⟩ := wrote_sendMessageVector c [[packetTypePingreq, 0]]
  rw [← sendBuffer_eq] at hwrote
  have hview : (mqttPing c).2.view = (sendBuffer c [packetTypePingreq, 0]).2.view := by
    simp only [mqttPing]
    split <;> rfl
  rw [hview, hwrote.view]
  exact ⟨_, rfl⟩

theorem view_handleKeepAlive (c : Context) :
    ∃ bytes, (handleKeepAlive c).2.view = c.view.wrote bytes := by
  have htime := (wrote_getTime c).view
  have hping : ∃ bytes, (mqttPing (getTime c).2).2.view = c.view.wrote bytes := by
    rw [← (read_getTime c).view]
    exact view_mqttPing (getTime c).2
  simp only [handleKeepAlive]
  split
  · exact ⟨[], htime⟩
  split
  · exact hping
  split
  · exact hping
  · exact ⟨[], htime⟩

theorem view_receivePacketHeader (c : Context) (manageKeepAlive : Bool) :
    ∃ bytes, (receivePacketHeader c manageKeepAlive).2.2.view = c.view.wrote bytes := by
  have hnone : c.view = c.view.wrote [] := by rw [View.wrote, List.append_nil]
  have hread := read_espTlsTransportRecv c (c.networkBuffer.length - c.index)
  rw [receivePacketHeader]
  rcases hrecv : espTlsTransportRecv c (c.networkBuffer.length - c.index) with
    ⟨_ | bytes, c'⟩ <;> rw [hrecv] at hread
  · exact ⟨[], hread.view.trans hnone⟩
  have hstore := (hread.trans (read_buffer c' (store c'.networkBuffer c'.index bytes)
    (c'.index + bytes.length))).view
  simp only
  split
  · rw [← hstore]
    exact view_handleKeepAlive _
  · exact ⟨[], hstore.trans hnone⟩

section App

variable {app : AppCall → List PublishInfo}
  (happ : ∀ call, ∀ publishInfo ∈ app call, publishInfo.dup = true → scope.resends)
include happ

theorem receiveSingleIteration_explained (c : Context) (manageKeepAlive : Bool) :
    ∃ events, Explained m n scope c.view events
      (receiveSingleIteration app c manageKeepAlive).2.view := by
  obtain ⟨bytes, hview⟩ := view_receivePacketHeader c manageKeepAlive
  rw [receiveSingleIteration]
  rcases hheader : receivePacketHeader c manageKeepAlive with ⟨status, header, c'⟩
  rw [hheader] at hview
  have hevents : Explained m n scope c.view [.wrote bytes] c'.view :=
    hview ▸ explained_wrote c.view bytes
  simp only
  by_cases hsuccess : status ≠ .success
  · simp only [if_pos hsuccess]
    exact ⟨_, hevents⟩
  simp only [if_neg hsuccess]
  by_cases hlarge : header.2.1 + header.2.2 > c'.networkBuffer.length
  · simp only [if_pos hlarge]
    rw [(read_discardStoredPacket c' _).view]
    exact ⟨_, hevents⟩
  simp only [if_neg hlarge]
  by_cases hpartial : header.2.1 + header.2.2 > c'.index
  · simp only [if_pos hpartial]
    exact ⟨_, hevents⟩
  simp only [if_neg hpartial]
  obtain ⟨more, hmore⟩ := handlePacket_explained happ c' header manageKeepAlive
  exact ⟨_, hevents.append hmore⟩

/-! ## Requests and sessions -/

omit happ in
theorem request_explained (c : Context) (request : Request)
    (hdup : ∀ publishInfo packetId, request = .publish publishInfo packetId →
      publishInfo.dup = true → scope.resends) :
    ∃ events, Explained m n scope c.view events (request.send c).2.view := by
  cases request with
  | publish publishInfo packetId =>
    exact mqttPublish_explained c publishInfo packetId (hdup _ _ rfl)
  | subscribe subscriptions packetId =>
    obtain ⟨bytes, hwrote⟩ := wrote_mqttSubscribe c subscriptions packetId
    exact ⟨_, hwrote.explained⟩
  | unsubscribe subscriptions packetId =>
    obtain ⟨bytes, hwrote⟩ := wrote_mqttUnsubscribe c subscriptions packetId
    exact ⟨_, hwrote.explained⟩

theorem clientStep_explained (c : Context) (call : ClientCall)
    (hcall : call.dup = true → scope.resends) :
    ∃ events, Explained m n scope c.view events (clientStep app c call).2.view := by
  cases call with
  | processLoop => exact receiveSingleIteration_explained happ c true
  | receiveLoop => exact receiveSingleIteration_explained happ c false
  | request request =>
    apply request_explained c request
    rintro publishInfo packetId rfl hdup
    exact hcall hdup

end App

theorem resendPubrels_explained (rounds : Nat) (c : Context) (packetId : UInt16) (cursor : Nat)
    (status : MqttStatus) :
    ∃ events, Explained m n scope c.view events
      (resendPubrels rounds c packetId cursor status).2.view := by
  induction rounds generalizing c packetId cursor status with
  | zero => exact ⟨[], Explained.nil _⟩
  | succ rounds ih =>
    rw [resendPubrels]
    split
    swap
    · exact ⟨[], Explained.nil _⟩
    obtain ⟨events, hevents⟩ := sendPublishAcks_explained (m := m) (n := n) c packetId .pubRelSend
    obtain ⟨more, hmore⟩ := ih (sendPublishAcks c packetId .pubRelSend).2
      (mqttPubrelToResend (sendPublishAcks c packetId .pubRelSend).2.publishRecords cursor).1
      (mqttPubrelToResend (sendPublishAcks c packetId .pubRelSend).2.publishRecords cursor).2
      (sendPublishAcks c packetId .pubRelSend).1
    exact ⟨_, hevents.append hmore⟩

structure Sized (m n : Nat) (c : PublishRecords) : Prop where
  outgoing : c.outgoing.length = m
  incoming : c.incoming.length = n

theorem handleSessionResumption_explained (hscope : scope.restarts) {c : Context}
    (hsized : Sized m n c.publishRecords) (sessionPresent : Bool) :
    ∃ events, Explained m n scope c.view events
      (handleSessionResumption c sessionPresent).2.view := by
  have hread := (read_buffer c (List.replicate c.networkBuffer.length 0) 0).view
  simp only [handleSessionResumption]
  split
  · rw [← hread]
    exact resendPubrels_explained _ _ _ _ _
  · refine ⟨[.cleared], Explained.single hscope ?_⟩
    simp [View.step, Context.view, Context.note, Event.engineCalls, Event.calls, Event.bytes,
      Event.entry, advance, engineStep, hsized.outgoing, hsized.incoming]

theorem wrote_sendConnectWithoutCopy (c : Context) (connectInfo : ConnectInfo)
    (willInfo : Option PublishInfo) (remainingLength : Nat) :
    let message := (connectVectors connectInfo willInfo remainingLength).flatten
    let result := sendConnectWithoutCopy c connectInfo willInfo remainingLength
    ∃ k, Wrote c (message.take k) result.2 ∧ (result.1 = .success → k = message.length) := by
  simp only [sendConnectWithoutCopy]
  rcases hsent : sendMessageVector c (connectVectors connectInfo willInfo remainingLength) with
    ⟨bytesSent, c'⟩
  obtain ⟨k, hwrote, hall⟩ := wrote_of_sent hsent
  refine ⟨k, hwrote, fun hsuccess => hall ?_⟩
  by_contra hcut
  rw [if_pos hcut] at hsuccess
  cases hsuccess

theorem mqttConnect_explained (hscope : scope.restarts) {c : Context}
    (hsized : Sized m n c.publishRecords) (connectInfo : ConnectInfo)
    (willInfo : Option PublishInfo) (timeoutMs : UInt32) (sessionPresent : Bool) :
    ∃ events, Explained m n scope c.view events
      (mqttConnect c connectInfo willInfo timeoutMs sessionPresent).2.2.view := by
  rw [mqttConnect]
  split
  · exact ⟨[], Explained.nil _⟩
  next remainingLength _ _ =>
  obtain ⟨k, hwrote, -⟩ := wrote_sendConnectWithoutCopy c connectInfo willInfo remainingLength
  rcases hsent : sendConnectWithoutCopy c connectInfo willInfo remainingLength with ⟨status, c'⟩
  have hread := read_receiveConnack c' timeoutMs connectInfo.cleanSession sessionPresent
  rcases hconnack : receiveConnack c' timeoutMs connectInfo.cleanSession sessionPresent with
    ⟨connackStatus, present, c''⟩
  simp only [hsent, hconnack] at hwrote hread ⊢
  have hsent : Explained m n scope c.view [.wrote _] c'.view := hwrote.explained
  split
  · exact ⟨_, hsent⟩
  rw [← hread.view] at hsent
  split
  · exact ⟨_, hsent⟩
  have hsized' : Sized m n c''.publishRecords := by
    obtain ⟨_, _, _, _, _, _, rfl⟩ := hread
    exact hwrote.publishRecords ▸ hsized
  obtain ⟨events, hevents⟩ := handleSessionResumption_explained hscope hsized' present
  split
  · exact ⟨_, hsent.append hevents⟩
  · exact ⟨_, hsent.append hevents⟩

theorem mqttDisconnect_explained (c : Context) :
    ∃ events, Explained m n scope c.view events (mqttDisconnect c).2.view := by
  obtain ⟨k, -, hwrote, -⟩ := wrote_sendMessageVector c [[packetTypeDisconnect, 0]]
  rw [← sendBuffer_eq] at hwrote
  have hview : (mqttDisconnect c).2.view = (sendBuffer c [packetTypeDisconnect, 0]).2.view := by
    simp only [mqttDisconnect]
    split <;> rfl
  rw [hview]
  exact ⟨_, hwrote.explained⟩

end Explained

/-! ## Runs -/

inductive SessionCall
  | connect (reads : List TlsRead) (writes : List Int) (connectInfo : ConnectInfo)
      (willInfo : Option PublishInfo) (timeoutMs : UInt32) (sessionPresent : Bool)
  | client (call : ClientCall)
  | disconnect

def sessionStep (app : AppCall → List PublishInfo) (c : Context) :
    SessionCall → MqttStatus × Context
  | .connect reads writes connectInfo willInfo timeoutMs sessionPresent =>
    let (status, _, c) :=
      mqttConnect { c with reads, writes } connectInfo willInfo timeoutMs sessionPresent
    (status, c)
  | .client call => clientStep app c call
  | .disconnect => mqttDisconnect c

section Runs

variable {app : AppCall → List PublishInfo} {m n : Nat} {scope : Scope}

theorem sessionStep_explained (hscope : scope.restarts)
    (happ : ∀ call, ∀ publishInfo ∈ app call, publishInfo.dup = true → scope.resends) {c : Context}
    (hsized : Sized m n c.publishRecords) (call : SessionCall)
    (hcall : ∀ clientCall, call = .client clientCall → clientCall.dup = true → scope.resends) :
    ∃ events, Explained m n scope c.view events (sessionStep app c call).2.view := by
  cases call with
  | connect reads writes connectInfo willInfo timeoutMs sessionPresent =>
    exact mqttConnect_explained hscope (c := { c with reads, writes }) hsized connectInfo willInfo
      timeoutMs sessionPresent
  | client call => exact clientStep_explained happ c call (hcall call rfl)
  | disconnect => exact mqttDisconnect_explained c

theorem run_step (v : View) (events : List Event) :
    run (View.step m n) v events =
      ⟨run (advance (engineStep m n)) v.records (events.flatMap Event.engineCalls),
        v.calls ++ events.flatMap Event.calls, v.sent ++ events.flatMap Event.bytes,
        v.log ++ events.filterMap Event.entry⟩ := by
  induction events generalizing v with
  | nil => simp
  | cons e events ih =>
    rw [run_cons, ih]
    cases hentry : e.entry <;> simp [View.step, run_append, hentry]

theorem refines_run (hm : 0 < m) (hn : 0 < n) {v : View} (hclear : v.records = clearRecords m n)
    (events : List Event) :
    Refines (run (View.step m n) v events).records
      (run (advance Exchanges.step) (Exchanges.none m n) (events.flatMap Event.engineCalls)) := by
  rw [run_step, hclear]
  exact ((engineStep_simulates hm hn).run (clearRecords_refines m n) _).2

theorem Explained.allowed_at {v v' : View} {pre post : List Event} {e : Event}
    (h : Explained m n scope v (pre ++ e :: post) v') :
    e.Allowed m n scope (run (View.step m n) v pre) := by
  have hallowed := h.allowed
  rw [trace_append] at hallowed
  exact hallowed ⟨_, e, _⟩ (List.mem_append_right _ (List.mem_cons_self ..))

theorem Refines.sized {c : PublishRecords} {x : Exchanges m n} (h : Refines c x) : Sized m n c :=
  ⟨h.outgoing.length_eq, h.incoming.length_eq⟩

variable (scope) in
/-- Every run of the client is a list of events. -/
theorem run_explained (hscope : scope.restarts) (hm : 0 < m) (hn : 0 < n)
    (happ : ∀ call, ∀ publishInfo ∈ app call, publishInfo.dup = true → scope.resends) {c : Context}
    (hclear : c.publishRecords = clearRecords m n) (calls : List SessionCall)
    (hcalls : ∀ call, .client call ∈ calls → call.dup = true → scope.resends) :
    ∃ events, Explained m n scope c.view events
      (run (advance (sessionStep app)) c calls).view := by
  induction calls using List.reverseRecOn with
  | nil => exact ⟨[], Explained.nil _⟩
  | append_singleton calls call ih =>
    obtain ⟨events, hevents⟩ := ih fun clientCall hmem => hcalls clientCall (by simp [hmem])
    have hsized := (refines_run (v := c.view) hm hn hclear events).sized
    rw [hevents.run_eq] at hsized
    obtain ⟨more, hmore⟩ := sessionStep_explained hscope happ hsized call
      (fun clientCall hcall => hcalls clientCall (by simp [hcall]))
    rw [run_append]
    exact ⟨_, hevents.append hmore⟩

end Runs

end CyThing.CoreMqtt
