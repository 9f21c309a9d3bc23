import CyThing.CoreMqtt.Sending
import CyThing.Lib.PacketStream
import CyThing.Lib.Simulation

/-! The receive loop cuts what arrives into packets: however the connection delivers the bytes,
and whatever the application sends in between, the packets handled are those of the stream. -/

namespace CyThing.CoreMqtt
open CLib Layout Trace PacketStream Simulation

/-! ## Packets of the stream -/

def packetHead (bytes : Bytes) : Head :=
  match mqttProcessIncomingPacketTypeAndLength bytes bytes.length with
  | .ok (_, remainingLength, headerLength) => .size (remainingLength + headerLength)
  | .error .needMoreBytes => .incomplete
  | .error .noDataAvailable => .incomplete
  | .error _ => .malformed

theorem processIncoming_cons (b : UInt8) (bytes : Bytes) :
    mqttProcessIncomingPacketTypeAndLength (b :: bytes) (b :: bytes).length =
      if incomingPacketValid b then
        match Varint.decode 4 bytes with
        | .value n len =>
          if len = (Varint.encode 4 n).length then .ok (b, n, len + 1) else .error .badResponse
        | .incomplete => .error .needMoreBytes
        | .overlong => .error .badResponse
      else .error .badResponse := by
  rw [mqttProcessIncomingPacketTypeAndLength, if_neg (by simp),
    processRemainingLength_eq (Nat.le_refl _), List.take_length, List.drop_succ_cons,
    List.drop_zero]
  simp only [List.getD_cons_zero]
  split
  · cases Varint.decode 4 bytes with
    | value n len =>
      simp only
      split <;> rfl
    | incomplete => rfl
    | overlong => rfl
  · rfl

theorem processIncoming_take {buffer : Bytes} {index : Nat} (hindex : index ≤ buffer.length) :
    mqttProcessIncomingPacketTypeAndLength buffer index =
      mqttProcessIncomingPacketTypeAndLength (buffer.take index) (buffer.take index).length := by
  have hlen : (buffer.take index).length = index := by
    rw [List.length_take, Nat.min_eq_left hindex]
  rw [mqttProcessIncomingPacketTypeAndLength, mqttProcessIncomingPacketTypeAndLength,
    processRemainingLength_eq hindex, processRemainingLength_eq (Nat.le_refl _), List.take_length,
    hlen]
  split
  · rfl
  · next hone =>
    have hget : (buffer.take index).getD 0 0 = buffer.getD 0 0 := by
      rw [List.getD_eq_getElem?_getD, List.getD_eq_getElem?_getD, List.getElem?_take,
        if_pos (by omega)]
    rw [hget]

theorem packetHead_stable (bytes more : Bytes) (h : packetHead bytes ≠ .incomplete) :
    packetHead (bytes ++ more) = packetHead bytes := by
  cases bytes with
  | nil => exact absurd rfl h
  | cons b bytes =>
    rw [packetHead, processIncoming_cons] at h
    rw [List.cons_append, packetHead, packetHead, processIncoming_cons, processIncoming_cons]
    by_cases hvalid : incomingPacketValid b
    · rw [if_pos hvalid] at h
      rw [if_pos hvalid, if_pos hvalid, Varint.decode_append]
      intro hinc
      rw [hinc] at h
      exact h rfl
    · rw [if_neg hvalid, if_neg hvalid]

def packetFormat : Format UInt8 := ⟨packetHead, packetHead_stable⟩

/-! ## What the handlers leave alone -/

structure KeepsInput (c c' : Context) : Prop where
  networkBuffer : c'.networkBuffer = c.networkBuffer
  index : c'.index = c.index
  reads : c'.reads = c.reads
  received : c'.received = c.received
  lastPacketRxTime : c'.lastPacketRxTime = c.lastPacketRxTime

theorem KeepsInput.refl (c : Context) : KeepsInput c c := ⟨rfl, rfl, rfl, rfl, rfl⟩

theorem KeepsInput.trans {c c' c'' : Context} (h : KeepsInput c c') (h' : KeepsInput c' c'') :
    KeepsInput c c'' :=
  ⟨h'.networkBuffer.trans h.networkBuffer, h'.index.trans h.index, h'.reads.trans h.reads,
    h'.received.trans h.received, h'.lastPacketRxTime.trans h.lastPacketRxTime⟩

theorem Wrote.keepsInput {c c' : Context} {bytes : Bytes} (h : Wrote c bytes c') :
    KeepsInput c c' := by
  obtain ⟨_, _, _, _, rfl⟩ := h
  exact ⟨rfl, rfl, rfl, rfl, rfl⟩

def Output (c c' : Context) : Prop :=
  ∃ writes times now lastPacketTxTime sent publishRecords nextPacketId calls log,
    c' = { c with
      writes, times, now, lastPacketTxTime, sent, publishRecords, nextPacketId, calls, log }

theorem Output.trans {c c' c'' : Context} (h : Output c c') (h' : Output c' c'') :
    Output c c'' := by
  obtain ⟨_, _, _, _, _, _, _, _, _, rfl⟩ := h
  obtain ⟨writes, times, now, tx, sent, publishRecords, nextPacketId, calls, log, rfl⟩ := h'
  exact ⟨writes, times, now, tx, sent, publishRecords, nextPacketId, calls, log, rfl⟩

theorem Output.keepsInput {c c' : Context} (h : Output c c') : KeepsInput c c' := by
  obtain ⟨_, _, _, _, _, _, _, _, _, rfl⟩ := h
  exact ⟨rfl, rfl, rfl, rfl, rfl⟩

theorem Wrote.output {c c' : Context} {bytes : Bytes} (h : Wrote c bytes c') : Output c c' := by
  obtain ⟨writes, times, now, tx, rfl⟩ := h
  exact ⟨writes, times, now, tx, _, c.publishRecords, c.nextPacketId, c.calls, c.log, rfl⟩

theorem Output.refl (c : Context) : Output c c := (Wrote.refl c).output

theorem output_records (c : Context) (publishRecords : PublishRecords) :
    Output c { c with publishRecords } :=
  ⟨c.writes, c.times, c.now, c.lastPacketTxTime, c.sent, publishRecords, c.nextPacketId, c.calls,
    c.log, rfl⟩

theorem output_note (c : Context) (entry : LogEntry) : Output c (c.note entry) :=
  ⟨c.writes, c.times, c.now, c.lastPacketTxTime, c.sent, c.publishRecords, c.nextPacketId, c.calls,
    _, rfl⟩

theorem output_sendBuffer (c : Context) (data : Bytes) : Output c (sendBuffer c data).2 := by
  obtain ⟨k, -, hwrote, -⟩ := wrote_sendMessageVector c [data]
  rw [sendBuffer_eq]
  exact hwrote.output

theorem output_mqttPublish (c : Context) (publishInfo : PublishInfo) (packetId : UInt16) :
    Output c (mqttPublish c publishInfo packetId).2 := by
  rcases mqttPublish_cases c publishInfo packetId with
    heq | ⟨-, -, heq⟩ | ⟨remainingLength, packetSize, -, -, -, heq⟩ <;> rw [heq]
  · exact Output.refl c
  · exact output_records c _
  · obtain ⟨k, c', hwrote, hresult⟩ := publishReserved_cases
      { c with publishRecords := (mqttReserveState c.publishRecords packetId publishInfo.qos).2 }
      publishInfo remainingLength packetId
    refine (output_records c
      (mqttReserveState c.publishRecords packetId publishInfo.qos).2).trans ?_
    rcases hresult with ⟨-, status, hresult, -⟩ | ⟨-, hresult⟩ | ⟨-, -, hresult⟩ <;> rw [hresult]
    · exact hwrote.output
    · exact hwrote.output.trans (output_note c' _)
    · exact (hwrote.output.trans (output_note c' _)).trans (output_records _ _)

theorem output_sendPublishAcks (c : Context) (packetId : UInt16)
    (publishState : PublishState) : Output c (sendPublishAcks c packetId publishState).2 := by
  rw [sendPublishAcks]
  split
  · split
    · exact Output.refl c
    · next pubAckPacket _ =>
      have hsent := output_sendBuffer c pubAckPacket
      simp only
      split
      · exact (hsent.trans (output_note _ _)).trans (output_records _ _)
      · exact hsent
  · exact Output.refl c

theorem keepsInput_mqttPing (c : Context) : KeepsInput c (mqttPing c).2 := by
  have hsent := (output_sendBuffer c [packetTypePingreq, 0]).keepsInput
  simp only [mqttPing]
  split
  · exact hsent
  · exact hsent.trans ⟨rfl, rfl, rfl, rfl, rfl⟩

theorem keepsInput_handleKeepAlive (c : Context) : KeepsInput c (handleKeepAlive c).2 := by
  have htime := (wrote_getTime c).keepsInput
  simp only [handleKeepAlive]
  split
  · exact htime
  split
  · exact htime.trans (keepsInput_mqttPing _)
  split
  · exact htime.trans (keepsInput_mqttPing _)
  · exact htime

section Incoming

variable (app : AppCall → List PublishInfo)

theorem output_appCallback (c : Context) (call : AppCall) :
    Output c (appCallback app c call) := by
  rw [appCallback]
  generalize hstart : { c with calls := c.calls ++ [call] } = start
  have hcall : Output c start := by
    rw [← hstart]
    exact ⟨c.writes, c.times, c.now, c.lastPacketTxTime, c.sent, c.publishRecords, c.nextPacketId,
      _, c.log, rfl⟩
  clear hstart
  induction app call generalizing start with
  | nil => exact hcall
  | cons publishInfo replies ih =>
    have hid : Output start (mqttGetPacketId start).2 :=
      ⟨start.writes, start.times, start.now, start.lastPacketTxTime, start.sent,
        start.publishRecords, _, start.calls, start.log, rfl⟩
    rw [List.foldl_cons]
    exact ih _ (hcall.trans (hid.trans (output_mqttPublish _ publishInfo _)))

theorem output_answer {c c' : Context} (h : Output c c') (call : AppCall) (packetId : UInt16)
    (publishState : PublishState) :
    Output c (sendPublishAcks (appCallback app c' call) packetId publishState).2 :=
  (h.trans (output_appCallback app c' call)).trans (output_sendPublishAcks _ packetId publishState)

theorem output_handleIncomingPublish (c : Context) (packet : PacketInfo) :
    Output c (handleIncomingPublish app c packet).2 := by
  rw [handleIncomingPublish]
  split
  · exact Output.refl c
  · simp only
    split
    · refine output_answer app ?_ _ _ _
      split
      · exact output_records c _
      · exact (output_records c _).trans (output_note _ _)
    split
    · exact (output_records c _).trans (output_sendPublishAcks _ _ _)
    · exact output_records c _

theorem handleIncomingAck_output (c : Context) (packet : PacketInfo) (manageKeepAlive : Bool) :
    Output c (handleIncomingAck app c packet manageKeepAlive).2 ∨
      packet.type = packetTypePingresp ∧ (mqttDeserializeAck packet false).1 = .success ∧
        manageKeepAlive = true ∧ handleIncomingAck app c packet manageKeepAlive =
          (.success, { c with waitingForPingResp := false }) := by
  simp only [handleIncomingAck, handlePublishAcks]
  split
  · left
    split
    · split
      · exact output_answer app ((output_note c _).trans (output_records _ _)) _ _ _
      · exact (output_note c _).trans (output_records _ _)
    · exact Output.refl c
  split
  · next hping =>
    split
    · next hsuccess =>
      split
      · next hmanage => exact .inr ⟨hping, hsuccess, hmanage, rfl⟩
      · exact .inl (output_appCallback app c _)
    · exact .inl (Output.refl c)
  left
  split
  · split
    · exact output_appCallback app c _
    · exact Output.refl c
  · exact Output.refl c

theorem keepsInput_handleIncomingAck (c : Context) (packet : PacketInfo) (manageKeepAlive : Bool) :
    KeepsInput c (handleIncomingAck app c packet manageKeepAlive).2 := by
  rcases handleIncomingAck_output app c packet manageKeepAlive with houtput | ⟨-, -, -, heq⟩
  · exact houtput.keepsInput
  · rw [heq]
    exact ⟨rfl, rfl, rfl, rfl, rfl⟩

end Incoming

/-! ## Reading -/

def held (c : Context) : Bytes := c.networkBuffer.take c.index

structure Buffered (size : Nat) (c : Context) : Prop where
  length_eq : c.networkBuffer.length = size
  index_le : c.index ≤ size

theorem KeepsInput.held {c c' : Context} (h : KeepsInput c c') :
    CoreMqtt.held c' = CoreMqtt.held c := by
  rw [CoreMqtt.held, CoreMqtt.held, h.networkBuffer, h.index]

theorem KeepsInput.buffered {size : Nat} {c c' : Context} (h : KeepsInput c c')
    (hbuf : Buffered size c) : Buffered size c' :=
  ⟨h.networkBuffer ▸ hbuf.length_eq, h.index ▸ hbuf.index_le⟩

theorem length_held {size : Nat} {c : Context} (h : Buffered size c) :
    (held c).length = c.index := by
  rw [held, List.length_take, h.length_eq, Nat.min_eq_left h.index_le]

theorem length_store {buffer data : Bytes} {offset : Nat}
    (h : offset + data.length ≤ buffer.length) :
    (store buffer offset data).length = buffer.length := by
  rw [store, List.length_append, List.length_append, List.length_take, List.length_drop]
  omega

theorem take_store {buffer : Bytes} {offset : Nat} (h : offset ≤ buffer.length) (data : Bytes) :
    (store buffer offset data).take (offset + data.length) = buffer.take offset ++ data := by
  have hlen : offset + data.length = (buffer.take offset ++ data).length := by
    rw [List.length_append, List.length_take, Nat.min_eq_left h]
  rw [store, hlen, List.take_left]

theorem espTlsTransportRecv_cases (c : Context) (dataLen : Nat) :
    (∃ reads, espTlsTransportRecv c dataLen = (none, { c with reads })) ∨
    ∃ bytes reads, bytes.length ≤ dataLen ∧
      espTlsTransportRecv c dataLen =
        (some bytes, { c with reads, received := c.received ++ bytes }) := by
  rw [espTlsTransportRecv]
  split
  · exact Or.inl ⟨c.reads, rfl⟩
  split
  · exact Or.inl ⟨c.reads, rfl⟩
  · next reads _ => exact Or.inr ⟨[], reads, Nat.zero_le _, by rw [List.append_nil]⟩
  · next reads _ => exact Or.inl ⟨reads, rfl⟩
  · next bytes reads _ =>
    split
    · exact Or.inl ⟨reads, rfl⟩
    · exact Or.inr ⟨bytes.take dataLen, _, List.length_take_le .., rfl⟩

def ReadInto (size : Nat) (c : Context) (bytes : Bytes) (c' : Context) : Prop :=
  c'.networkBuffer.length = size ∧ c'.index = c.index ∧ c'.received = c.received ++ bytes ∧
    c'.lastPacketRxTime = c.lastPacketRxTime

theorem ReadInto.trans {size : Nat} {c c' c'' : Context} {bytes more : Bytes}
    (h : ReadInto size c bytes c') (h' : ReadInto size c' more c'') :
    ReadInto size c (bytes ++ more) c'' := by
  obtain ⟨-, hindex, hreceived, hrx⟩ := h
  obtain ⟨hlen, hindex', hreceived', hrx'⟩ := h'
  refine ⟨hlen, hindex'.trans hindex, ?_, hrx'.trans hrx⟩
  rw [hreceived', hreceived, List.append_assoc]

theorem readInto_of_keepsInput {size : Nat} {c c' : Context} (h : KeepsInput c c')
    (hlen : c.networkBuffer.length = size) : ReadInto size c [] c' :=
  ⟨h.networkBuffer ▸ hlen, h.index, by rw [h.received, List.append_nil], h.lastPacketRxTime⟩

theorem readInto_recvExactLoop {size : Nat} (reads : List TlsRead) {c : Context}
    (hlen : c.networkBuffer.length = size) (total remaining : Nat)
    (hroom : total + remaining ≤ size) (lastDataRecvTimeMs : UInt32) :
    let result := recvExactLoop reads c total remaining lastDataRecvTimeMs
    ∃ bytes, ReadInto size c bytes result.2 ∧
      (result.1 = ↑(total + bytes.length) ∧
          result.2.networkBuffer.take (total + bytes.length) =
            c.networkBuffer.take total ++ bytes ∨
        result.1 = -1) := by
  induction reads generalizing c total remaining lastDataRecvTimeMs with
  | nil =>
    rw [recvExactLoop]
    rcases espTlsTransportRecv_cases c remaining with
      ⟨reads, heq⟩ | ⟨bytes, reads, -, heq⟩ <;> rw [heq]
    · exact ⟨[], ⟨hlen, rfl, (List.append_nil _).symm, rfl⟩, Or.inr rfl⟩
    · exact ⟨bytes, ⟨hlen, rfl, rfl, rfl⟩, Or.inr rfl⟩
  | cons read reads ih =>
    rw [recvExactLoop]
    rcases espTlsTransportRecv_cases c remaining with
      ⟨reads', heq⟩ | ⟨bytes, reads', hle, heq⟩ <;> rw [heq]
    · exact ⟨[], ⟨hlen, rfl, (List.append_nil _).symm, rfl⟩, Or.inr rfl⟩
    have hread : ReadInto size c bytes
        { c with reads := reads', received := c.received ++ bytes } := ⟨hlen, rfl, rfl, rfl⟩
    have htime := hread.trans (readInto_of_keepsInput (wrote_getTime _).keepsInput hlen)
    have hbuffer := (wrote_getTime
      { c with reads := reads', received := c.received ++ bytes }).keepsInput.networkBuffer
    rw [List.append_nil] at htime
    simp only
    generalize getTime { c with reads := reads', received := c.received ++ bytes } = timed
      at htime hbuffer ⊢
    split
    · next hempty =>
      obtain rfl := List.eq_nil_of_length_eq_zero hempty
      split
      · refine ⟨[], htime, Or.inl ⟨rfl, ?_⟩⟩
        rw [hbuffer]
        exact (List.append_nil _).symm
      · obtain ⟨more, hmore, hresult⟩ := ih htime.1 total remaining hroom lastDataRecvTimeMs
        rw [hbuffer] at hresult
        exact ⟨more, htime.trans hmore, hresult⟩
    · have hfits : total + bytes.length ≤ timed.2.networkBuffer.length := by
        rw [htime.1]
        omega
      have hstored := take_store (by omega : total ≤ timed.2.networkBuffer.length) bytes
      have hstore : ReadInto size c bytes
          { timed.2 with networkBuffer := store timed.2.networkBuffer total bytes } := by
        obtain ⟨hlen', hindex, hreceived, hrx⟩ := htime
        exact ⟨(length_store hfits).trans hlen', hindex, hreceived, hrx⟩
      rw [hbuffer] at hstored
      split
      · exact ⟨bytes, hstore, Or.inl ⟨rfl, hbuffer ▸ hstored⟩⟩
      · obtain ⟨more, hmore, hresult⟩ := ih hstore.1 (total + bytes.length)
          (remaining - bytes.length) (by omega) timed.1
        refine ⟨bytes ++ more, hstore.trans hmore, ?_⟩
        rw [List.length_append, ← Nat.add_assoc, ← List.append_assoc, ← hstored]
        rw [hbuffer] at hresult ⊢
        exact hresult

theorem readInto_recvExact {size : Nat} {c : Context} (hlen : c.networkBuffer.length = size)
    (bytesToRecv : Nat) (hroom : bytesToRecv ≤ size) :
    ∃ bytes, ReadInto size c bytes (recvExact c bytesToRecv).2 ∧
      ((recvExact c bytesToRecv).1 = bytesToRecv → bytes.length = bytesToRecv ∧
        (recvExact c bytesToRecv).2.networkBuffer.take bytesToRecv = bytes) := by
  have htime := readInto_of_keepsInput (wrote_getTime c).keepsInput hlen
  simp only [recvExact]
  split
  · next hzero => exact ⟨[], htime, fun _ => ⟨hzero.symm, by rw [hzero, List.take_zero]⟩⟩
  · obtain ⟨bytes, hread, hresult⟩ := readInto_recvExactLoop (getTime c).2.reads htime.1
      0 bytesToRecv (by omega) (getTime c).1
    refine ⟨bytes, htime.trans hread, fun hall => ?_⟩
    rcases hresult with ⟨hresult, hstored⟩ | hresult
    · have hlength : bytes.length = bytesToRecv := by omega
      rw [Nat.zero_add, hlength, List.take_zero, List.nil_append] at hstored
      exact ⟨hlength, hstored⟩
    · omega

theorem readInto_discardLoop {size : Nat} (rounds : Nat) {c : Context}
    (hlen : c.networkBuffer.length = size) (bytesToReceive remaining : Nat)
    (hroom : bytesToReceive ≤ size) :
    ∃ bytes, ReadInto size c bytes (discardLoop rounds c bytesToReceive remaining).2 ∧
      ((discardLoop rounds c bytesToReceive remaining).1 = true → bytes.length = remaining) := by
  induction rounds generalizing c bytesToReceive remaining with
  | zero =>
    rw [discardLoop]
    refine ⟨[], readInto_of_keepsInput (KeepsInput.refl c) hlen, fun h => ?_⟩
    rw [decide_eq_true_eq] at h
    exact h.symm
  | succ rounds ih =>
    rw [discardLoop]
    split
    · next hzero => exact ⟨[], readInto_of_keepsInput (KeepsInput.refl c) hlen, fun _ => hzero.symm⟩
    obtain ⟨bytes, hread, hall⟩ :=
      readInto_recvExact hlen (min remaining bytesToReceive) (by omega)
    simp only
    split
    · exact ⟨bytes, hread, fun h => by cases h⟩
    · next hwhole =>
      obtain ⟨more, hmore, hrest⟩ := ih hread.1 (min remaining bytesToReceive)
        (remaining - min remaining bytesToReceive) (by omega)
      refine ⟨bytes ++ more, hread.trans hmore, fun h => ?_⟩
      rw [List.length_append, (hall (not_not.mp hwhole)).1, hrest h]
      omega

/-! ## One iteration -/

structure Extended (size : Nat) (c : Context) (bytes : Bytes) (c' : Context) : Prop where
  buffered : Buffered size c'
  received : c'.received = c.received ++ bytes
  held : CoreMqtt.held c' = CoreMqtt.held c ++ bytes
  lastPacketRxTime : c'.lastPacketRxTime = c.lastPacketRxTime

theorem Extended.keepsInput {size : Nat} {c c' c'' : Context} {bytes : Bytes}
    (h : Extended size c bytes c') (h' : KeepsInput c' c'') : Extended size c bytes c'' :=
  ⟨h'.buffered h.buffered, h'.received.trans h.received, h'.held.trans h.held,
    h'.lastPacketRxTime.trans h.lastPacketRxTime⟩

theorem extended_store {size : Nat} {c : Context} (hbuf : Buffered size c) {bytes : Bytes}
    (hroom : bytes.length ≤ size - c.index) (reads : List TlsRead) :
    Extended size c bytes
      { c with
        reads
        received := c.received ++ bytes
        networkBuffer := store c.networkBuffer c.index bytes
        index := c.index + bytes.length } := by
  obtain ⟨hlen, hindex⟩ := hbuf
  refine ⟨⟨?_, ?_⟩, rfl, take_store (by omega) bytes, rfl⟩
  · show (store c.networkBuffer c.index bytes).length = size
    rw [length_store (by omega), hlen]
  · show c.index + bytes.length ≤ size
    omega

def headStatus (bytes : Bytes) : MqttStatus × (UInt8 × Nat × Nat) :=
  headerFields (mqttProcessIncomingPacketTypeAndLength bytes bytes.length)

theorem mqttPing_status (c : Context) :
    (mqttPing c).1 = .success ∨ (mqttPing c).1 = .sendFailed := by
  simp only [mqttPing]
  split
  · exact Or.inr rfl
  · exact Or.inl rfl

theorem handleKeepAlive_status (c : Context) :
    (handleKeepAlive c).1 = .success ∨ (handleKeepAlive c).1 = .sendFailed ∨
      (handleKeepAlive c).1 = .keepAliveTimeout := by
  simp only [handleKeepAlive]
  split
  · split
    · exact Or.inr (Or.inr rfl)
    · exact Or.inl rfl
  split
  · exact (mqttPing_status _).imp_right Or.inl
  split
  · exact (mqttPing_status _).imp_right Or.inl
  · exact Or.inl rfl

/-- Reading fails, or the bytes that came are behind those held and the header is that of the
bytes held now; only the keep alive can change its status. -/
theorem receivePacketHeader_cases {size : Nat} {c : Context} (hbuf : Buffered size c)
    (manageKeepAlive : Bool) :
    (∃ reads, receivePacketHeader c manageKeepAlive = (.recvFailed, (0, 0, 0), { c with reads })) ∨
    ∃ bytes c' status, Extended size c bytes c' ∧
      receivePacketHeader c manageKeepAlive = (status, (headStatus (held c')).2, c') ∧
      (status = (headStatus (held c')).1 ∨ status = .sendFailed ∨ status = .keepAliveTimeout) := by
  rw [receivePacketHeader, hbuf.length_eq]
  rcases espTlsTransportRecv_cases c (size - c.index) with
    ⟨reads, heq⟩ | ⟨bytes, reads, hle, heq⟩ <;> rw [heq]
  · exact Or.inl ⟨reads, rfl⟩
  right
  have hext := extended_store hbuf hle reads
  simp only
  generalize hnew : { c with
      reads
      received := c.received ++ bytes
      networkBuffer := store c.networkBuffer c.index bytes
      index := c.index + bytes.length } = c' at hext
  have hbuffer : store c.networkBuffer c.index bytes = c'.networkBuffer := by rw [← hnew]
  have hindex : c.index + bytes.length = c'.index := by rw [← hnew]
  have hhead : headerFields (mqttProcessIncomingPacketTypeAndLength c'.networkBuffer c'.index) =
      headStatus (held c') := by
    rw [processIncoming_take (hext.buffered.length_eq ▸ hext.buffered.index_le)]
    rfl
  rw [hbuffer, hindex, hhead]
  split
  · have hkeeps := keepsInput_handleKeepAlive c'
    refine ⟨bytes, (handleKeepAlive c').2, if (handleKeepAlive c').1 = .success then
      (headStatus (held c')).1 else (handleKeepAlive c').1, hext.keepsInput hkeeps, ?_, ?_⟩
    · rw [hkeeps.held]
    · rw [hkeeps.held]
      rcases handleKeepAlive_status c' with h | h | h <;> simp [h]
  · exact ⟨bytes, c', _, hext, rfl, Or.inl rfl⟩

def handledPacket (c : Context) (manageKeepAlive : Bool) : Option Bytes :=
  let (status, header, c) := receivePacketHeader c manageKeepAlive
  let totalMqttPacketLength := header.2.1 + header.2.2
  if status = .success ∧ totalMqttPacketLength ≤ c.networkBuffer.length ∧
      totalMqttPacketLength ≤ c.index then
    some (c.networkBuffer.take totalMqttPacketLength)
  else none

theorem whole_packetBytes {type : UInt8} (hvalid : incomingPacketValid type) {body : Bytes}
    (hbody : body.length < 128 ^ 4) : Whole packetFormat (packetBytes type body) := by
  have hpre : packetBytes type body <+:
      (packetBytes type body).take (packetBytes type body).length := by
    rw [List.take_length]
  obtain ⟨headerLength, -, hheader, -, -⟩ :=
    processIncoming_of_packetBytes (Nat.le_refl _) hvalid hbody hpre
  show packetHead (packetBytes type body) = _
  rw [packetHead, hheader]
  have hlen : headerLength = (Varint.encode 4 body.length).length + 1 :=
    ((processIncoming_eq_ok_iff (Nat.le_refl _)).mp hheader).2.2.1
  rw [packetBytes, List.length_append, List.length_cons, ← hlen, Nat.add_comm]

theorem processIncoming_error {bytes : Bytes} {status : MqttStatus}
    (h : mqttProcessIncomingPacketTypeAndLength bytes bytes.length = .error status) :
    (status = .noDataAvailable ∧ bytes = []) ∨ (status = .needMoreBytes ∧ bytes.length < 5) ∨
      status = .badResponse := by
  cases bytes with
  | nil =>
    cases h
    exact Or.inl ⟨rfl, rfl⟩
  | cons b bytes =>
    rw [processIncoming_cons] at h
    split at h
    · cases hread : Varint.decode 4 bytes with
      | value n len =>
        rw [hread] at h
        simp only at h
        split at h <;> cases h
        exact Or.inr (Or.inr rfl)
      | incomplete =>
        rw [hread] at h
        cases h
        exact Or.inr (Or.inl ⟨rfl, Nat.succ_lt_succ (Varint.length_lt_of_incomplete hread)⟩)
      | overlong =>
        rw [hread] at h
        cases h
        exact Or.inr (Or.inr rfl)
    · cases h
      exact Or.inr (Or.inr rfl)

theorem headStatus_success {bytes : Bytes} (h : (headStatus bytes).1 = .success) :
    mqttProcessIncomingPacketTypeAndLength bytes bytes.length = .ok (headStatus bytes).2 := by
  rw [headStatus] at h ⊢
  cases hread : mqttProcessIncomingPacketTypeAndLength bytes bytes.length with
  | ok header => rfl
  | error status =>
    rw [hread] at h
    rcases processIncoming_error hread with ⟨rfl, -⟩ | ⟨rfl, -⟩ | rfl <;> cases h

theorem whole_of_headStatus {bytes : Bytes} (h : (headStatus bytes).1 = .success)
    (hwhole : (headStatus bytes).2.2.1 + (headStatus bytes).2.2.2 ≤ bytes.length) :
    Whole packetFormat (bytes.take ((headStatus bytes).2.2.1 + (headStatus bytes).2.2.2)) := by
  have hread := headStatus_success h
  generalize (headStatus bytes).2 = header at hread hwhole
  obtain ⟨type, remainingLength, headerLength⟩ := header
  have hvalid := ((processIncoming_eq_ok_iff (Nat.le_refl _)).mp hread).1
  rw [Nat.add_comm] at hwhole ⊢
  obtain ⟨hlen, hn, hpacket⟩ := packetBytes_of_processIncoming (Nat.le_refl _) hread hwhole rfl
  rw [hpacket]
  exact whole_packetBytes hvalid (by omega)

theorem packetHead_of_headStatus {bytes : Bytes} (h : (headStatus bytes).1 = .success) :
    packetHead bytes = .size ((headStatus bytes).2.2.1 + (headStatus bytes).2.2.2) := by
  rw [packetHead, headStatus_success h]

theorem headStatus_pos {bytes : Bytes} (h : (headStatus bytes).1 = .success) :
    0 < (headStatus bytes).2.2.1 + (headStatus bytes).2.2.2 := by
  have hread := headStatus_success h
  generalize (headStatus bytes).2 = header at hread ⊢
  obtain ⟨type, remainingLength, headerLength⟩ := header
  have hheader := ((processIncoming_eq_ok_iff (Nat.le_refl _)).mp hread).2.2.1
  show 0 < remainingLength + headerLength
  omega

theorem length_lt_of_waiting {bytes : Bytes} {size : Nat} (hsize : 5 ≤ size)
    (h : (headStatus bytes).1 ≠ .success ∧ (headStatus bytes).1 ≠ .badResponse) :
    bytes.length < size := by
  obtain ⟨hne, hbad⟩ := h
  cases hread : mqttProcessIncomingPacketTypeAndLength bytes bytes.length with
  | ok header => exact absurd (by rw [headStatus, hread]; rfl) hne
  | error status =>
    rcases processIncoming_error hread with ⟨-, rfl⟩ | ⟨-, hlt⟩ | rfl
    · exact Nat.lt_of_lt_of_le (by decide) hsize
    · omega
    · exact absurd (by rw [headStatus, hread]; rfl) hbad

section Incoming

variable (app : AppCall → List PublishInfo)

theorem handlePacket_held {size : Nat} {c : Context} (hbuf : Buffered size c)
    (header : UInt8 × Nat × Nat) (hwhole : header.2.1 + header.2.2 ≤ c.index)
    (manageKeepAlive : Bool) :
    let c' := (handlePacket app c header manageKeepAlive).2
    Buffered size c' ∧ c'.received = c.received ∧ c'.lastPacketRxTime = c.lastPacketRxTime ∧
      c'.index = c.index - (header.2.1 + header.2.2) ∧
      held c' = (held c).drop (header.2.1 + header.2.2) := by
  obtain ⟨type, remainingLength, headerLength⟩ := header
  simp only [handlePacket] at hwhole ⊢
  generalize hhandled : (if type &&& 0xF0 = packetTypePublish then
      handleIncomingPublish app c
        ⟨type, c.networkBuffer.drop headerLength, remainingLength, headerLength⟩
    else handleIncomingAck app c
      ⟨type, c.networkBuffer.drop headerLength, remainingLength, headerLength⟩ manageKeepAlive) =
    handled
  have hkeeps : KeepsInput c handled.2 := by
    rw [← hhandled]
    split
    · exact (output_handleIncomingPublish app c _).keepsInput
    · exact keepsInput_handleIncomingAck app c _ manageKeepAlive
  obtain ⟨hlen, hindex⟩ := hbuf
  have hslice : (slice c.networkBuffer (remainingLength + headerLength)
      (c.index - (remainingLength + headerLength))).length =
      c.index - (remainingLength + headerLength) := length_slice (by omega)
  rw [hkeeps.index, hkeeps.networkBuffer]
  refine ⟨⟨?_, ?_⟩, hkeeps.received, hkeeps.lastPacketRxTime, rfl, ?_⟩
  · exact (length_store (by omega)).trans hlen
  · exact (Nat.sub_le _ _).trans hindex
  · have htake := take_store (Nat.zero_le c.networkBuffer.length)
      (slice c.networkBuffer (remainingLength + headerLength)
        (c.index - (remainingLength + headerLength)))
    rw [hslice, Nat.zero_add, List.take_zero, List.nil_append] at htake
    rw [held, held, htake, slice, List.drop_take]

inductive Iteration (size : Nat) (c : Context) (bytes : Bytes) (c' : Context) : Option Bytes → Prop
  /-- No packet is handled; what came is kept. -/
  | waited (hheld : held c' = held c ++ bytes) : Iteration size c bytes c' none
  /-- A packet larger than the buffer is read to its end and dropped. -/
  | discarded (hwhole : Whole packetFormat (held c ++ bytes))
      (hlarge : size < (held c ++ bytes).length) (hheld : held c' = []) :
      Iteration size c bytes c' none
  | handled (f : Bytes) (hwhole : Whole packetFormat f) (hfits : f.length ≤ size)
      (hheld : held c ++ bytes = f ++ held c') : Iteration size c bytes c' (some f)

theorem receiveSingleIteration_of_ne {c c' : Context} {manageKeepAlive : Bool}
    {status : MqttStatus} {header : UInt8 × Nat × Nat}
    (h : receivePacketHeader c manageKeepAlive = (status, header, c')) (hne : status ≠ .success) :
    receiveSingleIteration app c manageKeepAlive =
        (if status = .noDataAvailable then .success else status, c') ∧
      handledPacket c manageKeepAlive = none := by
  simp [receiveSingleIteration, handledPacket, h, hne]

def iterationStatus (status : MqttStatus) : MqttStatus :=
  if status = .noDataAvailable then .success else status

theorem receiveSingleIteration_of_success {c c' : Context} {manageKeepAlive : Bool}
    {header : UInt8 × Nat × Nat}
    (h : receivePacketHeader c manageKeepAlive = (.success, header, c')) :
    receiveSingleIteration app c manageKeepAlive =
        (iterationStatus
          (if header.2.1 + header.2.2 > c'.networkBuffer.length then
            discardStoredPacket c' (header.2.1 + header.2.2)
          else if header.2.1 + header.2.2 > c'.index then (.needMoreBytes, c')
          else handlePacket app c' header manageKeepAlive).1,
        (if header.2.1 + header.2.2 > c'.networkBuffer.length then
            discardStoredPacket c' (header.2.1 + header.2.2)
          else if header.2.1 + header.2.2 > c'.index then (.needMoreBytes, c')
          else handlePacket app c' header manageKeepAlive).2) ∧
      handledPacket c manageKeepAlive =
        if header.2.1 + header.2.2 ≤ c'.networkBuffer.length ∧
          header.2.1 + header.2.2 ≤ c'.index then
            some (c'.networkBuffer.take (header.2.1 + header.2.2))
        else none := by
  simp [receiveSingleIteration, handledPacket, h, iterationStatus]

/-- The ways an iteration goes on behind the header: it waits, drops a packet that is too large,
or hands the packet in front to its handler. -/
theorem receiveSingleIteration_inv {size : Nat} {c : Context} (hbuf : Buffered size c)
    (manageKeepAlive : Bool) :
    let c' := (receivePacketHeader c manageKeepAlive).2.2
    (∃ status, receiveSingleIteration app c manageKeepAlive = (status, c') ∧
      handledPacket c manageKeepAlive = none) ∨
    (∃ total, receiveSingleIteration app c manageKeepAlive =
        (iterationStatus (discardStoredPacket c' total).1, (discardStoredPacket c' total).2) ∧
      handledPacket c manageKeepAlive = none) ∨
    ∃ type remainingLength headerLength, c'.index ≤ c'.networkBuffer.length ∧
      mqttProcessIncomingPacketTypeAndLength c'.networkBuffer c'.index =
        .ok (type, remainingLength, headerLength) ∧
      headerLength + remainingLength ≤ c'.index ∧
      receiveSingleIteration app c manageKeepAlive =
        (iterationStatus
          (handlePacket app c' (type, remainingLength, headerLength) manageKeepAlive).1,
        (handlePacket app c' (type, remainingLength, headerLength) manageKeepAlive).2) ∧
      handledPacket c manageKeepAlive =
        some (packetBytes type ((c'.networkBuffer.drop headerLength).take remainingLength)) := by
  rcases receivePacketHeader_cases hbuf manageKeepAlive with
    ⟨reads, heq⟩ | ⟨bytes, c', status, hext, heq, hstatus⟩
  · rw [heq]
    exact Or.inl ⟨_, receiveSingleIteration_of_ne app heq (by decide)⟩
  rw [heq]
  by_cases hsuccess : status = .success
  swap
  · exact Or.inl ⟨_, receiveSingleIteration_of_ne app heq hsuccess⟩
  subst hsuccess
  have hread :=
    headStatus_success (hstatus.elim Eq.symm fun h => by rcases h with h | h <;> cases h)
  have hindex : c'.index ≤ c'.networkBuffer.length :=
    hext.buffered.length_eq ▸ hext.buffered.index_le
  rw [held, ← processIncoming_take hindex, ← held] at hread
  obtain ⟨hresult, hhandled⟩ := receiveSingleIteration_of_success app heq
  generalize (headStatus (held c')).2 = header at hread hresult hhandled
  obtain ⟨type, remainingLength, headerLength⟩ := header
  simp only at hresult hhandled ⊢
  by_cases hlarge : remainingLength + headerLength > c'.networkBuffer.length
  · rw [if_pos hlarge] at hresult
    rw [if_neg (by omega)] at hhandled
    exact Or.inr (Or.inl ⟨_, hresult, hhandled⟩)
  by_cases hpartial : remainingLength + headerLength > c'.index
  · rw [if_neg hlarge, if_pos hpartial] at hresult
    rw [if_neg (by omega)] at hhandled
    exact Or.inl ⟨_, hresult, hhandled⟩
  · rw [if_neg hlarge, if_neg hpartial] at hresult
    rw [if_pos (by omega), Nat.add_comm remainingLength,
      (packetBytes_of_processIncoming hindex hread (by omega) rfl).2.2] at hhandled
    exact Or.inr (Or.inr ⟨type, remainingLength, headerLength, hindex, hread, by omega, hresult,
      hhandled⟩)

theorem iteration_discarded {size : Nat} {c : Context} (hbuf : Buffered size c)
    (hok : (headStatus (held c)).1 = .success) {total : Nat}
    (htotal : total = (headStatus (held c)).2.2.1 + (headStatus (held c)).2.2.2)
    (hlarge : size < total) :
    let result := discardStoredPacket c total
    Buffered size result.2 ∧ result.2.lastPacketRxTime = c.lastPacketRxTime ∧
      result.2.index = 0 ∧
      (result.1 ≠ .recvFailed → ∃ bytes, result.2.received = c.received ++ bytes ∧
        Whole packetFormat (held c ++ bytes) ∧ (held c ++ bytes).length = total) := by
  obtain ⟨bytes, ⟨hlen, hindex, hreceived, hrx⟩, hall⟩ := readInto_discardLoop (total - c.index)
    hbuf.length_eq c.networkBuffer.length (total - c.index) (Nat.le_of_eq hbuf.length_eq)
  have hheld := length_held hbuf
  have hle := hbuf.index_le
  simp only [discardStoredPacket]
  refine ⟨⟨?_, Nat.zero_le _⟩, hrx, trivial, fun hne => ⟨bytes, hreceived, ?_⟩⟩
  · rw [List.length_replicate, hbuf.length_eq]
  have hdiscarded : bytes.length = total - c.index := by
    apply hall
    by_contra hfalse
    exact hne (if_neg hfalse)
  have hlength : (held c ++ bytes).length = total := by
    rw [List.length_append]
    omega
  refine ⟨?_, hlength⟩
  have hhead := packetHead_of_headStatus hok
  show packetHead (held c ++ bytes) = _
  rw [packetHead_stable _ _ (by rw [hhead]; simp), hhead, hlength, htotal]

theorem receiveSingleIteration_cases {size : Nat} {c : Context} (hbuf : Buffered size c)
    (manageKeepAlive : Bool) :
    let result := receiveSingleIteration app c manageKeepAlive
    Buffered size result.2 ∧ result.2.lastPacketRxTime = c.lastPacketRxTime ∧
      (5 ≤ size → result.1 = .success ∨ result.1 = .needMoreBytes → result.2.index < size) ∧
      (result.1 ≠ .recvFailed → ∃ bytes, result.2.received = c.received ++ bytes ∧
        Iteration size c bytes result.2 (handledPacket c manageKeepAlive)) := by
  rcases receivePacketHeader_cases hbuf manageKeepAlive with
    ⟨reads, heq⟩ | ⟨bytes, c', status, hext, heq, hstatus⟩
  · obtain ⟨hresult, -⟩ := receiveSingleIteration_of_ne app heq (by decide)
    rw [hresult]
    refine ⟨⟨hbuf.length_eq, hbuf.index_le⟩, rfl, ?_, ?_⟩
    · rintro - (h | h) <;> cases h
    · exact fun h => absurd rfl h
  obtain ⟨hbuf', hreceived, hheld, hrx⟩ := hext
  have hindex := length_held hbuf'
  by_cases hsuccess : status = .success
  swap
  · -- nothing whole in front, or the keep alive failed
    obtain ⟨hresult, hnone⟩ := receiveSingleIteration_of_ne app heq hsuccess
    rw [hresult, hnone]
    refine ⟨hbuf', hrx, fun hsize hgood => ?_, fun _ => ⟨bytes, hreceived, .waited hheld⟩⟩
    have hshort : (held c').length < size := by
      apply length_lt_of_waiting hsize
      rcases hstatus with h | rfl | rfl
      · rw [← h]
        refine ⟨hsuccess, ?_⟩
        rintro rfl
        rcases hgood with h | h <;> cases h
      · rcases hgood with h | h <;> cases h
      · rcases hgood with h | h <;> cases h
    exact hindex ▸ hshort
  subst hsuccess
  have hok : (headStatus (held c')).1 = .success := by
    rcases hstatus with h | h | h
    · exact h.symm
    · cases h
    · cases h
  have hlen := hbuf'.length_eq
  obtain ⟨hresult, hhandled⟩ := receiveSingleIteration_of_success app heq
  rw [hresult, hhandled]
  generalize htotal : (headStatus (held c')).2.2.1 + (headStatus (held c')).2.2.2 = total
  by_cases hlarge : size < total
  · obtain ⟨hbuf'', hrx', hzero, hread⟩ := iteration_discarded hbuf' hok htotal.symm hlarge
    rw [if_pos (hlen.symm ▸ hlarge), if_neg (by omega)]
    refine ⟨hbuf'', hrx'.trans hrx, fun hsize _ => by rw [hzero]; omega, fun hne => ?_⟩
    obtain ⟨more, hmore, hwhole, hlength⟩ := hread (by
      intro hfailed
      rw [hfailed] at hne
      exact hne rfl)
    rw [hheld, List.append_assoc] at hwhole hlength
    refine ⟨bytes ++ more, by rw [hmore, hreceived, List.append_assoc],
      .discarded hwhole (hlength ▸ hlarge) ?_⟩
    rw [held, hzero, List.take_zero]
  by_cases hpartial : total > c'.index
  · rw [if_neg (by omega), if_pos hpartial, if_neg (by omega)]
    exact ⟨hbuf', hrx, fun _ _ => by simp only; omega, fun _ => ⟨bytes, hreceived, .waited hheld⟩⟩
  · rw [if_neg (by omega), if_neg hpartial, if_pos (by omega)]
    obtain ⟨hbuf'', hreceived', hrx', hindex', hheld'⟩ :=
      handlePacket_held app hbuf' (headStatus (held c')).2 (by omega) manageKeepAlive
    have hwhole := whole_of_headStatus hok (by omega)
    rw [htotal] at hwhole hindex' hheld'
    have htake : c'.networkBuffer.take total = (held c').take total := by
      rw [held, List.take_take, Nat.min_eq_left (by omega)]
    have hpos : 0 < total := htotal ▸ headStatus_pos hok
    refine ⟨hbuf'', hrx'.trans hrx, fun _ _ => ?_, fun _ => ⟨bytes, ?_, ?_⟩⟩
    · have hle := hbuf'.index_le
      exact hindex'.trans_lt (by omega)
    · rw [hreceived', hreceived]
    · rw [htake]
      refine .handled _ hwhole ?_ ?_
      · rw [List.length_take]
        omega
      · rw [hheld', ← hheld, List.take_append_drop]

/-! ## Runs -/

inductive ClientCall
  | processLoop
  | receiveLoop
  | request (request : Request)

def clientStep (c : Context) : ClientCall → MqttStatus × Context
  | .processLoop => mqttProcessLoop app c
  | .receiveLoop => mqttReceiveLoop app c
  | .request request => request.send c

def ClientCall.handled (c : Context) : ClientCall → Option Bytes
  | .processLoop => handledPacket c true
  | .receiveLoop => handledPacket c false
  | .request _ => none

def handledPackets (tr : List (Step Context ClientCall)) : List Bytes :=
  tr.filterMap fun t => t.event.handled t.before

theorem output_request (c : Context) (request : Request) : Output c (request.send c).2 := by
  cases request with
  | publish publishInfo packetId => exact output_mqttPublish c publishInfo packetId
  | subscribe subscriptions packetId =>
    obtain ⟨bytes, hwrote⟩ := wrote_mqttSubscribe c subscriptions packetId
    exact hwrote.output
  | unsubscribe subscriptions packetId =>
    obtain ⟨bytes, hwrote⟩ := wrote_mqttUnsubscribe c subscriptions packetId
    exact hwrote.output

structure Cut (size : Nat) (c₀ : Context) (handled : List Bytes) (c : Context) : Prop where
  buffered : Buffered size c
  packets : ∃ packets : List Bytes, (∀ f ∈ packets, Whole packetFormat f) ∧
    c.received = c₀.received ++ (packets.flatten ++ held c) ∧
    handled = packets.filter fun f => decide (f.length ≤ size)

theorem Cut.iteration {size : Nat} {c₀ c c' : Context} {handled : List Bytes}
    (h : Cut size c₀ handled c) (hbuf : Buffered size c') {bytes : Bytes} {packet : Option Bytes}
    (hreceived : c'.received = c.received ++ bytes) (hstep : Iteration size c bytes c' packet) :
    Cut size c₀ (handled ++ packet.toList) c' := by
  obtain ⟨-, packets, hwholes, hcut, hhandled⟩ := h
  rw [hcut] at hreceived
  refine ⟨hbuf, ?_⟩
  cases hstep with
  | waited hheld =>
    refine ⟨packets, hwholes, ?_, by simpa using hhandled⟩
    rw [hreceived, hheld]
    simp only [List.append_assoc]
  | discarded hwhole hlarge hheld =>
    refine ⟨packets ++ [held c ++ bytes], ?_, ?_, ?_⟩
    · intro f hf
      rcases List.mem_append.mp hf with hf | hf
      · exact hwholes f hf
      · rw [List.mem_singleton.mp hf]
        exact hwhole
    · rw [hreceived, hheld]
      simp
    · rw [List.filter_append, hhandled, List.filter_cons_of_neg (by simpa using hlarge)]
      simp
  | handled f hwhole hfits hheld =>
    refine ⟨packets ++ [f], ?_, ?_, ?_⟩
    · intro g hg
      rcases List.mem_append.mp hg with hg | hg
      · exact hwholes g hg
      · rw [List.mem_singleton.mp hg]
        exact hwhole
    · rw [hreceived, List.append_assoc, List.append_assoc, hheld]
      simp
    · rw [List.filter_append, hhandled]
      simp [hfits]

theorem cut_step {size : Nat} {c₀ c : Context} {handled : List Bytes}
    (h : Cut size c₀ handled c) (call : ClientCall)
    (hok : (clientStep app c call).1 ≠ .recvFailed) :
    Cut size c₀ (handled ++ (call.handled c).toList) (clientStep app c call).2 := by
  cases call with
  | processLoop =>
    obtain ⟨hbuf, -, -, hcases⟩ := receiveSingleIteration_cases app h.buffered true
    obtain ⟨bytes, hreceived, hstep⟩ := hcases hok
    exact h.iteration hbuf hreceived hstep
  | receiveLoop =>
    obtain ⟨hbuf, -, -, hcases⟩ := receiveSingleIteration_cases app h.buffered false
    obtain ⟨bytes, hreceived, hstep⟩ := hcases hok
    exact h.iteration hbuf hreceived hstep
  | request request =>
    have hkeeps := (output_request c request).keepsInput
    have hreceived : (request.send c).2.received = c.received ++ [] := by
      rw [List.append_nil, hkeeps.received]
    have hheld : held (request.send c).2 = held c ++ [] := by rw [List.append_nil, hkeeps.held]
    exact h.iteration (hkeeps.buffered h.buffered) hreceived (.waited hheld)

theorem handledPackets_concat (tr : List (Step Context ClientCall)) (t : Step Context ClientCall) :
    handledPackets (tr ++ [t]) = handledPackets tr ++ (t.event.handled t.before).toList := by
  rw [handledPackets, List.filterMap_append]
  cases h : t.event.handled t.before <;> simp [handledPackets, h]

theorem cut_run {size : Nat} {c : Context} (hsize : c.networkBuffer.length = size)
    (hstart : c.index = 0) (calls : List ClientCall)
    (hok : ∀ t ∈ trace (advance (clientStep app)) c calls,
      (clientStep app t.before t.event).1 ≠ .recvFailed) :
    Cut size c (handledPackets (trace (advance (clientStep app)) c calls))
      (run (advance (clientStep app)) c calls) := by
  refine trace_induction (Q := fun tr c' => Cut size c (handledPackets tr) c') ?_ ?_ calls hok
  · refine ⟨⟨hsize, by omega⟩, [], fun f hf => absurd hf List.not_mem_nil, ?_, rfl⟩
    rw [held, hstart, List.take_zero]
    simp
  · intro tr c' call hcut hcall
    rw [handledPackets_concat]
    exact cut_step app hcut call hcall

/-- Until the connection fails, the bytes received are whole packets, the packets that fit into
the buffer have been handled in order, and the rest is held; however the bytes arrived, and
whatever was sent in between and by the handlers. -/
theorem packets_of_stream {size : Nat} {c : Context} (hsize : c.networkBuffer.length = size)
    (hstart : c.index = 0) (calls : List ClientCall)
    (hok : ∀ t ∈ trace (advance (clientStep app)) c calls,
      (clientStep app t.before t.event).1 ≠ .recvFailed) :
    let c' := run (advance (clientStep app)) c calls
    ∃ packets : List Bytes, (∀ f ∈ packets, Whole packetFormat f) ∧
      c'.received = c.received ++ (packets.flatten ++ held c') ∧
      handledPackets (trace (advance (clientStep app)) c calls) =
        packets.filter fun f => decide (f.length ≤ size) :=
  (cut_run app hsize hstart calls hok).packets

end Incoming

def sampleContext (reads : List TlsRead) : Context :=
  ⟨clearRecords 2 2, List.replicate 8 0, 0, 1, 60, 0, 0, 0, false, reads, [], [], 0, [], [], [],
    []⟩

theorem packets_of_stream_sample :
    let reads : List TlsRead := [.data [0xD0], .wantRead, .data [0, 0x30, 9, 0],
      .data [1, 97, 1, 2, 3, 4, 5, 6, 0xD0, 0]]
    let calls : List ClientCall := List.replicate 5 .processLoop
    let c' := run (advance (clientStep fun _ => [])) (sampleContext reads) calls
    ∃ packets : List Bytes, (∀ f ∈ packets, Whole packetFormat f) ∧
      c'.received = packets.flatten ++ held c' ∧ c'.received.length = 15 ∧ held c' = [] ∧
      packets.filter (fun f => decide (f.length ≤ 8)) = [[0xD0, 0], [0xD0, 0]] := by
  intro reads calls c'
  have hsize : (sampleContext reads).networkBuffer.length = 8 := rfl
  obtain ⟨packets, hwhole, hreceived, hhandled⟩ := packets_of_stream (fun _ => []) hsize rfl calls
    (by decide +kernel)
  exact ⟨packets, hwhole, hreceived, by decide +kernel, by decide +kernel,
    hhandled.symm.trans (by decide +kernel)⟩

/-- Two clients that get the same bytes, cut in different ways, handle the same packets as far
as they have come. -/
theorem packets_independent_of_reads {app app' : AppCall → List PublishInfo} {size : Nat}
    {c d : Context} (hc : c.networkBuffer.length = size) (hd : d.networkBuffer.length = size)
    (hc₀ : c.index = 0) (hd₀ : d.index = 0) (hfresh : c.received = d.received)
    {calls calls' : List ClientCall}
    (hok : ∀ t ∈ trace (advance (clientStep app)) c calls,
      (clientStep app t.before t.event).1 ≠ .recvFailed)
    (hok' : ∀ t ∈ trace (advance (clientStep app')) d calls',
      (clientStep app' t.before t.event).1 ≠ .recvFailed)
    (hstream : (run (advance (clientStep app)) c calls).received <+:
      (run (advance (clientStep app')) d calls').received) :
    let handled := handledPackets (trace (advance (clientStep app)) c calls)
    let handled' := handledPackets (trace (advance (clientStep app')) d calls')
    handled <+: handled' ∨ handled' <+: handled := by
  obtain ⟨-, packets, hwhole, hreceived, hhandled⟩ := cut_run app hc hc₀ calls hok
  obtain ⟨-, packets', hwhole', hreceived', hhandled'⟩ := cut_run app' hd hd₀ calls' hok'
  obtain ⟨rest, hrest⟩ := hstream
  rw [hreceived, hreceived', hfresh, List.append_assoc, List.append_cancel_left_eq,
    List.append_assoc] at hrest
  rw [hhandled, hhandled']
  exact (cuts_agree hwhole hwhole' hrest).imp (·.filter _) (·.filter _)

theorem packets_independent_of_reads_sample :
    let c := sampleContext [.data [0xD0], .wantRead, .data [0, 0xD0, 0]]
    let d := sampleContext [.data [0xD0, 0, 0xD0, 0], .wantRead]
    let calls : List ClientCall := [.processLoop, .processLoop, .processLoop]
    let calls' : List ClientCall := [.receiveLoop, .receiveLoop]
    handledPackets (trace (advance (clientStep fun _ => [])) c calls) <+:
        handledPackets (trace (advance (clientStep fun _ => [])) d calls') ∨
      handledPackets (trace (advance (clientStep fun _ => [])) d calls') <+:
        handledPackets (trace (advance (clientStep fun _ => [])) c calls) := by
  intro c d calls calls'
  exact packets_independent_of_reads (c := c) (d := d) rfl rfl rfl rfl rfl (by decide +kernel)
    (by decide +kernel) (by decide +kernel)

/-! ## Room in the buffer -/

section Room

variable (app : AppCall → List PublishInfo)

def goodCall (t : Step Context ClientCall) : Bool :=
  match t.event with
  | .request _ => true
  | _ => decide ((clientStep app t.before t.event).1 = .success ∨
      (clientStep app t.before t.event).1 = .needMoreBytes)

theorem room_step {size : Nat} (hmin : 5 ≤ size) {c : Context} (hbuf : Buffered size c)
    (hroom : c.index < size) (call : ClientCall)
    (hgood : goodCall app ⟨c, call, (clientStep app c call).2⟩) :
    Buffered size (clientStep app c call).2 ∧ (clientStep app c call).2.index < size := by
  cases call with
  | processLoop =>
    obtain ⟨hbuf', -, hindex, -⟩ := receiveSingleIteration_cases app hbuf true
    exact ⟨hbuf', hindex hmin (of_decide_eq_true hgood)⟩
  | receiveLoop =>
    obtain ⟨hbuf', -, hindex, -⟩ := receiveSingleIteration_cases app hbuf false
    exact ⟨hbuf', hindex hmin (of_decide_eq_true hgood)⟩
  | request request =>
    have hkeeps := (output_request c request).keepsInput
    exact ⟨hkeeps.buffered hbuf, hkeeps.index.trans_lt hroom⟩

/-- Polls that go well leave room in the buffer, so the next one never asks the transport for 0
bytes, which would look like a closed connection. -/
theorem poll_has_room {c : Context} (hmin : 5 ≤ c.networkBuffer.length) (hstart : c.index = 0)
    (calls : List ClientCall)
    (hgood : ∀ t ∈ trace (advance (clientStep app)) c calls, goodCall app t) :
    let c' := run (advance (clientStep app)) c calls
    0 < c'.networkBuffer.length - c'.index := by
  obtain ⟨hbuf, hroom⟩ : Buffered c.networkBuffer.length
      (run (advance (clientStep app)) c calls) ∧
      (run (advance (clientStep app)) c calls).index < c.networkBuffer.length := by
    refine trace_induction (Q := fun _ c' => Buffered c.networkBuffer.length c' ∧
      c'.index < c.networkBuffer.length) ⟨⟨rfl, by omega⟩, by omega⟩ ?_ calls hgood
    rintro - c' call ⟨hbuf, hroom⟩ hcall
    exact room_step app hmin hbuf hroom call hcall
  exact Nat.sub_pos_of_lt (hbuf.length_eq.symm ▸ hroom)

end Room

theorem poll_has_room_sample :
    let c := { sampleContext [.data [0xD0, 0, 0x40, 2, 0], .wantRead] with
      networkBuffer := List.replicate 5 0 }
    let c' := run (advance (clientStep fun _ => [])) c [.receiveLoop, .receiveLoop]
    0 < c'.networkBuffer.length - c'.index := by
  intro c
  exact poll_has_room (fun _ => []) (c := c) (by decide) rfl _ (by decide +kernel)

end CyThing.CoreMqtt
