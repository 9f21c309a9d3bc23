import CyThing.CoreMqtt.Events

/-! What the application sees of the stream: its callbacks are for packets of the stream, in
their order and each at most once, and a publish is the one that is in the packet. -/

namespace CyThing.CoreMqtt
open CLib Trace Simulation
open scoped List

/-! ## Handlers -/

theorem Wrote.calls {c c' : Context} {bytes : Bytes} (h : Wrote c bytes c') :
    c'.calls = c.calls := by
  obtain ⟨_, _, _, _, rfl⟩ := h
  rfl

theorem calls_mqttPublish (c : Context) (publishInfo : PublishInfo) (packetId : UInt16) :
    (mqttPublish c publishInfo packetId).2.calls = c.calls := by
  rcases mqttPublish_cases c publishInfo packetId with
    heq | ⟨-, -, heq⟩ | ⟨remainingLength, packetSize, -, -, -, heq⟩ <;> rw [heq]
  obtain ⟨k, c', hwrote, hresult⟩ := publishReserved_cases
    { c with publishRecords := (mqttReserveState c.publishRecords packetId publishInfo.qos).2 }
    publishInfo remainingLength packetId
  rcases hresult with ⟨-, status, hresult, -⟩ | ⟨-, hresult⟩ | ⟨-, -, hresult⟩ <;> rw [hresult]
  · exact hwrote.calls
  · exact hwrote.calls
  · exact hwrote.calls

theorem calls_sendPublishAcks (c : Context) (packetId : UInt16) (publishState : PublishState) :
    (sendPublishAcks c packetId publishState).2.calls = c.calls := by
  rw [sendPublishAcks]
  split
  · split
    · rfl
    · next pubAckPacket _ =>
      obtain ⟨k, -, hwrote, -⟩ := wrote_sendMessageVector c [pubAckPacket]
      rw [← sendBuffer_eq] at hwrote
      simp only
      split
      · exact hwrote.calls
      · exact hwrote.calls
  · rfl

def Called (c : Context) (packet : PacketInfo) (c' : Context) : Prop :=
  c'.calls = c.calls ∨ ∃ call, c'.calls = c.calls ++ [call] ∧ call.packet = packet ∧
    ∀ publishInfo, call.publishInfo = some publishInfo →
      mqttDeserializePublish packet = .ok (call.packetIdentifier, publishInfo)

section App

variable (app : AppCall → List PublishInfo)

theorem calls_appCallback (c : Context) (call : AppCall) :
    (appCallback app c call).calls = c.calls ++ [call] := by
  rw [appCallback]
  generalize hstart : { c with calls := c.calls ++ [call] } = start
  have hcalls : start.calls = c.calls ++ [call] := by rw [← hstart]
  rw [← hcalls]
  clear hstart hcalls
  induction app call generalizing start with
  | nil => rfl
  | cons publishInfo replies ih =>
    rw [List.foldl_cons, ih, calls_mqttPublish]
    rfl

theorem called_handleIncomingPublish (c : Context) (packet : PacketInfo) :
    Called c packet (handleIncomingPublish app c packet).2 := by
  rw [handleIncomingPublish]
  split
  · exact .inl rfl
  next packetIdentifier publishInfo hread =>
  simp only
  split
  · right
    rw [calls_sendPublishAcks, calls_appCallback]
    refine ⟨⟨packet, packetIdentifier, some publishInfo, .success⟩, ?_, rfl, ?_⟩
    · split <;> rfl
    · rintro _ ⟨⟩
      exact hread
  split
  · exact .inl (calls_sendPublishAcks _ _ _)
  · exact .inl rfl

theorem called_handleIncomingAck (c : Context) (packet : PacketInfo) (manageKeepAlive : Bool) :
    Called c packet (handleIncomingAck app c packet manageKeepAlive).2 := by
  simp only [handleIncomingAck, handlePublishAcks]
  split
  · split
    · split
      · right
        rw [calls_sendPublishAcks, calls_appCallback]
        exact ⟨_, rfl, rfl, fun _ h => by cases h⟩
      · exact .inl rfl
    · exact .inl rfl
  split
  · split
    · split
      · exact .inl rfl
      · exact .inr ⟨_, calls_appCallback app c _, rfl, fun _ h => by cases h⟩
    · exact .inl rfl
  split
  · split
    · exact .inr ⟨_, calls_appCallback app c _, rfl, fun _ h => by cases h⟩
    · exact .inl rfl
  · exact .inl rfl

theorem called_handlePacket (c : Context) (type : UInt8) (remainingLength headerLength : Nat)
    (manageKeepAlive : Bool) :
    Called c ⟨type, c.networkBuffer.drop headerLength, remainingLength, headerLength⟩
      (handlePacket app c (type, remainingLength, headerLength) manageKeepAlive).2 := by
  by_cases hpublish : type &&& 0xF0 = packetTypePublish
  · simp only [handlePacket, if_pos hpublish]
    exact called_handleIncomingPublish app c _
  · simp only [handlePacket, if_neg hpublish]
    exact called_handleIncomingAck app c _ manageKeepAlive

/-! ## Iterations -/

def AppCall.bytes (call : AppCall) : Bytes :=
  packetBytes call.packet.type (call.packet.remainingData.take call.packet.remainingLength)

def AppCall.Faithful (call : AppCall) : Prop :=
  ∀ publishInfo, call.publishInfo = some publishInfo →
    call.bytes = publishBytes publishInfo
      (publishBody publishInfo call.packetIdentifier).length call.packetIdentifier

def CalledFor (c : Context) (packets : List Bytes) (c' : Context) : Prop :=
  ∃ calls, c'.calls = c.calls ++ calls ∧ calls.map AppCall.bytes <+ packets ∧
    ∀ call ∈ calls, call.Faithful

theorem CalledFor.none {c c' : Context} (packets : List Bytes) (h : c'.calls = c.calls) :
    CalledFor c packets c' :=
  ⟨[], by rw [h, List.append_nil], List.nil_sublist _, fun _ hcall => absurd hcall List.not_mem_nil⟩

theorem CalledFor.append {c c' c'' : Context} {packets more : List Bytes}
    (h : CalledFor c packets c') (h' : CalledFor c' more c'') :
    CalledFor c (packets ++ more) c'' := by
  obtain ⟨calls, hcalls, hsub, hfaithful⟩ := h
  obtain ⟨calls', hcalls', hsub', hfaithful'⟩ := h'
  refine ⟨calls ++ calls', ?_, ?_, fun call hcall => ?_⟩
  · rw [hcalls', hcalls, List.append_assoc]
  · rw [List.map_append]
    exact hsub.append hsub'
  · rcases List.mem_append.mp hcall with hcall | hcall
    · exact hfaithful call hcall
    · exact hfaithful' call hcall

theorem calledFor_handlePacket {c : Context} (hindex : c.index ≤ c.networkBuffer.length)
    {type : UInt8} {remainingLength headerLength : Nat}
    (hread : mqttProcessIncomingPacketTypeAndLength c.networkBuffer c.index =
      .ok (type, remainingLength, headerLength))
    (hwhole : headerLength + remainingLength ≤ c.index) (manageKeepAlive : Bool) :
    CalledFor c [packetBytes type ((c.networkBuffer.drop headerLength).take remainingLength)]
      (handlePacket app c (type, remainingLength, headerLength) manageKeepAlive).2 := by
  rcases called_handlePacket app c type remainingLength headerLength manageKeepAlive with
    hsame | ⟨call, hcalls, habout, hpublish⟩
  · exact CalledFor.none _ hsame
  refine ⟨[call], hcalls, ?_, ?_⟩
  · rw [List.map_singleton, AppCall.bytes, habout]
  · intro call' hcall' publishInfo hinfo
    obtain rfl := List.mem_singleton.mp hcall'
    obtain ⟨htype, hbody, -, -⟩ := deserializePublish_eq_ok (by rw [List.length_drop]; omega)
      (hpublish publishInfo hinfo)
    obtain ⟨hlen, hmax, -⟩ := packetBytes_of_processIncoming hindex hread hwhole hbody
    rw [publishBytes_eq_packetBytes rfl (by omega), AppCall.bytes, habout, ← hbody, htype]

theorem calledFor_iteration {size : Nat} {c : Context} (hbuf : Buffered size c)
    (manageKeepAlive : Bool) :
    CalledFor c (handledPacket c manageKeepAlive).toList
      (receiveSingleIteration app c manageKeepAlive).2 := by
  obtain ⟨sent, hview⟩ := view_receivePacketHeader c manageKeepAlive
  have hcalls : (receivePacketHeader c manageKeepAlive).2.2.calls = c.calls :=
    congrArg View.calls hview
  rcases receiveSingleIteration_inv app hbuf manageKeepAlive with
    ⟨status, hresult, -⟩ | ⟨total, hresult, -⟩ |
      ⟨type, remainingLength, headerLength, hindex, hread, hwhole, hresult, hhandled⟩ <;>
    rw [hresult]
  · exact CalledFor.none _ hcalls
  · refine CalledFor.none _ (Eq.trans ?_ hcalls)
    exact congrArg View.calls (read_discardStoredPacket _ total).view
  · rw [hhandled]
    exact (CalledFor.none [] hcalls).append
      (calledFor_handlePacket app hindex hread hwhole manageKeepAlive)

theorem calls_request (c : Context) (request : Request) : (request.send c).2.calls = c.calls := by
  cases request with
  | publish publishInfo packetId => exact calls_mqttPublish c publishInfo packetId
  | subscribe subscriptions packetId =>
    obtain ⟨bytes, hwrote⟩ := wrote_mqttSubscribe c subscriptions packetId
    exact hwrote.calls
  | unsubscribe subscriptions packetId =>
    obtain ⟨bytes, hwrote⟩ := wrote_mqttUnsubscribe c subscriptions packetId
    exact hwrote.calls

theorem calledFor_step {size : Nat} {c : Context} (hbuf : Buffered size c) (call : ClientCall) :
    Buffered size (clientStep app c call).2 ∧
      CalledFor c (call.handled c).toList (clientStep app c call).2 := by
  cases call with
  | processLoop =>
    exact ⟨(receiveSingleIteration_cases app hbuf true).1, calledFor_iteration app hbuf true⟩
  | receiveLoop =>
    exact ⟨(receiveSingleIteration_cases app hbuf false).1, calledFor_iteration app hbuf false⟩
  | request request =>
    exact ⟨(output_request c request).keepsInput.buffered hbuf,
      CalledFor.none _ (calls_request c request)⟩

end App

end CyThing.CoreMqtt
