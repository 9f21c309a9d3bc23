import CyThing.CoreMqtt.Delivery

/-! Connecting: what a successful `MQTT_Connect` has sent and read, byte for byte, and the state
it leaves, whatever was before. -/

namespace CyThing.CoreMqtt
open CLib

/-! ## CONNECT -/

def connectBody (connectInfo : ConnectInfo) (willInfo : Option PublishInfo) : Bytes :=
  encodeString ⟨ascii "MQTT", length_protocolName⟩ ++
    (4 :: connectFlags connectInfo willInfo :: uint16Bytes connectInfo.keepAliveSeconds ++
    (encodeString connectInfo.clientIdentifier ++
    ((willInfo.map fun will => encodeString will.topicName ++ encodeString (willMessage will)).getD
      [] ++
    ((connectInfo.userName.map encodeString).getD [] ++
      (connectInfo.password.map encodeString).getD []))))

theorem length_encodeString (text : MqttString) :
    (encodeString text).length = text.1.length + 2 := by
  rw [encodeString, List.length_append, length_uint16Bytes, Nat.add_comm]

theorem length_willMessage {will : PublishInfo} (h : will.payload.length ≤ 65535) :
    (willMessage will).1.length = will.payload.length := by
  have hsmall : (UInt16.ofNat will.payload.length).toNat = will.payload.length := by
    rw [UInt16.toNat_ofNat', Nat.mod_eq_of_lt (by omega)]
  show (will.payload.take (UInt16.ofNat will.payload.length).toNat).length = _
  rw [hsmall, List.take_length]

theorem mqttGetConnectPacketSize_eq_ok {connectInfo : ConnectInfo} {willInfo : Option PublishInfo}
    {remainingLength packetSize : Nat}
    (h : mqttGetConnectPacketSize connectInfo willInfo = .ok (remainingLength, packetSize)) :
    (connectBody connectInfo willInfo).length = remainingLength ∧ remainingLength < 128 ^ 4 := by
  obtain ⟨cleanSession, keepAliveSeconds, clientIdentifier, userName, password⟩ := connectInfo
  have hname : (ascii "MQTT").length = 4 := rfl
  have hclient := clientIdentifier.2
  rw [mqttGetConnectPacketSize] at h
  split at h
  · cases h
  split at h
  · cases h
  next hwill =>
  rw [Except.ok.injEq, Prod.mk.injEq] at h
  obtain ⟨rfl, -⟩ := h
  simp only [connectBody, List.length_append, List.length_cons, length_encodeString,
    length_uint16Bytes, hname]
  -- every field that is there adds its length and two bytes
  rcases willInfo with _ | will
  · rcases userName with _ | ⟨userName, huser⟩ <;> rcases password with _ | ⟨password, hpass⟩ <;>
      simp only [Option.map_none, Option.map_some, Option.getD_none, Option.getD_some,
        List.length_nil, length_encodeString] <;> omega
  · have htopic := will.topicName.2
    rw [Option.map_some, Option.getD_some] at hwill
    have hmessage := length_willMessage (Nat.le_of_not_gt hwill)
    rcases userName with _ | ⟨userName, huser⟩ <;> rcases password with _ | ⟨password, hpass⟩ <;>
      simp only [Option.map_none, Option.map_some, Option.getD_none, Option.getD_some,
        List.length_nil, List.length_append, length_encodeString, hmessage] <;> omega

theorem mqttGetConnectPacketSize_eq_error {connectInfo : ConnectInfo}
    {willInfo : Option PublishInfo} {status : MqttStatus}
    (h : mqttGetConnectPacketSize connectInfo willInfo = .error status) :
    status = .badParameter := by
  rw [mqttGetConnectPacketSize] at h
  split at h
  · cases h
    rfl
  split at h <;> cases h
  rfl

theorem flatten_connectVectors (connectInfo : ConnectInfo) (willInfo : Option PublishInfo)
    (remainingLength : Nat) :
    (connectVectors connectInfo willInfo remainingLength).flatten =
      serializeConnectPacket connectInfo willInfo remainingLength := by
  obtain ⟨cleanSession, keepAliveSeconds, clientIdentifier, userName, password⟩ := connectInfo
  cases willInfo <;> cases userName <;> cases password <;>
    simp [connectVectors, serializeConnectPacket, flatten_addEncodedString]

theorem serializeConnectPacket_eq {connectInfo : ConnectInfo} {willInfo : Option PublishInfo}
    {remainingLength : Nat} (hlen : (connectBody connectInfo willInfo).length = remainingLength)
    (hmax : remainingLength < 128 ^ 4) :
    serializeConnectPacket connectInfo willInfo remainingLength =
      packetBytes packetTypeConnect (connectBody connectInfo willInfo) := by
  rw [packetBytes, hlen]
  obtain ⟨cleanSession, keepAliveSeconds, clientIdentifier, userName, password⟩ := connectInfo
  cases willInfo <;> cases userName <;> cases password <;>
    simp [serializeConnectPacket, mqttSerializeConnectFixedHeader, connectBody,
      encodeRemainingLength_eq hmax]

/-! ## CONNACK -/

def Took (c : Context) (bytes : Bytes) (c' : Context) : Prop :=
  ∃ reads times now, c' = { c with reads, times, now, received := c.received ++ bytes }

theorem Took.trans {c c' c'' : Context} {bytes more : Bytes} (h : Took c bytes c')
    (h' : Took c' more c'') : Took c (bytes ++ more) c'' := by
  obtain ⟨_, _, _, rfl⟩ := h
  obtain ⟨reads, times, now, rfl⟩ := h'
  exact ⟨reads, times, now, by rw [List.append_assoc]⟩

theorem took_getTime (c : Context) : Took c [] (getTime c).2 := by
  rw [getTime]
  split
  · exact ⟨c.reads, c.times, c.now, by rw [List.append_nil]⟩
  · next now times _ => exact ⟨c.reads, times, now, by rw [List.append_nil]⟩

theorem took_espTlsTransportRecv {c c' : Context} {dataLen : Nat} {bytes : Bytes}
    (h : espTlsTransportRecv c dataLen = (some bytes, c')) : Took c bytes c' := by
  rcases espTlsTransportRecv_cases c dataLen with ⟨reads, heq⟩ | ⟨bytes', reads, -, heq⟩ <;>
    rw [heq] at h <;> cases h
  exact ⟨reads, c.times, c.now, rfl⟩

theorem took_getRemainingLengthLoop {k j : Nat} (hjk : j + k = 4) {c c' : Context}
    {start remainingLength bytesDecoded : Nat}
    (h : getRemainingLengthLoop (k + 1) c start (128 ^ j) j =
      (some (remainingLength, bytesDecoded), c')) :
    ∃ bytes n, Took c bytes c' ∧ Varint.decode k bytes = .value n bytes.length ∧
      remainingLength = start + n * 128 ^ j ∧ bytesDecoded = j + bytes.length := by
  induction k generalizing j c start with
  | zero =>
    obtain rfl : j = 4 := by omega
    cases h
  | succ k ih =>
    have hmul : ¬ 128 ^ j > 2097152 := by
      have : 128 ^ j ≤ 128 ^ 3 := Nat.pow_le_pow_right (by decide) (by omega)
      omega
    rw [getRemainingLengthLoop, if_neg hmul] at h
    split at h
    swap
    · cases h
    next b c₁ hrecv =>
    have htook := took_espTlsTransportRecv hrecv
    simp only [ne_eq, and_80_eq_zero, and_7f, ite_not] at h
    split at h
    · next hb =>
      cases h
      refine ⟨[b], b.toNat, htook, ?_, ?_, rfl⟩
      · rw [Varint.decode, if_pos hb]
        rfl
      · rw [Nat.mod_eq_of_lt hb]
    · next hb =>
      rw [← Nat.pow_succ] at h
      obtain ⟨bytes, n, hrest, hread, hvalue, hcount⟩ := ih (by omega) h
      refine ⟨b :: bytes, b.toNat % 128 + 128 * n, htook.trans hrest, ?_, ?_, ?_⟩
      · rw [Varint.decode, if_neg hb, hread, Varint.Reading.shift, List.length_cons]
      · rw [hvalue, Nat.pow_succ]
        ring
      · rw [hcount, List.length_cons]
        omega

theorem took_getRemainingLength {c c' : Context} {remainingLength : Nat}
    (h : getRemainingLength c = (some remainingLength, c')) :
    Took c (Varint.encode 4 remainingLength) c' := by
  rw [getRemainingLength] at h
  split at h
  · cases h
  next total bytesDecoded c₁ hloop =>
  obtain ⟨bytes, n, htook, hread, hvalue, hcount⟩ :=
    took_getRemainingLengthLoop (k := 4) (j := 0) rfl hloop
  rw [Nat.pow_zero, Nat.mul_one, Nat.zero_add] at hvalue
  rw [Nat.zero_add] at hcount
  subst hvalue hcount
  split at h
  · cases h
  next hshort =>
  cases h
  have hn := (Varint.decode_bounds hread).2.2.2
  have hlen : bytes.length = (Varint.encode 4 remainingLength).length := by
    rw [← remainingLengthEncodedSize_eq hn]
    exact not_not.mp hshort
  rw [← Varint.take_eq_encode hread hlen, List.take_length]
  exact htook

theorem took_getIncoming {c c' : Context} {type : UInt8} {remainingLength : Nat}
    (h : mqttGetIncomingPacketTypeAndLength c = (.success, (type, remainingLength), c')) :
    Took c (type :: Varint.encode 4 remainingLength) c' := by
  obtain ⟨-, -, hne, -⟩ | ⟨type', c₁, n, hrecv, hlength, -, hpacket⟩ := getIncoming_cases h
  · exact absurd rfl hne
  · obtain ⟨rfl, rfl⟩ := hpacket rfl
    exact (took_espTlsTransportRecv hrecv).trans (took_getRemainingLength hlength)

theorem took_noData {c c' : Context} {packet : UInt8 × Nat}
    (h : mqttGetIncomingPacketTypeAndLength c = (.noDataAvailable, packet, c')) : Took c [] c' := by
  obtain ⟨bytes, hrecv, -, hnone⟩ | ⟨-, -, -, -, -, hne, -⟩ := getIncoming_cases h
  · obtain rfl := hnone rfl
    exact took_espTlsTransportRecv hrecv
  · exact absurd rfl hne

theorem took_connackLoop {timeoutMs entryTimeMs : UInt32} {reads : List TlsRead} {c c' : Context}
    {loopCount : Nat} {type : UInt8} {remainingLength : Nat}
    (h : connackLoop timeoutMs entryTimeMs reads c loopCount =
      (.success, (type, remainingLength), c')) :
    Took c (type :: Varint.encode 4 remainingLength) c' := by
  induction reads generalizing c loopCount with
  | nil => exact took_getIncoming h
  | cons read reads ih =>
    rw [connackLoop] at h
    rcases hincoming : mqttGetIncomingPacketTypeAndLength c with ⟨status, packet, c₁⟩
    -- the clock is read when there is a timeout
    obtain ⟨stop, c₂, hclock, htime⟩ : ∃ stop c₂, Took c₁ [] c₂ ∧
        (if timeoutMs > 0 then
          (decide (calculateElapsedTime (getTime c₁).1 entryTimeMs ≥ timeoutMs), (getTime c₁).2)
        else (decide (loopCount ≥ mqttMaxConnackReceiveRetryCount), c₁)) = (stop, c₂) := by
      split
      · exact ⟨_, _, took_getTime c₁, rfl⟩
      · exact ⟨_, _, ⟨c₁.reads, c₁.times, c₁.now, by rw [List.append_nil]⟩, rfl⟩
    simp only [hincoming, htime] at h
    split at h
    · next hagain =>
      obtain ⟨rfl, -⟩ := hagain
      exact ((took_noData hincoming).trans hclock).trans (ih h)
    · cases h
      have htook := (took_getIncoming hincoming).trans hclock
      rwa [List.append_nil] at htook

theorem deserializeConnack_success {packet : PacketInfo} {sessionPresent present : Bool}
    (h : deserializeConnack packet sessionPresent = (.success, present)) :
    packet.remainingLength = 2 ∧
      packet.remainingData.getD 0 0 = (if present then 1 else 0) ∧
      packet.remainingData.getD 1 0 = 0 := by
  have hflags : ∀ flags : UInt8, flags ||| 0x01 = 0x01 →
      flags = if decide (flags &&& 0x01 = 0x01) then 1 else 0 := by
    intro flags
    have hall : ∀ i : Fin 256, UInt8.ofNat i.val ||| 0x01 = 0x01 → UInt8.ofNat i.val =
        if decide (UInt8.ofNat i.val &&& 0x01 = 0x01) then 1 else 0 := by decide +kernel
    have hflag := hall ⟨flags.toNat, flags.toNat_lt⟩
    rwa [UInt8.ofNat_toNat] at hflag
  simp only [deserializeConnack] at h
  generalize packet.remainingData.getD 0 0 = flags at h ⊢
  generalize packet.remainingData.getD 1 0 = code at h ⊢
  split at h
  · cases h
  next hlength =>
  split at h
  · cases h
  next hvalid =>
  split at h
  · cases h
  split at h
  · cases h
  split at h
  · cases h
  next hcode =>
  rw [Prod.mk.injEq] at h
  refine ⟨not_not.mp hlength, ?_, ?_⟩
  · rw [← h.2]
    exact hflags flags (not_not.mp hvalid)
  · simpa using UInt8.not_lt.mp hcode

def connackBytes (sessionPresent : Bool) : Bytes :=
  [packetTypeConnack, 2, if sessionPresent then 1 else 0, 0]

theorem receivePacket_success {c c' : Context} {remainingLength : Nat} {remainingTimeMs : UInt32}
    (h : receivePacket c remainingLength remainingTimeMs = (.success, c')) :
    ∃ bytes, bytes.length = remainingLength ∧ c'.received = c.received ++ bytes ∧
      c'.networkBuffer.length = c.networkBuffer.length ∧
      c'.networkBuffer.take remainingLength = bytes := by
  simp only [receivePacket] at h
  split at h
  · rw [Prod.mk.injEq] at h
    have hstatus := h.1
    split at hstatus <;> cases hstatus
  · next hfits =>
    obtain ⟨bytes, hread, hall⟩ := readInto_recvExact (rfl : c.networkBuffer.length = _)
      remainingLength (by omega)
    rw [Prod.mk.injEq] at h
    obtain ⟨hstatus, rfl⟩ := h
    split at hstatus
    · next hwhole =>
      obtain ⟨hlength, hstored⟩ := hall hwhole
      exact ⟨bytes, hlength, hread.2.2.1, hread.1, hstored⟩
    · cases hstatus

theorem receiveConnack_success {c c' : Context} {timeoutMs : UInt32}
    {cleanSession sessionPresent present : Bool}
    (h : receiveConnack c timeoutMs cleanSession sessionPresent = (.success, present, c')) :
    (cleanSession = true → present = false) ∧
      c'.received = c.received ++ connackBytes present ∧
      c'.networkBuffer.length = c.networkBuffer.length := by
  simp only [receiveConnack] at h
  rcases hloop : connackLoop timeoutMs (getTime c).1 (getTime c).2.reads (getTime c).2 0 with
    ⟨status, ⟨type, remainingLength⟩, c₁⟩
  simp only [hloop] at h
  split at h
  · next hne => exact absurd (congrArg Prod.fst h) hne
  next hsuccess =>
  obtain rfl := not_not.mp hsuccess
  split at h
  · cases h
  next htype =>
  obtain rfl := not_not.mp htype
  generalize (if calculateElapsedTime (getTime c₁).1 (getTime c).1 < timeoutMs then
    timeoutMs - calculateElapsedTime (getTime c₁).1 (getTime c).1 else 0) = remainingTimeMs at h
  rcases hpacket : receivePacket (getTime c₁).2 remainingLength remainingTimeMs with ⟨status, c₂⟩
  simp only [hpacket] at h
  split at h
  · next hne => exact absurd (congrArg Prod.fst h) hne
  next hsuccess =>
  obtain rfl := not_not.mp hsuccess
  have hack : mqttDeserializeAck ⟨packetTypeConnack, c₂.networkBuffer, remainingLength, 0⟩
      sessionPresent =
      ((deserializeConnack ⟨packetTypeConnack, c₂.networkBuffer, remainingLength, 0⟩
        sessionPresent).1, 0, (deserializeConnack
          ⟨packetTypeConnack, c₂.networkBuffer, remainingLength, 0⟩ sessionPresent).2) := rfl
  rcases hread : deserializeConnack ⟨packetTypeConnack, c₂.networkBuffer, remainingLength, 0⟩
    sessionPresent with ⟨status, accepted⟩
  rw [hread] at hack
  simp only [hack] at h
  rw [Prod.mk.injEq, Prod.mk.injEq] at h
  obtain ⟨hstatus, rfl, rfl⟩ := h
  split at hstatus
  · cases hstatus
  next hkept =>
  obtain rfl := hstatus
  obtain ⟨rfl, hflags, hcode⟩ := deserializeConnack_success hread
  obtain ⟨bytes, hlength, hreceived, hbuffer, hstored⟩ := receivePacket_success hpacket
  obtain ⟨_, _, _, hentry⟩ := took_getTime c
  obtain ⟨_, _, _, hheader⟩ := took_connackLoop hloop
  obtain ⟨_, _, _, hclock⟩ := took_getTime c₁
  obtain ⟨b, b', rfl⟩ := List.length_eq_two.mp hlength
  refine ⟨fun hclean => ?_, ?_, ?_⟩
  · by_contra hpresent
    exact hkept ⟨rfl, hclean, by simpa using hpresent⟩
  · have hget : ∀ i < 2, c₂.networkBuffer.getD i 0 = [b, b'].getD i 0 := by
      intro i hi
      rw [← hstored, List.getD_eq_getElem?_getD, List.getD_eq_getElem?_getD, List.getElem?_take,
        if_pos hi]
    have hfirst : b = if accepted then 1 else 0 := (hget 0 (by decide)).symm.trans hflags
    have hsecond : b' = 0 := (hget 1 (by decide)).symm.trans hcode
    have htwo : Varint.encode 4 2 = [2] := rfl
    rw [hreceived, hclock, hheader, hentry, htwo, hfirst, hsecond]
    simp [connackBytes]
  · rw [hbuffer, hclock, hheader, hentry]

/-! ## A new session -/

structure Connected (c : Context) (connectInfo : ConnectInfo) (willInfo : Option PublishInfo)
    (sessionPresent : Bool) (c' : Context) : Prop where
  /-- a clean session is never resumed -/
  clean : connectInfo.cleanSession = true → sessionPresent = false
  /-- the CONNECT is sent before anything else -/
  sent : c.sent ++ packetBytes packetTypeConnect (connectBody connectInfo willInfo) <+: c'.sent
  /-- the CONNACK is read, and not a byte more -/
  received : c'.received = c.received ++ connackBytes sessionPresent
  held : held c' = []
  length_buffer : c'.networkBuffer.length = c.networkBuffer.length
  waitingForPingResp : c'.waitingForPingResp = false
  /-- a session that is not resumed starts with empty records, and has sent nothing else -/
  fresh : sessionPresent = false →
    c'.sent = c.sent ++ packetBytes packetTypeConnect (connectBody connectInfo willInfo) ∧
    c'.publishRecords = clearRecords c.publishRecords.outgoing.length
      c.publishRecords.incoming.length

theorem output_resendPubrels (rounds : Nat) (c : Context) (packetId : UInt16) (cursor : Nat)
    (status : MqttStatus) : Output c (resendPubrels rounds c packetId cursor status).2 := by
  induction rounds generalizing c packetId cursor status with
  | zero => exact Output.refl c
  | succ rounds ih =>
    rw [resendPubrels]
    split
    · exact (output_sendPublishAcks c packetId .pubRelSend).trans (ih _ _ _ _)
    · exact Output.refl c

theorem handleSessionResumption_cases (c : Context) (sessionPresent : Bool) :
    let c' := (handleSessionResumption c sessionPresent).2
    c.sent <+: c'.sent ∧ c'.received = c.received ∧ held c' = [] ∧
      c'.networkBuffer.length = c.networkBuffer.length ∧
      (sessionPresent = false → c'.sent = c.sent ∧
        c'.publishRecords = clearRecords c.publishRecords.outgoing.length
          c.publishRecords.incoming.length) := by
  simp only [handleSessionResumption]
  split
  · next hpresent =>
    generalize hstart : { c with
      index := 0
      networkBuffer := List.replicate c.networkBuffer.length 0 } = start
    obtain ⟨events, hevents⟩ : ∃ events, Explained 0 0 ⟨True, True⟩ start.view events _ :=
      resendPubrels_explained (c.publishRecords.outgoing.length + 1) start
        (mqttPubrelToResend c.publishRecords 0).1 (mqttPubrelToResend c.publishRecords 0).2 .success
    have hkeeps := (output_resendPubrels (c.publishRecords.outgoing.length + 1) start
      (mqttPubrelToResend c.publishRecords 0).1 (mqttPubrelToResend c.publishRecords 0).2
      .success).keepsInput
    have hsent := congrArg View.sent hevents.run_eq
    rw [run_step] at hsent
    subst hstart
    refine ⟨⟨_, hsent⟩, hkeeps.received, ?_, ?_, fun h => ?_⟩
    · rw [hkeeps.held, held, List.take_zero]
    · rw [hkeeps.networkBuffer, List.length_replicate]
    · rw [hpresent] at h
      cases h
  · refine ⟨List.prefix_rfl, rfl, List.take_zero, List.length_replicate, fun _ => ⟨rfl, rfl⟩⟩

/-- Whatever happened before: a successful connect has sent one CONNECT and read one CONNACK, and
it leaves nothing of the old session in the buffer, nor in the records unless the broker resumes
it, which it cannot when a clean one was asked for. -/
theorem connect_starts_session {c c' : Context} {connectInfo : ConnectInfo}
    {willInfo : Option PublishInfo} {timeoutMs : UInt32} {sessionPresent present : Bool}
    (h : mqttConnect c connectInfo willInfo timeoutMs sessionPresent = (.success, present, c')) :
    Connected c connectInfo willInfo present c' := by
  rw [mqttConnect] at h
  split at h
  · next hsizes =>
    rw [mqttGetConnectPacketSize_eq_error hsizes] at h
    cases h
  next remainingLength packetSize hsizes =>
  obtain ⟨hlen, hmax⟩ := mqttGetConnectPacketSize_eq_ok hsizes
  obtain ⟨k, hwrote, hall⟩ := wrote_sendConnectWithoutCopy c connectInfo willInfo remainingLength
  rw [flatten_connectVectors, serializeConnectPacket_eq hlen hmax] at hwrote hall
  rcases hsent : sendConnectWithoutCopy c connectInfo willInfo remainingLength with ⟨status, c₁⟩
  simp only [hsent] at h hwrote hall
  split at h
  · next hne => exact absurd (congrArg Prod.fst h) hne
  next hsuccess =>
  rw [hall (not_not.mp hsuccess), List.take_length] at hwrote
  have hread := read_receiveConnack c₁ timeoutMs connectInfo.cleanSession sessionPresent
  rcases hconnack : receiveConnack c₁ timeoutMs connectInfo.cleanSession sessionPresent with
    ⟨status, accepted, c₂⟩
  simp only [hconnack] at h hread
  split at h
  · next hne => exact absurd (congrArg Prod.fst h) hne
  next hsuccess =>
  rw [not_not.mp hsuccess] at hconnack
  obtain ⟨hclean, hreceived, hbuffer⟩ := receiveConnack_success hconnack
  obtain ⟨hpre, hkept, hheld, hlength, hfresh⟩ := handleSessionResumption_cases c₂ accepted
  rcases hresume : handleSessionResumption c₂ accepted with ⟨status, c₃⟩
  simp only [hresume] at h hpre hkept hheld hlength hfresh
  split at h
  · next hne => exact absurd (congrArg Prod.fst h) hne
  rw [Prod.mk.injEq, Prod.mk.injEq] at h
  obtain ⟨-, rfl, rfl⟩ := h
  have hview := hread.view
  have hsent₂ : c₂.sent =
      c.sent ++ packetBytes packetTypeConnect (connectBody connectInfo willInfo) :=
    (congrArg View.sent hview).trans hwrote.sent
  have hrecords : c₂.publishRecords = c.publishRecords :=
    (congrArg View.records hview).trans hwrote.publishRecords
  have hinput := hwrote.keepsInput
  refine ⟨hclean, hsent₂ ▸ hpre, ?_, hheld, ?_, rfl, fun hnew => ?_⟩
  · rw [← hinput.received]
    exact hkept.trans hreceived
  · rw [← hinput.networkBuffer]
    exact hlength.trans hbuffer
  · rw [← hsent₂, ← hrecords]
    exact hfresh hnew

theorem connect_starts_session_sample :
    let c : Context := { sampleContext [.wantRead, .data [0x20, 2], .data [0, 0]] with
      publishRecords := ⟨[⟨1, .qos1, .pubAckPending⟩, {}], [{}, {}]⟩
      index := 3
      writes := List.replicate 3 20 }
    let connectInfo : ConnectInfo := ⟨true, 60, ⟨[97], length_sampleTopic⟩, none, none⟩
    Connected c connectInfo none false (mqttConnect c connectInfo none 1000 false).2.2 := by
  intro c connectInfo
  exact connect_starts_session (by decide +kernel : mqttConnect c connectInfo none 1000 false =
    (.success, false, (mqttConnect c connectInfo none 1000 false).2.2))

end CyThing.CoreMqtt
