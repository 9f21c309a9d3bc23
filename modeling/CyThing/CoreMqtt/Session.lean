import CyThing.CoreMqtt.Client

/-! Sessions of the MQTT client (`coreMQTT/core_mqtt`): connecting, subscribing and
disconnecting. -/

namespace CyThing.CoreMqtt
open CLib

/-! ## CONNECT -/

structure ConnectInfo where
  cleanSession : Bool
  keepAliveSeconds : UInt16
  clientIdentifier : MqttString
  userName : Option MqttString
  password : Option MqttString
  deriving DecidableEq

def connectFlags (connectInfo : ConnectInfo) (willInfo : Option PublishInfo) : UInt8 :=
  let flags := 0
  let flags := if connectInfo.cleanSession then uint8SetBit flags 1 else flags
  let flags := if connectInfo.userName.isSome then uint8SetBit flags 7 else flags
  let flags := if connectInfo.password.isSome then uint8SetBit flags 6 else flags
  match willInfo with
  | none => flags
  | some will =>
    let flags := uint8SetBit flags 2
    let flags :=
      match will.qos with
      | .qos1 => uint8SetBit flags 3
      | .qos2 => uint8SetBit flags 4
      | .qos0 => flags
    if will.retain then uint8SetBit flags 5 else flags

theorem length_protocolName : (ascii "MQTT").length < 2 ^ 16 := by decide

def mqttSerializeConnectFixedHeader (connectInfo : ConnectInfo) (willInfo : Option PublishInfo)
    (remainingLength : Nat) : Bytes :=
  packetTypeConnect :: encodeRemainingLength remainingLength ++
    encodeString ⟨ascii "MQTT", length_protocolName⟩ ++
    4 :: connectFlags connectInfo willInfo :: uint16Bytes connectInfo.keepAliveSeconds

/-- A will's message, as far as a `uint16_t` length reaches. -/
def willMessage (will : PublishInfo) : MqttString :=
  ⟨will.payload.take (UInt16.ofNat will.payload.length).toNat,
    lt_of_le_of_lt (List.length_take_le ..) (UInt16.toNat_lt _)⟩

def serializeConnectPacket (connectInfo : ConnectInfo) (willInfo : Option PublishInfo)
    (remainingLength : Nat) : Bytes :=
  mqttSerializeConnectFixedHeader connectInfo willInfo remainingLength ++
    encodeString connectInfo.clientIdentifier ++
    (match willInfo with
      | none => []
      | some will => encodeString will.topicName ++ encodeString (willMessage will)) ++
    (match connectInfo.userName with
      | none => []
      | some userName => encodeString userName) ++
    (match connectInfo.password with
      | none => []
      | some password => encodeString password)

def mqttGetConnectPacketSize (connectInfo : ConnectInfo) (willInfo : Option PublishInfo) :
    Except MqttStatus (Nat × Nat) :=
  if connectInfo.clientIdentifier.1.length = 0 then .error .badParameter
  else if (willInfo.map fun will => will.payload.length).getD 0 > 65535 then .error .badParameter
  else
    let connectPacketSize := 10 + (connectInfo.clientIdentifier.1.length + 2)
    let connectPacketSize :=
      match willInfo with
      | none => connectPacketSize
      | some will =>
        connectPacketSize + (will.topicName.1.length + 2 + will.payload.length + 2)
    let connectPacketSize :=
      match connectInfo.userName with
      | none => connectPacketSize
      | some userName => connectPacketSize + (userName.1.length + 2)
    let connectPacketSize :=
      match connectInfo.password with
      | none => connectPacketSize
      | some password => connectPacketSize + (password.1.length + 2)
    .ok (connectPacketSize, connectPacketSize + (1 + remainingLengthEncodedSize connectPacketSize))

def addEncodedStringToVector (text : MqttString) : List Bytes :=
  uint16Bytes (UInt16.ofNat text.1.length) ::
    if text.1.length ≠ 0 then [text.1] else []

def connectVectors (connectInfo : ConnectInfo) (willInfo : Option PublishInfo)
    (remainingLength : Nat) : List Bytes :=
  mqttSerializeConnectFixedHeader connectInfo willInfo remainingLength ::
    addEncodedStringToVector connectInfo.clientIdentifier ++
    (match willInfo with
      | none => []
      | some will =>
        addEncodedStringToVector will.topicName ++ addEncodedStringToVector (willMessage will)) ++
    (match connectInfo.userName with
      | none => []
      | some userName => addEncodedStringToVector userName) ++
    (match connectInfo.password with
      | none => []
      | some password => addEncodedStringToVector password)

def sendConnectWithoutCopy (c : Context) (connectInfo : ConnectInfo)
    (willInfo : Option PublishInfo) (remainingLength : Nat) : MqttStatus × Context :=
  let vectors := connectVectors connectInfo willInfo remainingLength
  let (bytesSent, c) := sendMessageVector c vectors
  (if bytesSent ≠ (vectors.map List.length).sum then .sendFailed else .success, c)

/-! ## CONNACK -/

def getRemainingLengthLoop : (rounds : Nat) → Context →
    (remainingLength multiplier bytesDecoded : Nat) → Option (Nat × Nat) × Context
  | 0, c, _, _, _ => (none, c)
  | rounds + 1, c, remainingLength, multiplier, bytesDecoded =>
    if multiplier > 2097152 then (none, c)
    else
      match espTlsTransportRecv c 1 with
      | (some [encodedByte], c) =>
        let remainingLength := remainingLength + (encodedByte &&& 0x7F).toNat * multiplier
        if encodedByte &&& 0x80 ≠ 0 then
          getRemainingLengthLoop rounds c remainingLength (multiplier * 128) (bytesDecoded + 1)
        else (some (remainingLength, bytesDecoded + 1), c)
      | (_, c) => (none, c)

/-- `getRemainingLength`; after four bytes the multiplier is too large. -/
def getRemainingLength (c : Context) : Option Nat × Context :=
  match getRemainingLengthLoop 5 c 0 1 0 with
  | (none, c) => (none, c)
  | (some (remainingLength, bytesDecoded), c) =>
    (if bytesDecoded ≠ remainingLengthEncodedSize remainingLength then none
      else some remainingLength, c)

def mqttGetIncomingPacketTypeAndLength (c : Context) : MqttStatus × (UInt8 × Nat) × Context :=
  match espTlsTransportRecv c 1 with
  | (some [type], c) =>
    if incomingPacketValid type then
      match getRemainingLength c with
      | (none, c) => (.badResponse, (type, 0), c)
      | (some remainingLength, c) => (.success, (type, remainingLength), c)
    else (.badResponse, (type, 0), c)
  | (some [], c) => (.noDataAvailable, (0, 0), c)
  | (_, c) => (.recvFailed, (0, 0), c)

def mqttMaxConnackReceiveRetryCount : Nat := 5

/-- The loop of `receiveConnack`: a round without data takes one read. -/
def connackLoop (timeoutMs entryTimeMs : UInt32) : List TlsRead → Context → (loopCount : Nat) →
    MqttStatus × (UInt8 × Nat) × Context
  | [], c, _ => mqttGetIncomingPacketTypeAndLength c
  | _ :: reads, c, loopCount =>
    let (status, packet, c) := mqttGetIncomingPacketTypeAndLength c
    let (breakFromLoop, c) :=
      if timeoutMs > 0 then
        let (now, c) := getTime c
        (decide (calculateElapsedTime now entryTimeMs ≥ timeoutMs), c)
      else (decide (loopCount ≥ mqttMaxConnackReceiveRetryCount), c)
    if status = .noDataAvailable ∧ ¬ breakFromLoop then
      connackLoop timeoutMs entryTimeMs reads c (loopCount + 1)
    else (status, packet, c)

def discardPacketLoop (timeoutMs entryTimeMs : UInt32) : (rounds : Nat) → Context →
    (bytesToReceive remaining : Nat) → Bool × Context
  | 0, c, _, remaining => (decide (remaining = 0), c)
  | rounds + 1, c, bytesToReceive, remaining =>
    if remaining = 0 then (true, c)
    else
      let bytesToReceive := min remaining bytesToReceive
      let (bytesReceived, c) := recvExact c bytesToReceive
      if bytesReceived ≠ bytesToReceive then (false, c)
      else
        let (now, c) := getTime c
        let remaining := remaining - bytesToReceive
        if calculateElapsedTime now entryTimeMs ≥ timeoutMs then (decide (remaining = 0), c)
        else discardPacketLoop timeoutMs entryTimeMs rounds c bytesToReceive remaining

def receivePacket (c : Context) (remainingLength : Nat) (remainingTimeMs : UInt32) :
    MqttStatus × Context :=
  let size := c.networkBuffer.length
  if remainingLength > size then
    let (now, c) := getTime c
    let (discarded, c) :=
      discardPacketLoop remainingTimeMs now remainingLength c size remainingLength
    (if discarded then .noDataAvailable else .recvFailed, c)
  else
    let (bytesReceived, c) := recvExact c remainingLength
    (if bytesReceived = remainingLength then .success else .recvFailed, c)

def receiveConnack (c : Context) (timeoutMs : UInt32) (cleanSession sessionPresent : Bool) :
    MqttStatus × Bool × Context :=
  let (entryTimeMs, c) := getTime c
  let (status, (type, remainingLength), c) := connackLoop timeoutMs entryTimeMs c.reads c 0
  if status ≠ .success then (status, sessionPresent, c)
  else
    let (now, c) := getTime c
    let timeTakenMs := calculateElapsedTime now entryTimeMs
    let remainingTimeMs := if timeTakenMs < timeoutMs then timeoutMs - timeTakenMs else 0
    if type ≠ packetTypeConnack then (.badResponse, sessionPresent, c)
    else
      let (status, c) := receivePacket c remainingLength remainingTimeMs
      if status ≠ .success then (status, sessionPresent, c)
      else
        let (status, _, sessionPresent) :=
          mqttDeserializeAck ⟨type, c.networkBuffer, remainingLength, 0⟩ sessionPresent
        (if status = .success ∧ cleanSession ∧ sessionPresent then .badResponse else status,
          sessionPresent, c)

/-! ## Session -/

/-- The loop of `handleSessionResumption`: every record is visited at most once. -/
def resendPubrels : (rounds : Nat) → Context → (packetId : UInt16) → (cursor : Nat) →
    MqttStatus → MqttStatus × Context
  | 0, c, _, _, status => (status, c)
  | rounds + 1, c, packetId, cursor, status =>
    if packetId ≠ 0 ∧ status = .success then
      let (status, c) := sendPublishAcks c packetId .pubRelSend
      let (packetId, cursor) := mqttPubrelToResend c.publishRecords cursor
      resendPubrels rounds c packetId cursor status
    else (status, c)

def handleSessionResumption (c : Context) (sessionPresent : Bool) : MqttStatus × Context :=
  let c := { c with index := 0, networkBuffer := List.replicate c.networkBuffer.length 0 }
  let outgoingCount := c.publishRecords.outgoing.length
  let incomingCount := c.publishRecords.incoming.length
  if sessionPresent then
    let (packetId, cursor) := mqttPubrelToResend c.publishRecords 0
    resendPubrels (outgoingCount + 1) c packetId cursor .success
  else
    let c := c.note .cleared
    (.success, { c with publishRecords := clearRecords outgoingCount incomingCount })

def mqttConnect (c : Context) (connectInfo : ConnectInfo) (willInfo : Option PublishInfo)
    (timeoutMs : UInt32) (sessionPresent : Bool) : MqttStatus × Bool × Context :=
  match mqttGetConnectPacketSize connectInfo willInfo with
  | .error status => (status, sessionPresent, c)
  | .ok (remainingLength, _) =>
    let (status, c) := sendConnectWithoutCopy c connectInfo willInfo remainingLength
    if status ≠ .success then (status, sessionPresent, c)
    else
      let (status, sessionPresent, c) :=
        receiveConnack c timeoutMs connectInfo.cleanSession sessionPresent
      if status ≠ .success then (status, sessionPresent, c)
      else
        let (status, c) := handleSessionResumption c sessionPresent
        if status ≠ .success then (status, sessionPresent, c)
        else
          (status, sessionPresent,
            { c with
              keepAliveIntervalSec := connectInfo.keepAliveSeconds
              waitingForPingResp := false
              pingReqSendTimeMs := 0 })

def mqttDisconnect (c : Context) : MqttStatus × Context :=
  let (sendResult, c) := sendBuffer c [packetTypeDisconnect, 0]
  if sendResult < 2 then (.sendFailed, c)
  else
    (.success,
      { c with index := 0, networkBuffer := List.replicate c.networkBuffer.length 0 })

/-! ## SUBSCRIBE and UNSUBSCRIBE -/

def mqttSubUnsubMaxVectors : Nat := 4

def SubscriptionType.stringVectorSlots : SubscriptionType → Nat
  | .subscribe => 3
  | .unsubscribe => 2

def subscriptionVectors (subscriptionType : SubscriptionType) (subscription : SubscribeInfo) :
    List Bytes :=
  addEncodedStringToVector subscription.topicFilter ++
    if subscriptionType = .subscribe then [[subscription.qos.byte]] else []

/-- The inner loop: topic filters go into the vector array while there is room for one more. -/
def fillVectors (subscriptionType : SubscriptionType) :
    List SubscribeInfo → (ioVector : List Bytes) → List Bytes × List SubscribeInfo
  | [], ioVector => (ioVector, [])
  | subscription :: subscriptions, ioVector =>
    if ioVector.length ≤ mqttSubUnsubMaxVectors - subscriptionType.stringVectorSlots then
      fillVectors subscriptionType subscriptions
        (ioVector ++ subscriptionVectors subscriptionType subscription)
    else (ioVector, subscription :: subscriptions)

def sendSubscriptionLoop (subscriptionType : SubscriptionType) :
    (rounds : Nat) → Context → (ioVector : List Bytes) → List SubscribeInfo → MqttStatus × Context
  | 0, c, _, _ => (.success, c)
  | rounds + 1, c, ioVector, subscriptions =>
    if subscriptions.length = 0 then (.success, c)
    else
      let (ioVector, subscriptions) := fillVectors subscriptionType subscriptions ioVector
      let (bytesSent, c) := sendMessageVector c ioVector
      if bytesSent ≠ (ioVector.map List.length).sum then (.sendFailed, c)
      else sendSubscriptionLoop subscriptionType rounds c [] subscriptions

def sendSubscribeWithoutCopy (c : Context) (subscriptions : List SubscribeInfo)
    (packetId : UInt16) (remainingLength : Nat) : MqttStatus × Context :=
  sendSubscriptionLoop .subscribe subscriptions.length c
    [mqttSerializeSubscribeHeader remainingLength packetId] subscriptions

def sendUnsubscribeWithoutCopy (c : Context) (subscriptions : List SubscribeInfo)
    (packetId : UInt16) (remainingLength : Nat) : MqttStatus × Context :=
  sendSubscriptionLoop .unsubscribe subscriptions.length c
    [mqttSerializeUnsubscribeHeader remainingLength packetId] subscriptions

def validateSubscribeUnsubscribeParams (subscriptions : List SubscribeInfo) (packetId : UInt16) :
    MqttStatus :=
  if subscriptions.length = 0 then .badParameter
  else if packetId = 0 then .badParameter
  else .success

def mqttSubscribe (c : Context) (subscriptions : List SubscribeInfo) (packetId : UInt16) :
    MqttStatus × Context :=
  let status := validateSubscribeUnsubscribeParams subscriptions packetId
  if status ≠ .success then (status, c)
  else
    match mqttGetSubscribePacketSize subscriptions with
    | .error status => (status, c)
    | .ok (remainingLength, _) =>
      sendSubscribeWithoutCopy c subscriptions packetId remainingLength

def mqttUnsubscribe (c : Context) (subscriptions : List SubscribeInfo) (packetId : UInt16) :
    MqttStatus × Context :=
  let status := validateSubscribeUnsubscribeParams subscriptions packetId
  if status ≠ .success then (status, c)
  else
    match mqttGetUnsubscribePacketSize subscriptions with
    | .error status => (status, c)
    | .ok (remainingLength, _) =>
      sendUnsubscribeWithoutCopy c subscriptions packetId remainingLength

end CyThing.CoreMqtt
