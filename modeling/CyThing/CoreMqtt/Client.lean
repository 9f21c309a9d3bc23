import CyThing.CoreMqtt.Context

/-! The MQTT client (`coreMQTT/core_mqtt`): publishing, the packets that come in and what it
answers to them, keeping the connection alive, and connecting. -/

namespace CyThing.CoreMqtt
open CLib Layout

/-! ## Publishing -/

def validatePublishParams (publishInfo : PublishInfo) (packetId : UInt16) : MqttStatus :=
  if publishInfo.qos ≠ .qos0 ∧ packetId = 0 then .badParameter else .success

def publishVectors (publishInfo : PublishInfo) (mqttHeader : Bytes) (packetId : UInt16) :
    List Bytes :=
  [mqttHeader, publishInfo.topicName.1] ++
    (if publishInfo.qos = .qos0 then [] else [uint16Bytes packetId]) ++
    (if publishInfo.payload.length > 0 then [publishInfo.payload] else [])

def publishBytes (publishInfo : PublishInfo) (remainingLength : Nat) (packetId : UInt16) : Bytes :=
  (publishVectors publishInfo
    (mqttSerializePublishHeaderWithoutTopic publishInfo remainingLength) packetId).flatten

def sendPublishWithoutCopy (c : Context) (publishInfo : PublishInfo) (mqttHeader : Bytes)
    (packetId : UInt16) : MqttStatus × Context :=
  let vectors := publishVectors publishInfo mqttHeader packetId
  let (bytesSent, c) := sendMessageVector c vectors
  (if bytesSent ≠ (vectors.map List.length).sum then .sendFailed else .success, c)

def publishReserved (c : Context) (publishInfo : PublishInfo) (remainingLength : Nat)
    (packetId : UInt16) : MqttStatus × Context :=
  let mqttHeader := mqttSerializePublishHeaderWithoutTopic publishInfo remainingLength
  let (status, c) := sendPublishWithoutCopy c publishInfo mqttHeader packetId
  let c :=
    if publishInfo.qos = .qos0 then c
    else if status = .success then c.note (.published packetId publishInfo.qos)
    else c.note (.unsent packetId publishInfo.qos)
  if status = .success ∧ publishInfo.qos ≠ .qos0 then
    let (status, _, publishRecords) :=
      mqttUpdateStatePublish c.publishRecords packetId .send publishInfo.qos
    (status, { c with publishRecords })
  else (status, c)

def mqttPublish (c : Context) (publishInfo : PublishInfo) (packetId : UInt16) :
    MqttStatus × Context :=
  let status := validatePublishParams publishInfo packetId
  if status ≠ .success then (status, c)
  else
    match mqttGetPublishPacketSize publishInfo with
    | .error status => (status, c)
    | .ok (remainingLength, _) =>
      if publishInfo.qos = .qos0 then publishReserved c publishInfo remainingLength packetId
      else
        let (status, publishRecords) := mqttReserveState c.publishRecords packetId publishInfo.qos
        let c := { c with publishRecords }
        -- a publish that is sent again has its record
        if status = .success ∨ status = .stateCollision ∧ publishInfo.dup then
          publishReserved c publishInfo remainingLength packetId
        else (status, c)

def mqttGetPacketId (c : Context) : UInt16 × Context :=
  (c.nextPacketId,
    { c with nextPacketId := if c.nextPacketId = 65535 then 1 else c.nextPacketId + 1 })

/-! ## Acknowledgements -/

def getAckTypeToSend (state : PublishState) : UInt8 :=
  match state with
  | .pubAckSend => packetTypePuback
  | .pubRecSend => packetTypePubrec
  | .pubRelSend => packetTypePubrel
  | .pubCompSend => packetTypePubcomp
  | _ => 0

def getAckFromPacketType (packetType : UInt8) : PubAckType :=
  if packetType = packetTypePuback then .puback
  else if packetType = packetTypePubrec then .pubrec
  else if packetType = packetTypePubrel then .pubrel
  else .pubcomp

def sendPublishAcks (c : Context) (packetId : UInt16) (publishState : PublishState) :
    MqttStatus × Context :=
  let packetTypeByte := getAckTypeToSend publishState
  if packetTypeByte ≠ 0 then
    match mqttSerializeAck packetTypeByte packetId with
    | .error _ => (.sendFailed, c)
    | .ok pubAckPacket =>
      let (sendResult, c) := sendBuffer c pubAckPacket
      if sendResult = 4 then
        let c := c.note (.ackSent packetId (getAckFromPacketType packetTypeByte))
        let (status, _, publishRecords) := mqttUpdateStateAck c.publishRecords packetId
          (getAckFromPacketType packetTypeByte) .send
        (status, { c with publishRecords })
      else (.sendFailed, c)
  else (.success, c)

/-! ## Keep alive -/

def mqttPingrespTimeoutMs : UInt32 := 5000
def packetTxTimeoutMs : UInt32 := 30000
def packetRxTimeoutMs : UInt32 := 30000

def mqttPing (c : Context) : MqttStatus × Context :=
  let (sendResult, c) := sendBuffer c [packetTypePingreq, 0]
  if sendResult < 2 then (.sendFailed, c)
  else (.success, { c with pingReqSendTimeMs := c.lastPacketTxTime, waitingForPingResp := true })

def handleKeepAlive (c : Context) : MqttStatus × Context :=
  let (now, c) := getTime c
  let txTimeoutMs := min (1000 * c.keepAliveIntervalSec.toUInt32) packetTxTimeoutMs
  if c.waitingForPingResp then
    (if calculateElapsedTime now c.pingReqSendTimeMs > mqttPingrespTimeoutMs then
      .keepAliveTimeout else .success, c)
  else if txTimeoutMs ≠ 0 ∧ calculateElapsedTime now c.lastPacketTxTime ≥ txTimeoutMs then
    mqttPing c
  else
    let timeElapsed := calculateElapsedTime now c.lastPacketRxTime
    if timeElapsed ≠ 0 ∧ timeElapsed ≥ packetRxTimeoutMs then mqttPing c else (.success, c)

/-! ## Incoming packets -/

section Incoming

-- what the application publishes from inside its callback
variable (app : AppCall → List PublishInfo)

def appCallback (c : Context) (call : AppCall) : Context :=
  (app call).foldl
    (fun c publishInfo =>
      let (packetId, c) := mqttGetPacketId c
      (mqttPublish c publishInfo packetId).2)
    { c with calls := c.calls ++ [call] }

def handleIncomingPublish (c : Context) (packet : PacketInfo) : MqttStatus × Context :=
  match mqttDeserializePublish packet with
  | .error status => (status, c)
  | .ok (packetIdentifier, publishInfo) =>
    let (status, publishRecordState, publishRecords) :=
      mqttUpdateStatePublish c.publishRecords packetIdentifier .receive publishInfo.qos
    let c := { c with publishRecords }
    if status = .success then
      let c :=
        if publishInfo.qos = .qos0 then c
        else c.note (.delivered packetIdentifier publishInfo.qos)
      let c := appCallback app c ⟨packet, packetIdentifier, some publishInfo, .success⟩
      sendPublishAcks c packetIdentifier publishRecordState
    else if status = .stateCollision then
      -- a duplicate is acknowledged and not handed to the application
      sendPublishAcks c packetIdentifier (mqttCalculateStatePublish .receive publishInfo.qos)
    else (status, c)

def handlePublishAcks (c : Context) (packet : PacketInfo) : MqttStatus × Context :=
  let (status, packetIdentifier, _) := mqttDeserializeAck packet false
  if status = .success then
    let c := c.note (.ackReceived packetIdentifier (getAckFromPacketType packet.type))
    let (status, publishRecordState, publishRecords) := mqttUpdateStateAck c.publishRecords
      packetIdentifier (getAckFromPacketType packet.type) .receive
    let c := { c with publishRecords }
    if status = .success then
      let c := appCallback app c ⟨packet, packetIdentifier, none, .success⟩
      sendPublishAcks c packetIdentifier publishRecordState
    else (status, c)
  else (status, c)

def handleIncomingAck (c : Context) (packet : PacketInfo) (manageKeepAlive : Bool) :
    MqttStatus × Context :=
  if packet.type = packetTypePuback ∨ packet.type = packetTypePubrec ∨
      packet.type = packetTypePubrel ∨ packet.type = packetTypePubcomp then
    handlePublishAcks app c packet
  else if packet.type = packetTypePingresp then
    let (status, packetIdentifier, _) := mqttDeserializeAck packet false
    if status = .success then
      if manageKeepAlive then (.success, { c with waitingForPingResp := false })
      else (.success, appCallback app c ⟨packet, packetIdentifier, none, status⟩)
    else (status, c)
  else if packet.type = packetTypeSuback ∨ packet.type = packetTypeUnsuback then
    let (status, packetIdentifier, _) := mqttDeserializeAck packet false
    if status = .success ∨ status = .serverRefused then
      (.success, appCallback app c ⟨packet, packetIdentifier, none, status⟩)
    else (status, c)
  else (.badResponse, c)

def headerFields : Except MqttStatus (UInt8 × Nat × Nat) → MqttStatus × (UInt8 × Nat × Nat)
  | .error status => (status, (0, 0, 0))
  | .ok header => (.success, header)

/-- The packet at the start of the buffer: the status with which `receiveSingleIteration` goes
on, the packet's type, remaining length and header length, and the context. -/
def receivePacketHeader (c : Context) (manageKeepAlive : Bool) :
    MqttStatus × (UInt8 × Nat × Nat) × Context :=
  match espTlsTransportRecv c (c.networkBuffer.length - c.index) with
  | (none, c) => (.recvFailed, (0, 0, 0), c)
  | (some bytes, c) =>
    let c := { c with
      networkBuffer := store c.networkBuffer c.index bytes
      index := c.index + bytes.length }
    let (status, header) :=
      headerFields (mqttProcessIncomingPacketTypeAndLength c.networkBuffer c.index)
    -- nothing was received: look at the keep alive time
    if bytes.length = 0 ∧ manageKeepAlive then
      let (keepAliveStatus, c) := handleKeepAlive c
      (if keepAliveStatus = .success then status else keepAliveStatus, header, c)
    else (status, header, c)

def handlePacket (c : Context) (header : UInt8 × Nat × Nat) (manageKeepAlive : Bool) :
    MqttStatus × Context :=
  let (type, remainingLength, headerLength) := header
  let packet : PacketInfo :=
    ⟨type, c.networkBuffer.drop headerLength, remainingLength, headerLength⟩
  let totalMqttPacketLength := remainingLength + headerLength
  let (status, c) :=
    if type &&& 0xF0 = packetTypePublish then handleIncomingPublish app c packet
    else handleIncomingAck app c packet manageKeepAlive
  let index := c.index - totalMqttPacketLength
  (status,
    { c with
      index
      networkBuffer :=
        store c.networkBuffer 0 (slice c.networkBuffer totalMqttPacketLength index) })

def receiveSingleIteration (c : Context) (manageKeepAlive : Bool) : MqttStatus × Context :=
  let (status, header, c) := receivePacketHeader c manageKeepAlive
  let totalMqttPacketLength := header.2.1 + header.2.2
  let (status, c) :=
    if status ≠ .success then (status, c)
    else if totalMqttPacketLength > c.networkBuffer.length then
      discardStoredPacket c totalMqttPacketLength
    else if totalMqttPacketLength > c.index then (.needMoreBytes, c)
    else handlePacket app c header manageKeepAlive
  (if status = .noDataAvailable then .success else status, c)

def mqttProcessLoop (c : Context) : MqttStatus × Context := receiveSingleIteration app c true

def mqttReceiveLoop (c : Context) : MqttStatus × Context := receiveSingleIteration app c false

end Incoming

end CyThing.CoreMqtt
