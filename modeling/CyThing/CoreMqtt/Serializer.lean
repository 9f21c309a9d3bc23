import CyThing.CoreMqtt.Types
import CyThing.Lib.Layout
import CyThing.Lib.Varint

/-! The packets of the MQTT client (`coreMQTT/core_mqtt_serializer`): what it writes for
PUBLISH, the acknowledgements, SUBSCRIBE and CONNECT, and how it reads what comes in. -/

namespace CyThing.CoreMqtt
open CLib Layout

/-! ## Fields -/

def packetTypeConnect : UInt8 := 0x10
def packetTypeConnack : UInt8 := 0x20
def packetTypePublish : UInt8 := 0x30
def packetTypePuback : UInt8 := 0x40
def packetTypePubrec : UInt8 := 0x50
def packetTypePubrel : UInt8 := 0x62
def packetTypePubcomp : UInt8 := 0x70
def packetTypeSubscribe : UInt8 := 0x82
def packetTypeSuback : UInt8 := 0x90
def packetTypeUnsubscribe : UInt8 := 0xA2
def packetTypeUnsuback : UInt8 := 0xB0
def packetTypePingreq : UInt8 := 0xC0
def packetTypePingresp : UInt8 := 0xD0
def packetTypeDisconnect : UInt8 := 0xE0

def maxRemainingLength : Nat := 268435455

def uint8SetBit (x position : UInt8) : UInt8 := x ||| (1 <<< position)

def uint8CheckBit (x position : UInt8) : Bool := x &&& (1 <<< position) == 1 <<< position

def uint16Bytes (x : UInt16) : Bytes := [(x >>> 8).toUInt8, (x &&& 0x00ff).toUInt8]

def uint16Decode (data : Bytes) (offset : Nat) : UInt16 :=
  ((data.getD offset 0).toUInt16 <<< 8) ||| (data.getD (offset + 1) 0).toUInt16

def remainingLengthEncodedSize (length : Nat) : Nat :=
  if length < 128 then 1 else if length < 16384 then 2 else if length < 2097152 then 3 else 4

/-- `encodeRemainingLength`; a `size_t` of 32 bits takes at most five bytes. -/
def encodeRemainingLength (length : Nat) : Bytes := Varint.encode 5 length

abbrev MqttString := {text : Bytes // text.length < 2 ^ 16}

def encodeString (source : MqttString) : Bytes :=
  uint16Bytes (UInt16.ofNat source.1.length) ++ source.1

/-! ## PUBLISH -/

structure PublishInfo where
  qos : Qos
  retain : Bool
  dup : Bool
  topicName : MqttString
  payload : Bytes
  deriving DecidableEq

def calculatePublishPacketSize (publishInfo : PublishInfo) : Option (Nat × Nat) :=
  let packetSize := publishInfo.topicName.1.length + 2
  let packetSize := if publishInfo.qos = .qos0 then packetSize else packetSize + 2
  let payloadLimit := maxRemainingLength - packetSize - 1
  if publishInfo.payload.length > payloadLimit then none
  else
    let packetSize := packetSize + publishInfo.payload.length
    let payloadLimit := payloadLimit - remainingLengthEncodedSize packetSize
    if publishInfo.payload.length > payloadLimit then none
    else some (packetSize, packetSize + (1 + remainingLengthEncodedSize packetSize))

def mqttGetPublishPacketSize (publishInfo : PublishInfo) : Except MqttStatus (Nat × Nat) :=
  if publishInfo.topicName.1.length = 0 then .error .badParameter
  else
    match calculatePublishPacketSize publishInfo with
    | none => .error .badParameter
    | some sizes => .ok sizes

def publishFlags (publishInfo : PublishInfo) : UInt8 :=
  let flags := packetTypePublish
  let flags :=
    match publishInfo.qos with
    | .qos1 => uint8SetBit flags 1
    | .qos2 => uint8SetBit flags 2
    | .qos0 => flags
  let flags := if publishInfo.retain then uint8SetBit flags 0 else flags
  if publishInfo.dup then uint8SetBit flags 3 else flags

def mqttSerializePublishHeaderWithoutTopic (publishInfo : PublishInfo) (remainingLength : Nat) :
    Bytes :=
  publishFlags publishInfo :: encodeRemainingLength remainingLength ++
    uint16Bytes (UInt16.ofNat publishInfo.topicName.1.length)

/-- `MQTTPacketInfo_t`; `remainingData` is the memory behind the header, which goes on after the
`remainingLength` bytes of the packet. -/
structure PacketInfo where
  type : UInt8
  remainingData : Bytes
  remainingLength : Nat
  headerLength : Nat
  deriving DecidableEq

def remainingLengthLoop (buffer : Bytes) (index : Nat) :
    (fuel remainingLength multiplier bytesDecoded : Nat) → Except MqttStatus (Nat × Nat)
  | 0, _, _, _ => .error .badResponse
  | fuel + 1, remainingLength, multiplier, bytesDecoded =>
    if multiplier > 2097152 then .error .badResponse
    else if index > bytesDecoded + 1 then
      let encodedByte := buffer.getD (bytesDecoded + 1) 0
      let remainingLength := remainingLength + (encodedByte &&& 0x7F).toNat * multiplier
      if encodedByte &&& 0x80 ≠ 0 then
        remainingLengthLoop buffer index fuel remainingLength (multiplier * 128) (bytesDecoded + 1)
      else .ok (remainingLength, bytesDecoded + 1)
    else .error .needMoreBytes

/-- `processRemainingLength`: the remaining length and the header length. After four bytes the
multiplier is too large, so five rounds are enough. -/
def processRemainingLength (buffer : Bytes) (index : Nat) : Except MqttStatus (Nat × Nat) :=
  match remainingLengthLoop buffer index 5 0 1 0 with
  | .error status => .error status
  | .ok (remainingLength, bytesDecoded) =>
    if bytesDecoded ≠ remainingLengthEncodedSize remainingLength then .error .badResponse
    else .ok (remainingLength, bytesDecoded + 1)

def incomingPacketValid (packetType : UInt8) : Bool :=
  let kind := packetType &&& 0xF0
  if kind = packetTypeConnack ∨ kind = packetTypePublish ∨ kind = packetTypePuback ∨
      kind = packetTypePubrec ∨ kind = packetTypePubcomp ∨ kind = packetTypeSuback ∨
      kind = packetTypeUnsuback ∨ kind = packetTypePingresp then true
  else if kind = packetTypePubrel &&& 0xF0 then packetType &&& 0x02 ≠ 0
  else false

/-- `MQTT_ProcessIncomingPacketTypeAndLength`: type, remaining length and header length of the
packet at the start of the buffer, of which `index` bytes are valid. -/
def mqttProcessIncomingPacketTypeAndLength (buffer : Bytes) (index : Nat) :
    Except MqttStatus (UInt8 × Nat × Nat) :=
  if index < 1 then .error .noDataAvailable
  else
    let type := buffer.getD 0 0
    if incomingPacketValid type then (processRemainingLength buffer index).map (type, ·)
    else .error .badResponse

def checkPublishRemainingLength (remainingLength : Nat) (qos : Qos) (qos0Minimum : Nat) : Bool :=
  if qos = .qos0 then qos0Minimum ≤ remainingLength else qos0Minimum + 2 ≤ remainingLength

def processPublishFlags (publishFlags : UInt8) : Option (Qos × Bool × Bool) :=
  let qos : Option Qos :=
    if uint8CheckBit publishFlags 2 then
      if uint8CheckBit publishFlags 1 then none else some .qos2
    else if uint8CheckBit publishFlags 1 then some .qos1
    else some .qos0
  qos.map fun qos => (qos, uint8CheckBit publishFlags 0, uint8CheckBit publishFlags 3)

theorem length_slice_lt (data : Bytes) (offset : Nat) (length : UInt16) :
    (slice data offset length.toNat).length < 2 ^ 16 :=
  lt_of_le_of_lt (List.length_take_le ..) length.toNat_lt

/-- `MQTT_DeserializePublish`: the packet id (0 for QoS 0) and the publish. -/
def mqttDeserializePublish (packet : PacketInfo) : Except MqttStatus (UInt16 × PublishInfo) :=
  if packet.type &&& 0xF0 ≠ packetTypePublish then .error .badParameter
  else
    match processPublishFlags (packet.type &&& 0x0F) with
    | none => .error .badResponse
    | some (qos, retain, dup) =>
      if !checkPublishRemainingLength packet.remainingLength qos 3 then .error .badResponse
      else
        let topicNameLength := uint16Decode packet.remainingData 0
        if !checkPublishRemainingLength packet.remainingLength qos (topicNameLength.toNat + 2) then
          .error .badResponse
        else
          let topicName := ⟨slice packet.remainingData 2 topicNameLength.toNat,
            length_slice_lt packet.remainingData 2 topicNameLength⟩
          let payloadLength := packet.remainingLength - topicNameLength.toNat - 2
          if qos = .qos0 then
            .ok (0, ⟨qos, retain, dup, topicName,
              slice packet.remainingData (2 + topicNameLength.toNat) payloadLength⟩)
          else
            let packetId := uint16Decode packet.remainingData (2 + topicNameLength.toNat)
            if packetId = 0 then .error .badResponse
            else
              .ok (packetId, ⟨qos, retain, dup, topicName,
                slice packet.remainingData (2 + topicNameLength.toNat + 2) (payloadLength - 2)⟩)

/-! ## Acknowledgements -/

def mqttSerializeAck (packetType : UInt8) (packetId : UInt16) : Except MqttStatus Bytes :=
  if packetId = 0 then .error .badParameter
  else if packetType = packetTypePuback ∨ packetType = packetTypePubrec ∨
      packetType = packetTypePubrel ∨ packetType = packetTypePubcomp then
    .ok (packetType :: 2 :: uint16Bytes packetId)
  else .error .badParameter

def deserializeSimpleAck (packet : PacketInfo) : Except MqttStatus UInt16 :=
  if packet.remainingLength ≠ 2 then .error .badResponse
  else
    let packetId := uint16Decode packet.remainingData 0
    if packetId = 0 then .error .badResponse else .ok packetId

def readSubackStatus (status : MqttStatus) : Bytes → MqttStatus
  | [] => status
  | code :: codes =>
    if code = 0x00 ∨ code = 0x01 ∨ code = 0x02 then readSubackStatus status codes
    else if code = 0x80 then readSubackStatus .serverRefused codes
    else .badResponse

/-- `deserializeSuback`: the packet id is set even when the server refused. -/
def deserializeSuback (packet : PacketInfo) : MqttStatus × UInt16 :=
  if packet.remainingLength < 3 then (.badResponse, 0)
  else
    let packetId := uint16Decode packet.remainingData 0
    if packetId = 0 then (.badResponse, packetId)
    else
      (readSubackStatus .success (slice packet.remainingData 2 (packet.remainingLength - 2)),
        packetId)

/-- `deserializeConnack`: the status and `*pSessionPresent`, which the first two checks leave as
it was. -/
def deserializeConnack (packet : PacketInfo) (sessionPresent : Bool) : MqttStatus × Bool :=
  let flags := packet.remainingData.getD 0 0
  let code := packet.remainingData.getD 1 0
  if packet.remainingLength ≠ 2 then (.badResponse, sessionPresent)
  else if flags ||| 0x01 ≠ 0x01 then (.badResponse, sessionPresent)
  else
    let sessionPresent : Bool := flags &&& 0x01 = 0x01
    if sessionPresent ∧ code ≠ 0 then (.badResponse, sessionPresent)
    else if code > 5 then (.badResponse, sessionPresent)
    else if code > 0 then (.serverRefused, sessionPresent)
    else (.success, sessionPresent)

def deserializePingresp (packet : PacketInfo) : MqttStatus :=
  if packet.remainingLength ≠ 0 then .badResponse else .success

/-- `MQTT_DeserializeAck`: the status, `*pPacketId` (0 before the call) and `*pSessionPresent`. -/
def mqttDeserializeAck (packet : PacketInfo) (sessionPresent : Bool) :
    MqttStatus × UInt16 × Bool :=
  if packet.type = packetTypeConnack then
    let (status, sessionPresent) := deserializeConnack packet sessionPresent
    (status, 0, sessionPresent)
  else if packet.type = packetTypeSuback then
    let (status, packetId) := deserializeSuback packet
    (status, packetId, sessionPresent)
  else if packet.type = packetTypePingresp then (deserializePingresp packet, 0, sessionPresent)
  else if packet.type = packetTypeUnsuback ∨ packet.type = packetTypePuback ∨
      packet.type = packetTypePubrec ∨ packet.type = packetTypePubrel ∨
      packet.type = packetTypePubcomp then
    match deserializeSimpleAck packet with
    | .ok packetId => (.success, packetId, sessionPresent)
    | .error status => (status, 0, sessionPresent)
  else (.badResponse, 0, sessionPresent)

/-! ## SUBSCRIBE and UNSUBSCRIBE -/

structure SubscribeInfo where
  qos : Qos
  topicFilter : MqttString
  deriving DecidableEq

inductive SubscriptionType
  | subscribe | unsubscribe
  deriving DecidableEq

def subscriptionLoop (subscriptionType : SubscriptionType) :
    List SubscribeInfo → Nat → MqttStatus → Nat × MqttStatus
  | [], packetSize, status => (packetSize, status)
  | subscription :: subscriptions, packetSize, status =>
    let packetSize := packetSize + (subscription.topicFilter.1.length + 2)
    let packetSize := if subscriptionType = .subscribe then packetSize + 1 else packetSize
    subscriptionLoop subscriptionType subscriptions packetSize
      (if subscription.topicFilter.1.length = 0 then .badParameter else status)

def calculateSubscriptionPacketSize (subscriptions : List SubscribeInfo)
    (subscriptionType : SubscriptionType) : Except MqttStatus (Nat × Nat) :=
  let (packetSize, status) := subscriptionLoop subscriptionType subscriptions 2 .success
  let status := if packetSize > maxRemainingLength then .badParameter else status
  if status = .success then
    .ok (packetSize, packetSize + (1 + remainingLengthEncodedSize packetSize))
  else .error status

def getSubscriptionPacketSize (subscriptionType : SubscriptionType)
    (subscriptions : List SubscribeInfo) : Except MqttStatus (Nat × Nat) :=
  if subscriptions.length = 0 then .error .badParameter
  else calculateSubscriptionPacketSize subscriptions subscriptionType

def mqttGetSubscribePacketSize := getSubscriptionPacketSize .subscribe
def mqttGetUnsubscribePacketSize := getSubscriptionPacketSize .unsubscribe

def serializeSubscriptionHeader (packetType : UInt8) (remainingLength : Nat) (packetId : UInt16) :
    Bytes :=
  packetType :: encodeRemainingLength remainingLength ++ uint16Bytes packetId

def mqttSerializeSubscribeHeader := serializeSubscriptionHeader packetTypeSubscribe
def mqttSerializeUnsubscribeHeader := serializeSubscriptionHeader packetTypeUnsubscribe

def Qos.byte : Qos → UInt8
  | .qos0 => 0
  | .qos1 => 1
  | .qos2 => 2

end CyThing.CoreMqtt
