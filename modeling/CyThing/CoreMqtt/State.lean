import CyThing.CoreMqtt.Types
import CyThing.Lib.OrderedSlots

/-! The state engine of the MQTT client (`coreMQTT/core_mqtt_state`): for each publish of QoS 1
or 2 under way, in either direction, a record of how far its exchange of acknowledgements has
come. -/

namespace CyThing.CoreMqtt
open OrderedSlots

/-! ## Records -/

/-- `MQTTPubAckInfo_t`; packet id 0 (`MQTT_PACKET_ID_INVALID`) marks a free record. -/
structure PubAckInfo where
  packetId : UInt16 := 0
  qos : Qos := .qos0
  publishState : PublishState := .stateNull
  deriving DecidableEq

def PubAckInfo.free (r : PubAckInfo) : Bool := r.packetId == 0

structure PublishRecords where
  outgoing : List PubAckInfo
  incoming : List PubAckInfo
  deriving DecidableEq

def findInRecord (records : List PubAckInfo) (packetId : UInt16) :
    Option (Nat × Qos × PublishState) :=
  (records.findIdx? fun r => r.packetId == packetId).map fun index =>
    let record := records.getD index {}
    (index, record.qos, record.publishState)

def compactRecords (records : List PubAckInfo) : List PubAckInfo :=
  compact PubAckInfo.free {} records

/-- The loop of `addRecord`, from the last record down: `availableIndex` and the status it
leaves. -/
def availableRecord (records : List PubAckInfo) (packetId : UInt16) :
    (index availableIndex : Nat) → (validEntryFound : Bool) → Nat × MqttStatus
  | 0, availableIndex, _ => (availableIndex, .noMemory)
  | index + 1, availableIndex, validEntryFound =>
    let record := records.getD index {}
    if record.packetId = 0 then
      availableRecord records packetId index (if validEntryFound then availableIndex else index)
        validEntryFound
    else if record.packetId = packetId then (records.length, .stateCollision)
    else availableRecord records packetId index availableIndex true

def addRecord (records : List PubAckInfo) (packetId : UInt16) (qos : Qos)
    (publishState : PublishState) : MqttStatus × List PubAckInfo :=
  let records :=
    if (records.getD (records.length - 1) {}).packetId ≠ 0 then compactRecords records
    else records
  let (availableIndex, status) :=
    availableRecord records packetId records.length records.length false
  if availableIndex < records.length then
    (.success, records.set availableIndex ⟨packetId, qos, publishState⟩)
  else (status, records)

def updateRecord (records : List PubAckInfo) (recordIndex : Nat) (newState : PublishState)
    (shouldDelete : Bool) : List PubAckInfo :=
  if shouldDelete then records.set recordIndex {}
  else records.set recordIndex { records.getD recordIndex {} with publishState := newState }

/-! ## Transitions -/

def validateTransitionPublish (currentState newState : PublishState) (opType : StateOperation)
    (qos : Qos) : Bool :=
  match currentState with
  | .stateNull => opType = .receive && (newState = .pubAckSend || newState = .pubRecSend)
  | .publishSend =>
    match qos with
    | .qos1 => newState = .pubAckPending
    | .qos2 => newState = .pubRecPending
    | .qos0 => false
  | .pubAckPending => newState = .pubAckPending
  | .pubRecPending => newState = .pubRecPending
  | _ => false

def validateTransitionAck (currentState newState : PublishState) : Bool :=
  match currentState with
  | .pubAckSend | .pubAckPending => newState = .publishDone
  | .pubRecSend => newState = .pubRelPending
  | .pubRelPending => newState = .pubCompSend || newState = .pubRelPending
  | .pubCompSend => newState = .publishDone || newState = .pubCompSend
  | .pubRecPending => newState = .pubRelSend
  | .pubRelSend => newState = .pubCompPending
  | .pubCompPending => newState = .publishDone || newState = .pubCompPending
  | .publishDone | .publishSend | .stateNull => false

def isPublishOutgoing (packetType : PubAckType) (opType : StateOperation) : Bool :=
  match packetType with
  | .puback | .pubrec | .pubcomp => opType = .receive
  | .pubrel => opType = .send

def mqttCalculateStateAck (packetType : PubAckType) (opType : StateOperation) (qos : Qos) :
    PublishState :=
  match packetType with
  | .puback => if qos = .qos1 then .publishDone else .stateNull
  | .pubrec =>
    if qos = .qos2 then (if opType = .send then .pubRelPending else .pubRelSend) else .stateNull
  | .pubrel =>
    if qos = .qos2 then (if opType = .send then .pubCompPending else .pubCompSend)
    else .stateNull
  | .pubcomp => if qos = .qos2 then .publishDone else .stateNull

def mqttCalculateStatePublish (opType : StateOperation) (qos : Qos) : PublishState :=
  match qos with
  | .qos0 => .publishDone
  | .qos1 => if opType = .send then .pubAckPending else .pubAckSend
  | .qos2 => if opType = .send then .pubRecPending else .pubRecSend

def updateStateAck (records : List PubAckInfo) (recordIndex : Nat) (packetId : UInt16)
    (currentState newState : PublishState) : MqttStatus × List PubAckInfo :=
  let shouldDeleteRecord : Bool := newState = .publishDone || newState = .pubRelSend
  if validateTransitionAck currentState newState then
    if currentState ≠ newState then
      let records := updateRecord records recordIndex newState shouldDeleteRecord
      -- after a PUBREC the record goes to the end, where its PUBREL is in order
      if newState = .pubRelSend then addRecord records packetId .qos2 .pubRelSend
      else (.success, records)
    else (.success, records)
  else (.illegalState, records)

def updateStatePublish (c : PublishRecords) (recordIndex : Nat) (packetId : UInt16)
    (opType : StateOperation) (qos : Qos) (currentState newState : PublishState) :
    MqttStatus × PublishRecords :=
  if validateTransitionPublish currentState newState opType qos then
    match opType with
    | .receive =>
      let (status, incoming) := addRecord c.incoming packetId qos newState
      (status, { c with incoming })
    | .send =>
      if currentState ≠ newState then
        (.success, { c with outgoing := updateRecord c.outgoing recordIndex newState false })
      else (.success, c)
  else (.illegalState, c)

/-! ## The engine's functions -/

def mqttReserveState (c : PublishRecords) (packetId : UInt16) (qos : Qos) :
    MqttStatus × PublishRecords :=
  if qos = .qos0 then (.success, c)
  else if packetId = 0 then (.badParameter, c)
  else
    let (status, outgoing) := addRecord c.outgoing packetId qos .publishSend
    (status, { c with outgoing })

/-- `MQTT_UpdateStatePublish`: the status, `*pNewState` (`MQTTStateNull` unless it is set) and
the records. -/
def mqttUpdateStatePublish (c : PublishRecords) (packetId : UInt16) (opType : StateOperation)
    (qos : Qos) : MqttStatus × PublishState × PublishRecords :=
  if qos = .qos0 then (.success, .publishDone, c)
  else if packetId = 0 then (.badParameter, .stateNull, c)
  else
    let newState := mqttCalculateStatePublish opType qos
    let update (recordIndex : Nat) (currentState : PublishState) :=
      let (status, c) :=
        updateStatePublish c recordIndex packetId opType qos currentState newState
      (status, if status = .success then newState else .stateNull, c)
    match opType with
    | .receive => update 0 .stateNull
    | .send =>
      match findInRecord c.outgoing packetId with
      | none => (.badParameter, .stateNull, c)
      | some (recordIndex, foundQos, currentState) =>
        if foundQos ≠ qos then (.badParameter, .stateNull, c)
        else update recordIndex currentState

def mqttUpdateStateAck (c : PublishRecords) (packetId : UInt16) (packetType : PubAckType)
    (opType : StateOperation) : MqttStatus × PublishState × PublishRecords :=
  if packetId = 0 then (.badParameter, .stateNull, c)
  else
    let isOutgoingPublish := isPublishOutgoing packetType opType
    let records := if isOutgoingPublish then c.outgoing else c.incoming
    match findInRecord records packetId with
    | none => (.badResponse, .stateNull, c)
    | some (recordIndex, qos, currentState) =>
      let newState := mqttCalculateStateAck packetType opType qos
      let (status, records) := updateStateAck records recordIndex packetId currentState newState
      (status, if status = .success then newState else .stateNull,
        if isOutgoingPublish then { c with outgoing := records }
        else { c with incoming := records })

def clearRecords (outgoingCount incomingCount : Nat) : PublishRecords :=
  ⟨List.replicate outgoingCount {}, List.replicate incomingCount {}⟩

/-! ## Resending -/

/-- `stateSelect`: the first record from the cursor on in one of the searched states; its packet
id, or 0, and the cursor moved past it. -/
def stateSelect (records : List PubAckInfo) (searchStates : PublishState → Bool) (cursor : Nat) :
    UInt16 × Nat :=
  match (records.drop cursor).findIdx? fun r => searchStates r.publishState with
  | none => (0, max cursor records.length)
  | some k => ((records.getD (cursor + k) {}).packetId, cursor + k + 1)

def pubrelStates (state : PublishState) : Bool :=
  state = .pubCompPending || state = .pubRelSend

/-- `MQTT_PubrelToResend`; `*pState` is `MQTTPubRelSend` whenever there is one. -/
def mqttPubrelToResend (c : PublishRecords) (cursor : Nat) : UInt16 × Nat :=
  stateSelect c.outgoing pubrelStates cursor

end CyThing.CoreMqtt
