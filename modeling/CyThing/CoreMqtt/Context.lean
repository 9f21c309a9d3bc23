import CyThing.CoreMqtt.Serializer
import CyThing.CoreMqtt.State

/-! The MQTT client's context, and its loops over the TLS connection (`coreMQTT/core_mqtt`,
`coreMQTT/network_transport`). The connection and the clock answer from lists; a connection
whose answers are used up is down. -/

namespace CyThing.CoreMqtt
open CLib

/-- What `esp_tls_conn_read` has: bytes, of which it gives as many as are asked for, nothing yet
(`ESP_TLS_ERR_SSL_WANT_READ`), or an error. No bytes mean that the peer has closed. -/
inductive TlsRead
  | data (bytes : Bytes)
  | wantRead
  | failed
  deriving DecidableEq

structure AppCall where
  packet : PacketInfo
  packetIdentifier : UInt16
  publishInfo : Option PublishInfo
  deserializationResult : MqttStatus
  deriving DecidableEq

/-- The client keeps no log; the model notes each publish of QoS 1 or 2 that is sent, that could
not be sent and that goes to the application, each acknowledgement, and each session that starts
without the old one. -/
inductive LogEntry
  /-- `MQTT_Publish` has sent all of a publish of QoS 1 or 2. -/
  | published (packetId : UInt16) (qos : Qos)
  /-- It had a record for one and has not sent all of it. -/
  | unsent (packetId : UInt16) (qos : Qos)
  /-- The application is handed a publish of QoS 1 or 2. -/
  | delivered (packetId : UInt16) (qos : Qos)
  | ackSent (packetId : UInt16) (packetType : PubAckType)
  | ackReceived (packetId : UInt16) (packetType : PubAckType)
  /-- `MQTT_Connect` begins a new session. -/
  | cleared
  deriving DecidableEq

/-- `MQTTContext_t`, and the world around it. -/
structure Context where
  publishRecords : PublishRecords
  networkBuffer : Bytes
  index : Nat
  nextPacketId : UInt16
  keepAliveIntervalSec : UInt16
  lastPacketTxTime : UInt32
  lastPacketRxTime : UInt32
  pingReqSendTimeMs : UInt32
  waitingForPingResp : Bool
  -- what the connection will answer to reads and writes, and the clock
  reads : List TlsRead
  writes : List Int
  times : List UInt32
  now : UInt32
  -- what the connection has delivered and accepted, the callbacks made, and all that was done in
  -- exchanges
  received : Bytes
  sent : Bytes
  calls : List AppCall
  log : List LogEntry
  deriving DecidableEq

def Context.note (c : Context) (entry : LogEntry) : Context := { c with log := c.log ++ [entry] }

@[simp] theorem Context.note_publishRecords (c : Context) (entry : LogEntry) :
    (c.note entry).publishRecords = c.publishRecords := rfl

def getTime (c : Context) : UInt32 × Context :=
  match c.times with
  | [] => (c.now, c)
  | now :: times => (now, { c with times, now })

def calculateElapsedTime (later start : UInt32) : UInt32 := later - start

/-! ## Sending -/

def espTlsTransportSend (answer : Int) (data : Bytes) (c : Context) : Int × Context :=
  if data.length = 0 then (-1, c)
  else
    let bytesSent := min answer data.length
    (bytesSent, { c with sent := c.sent ++ data.take bytesSent.toNat })

def sendRound (timeoutMs : UInt32) (answer : Int) (data : Bytes) (c : Context) :
    Int × Bool × Context :=
  let (sendResult, c) := espTlsTransportSend answer data c
  let c :=
    if sendResult > 0 then
      let (now, c) := getTime c
      { c with lastPacketTxTime := now }
    else c
  let (now, c) := getTime c
  (sendResult, decide (timeoutMs ≤ now), c)

def sendBufferLoop (timeoutMs : UInt32) : List Int → Context → Bytes → Nat → Int × Context
  | [], c, data, _ =>
    let (sendResult, _, c) := sendRound timeoutMs (-1) data { c with writes := [] }
    (sendResult, c)
  | answer :: writes, c, data, bytesSent =>
    let (sendResult, timedOut, c) := sendRound timeoutMs answer data { c with writes }
    if sendResult < 0 then (sendResult, c)
    else
      let data := data.drop sendResult.toNat
      let bytesSent := bytesSent + sendResult.toNat
      if timedOut ∨ data.length = 0 then (bytesSent, c)
      else sendBufferLoop timeoutMs writes c data bytesSent

def mqttSendTimeoutMs : UInt32 := 20000

def sendBuffer (c : Context) (data : Bytes) : Int × Context :=
  let (now, c) := getTime c
  if data.length = 0 then (0, c)
  else sendBufferLoop (now + mqttSendTimeoutMs) c.writes c data 0

def advanceVectors : List Bytes → Nat → List Bytes
  | [], _ => []
  | vector :: vectors, sendResult =>
    if vector.length ≤ sendResult then advanceVectors vectors (sendResult - vector.length)
    else vector.drop sendResult :: vectors

/-- The loop of `sendMessageVector`, with `writev` not set: each round sends from the first
vector. -/
def sendVectorLoop (timeoutMs : UInt32) (bytesToSend : Nat) :
    List Int → Context → List Bytes → Nat → Int × Context
  | [], c, vectors, _ =>
    let (sendResult, _, c) := sendRound timeoutMs (-1) (vectors.headD []) { c with writes := [] }
    (sendResult, c)
  | answer :: writes, c, vectors, bytesSent =>
    let (sendResult, timedOut, c) :=
      sendRound timeoutMs answer (vectors.headD []) { c with writes }
    if sendResult < 0 then (sendResult, c)
    else
      let bytesSent := bytesSent + sendResult.toNat
      if timedOut ∨ bytesToSend ≤ bytesSent then (bytesSent, c)
      else
        sendVectorLoop timeoutMs bytesToSend writes c (advanceVectors vectors sendResult.toNat)
          bytesSent

def sendMessageVector (c : Context) (vectors : List Bytes) : Int × Context :=
  let bytesToSend := (vectors.map List.length).sum
  let (now, c) := getTime c
  if bytesToSend = 0 then (0, c)
  else sendVectorLoop (now + mqttSendTimeoutMs) bytesToSend c.writes c vectors 0

/-! ## Receiving -/

def espTlsTransportRecv (c : Context) (dataLen : Nat) : Option Bytes × Context :=
  if dataLen = 0 then (none, c)
  else
    match c.reads with
    | [] => (none, c)
    | .wantRead :: reads => (some [], { c with reads })
    | .failed :: reads => (none, { c with reads })
    | .data bytes :: reads =>
      if bytes.length = 0 then (none, { c with reads })
      else
        let rest := bytes.drop dataLen
        (some (bytes.take dataLen),
          { c with
            reads := if rest.length = 0 then reads else .data rest :: reads
            received := c.received ++ bytes.take dataLen })

def store (buffer : Bytes) (offset : Nat) (data : Bytes) : Bytes :=
  buffer.take offset ++ data ++ buffer.drop (offset + data.length)

def mqttRecvPollingTimeoutMs : UInt32 := 10

/-- The loop of `recvExact`. A read that leaves bytes behind has filled the request, so each
round goes on with the next read. -/
def recvExactLoop : List TlsRead → Context → (totalBytesRecvd bytesRemaining : Nat) →
    (lastDataRecvTimeMs : UInt32) → Int × Context
  | [], c, _, bytesRemaining, _ => (-1, (espTlsTransportRecv c bytesRemaining).2)
  | _ :: reads, c, totalBytesRecvd, bytesRemaining, lastDataRecvTimeMs =>
    match espTlsTransportRecv c bytesRemaining with
    | (none, c) => (-1, c)
    | (some bytes, c) =>
      let (now, c) := getTime c
      if bytes.length = 0 then
        if calculateElapsedTime now lastDataRecvTimeMs ≥ mqttRecvPollingTimeoutMs then
          (totalBytesRecvd, c)
        else recvExactLoop reads c totalBytesRecvd bytesRemaining lastDataRecvTimeMs
      else
        let c := { c with networkBuffer := store c.networkBuffer totalBytesRecvd bytes }
        let totalBytesRecvd := totalBytesRecvd + bytes.length
        let bytesRemaining := bytesRemaining - bytes.length
        if bytesRemaining = 0 then (totalBytesRecvd, c)
        else recvExactLoop reads c totalBytesRecvd bytesRemaining now

def recvExact (c : Context) (bytesToRecv : Nat) : Int × Context :=
  let (now, c) := getTime c
  if bytesToRecv = 0 then (0, c) else recvExactLoop c.reads c 0 bytesToRecv now

/-- The loop of `discardStoredPacket`: whether all that remains of the packet was read. Each
round reads at least one byte, so as many rounds as there are bytes are enough. -/
def discardLoop : (rounds : Nat) → Context → (bytesToReceive remaining : Nat) → Bool × Context
  | 0, c, _, remaining => (decide (remaining = 0), c)
  | rounds + 1, c, bytesToReceive, remaining =>
    if remaining = 0 then (true, c)
    else
      let bytesToReceive := min remaining bytesToReceive
      let (bytesReceived, c) := recvExact c bytesToReceive
      if bytesReceived ≠ bytesToReceive then (false, c)
      else discardLoop rounds c bytesToReceive (remaining - bytesToReceive)

def discardStoredPacket (c : Context) (mqttPacketSize : Nat) : MqttStatus × Context :=
  let size := c.networkBuffer.length
  let remainingLength := mqttPacketSize - c.index
  let (discarded, c) := discardLoop remainingLength c size remainingLength
  (if discarded then .noDataAvailable else .recvFailed,
    { c with networkBuffer := List.replicate size 0, index := 0 })

end CyThing.CoreMqtt
