import CyThing.Lib.Bytes

/-! Types of the vendored MQTT client (`coreMQTT`). -/

namespace CyThing

inductive MqttStatus
  | success | badParameter | noMemory | sendFailed | recvFailed | badResponse | serverRefused
  | noDataAvailable | illegalState | stateCollision | keepAliveTimeout | needMoreBytes
  deriving DecidableEq

namespace CoreMqtt

inductive Qos
  | qos0 | qos1 | qos2
  deriving DecidableEq

inductive PublishState
  | stateNull
  | publishSend
  | pubAckSend | pubRecSend | pubRelSend | pubCompSend
  | pubAckPending | pubRecPending | pubRelPending | pubCompPending
  | publishDone
  deriving DecidableEq

inductive PubAckType
  | puback | pubrec | pubrel | pubcomp
  deriving DecidableEq

inductive StateOperation
  | send | receive
  deriving DecidableEq

end CoreMqtt

end CyThing
