import CyThing.Lib.Bytes
import CyThing.Lib.Trace
import CyThing.Lib.Simulation
import CyThing.Lib.OrderedSlots
import CyThing.Lib.Varint
import CyThing.Lib.Dense
import CyThing.Lib.SlotTable
import CyThing.Lib.Base64
import CyThing.Lib.TextLine
import CyThing.Lib.Flash
import CyThing.Lib.KeyedCounter
import CyThing.Lib.Postbox
import CyThing.Lib.Publish
import CyThing.Lib.Admission
import CyThing.Lib.Layout
import CyThing.Lib.Memory
import CyThing.Lib.Framing
import CyThing.Lib.BoundedQueue
import CyThing.Lib.Signal
import CyThing.Lib.InOrder
import CyThing.Lib.WhileLoop
import CyThing.Lib.InPlace
import CyThing.Platform
import CyThing.Security.LocalSession
import CyThing.Security.PairedListDefs
import CyThing.Security.DevicePasswordDefs
import CyThing.Security.PairingEvents
import CyThing.Aws.Provisioning
import CyThing.TcpServer.Pairing
import CyThing.TcpServer.ResponseFifo
import CyThing.Common.ResponseFifoBuffer
import CyThing.Common.ResponseFifoWait
import CyThing.Wifi.StationConfig
import CyThing.Wifi.InterruptedStore
import CyThing.Ble.BlePairing
import CyThing.World
import CyThing.Security.EncFrameDefs
import CyThing.Security.PakeHandlerDefs
import CyThing.Security.LocalAuthDefs
import CyThing.Security.OwnerCommandsDefs
import CyThing.TcpServer.TcpCommandDefs
import CyThing.System
import CyThing.Sample
import CyThing.Security.EnrollGrammar
import CyThing.Core
import CyThing.Security.PairedList
import CyThing.Security.DevicePassword
import CyThing.Action
import CyThing.Edits
import CyThing.HandlerActions
import CyThing.Moves
import CyThing.Handshake
import CyThing.PairedSessions
import CyThing.AccountTracking
import CyThing.SessionIndex
import CyThing.Confidentiality
import CyThing.Mediation
import CyThing.StoreFailure
import CyThing.RateLimit
import CyThing.Lockout
import CyThing.PasswordChange
import CyThing.PasswordStorage
import CyThing.RevokeAll
import CyThing.Tasks
import CyThing.RemovalRace
import CyThing.Keying
import CyThing.Replay
import CyThing.SendTask
import CyThing.NonceUse
import CyThing.BroadcastRace
import CyThing.TcpServer.Delivery
import CyThing.ReplyPath
import CyThing.TcpServer.Listener
import CyThing.Security.PairedListStorage
import CyThing.Mdns.MdnsDiscovery
import CyThing.OtaLib.OtaHandler
import CyThing.Ble.BleBeacon
import CyThing.Security.EncFrameBuffers
import CyThing.Lib.Json
import CyThing.Security.PairingEventStorage
import CyThing.Security.PairingEventJson
import CyThing.Security.ListReadBack
import CyThing.Common.ResetHandler
import CyThing.Aws.ProvisioningRun
import CyThing.Aws.CertReassembly
import CyThing.Aws.ProvisioningIdentity
import CyThing.Aws.PairingUplink
import CyThing.Aws.UpdateFirmware
import CyThing.Aws.ProcessLoop
import CyThing.Aws.IotTask
import CyThing.Wifi.CredentialRoundTrip
import CyThing.Ble.BleAdvertising
import CyThing.Scripts.LocalAuthClient
import CyThing.Reconnect
import CyThing.TcpServer.LineFraming
import CyThing.TcpServer.PairingHistory
import CyThing.Components
import CyThing.CoreMqtt.Types
import CyThing.CoreMqtt.State
import CyThing.CoreMqtt.InFlight
import CyThing.CoreMqtt.StateEngine
import CyThing.CoreMqtt.Protocol
import CyThing.CoreMqtt.ReceiveLoop
import CyThing.CoreMqtt.Events
import CyThing.CoreMqtt.Delivery
import CyThing.CoreMqtt.UnsentPublishes
import CyThing.CoreMqtt.Callbacks
import CyThing.CoreMqtt.KeepAlive
import CyThing.CoreMqtt.Connecting
import CyThing.CoreMqtt.Sending
import CyThing.CoreMqtt.Session
import CyThing.CoreMqtt.Client
import CyThing.CoreMqtt.Context
import CyThing.CoreMqtt.PacketRoundTrip
import CyThing.CoreMqtt.Serializer
import CyThing.Lib.PacketStream
