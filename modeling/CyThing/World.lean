import CyThing.Security.LocalSession
import CyThing.Security.PairedListDefs
import CyThing.Security.DevicePasswordDefs
import CyThing.Security.PairingEvents
import CyThing.Aws.Provisioning
import CyThing.TcpServer.Pairing
import CyThing.TcpServer.ResponseFifo

/-! The state of the device as the local link sees it, what the hardware answers while one
line is handled, and the bytes that leave on sockets. -/

namespace CyThing
open CLib

/-- What random generator, clock, heap and flash answer while one line is handled.
`listFate k` is the fate of the `k`-th store of the paired list during the line. -/
structure Env where
  unix : Nat := 0
  kAccount : Bytes := []
  nonceDev : Bytes := []
  ownerKey : Bytes := []
  srpRand : Bytes := []
  initRand : Bytes := []
  setRand : Bytes := []
  srpInitOk : Bool := true
  listFate : Nat → NvsFate := fun _ => .ok
  rotateFate : NvsFate := .ok
  pairFate : PairFate := {}
  lockoutFate : LockoutFate := {}
  eventOk : Bool := true
  modeOk : Bool := true
  flashOk : Bool := true
  prov : ProvEnv := {}

/-- One `send()` on a socket. `key` is the key of the socket's session when that session
was keyed at the time of the call. -/
structure Sent where
  sock : Nat
  bytes : Bytes
  key : Option (Block 32)
  deriving DecidableEq

structure Seal where
  slot : Slot
  key : Block 32
  nonce : Bytes
  deriving DecidableEq

inductive Handler
  | provisioning
  | ota
  | pairing
  | app
  deriving DecidableEq

structure Call where
  handler : Handler
  sock : Nat
  line : Bytes
  deriving DecidableEq

structure Broadcast where
  target : Int
  payload : Bytes
  next : Nat
  deriving DecidableEq

structure Core where
  pool : Pool := localSessionInit
  list : PairedBlob := {}
  nvsList : Option StoredList := none
  pw : DevicePassword := {}
  clock : Nat := 0

structure World extends Core where
  events : EventQueue := {}
  discoveryMode : Nat := 3
  prov : Provisioning := {}
  pairing : PairingState := {}
  firmwareUrl : Bytes := []
  otaTasks : List Nat := []
  accounts : List Nat := []
  responseId : Nat := 10
  tcpFifo : Bytes := []
  mqttFifo : Bytes := []
  staging : Bytes := []
  broadcast : Option Broadcast := none
  out : List Sent := []
  calls : List Call := []
  seals : List Seal := []

def World.keyOf (w : World) (sock : Nat) : Option (Block 32) :=
  match localSessionFind w.pool sock with
  | some i => if (w.pool i).keyed then some (w.pool i).key else none
  | none => none

def World.send (w : World) (sock : Nat) (bytes : Bytes) : World :=
  { w with out := w.out ++ [⟨sock, bytes, w.keyOf sock⟩] }

def World.setSession (w : World) (i : Slot) (s : LocalSession) : World :=
  { w with pool := Function.update w.pool i s }

def World.setPw (w : World) (pw : DevicePassword) : World := { w with pw := pw }

def World.setList (w : World) (list : PairedBlob) (nvs : Option StoredList) : World :=
  { w with list := list, nvsList := nvs }

def World.enter (w : World) (h : Handler) (sock : Nat) (line : Bytes) : World :=
  { w with calls := w.calls ++ [⟨h, sock, line⟩] }

def World.recordSeal (w : World) (x : Seal) : World := { w with seals := w.seals ++ [x] }

def World.pushEvent (w : World) (env : Env) (event userSub role : Bytes) : World :=
  { w with events := pairingEventsPush w.events env.eventOk env.unix event userSub role }

def World.sendRaw (w : World) (sock : Int) (text : Bytes) : World :=
  { w with tcpFifo := responseFifoPush w.tcpFifo (rawLine sock text) }

/-- `send_data_to_clients`; broadcasts are mirrored on the MQTT FIFO without the prefix. -/
def World.sendData (w : World) (sock : Int) (data : Bytes) : World :=
  let id := updateResponseId w.responseId
  let line := dataLine sock id data
  let w := { w with responseId := id, tcpFifo := responseFifoPush w.tcpFifo line }
  if sock = sendToAll ∨ sock = sendToAllPublic then
    match splitFirst 58 line with
    | some (_, mqttLine) => { w with mqttFifo := responseFifoPush w.mqttFifo mqttLine }
    | none => w
  else w

def World.appReply (w : World) : AppReply → World
  | .data sock data => w.sendData sock data
  | .raw sock text => w.sendRaw sock text

end CyThing
