import CyThing.TcpServer.TcpCommandDefs
import CyThing.Lib.Trace

/-! The device as a transition system: connections come and go, whole lines are handled one
at a time on any socket, other tasks queue responses, the send task delivers them, time
passes, and the device reboots. -/

namespace CyThing
open CLib Trace

abbrev tcpClientMax : Nat := 3

inductive Event
  /-- The listener accepts a connection; `taskOk` is whether its task could be created. -/
  | accept (sock : Nat) (peerIp : UInt32) (taskOk : Bool)
  /-- The receive task of `sock` has read a complete line (without its `\n`). -/
  | line (sock : Nat) (bytes : Bytes) (env : Env)
  /-- The receive task of `sock` ends. -/
  | close (sock : Nat)
  /-- Another task queues a response. -/
  | queue (reply : AppReply)
  /-- The send task takes its next step. -/
  | send
  | tick (us : Nat)
  | pairingTimeout
  /-- A restart; `factory` when `reset_handler` has counted five quick power cycles. -/
  | reboot (factory : Bool) (env : Env)

/-! ## The listener -/

def addAccount (accounts : List Nat) (sock : Nat) : Option (List Nat) :=
  if 100 ≤ accounts.length then none else some (accounts ++ [sock])

def removeAccount (accounts : List Nat) (sock : Nat) : List Nat := accounts.erase sock

/-- One round of the accept loop of `tcp_server_task`. The system never hands out a
descriptor that is still open. -/
def acceptConnection (w : World) (sock : Nat) (peerIp : UInt32) (taskOk : Bool) : World :=
  if (localSessionFind w.pool sock).isSome then w
  else if tcpClientMax ≤ localSessionCount w.pool ∧
      localSessionShutdownPeer w.pool peerIp = 0 then w
  else match addAccount w.accounts sock with
    | none => w
    | some accounts =>
      match localSessionAcquire w.pool sock peerIp with
      | (none, _) => { w with accounts := removeAccount accounts sock }
      | (some _, pool) =>
        if taskOk then { w with accounts := accounts, pool := pool }
        else { w with accounts := removeAccount accounts sock
                      pool := localSessionRelease pool sock }

def closeConnection (w : World) (sock : Nat) : World :=
  { w with pool := localSessionRelease w.pool sock, accounts := removeAccount w.accounts sock }

/-! ## The send task -/

def broadcastTo (P : Platform) (w : World) (b : Broadcast) (dst : Nat) : World :=
  if b.target = responseTargetAll ∧ devicePasswordIsSet w.pw = true ∧
      accessPolicySockAuthenticated w.pool dst = false then w
  else encFrameSend P w dst b.payload

def sendTaskStep (P : Platform) (w : World) : World :=
  match w.broadcast with
  | some b =>
    match w.accounts[b.next]? with
    | some dst => broadcastTo P { w with broadcast := some { b with next := b.next + 1 } } b dst
    | none => { w with broadcast := none }
  | none =>
    if w.staging = [] then { w with staging := w.tcpFifo, tcpFifo := [] }
    else
      let (line, rest) := nextLine w.staging
      let w := { w with staging := rest }
      match routeOf line with
      | none => w
      | some (target, payload) =>
        if target = responseTargetAll ∨ target = responseTargetEveryone then
          { w with broadcast := some ⟨target, payload, 0⟩ }
        else if 0 ≤ target ∧ target.toNat ∈ w.accounts then
          encFrameSend P w target.toNat payload
        else w

/-! ## Boot -/

def boot (env : Env) (w : World) : World :=
  let (list, nvs) := pairedListInit (env.listFate 0) w.nvsList
  { pool := localSessionInit
    list := list
    nvsList := nvs
    pw := passwordNvsLoad 0 w.pw.nvs
    clock := 0
    events := pairingEventsInit w.events.nvs
    discoveryMode := w.discoveryMode
    prov := provisioningInit w.prov.nvs
    pairing := { stored := w.pairing.stored }
    out := w.out
    calls := w.calls
    seals := w.seals }

/-- The factory reset of `reset_handler`, which ends in another restart. -/
def factoryReset (env : Env) (w : World) : World :=
  let (_, list, nvs) := pairedListClear (env.listFate 1) w.nvsList
  let (_, pw) := devicePasswordClear env.pairFate w.pw
  let w := (w.setList list nvs).setPw pw
  let w := { w with pairing := { w.pairing with stored := none } }
  w.pushEvent env (ascii "reset") [] []

/-! ## Steps -/

def step (P : Platform) (w : World) : Event → World
  | .accept sock peerIp taskOk => acceptConnection w sock peerIp taskOk
  | .line sock bytes env => handleLine P env w sock bytes
  | .close sock => closeConnection w sock
  | .queue reply => w.appReply reply
  | .send => sendTaskStep P w
  | .tick us => { w with clock := w.clock + us }
  | .pairingTimeout => { w with pairing := pairingTimeoutCb w.pairing }
  | .reboot factory env =>
    if factory then boot env (factoryReset env (boot env w)) else boot env w

def World.fresh : World := {}

end CyThing
