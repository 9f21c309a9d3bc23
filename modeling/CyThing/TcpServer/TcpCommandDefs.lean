import CyThing.Security.PakeHandlerDefs
import CyThing.Security.OwnerCommandsDefs

/-! The access policy and the line dispatcher (`security/access_policy`,
`tcp_server/tcp_command`), built with `LOCAL_AUTH_ENFORCE 1` as shipped. -/

namespace CyThing
open CLib

/-! ## Access policy -/

def isHandshake (line : Bytes) : Bool :=
  hasPrefix line (ascii "PAKE1:") || hasPrefix line (ascii "PAKE3:") ||
    hasPrefix line (ascii "AUTH1:") || hasPrefix line (ascii "AUTH3:") ||
    hasPrefix line (ascii "ENROLL:")

def isPublic (P : Platform) (pw : DevicePassword) (line : Bytes) : Bool :=
  hasPrefix line P.scanCommand || !devicePasswordIsSet pw || P.appCommandIsPublic line

def accessPolicySockAuthenticated (pool : Pool) (sock : Nat) : Bool :=
  match localSessionFind pool sock with
  | some i => (pool i).authenticated
  | none => false

def accessPolicyAllow (P : Platform) (w : World) (sock : Nat) (line : Bytes) : Bool × World :=
  if isHandshake line || isPublic P w.pw line then (true, w)
  else
    let authenticated := accessPolicySockAuthenticated w.pool sock
    let encrypted := match localSessionFind w.pool sock with
      | some i => (w.pool i).rxEncrypted
      | none => false
    if authenticated && encrypted then (true, w)
    else if !authenticated then (false, w.send sock (ascii "ERR:AUTH\n"))
    else (false, w.send sock (ascii "ERR:ENC\n"))

/-! ## The handlers behind the policy -/

/-- `provisioning_handle_tcp_line` with its own sender, which never encrypts. -/
def provisioningLine (P : Platform) (env : Env) (w : World) (sock : Nat) (line : Bytes) :
    Option World :=
  match provisioningHandleTcpLine P env.prov w.prov line with
  | none => none
  | some (prov, reply) =>
    let w := { w with prov := prov }
    some (if reply.length + 1 < 64 then w.send sock (reply ++ [10])
      else (w.send sock reply).send sock [10])

def otaHandleLine (w : World) (sock : Nat) (line : Bytes) : Option World :=
  if hasPrefix line (ascii "startupdatecomm") then
    some (w.sendRaw sock (ascii "startupdateres"))
  else if hasPrefix line (ascii "credentialcomm") then
    some (w.sendRaw sock (ascii "credentialres"))
  else if hasPrefix line (ascii "updatingcomm") then
    let url := (line.drop (ascii "updatingcomm").length).take 4095
    some ({ w with firmwareUrl := url, otaTasks := w.otaTasks ++ [sock] }.sendRaw sock
      (ascii "updating:2"))
  else none

def pairingLine (P : Platform) (env : Env) (w : World) (sock : Nat) (line : Bytes) :
    Option World :=
  match pairingHandleLine P env.flashOk w.pairing line with
  | none => none
  | some (p, ack) =>
    let w := { w with pairing := p }
    some (if ack then w.sendRaw sock (ascii "ACK") else w)

/-- Provisioning, OTA, Wi-Fi pairing and the application, each entered only when those
before it did not know the line. -/
def dispatchBehindPolicy (P : Platform) (env : Env) (w : World) (sock : Nat) (line : Bytes) :
    World :=
  let w := w.enter .provisioning sock line
  match provisioningLine P env w sock line with
  | some w => w
  | none =>
    let w := w.enter .ota sock line
    match otaHandleLine w sock line with
    | some w => w
    | none =>
      let w := w.enter .pairing sock line
      match pairingLine P env w sock line with
      | some w => w
      | none =>
        let w := w.enter .app sock line
        match P.appCommandHandleLine line sock with
        | some replies => replies.foldl World.appReply w
        | none => w

def securityHandleLine (P : Platform) (env : Env) (w : World) (sock : Nat) (line : Bytes) :
    Option World :=
  match pakeHandleLine P env w sock line with
  | some w => some w
  | none =>
    match localAuthHandleLine P env w sock line with
    | some w => some w
    | none => ownerCommandsHandleLine P env w sock line

def tcpDispatchLine (P : Platform) (env : Env) (w : World) (sock : Nat) (line : Bytes) :
    World :=
  let (allowed, w) := accessPolicyAllow P w sock line
  if !allowed then w
  else match securityHandleLine P env w sock line with
    | some w => w
    | none => dispatchBehindPolicy P env w sock line

def handleLine (P : Platform) (env : Env) (w : World) (sock : Nat) (line : Bytes) : World :=
  match encFrameUnwrap P w sock line with
  | (none, w) => w
  | (some line, w) => tcpDispatchLine P env w sock line

end CyThing
