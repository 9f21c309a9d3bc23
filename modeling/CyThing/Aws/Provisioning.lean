import CyThing.Platform

/-! The provisioning handshake `REQID`/`PROV`/`CSRREQ`/`DEVID`/`CERT`/`PFIN`
(`aws/provisioning`). Every line it owns is answered with exactly one reply. -/

namespace CyThing
open CLib

abbrev provDeviceIdMax : Nat := 40
abbrev provSourceTerminalIdMax : Nat := 40
abbrev provEndpointMax : Nat := 128
abbrev provCertPemMax : Nat := 2048
abbrev certB64BufLen : Nat := 2732

inductive HandshakeState
  | idle
  | gotProv
  | sentCsr
  | receivingCert
  deriving DecidableEq

structure ProvNvs where
  devid : Option Bytes := none
  srctermid : Option Bytes := none
  ep : Option Bytes := none
  cert : Option Bytes := none
  opkey : Option Bytes := none
  deriving DecidableEq

structure Provisioning where
  deviceId : Bytes := []
  sourceTerminalId : Bytes := []
  iotEndpoint : Bytes := []
  certPem : Bytes := []
  keyPem : Bytes := []
  active : Bool := false
  state : HandshakeState := .idle
  pendingSourceTerminalId : Bytes := []
  pendingIotEndpoint : Bytes := []
  pendingDeviceId : Bytes := []
  certB64 : Bytes := []
  certTotalChunks : Int := 0
  certNextSeq : Int := 1
  rebootArmed : Bool := false
  nvs : ProvNvs := {}
  deriving DecidableEq

structure ProvEnv where
  keyRand : Bytes := []
  opkeyOk : Bool := true
  devidOk : Bool := true
  srctermidOk : Bool := true
  epOk : Bool := true
  certOk : Bool := true
  deriving DecidableEq

def trimTrailingWs (text : Bytes) : Bytes :=
  (text.reverse.dropWhile fun c => c == 10 || c == 13 || c == 32).reverse

def provisioningInit (nvs : ProvNvs) : Provisioning :=
  { deviceId := trimTrailingWs (nvs.devid.getD [])
    sourceTerminalId := trimTrailingWs (nvs.srctermid.getD [])
    iotEndpoint := trimTrailingWs (nvs.ep.getD [])
    certPem := nvs.cert.getD []
    keyPem := nvs.opkey.getD []
    active := nvs.devid.isSome && nvs.srctermid.isSome && nvs.ep.isSome && nvs.cert.isSome &&
      nvs.opkey.isSome
    nvs := nvs }

def loadOrGenerateKeypair (P : Platform) (env : ProvEnv) (p : Provisioning) :
    Bool × Provisioning :=
  let usable := match p.nvs.opkey with
    | some k => P.keyParses k
    | none => false
  let p := { p with keyPem := p.nvs.opkey.getD p.keyPem }
  if usable then (true, p)
  else match P.generateKeyPem env.keyRand with
    | none => (false, p)
    | some k =>
      let p := { p with keyPem := k }
      if !P.keyParses k then (false, p)
      else if !env.opkeyOk then (false, p)
      else (true, { p with nvs := { p.nvs with opkey := some k } })

def buildCsrBase64 (P : Platform) (env : ProvEnv) (p : Provisioning) :
    Option Bytes × Provisioning :=
  let (ok, p) := loadOrGenerateKeypair P env p
  if ok then (P.csrBase64 p.keyPem, p) else (none, p)

def Provisioning.resetHandshake (p : Provisioning) : Provisioning :=
  { p with
    state := .idle, pendingSourceTerminalId := [], pendingIotEndpoint := []
    pendingDeviceId := [], certB64 := [], certTotalChunks := 0, certNextSeq := 1 }

def handleReqid (P : Platform) (p : Provisioning) (text : Bytes) : Provisioning × Bytes :=
  match P.claimResponse (text.drop 6) with
  | some claim => (p, snprintf 2900 (ascii "CLAIM:" ++ claim))
  | none => (p, ascii "ACK")

def handleProv (p : Provisioning) (text : Bytes) : Provisioning × Bytes :=
  match splitFirst 44 (text.drop 5) with
  | none => (p, ascii "ACK")
  | some (chan, rest) =>
    match splitFirst 44 rest with
    | none => (p, ascii "ACK")
    | some (_, endpoint) =>
      ({ p with
          pendingSourceTerminalId := chan.take (provSourceTerminalIdMax - 1)
          pendingIotEndpoint := snprintf provEndpointMax endpoint
          state := .gotProv }, ascii "ACK")

def handleCsrreq (P : Platform) (env : ProvEnv) (p : Provisioning) : Provisioning × Bytes :=
  match buildCsrBase64 P env p with
  | (none, p) => (p, ascii "ACK")
  | (some b64, p) => ({ p with state := .sentCsr }, snprintf 420 (ascii "CSR:" ++ b64))

def handleDevid (p : Provisioning) (text : Bytes) : Provisioning × Bytes :=
  ({ p with
      pendingDeviceId := snprintf provDeviceIdMax (text.drop 6)
      state := .receivingCert
      certB64 := [], certTotalChunks := 0, certNextSeq := 1 }, ascii "ACK")

def acceptCertChunk (P : Platform) (p : Provisioning) (seq total : Int) (chunk : Bytes) :
    Provisioning × Bytes :=
  let p := { p with certTotalChunks := total }
  if certB64BufLen ≤ p.certB64.length + chunk.length then (p.resetHandshake, ascii "ACK")
  else
    let p := { p with certB64 := p.certB64 ++ chunk, certNextSeq := p.certNextSeq + 1 }
    if seq = total then
      match P.decodeInto (provCertPemMax - 1) p.certB64 with
      | none => (p.resetHandshake, ascii "ACK")
      | some pem => ({ p with certPem := pem }, ascii "CERTOK")
    else (p, ascii "ACK")

def handleCert (P : Platform) (p : Provisioning) (text : Bytes) : Provisioning × Bytes :=
  let body := text.drop 5
  match splitFirst 58 body with
  | none => (p, ascii "ACK")
  | some (_, rest) =>
    match splitFirst 58 rest with
    | none => (p, ascii "ACK")
    | some (_, chunk) =>
      if p.state ≠ .receivingCert ∨ atoi body ≠ p.certNextSeq ∨
          (p.certTotalChunks ≠ 0 ∧ atoi rest ≠ p.certTotalChunks) then (p, ascii "ACK")
      else acceptCertChunk P p (atoi body) (atoi rest) chunk

/-- The four writes of `PFIN`, each on its own, stopping at the first that fails. -/
def persistIdentity (env : ProvEnv) (p : Provisioning) : Bool × ProvNvs :=
  if !env.devidOk then (false, p.nvs)
  else
    let nvs := { p.nvs with devid := some p.deviceId }
    if !env.srctermidOk then (false, nvs)
    else
      let nvs := { nvs with srctermid := some p.sourceTerminalId }
      if !env.epOk then (false, nvs)
      else
        let nvs := { nvs with ep := some p.iotEndpoint }
        if !env.certOk then (false, nvs) else
          (true, { nvs with cert := some (cstr p.certPem) })

def handlePfin (env : ProvEnv) (p : Provisioning) : Provisioning × Bytes :=
  if p.state ≠ .receivingCert ∨ cstr p.certPem = [] ∨ p.pendingDeviceId = [] then
    -- a re-pair with only PROV and PFIN moves the source terminal
    if p.active ∧ p.pendingSourceTerminalId ≠ [] then
      let p := { p with sourceTerminalId := p.pendingSourceTerminalId }
      let nvs :=
        if env.srctermidOk then { p.nvs with srctermid := some p.sourceTerminalId } else p.nvs
      ({ p with nvs := nvs }.resetHandshake, ascii "ACK")
    else (p.resetHandshake, ascii "ACK")
  else
    let p := { p with
      deviceId := p.pendingDeviceId
      sourceTerminalId := p.pendingSourceTerminalId
      iotEndpoint := p.pendingIotEndpoint }
    let (ok, nvs) := persistIdentity env p
    let p := { p with nvs := nvs }.resetHandshake
    (if ok then { p with rebootArmed := true } else p, ascii "ACK")

def isProvisioningLine (line : Bytes) : Bool :=
  hasPrefix line (ascii "REQID:") || hasPrefix line (ascii "PROV:") ||
    hasPrefix line (ascii "CSRREQ") || hasPrefix line (ascii "DEVID:") ||
    hasPrefix line (ascii "CERT:") || hasPrefix line (ascii "PFIN")

def provisioningHandleTcpLine (P : Platform) (env : ProvEnv) (p : Provisioning)
    (line : Bytes) : Option (Provisioning × Bytes) :=
  if !isProvisioningLine line then none
  else
    let text := trimTrailingWs (cstr (line ++ [10]))
    if hasPrefix text (ascii "REQID:") then some (handleReqid P p text)
    else if hasPrefix text (ascii "PROV:") then some (handleProv p text)
    else if hasPrefix text (ascii "CSRREQ") then some (handleCsrreq P env p)
    else if hasPrefix text (ascii "DEVID:") then some (handleDevid p text)
    else if hasPrefix text (ascii "CERT:") then some (handleCert P p text)
    else if hasPrefix text (ascii "PFIN") then some (handlePfin env p)
    else none

end CyThing
