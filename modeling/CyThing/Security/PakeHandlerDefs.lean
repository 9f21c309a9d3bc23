import CyThing.Security.EncFrameDefs

/-! Password pairing `PAKE1`/`PAKE3` (`security/pake_handler`). -/

namespace CyThing
open CLib

abbrev srpBytesMax : Nat := 384
abbrev srpProofLen : Nat := 64

def pake1Prefix : Bytes := ascii "PAKE1:"
def pake3Prefix : Bytes := ascii "PAKE3:"

def decodePayload (P : Platform) (line pre : Bytes) (size : Nat) : Option Bytes :=
  if line.length ≤ pre.length then none
  else (P.decodeInto size (line.drop pre.length)).filter (· ≠ [])

def pake3Proof (P : Platform) (line : Bytes) : Option Bytes :=
  (decodePayload P line pake3Prefix srpProofLen).filter (·.length = srpProofLen)

/-- The server side of SRP for `A` against the pair; `none` when esp_srp or its heap fails. -/
def srpBegin (P : Platform) (env : Env) (pair : Bytes × Bytes) (bytesA : Bytes) :
    Option SrpHandle :=
  if !env.srpInitOk then none
  else match P.srpServer pair.1 pair.2 bytesA env.srpRand with
    | none => none
    | some (bytesB, k) =>
      if k.length < 32 ∨ srpBytesMax < bytesB.length then none
      else some ⟨pair.1, pair.2, bytesA, bytesB, k⟩

def handlePake1 (P : Platform) (env : Env) (w : World) (i : Slot) (sock : Nat)
    (line : Bytes) : World :=
  -- a fresh PAKE1 abandons whatever this socket was doing
  let s := (w.pool i).resetHandshake
  let w := w.setSession i s
  let lock := devicePasswordLockRemainingS w.clock w.pw s.peerIp
  if 0 < lock then sendErr P w sock (snprintf 24 (ascii "LOCKED," ++ decimal lock))
  else match decodePayload P line pake1Prefix srpBytesMax with
    | none => sendErr P w sock (ascii "BADFMT")
    | some bytesA =>
      let (pair, pw) := devicePasswordGet P env.initRand w.pw
      let w := w.setPw pw
      match pair with
      | none => sendErr P w sock (ascii "NOPW")
      | some pair =>
        match srpBegin P env pair bytesA with
        | none => sendErr P w sock (ascii "NOMEM")
        | some hd =>
          let w := w.setSession i
            { s with key := .fit 32 hd.sessionKey, srp := some hd, state := .pakeWaitProof }
          securitySendLine P w sock
            (ascii "PAKE2:" ++ P.base64Encode hd.salt ++ ascii "," ++ P.base64Encode hd.bytesB)

def handlePake3 (P : Platform) (env : Env) (w : World) (i : Slot) (sock : Nat)
    (line : Bytes) : World :=
  let s := w.pool i
  if s.state ≠ .pakeWaitProof then sendErr P w sock (ascii "SEQ")
  else match s.srp with
    | none => sendErr P w sock (ascii "SEQ")
    | some hd =>
      match pake3Proof P line with
      | none => sendErr P (w.setSession i s.abortPake) sock (ascii "BADFMT")
      | some m1 =>
        match P.srpExchangeProofs hd devicePwSrpIdentity m1 with
        | none =>
          let w := w.setPw (devicePasswordNoteFailure env.lockoutFate w.clock w.pw s.peerIp)
          sendErr P (w.setSession i s.abortPake) sock (ascii "BADPW")
        | some m2 =>
          let w := w.setSession i { s with srp := none }
          let w := w.setPw (devicePasswordNoteSuccess env.lockoutFate w.clock w.pw s.peerIp)
          -- PAKE4 goes out in the clear; the state moves once it is on the wire
          let w := securitySendLine P w sock (ascii "PAKE4:" ++ P.base64Encode m2)
          w.setSession i { w.pool i with txCtr := 0, rxCtr := 0, state := .pakeOk }

def pakeHandleLine (P : Platform) (env : Env) (w : World) (sock : Nat) (line : Bytes) :
    Option World :=
  let is1 := hasPrefix line pake1Prefix
  let is3 := hasPrefix line pake3Prefix
  if !is1 && !is3 then none
  else match localSessionFind w.pool sock with
    | none => some (sendErr P w sock (ascii "NOSESSION"))
    | some i =>
      if is1 then some (handlePake1 P env w i sock line)
      else some (handlePake3 P env w i sock line)

end CyThing
