import CyThing.Platform

/-! Wi-Fi pairing `StartP`/`ssid:`/`pass:`/`FinishP` (`tcp_server/pairing`). -/

namespace CyThing
open CLib

inductive PairingStep
  | startPairing
  | setRouterSsid
  | setRouterPass
  | finishPairing
  deriving DecidableEq

structure PairingState where
  step : PairingStep := .startPairing
  tempSsid : Bytes := []
  tempPassword : Bytes := []
  stored : Option (Bytes × Bytes) := none
  rebootArmed : Bool := false
  deriving DecidableEq

def pairingTimeoutCb (p : PairingState) : PairingState := { p with step := .startPairing }

def pairingCommit (flashOk : Bool) (p : PairingState) : PairingState :=
  if flashOk then { p with stored := some (p.tempSsid, p.tempPassword), rebootArmed := true }
  else p

def isPairingCommandValid (text pre suf : Bytes) : Bool :=
  decide (pre.length + suf.length ≤ text.length) && hasPrefix text pre && hasSuffix text suf

def pairingValue (text pre suf : Bytes) (size : Nat) : Bytes :=
  let len := text.length - pre.length - suf.length
  (text.drop pre.length).take (min len (size - 1))

/-- `pairing_handle_line`: the new state and whether `ACK` is queued, or `none` for a line
that is not its own. -/
def pairingHandleLine (P : Platform) (flashOk : Bool) (p : PairingState) (line : Bytes) :
    Option (PairingState × Bool) :=
  let text := cstr (line ++ [10])
  if hasPrefix line (ascii "StartP") then some ({ p with step := .setRouterSsid }, true)
  else if isPairingCommandValid text P.routerSsidPrefix [10] then
    if p.step = .setRouterSsid then
      some ({ p with tempSsid := pairingValue text P.routerSsidPrefix [10] 128
                     step := .setRouterPass }, true)
    else some (p, false)
  else if isPairingCommandValid text P.routerPassPrefix [10] then
    if p.step = .setRouterPass then
      some ({ p with tempPassword := pairingValue text P.routerPassPrefix [10] 128
                     step := .finishPairing }, true)
    else some (p, false)
  else if hasPrefix line (ascii "FinishP") then
    if p.step = .finishPairing then
      some ({ pairingCommit flashOk p with step := .startPairing }, true)
    else some (p, false)
  else none

end CyThing
