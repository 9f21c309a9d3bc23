import CyThing.Security.LocalAuthDefs

/-! Management of the paired list and the password: `LIST`, `REVOKE`, `PWSET`, `PWCLEAR`,
`RESET`, `DISCOVERYMODE`, `UNPAIR` (`security/owner_commands`). -/

namespace CyThing
open CLib

def LocalSession.isOwner (s : LocalSession) : Bool :=
  s.rxEncrypted && s.role == .owner && s.authenticated

def LocalSession.isAuthed (s : LocalSession) : Bool :=
  s.rxEncrypted && s.pairedIndex.isSome && (s.state == .authOk || s.state == .pakeOk)

/-! ## LIST -/

def pairedLine (P : Platform) (e : PairedEntry) : Bytes :=
  snprintf 173
    (ascii "PAIRED:" ++ P.base64Encode e.userSub ++ ascii "," ++ P.base64Encode e.userEmail ++
      ascii "," ++ decimal e.pairedAt ++ ascii "," ++ roleText e.role)

def handleList (P : Platform) (w : World) (sock : Nat) : World :=
  let w' := w.list.accounts.foldl (fun w e => securitySendLine P w sock (pairedLine P e)) w
  securitySendLine P w' sock (snprintf 24 (ascii "PAIREND:" ++ decimal w.list.count))

/-! ## REVOKE -/

def parseRevoke (P : Platform) (line : Bytes) : Option Bytes :=
  let body := line.drop (ascii "REVOKE:").length
  match splitFirst 44 body with
  | none => (P.decodeInto (pairedSubMax + 1) body).bind fun f => toCstr f (pairedSubMax + 1)
  | some (f, rest) =>
    match (P.decodeInto (pairedSubMax + 1) f).bind fun f => toCstr f (pairedSubMax + 1) with
    | none => none
    | some sub =>
      if 44 ∈ rest then none
      else ((P.decodeInto (pairedSubMax + 1) rest).bind fun f =>
        toCstr f (pairedSubMax + 1)).map fun _ => sub

def World.onPairedRemoved (w : World) (index : Nat) : World :=
  { w with pool := localSessionOnPairedRemoved w.pool index }

def handleRevoke (P : Platform) (env : Env) (w : World) (i : Slot) (sock : Nat)
    (line : Bytes) : World :=
  match parseRevoke P line with
  | none => sendErr P w sock (ascii "BADFMT")
  | some sub =>
    match pairedListFind w.list sub with
    | none => sendErr P w sock (ascii "UNKNOWN")
    | some index =>
      match pairedListGet w.list (some index) with
      | none => sendErr P w sock (ascii "UNKNOWN")
      | some e =>
        -- never the entry this session runs on
        if (w.pool i).pairedIndex = some index then sendErr P w sock (ascii "OWNER")
        else
          let (ok, list, nvs) := pairedListRemove (env.listFate 0) w.list w.nvsList index
          let w := w.setList list nvs
          if !ok then sendErr P w sock (ascii "STORE")
          else
            let w := w.onPairedRemoved index
            let w := w.pushEvent env (ascii "unpaired") sub (roleText e.role)
            securitySendLine P w sock (ascii "ACK")

/-! ## PWSET -/

/-- The loop of `revoke_all_non_owner` at row `i` with `k` stores tried. -/
def revokeFrom (env : Env) : Nat → Nat → Nat → World → World
  | 0, _, _, w => w
  | n + 1, i, k, w =>
    if i < w.list.count then
      let e := w.list.entries i
      if e.role ≠ .owner then
        let (ok, list, nvs) := pairedListRemove (env.listFate k) w.list w.nvsList i
        let w := w.setList list nvs
        if ok then
          -- the tail has moved down into row i
          let w := w.onPairedRemoved i
          revokeFrom env n i (k + 1) (w.pushEvent env (ascii "unpaired") e.userSub (ascii "user"))
        else revokeFrom env n (i + 1) (k + 1) w
      else revokeFrom env n (i + 1) k w
    else w

def revokeAllNonOwner (env : Env) (w : World) : World := revokeFrom env w.list.count 0 0 w

def parsePwset (P : Platform) (line : Bytes) : Option Bytes :=
  let body := line.drop (ascii "PWSET:").length
  if 44 ∈ body then none
  else (P.decodeInto (devicePwMaxLen + 1) body).filter fun pw =>
    devicePwMinLen ≤ pw.length ∧ pw.length ≤ devicePwMaxLen

def handlePwset (P : Platform) (env : Env) (w : World) (sock : Nat) (line : Bytes) : World :=
  match parsePwset P line with
  | none => sendErr P w sock (ascii "BADFMT")
  | some password =>
    let (ok, pw) := devicePasswordSet P env.pairFate env.setRand w.pw password
    let w := w.setPw pw
    if !ok then sendErr P w sock (ascii "STORE")
    else
      let w := revokeAllNonOwner env w
      let (_, list, nvs) := pairedListRotateOwnerKey env.rotateFate w.list w.nvsList
        (.fit pairedKeyLen env.ownerKey)
      securitySendLine P (w.setList list nvs) sock (ascii "ACK")

/-! ## PWCLEAR, RESET, DISCOVERYMODE, UNPAIR -/

def handlePwclear (P : Platform) (env : Env) (w : World) (sock : Nat) : World :=
  let (ok, pw) := devicePasswordClear env.pairFate w.pw
  let w := w.setPw pw
  if !ok then sendErr P w sock (ascii "STORE") else securitySendLine P w sock (ascii "ACK")

def handleReset (P : Platform) (env : Env) (w : World) (sock : Nat) : World :=
  -- reply while the session still has its key
  let w := securitySendLine P w sock (ascii "ACK")
  let (_, list, nvs) := pairedListClear (env.listFate 0) w.nvsList
  let (_, pw) := devicePasswordClear env.pairFate w.pw
  let w := (w.setList list nvs).setPw pw
  let w := { w with pool := localSessionDropAllAuth w.pool }
  w.pushEvent env (ascii "reset") [] []

def handleDiscoverymode (P : Platform) (env : Env) (w : World) (sock : Nat) (line : Bytes) :
    World :=
  match line.drop (ascii "DISCOVERYMODE:").length with
  | [c] =>
    if c < 49 ∨ 51 < c then sendErr P w sock (ascii "BADFMT")
    else if !env.modeOk then sendErr P w sock (ascii "STORE")
    else securitySendLine P { w with discoveryMode := c.toNat - 48 } sock (ascii "ACK")
  | _ => sendErr P w sock (ascii "BADFMT")

def handleDiscoverymodeGet (P : Platform) (w : World) (sock : Nat) : World :=
  securitySendLine P w sock (snprintf 24 (ascii "DISCOVERYMODE:" ++ decimal w.discoveryMode))

def handleUnpair (P : Platform) (env : Env) (w : World) (i : Slot) (sock : Nat) : World :=
  match pairedListGet w.list (w.pool i).pairedIndex with
  | none => sendErr P w sock (ascii "UNKNOWN")
  | some e =>
    if e.role = .owner then sendErr P w sock (ascii "OWNER")
    else
      -- reply while the session key is still valid
      let w := securitySendLine P w sock (ascii "ACK")
      match (w.pool i).pairedIndex with
      | none => w
      | some index =>
        let (ok, list, nvs) := pairedListRemove (env.listFate 0) w.list w.nvsList index
        let w := w.setList list nvs
        if !ok then w
        else (w.onPairedRemoved index).pushEvent env (ascii "unpaired") e.userSub (ascii "user")

/-! ## Dispatch -/

inductive OwnerCommand
  | list
  | revoke
  | pwset
  | pwclear
  | discoverymode
  | discoverymodeGet
  | reset
  | unpair
  deriving DecidableEq

def ownerCommand (line : Bytes) : Option OwnerCommand :=
  if line = ascii "UNPAIR" then some .unpair
  else if line = ascii "LIST" then some .list
  else if hasPrefix line (ascii "REVOKE:") then some .revoke
  else if hasPrefix line (ascii "PWSET:") then some .pwset
  else if line = ascii "PWCLEAR" then some .pwclear
  else if hasPrefix line (ascii "DISCOVERYMODE:") then some .discoverymode
  else if line = ascii "DISCOVERYMODE?" then some .discoverymodeGet
  else if line = ascii "RESET" then some .reset
  else none

def runOwnerCommand (P : Platform) (env : Env) (w : World) (i : Slot) (sock : Nat)
    (line : Bytes) : OwnerCommand → World
  | .list => handleList P w sock
  | .revoke => handleRevoke P env w i sock line
  | .pwset => handlePwset P env w sock line
  | .pwclear => handlePwclear P env w sock
  | .discoverymode => handleDiscoverymode P env w sock line
  | .discoverymodeGet => handleDiscoverymodeGet P w sock
  | .reset => handleReset P env w sock
  | .unpair => handleUnpair P env w i sock

def LocalSession.mayRun (s : LocalSession) (c : OwnerCommand) : Bool :=
  if c = .unpair then s.isAuthed else s.isOwner

def ownerCommandsHandleLine (P : Platform) (env : Env) (w : World) (sock : Nat)
    (line : Bytes) : Option World :=
  match ownerCommand line with
  | none => none
  | some c =>
    match localSessionFind w.pool sock with
    | none => some (sendErr P w sock (ascii "NOSESSION"))
    | some i =>
      if !(w.pool i).mayRun c then some (sendErr P w sock (ascii "AUTH"))
      else some (runOwnerCommand P env w i sock line c)

end CyThing
