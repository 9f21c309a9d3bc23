import CyThing.Security.EncFrameDefs

/-! Enrolment and reconnect authentication `ENROLL`/`AUTH1`/`AUTH3`
(`security/local_auth`). -/

namespace CyThing
open CLib

abbrev localAuthNonceLen : Nat := 16
abbrev localAuthMacLen : Nat := 32

def enrollPrefix : Bytes := ascii "ENROLL:"
def auth1Prefix : Bytes := ascii "AUTH1:"
def auth3Prefix : Bytes := ascii "AUTH3:"
def localAuthHkdfInfo : Bytes := ascii "cy-local-v1"

/-! ## Proofs and keys -/

def localAuthHkdf32 (P : Platform) (ikm salt info : Bytes) : Block 32 :=
  P.hmacSha256 (P.hmacSha256 salt ikm).1 (info.take 63 ++ [1])

def proofMessage (label : Bytes) (first second : Block localAuthNonceLen) : Bytes :=
  label ++ first.1 ++ second.1

def proof (P : Platform) (key : Block 32) (label : Bytes)
    (first second : Block localAuthNonceLen) : Block localAuthMacLen :=
  P.hmacSha256 key.1 (proofMessage label first second)

def devLabel : Bytes := ascii "dev"
def phnLabel : Bytes := ascii "phn"

/-! ## Fields -/

def decodeFieldList (P : Platform) : List Nat → Bytes → Option (List Bytes)
  | [], _ => some []
  | [size], text =>
    if 44 ∈ text then none else (P.decodeInto size text).map fun d => [d]
  | size :: sizes, text =>
    match splitFirst 44 text with
    | none => none
    | some (field, rest) =>
      match P.decodeInto size field with
      | none => none
      | some d => (decodeFieldList P sizes rest).map fun ds => d :: ds

def decodeFields (P : Platform) (line pre : Bytes) (sizes : List Nat) : Option (List Bytes) :=
  if line.length ≤ pre.length then none else decodeFieldList P sizes (line.drop pre.length)

def countFields (line pre : Bytes) : Nat :=
  if line.length ≤ pre.length then 0 else (line.drop pre.length).count 44 + 1

/-- `to_cstr`: a text that fits and has no control characters. -/
def toCstr (b : Bytes) (size : Nat) : Option Bytes :=
  if b.length = 0 ∨ size ≤ b.length then none
  else if b.any fun c => c < 32 || c == 127 then none
  else some b

/-- Drops a literal `,replace` that older apps append. -/
def dropReplace (line : Bytes) : Bytes :=
  if 8 < line.length ∧ hasSuffix line (ascii ",replace") then line.take (line.length - 8)
  else line

def parseEnroll (P : Platform) (line : Bytes) : Option (Bytes × Bytes) :=
  let line := dropReplace line
  let n := countFields line enrollPrefix
  let sizes := [pairedSubMax + 1, pairedEmailMax + 1, pairedSubMax + 1]
  if n ≠ 2 ∧ n ≠ 3 then none
  else match decodeFields P line enrollPrefix (sizes.take n) with
    | some (sub :: email :: _) =>
      match toCstr sub (pairedSubMax + 1), toCstr email (pairedEmailMax + 1) with
      | some sub, some email => some (sub, email)
      | _, _ => none
    | _ => none

def parseAuth1 (P : Platform) (line : Bytes) : Option (Bytes × Block localAuthNonceLen) :=
  let n := countFields line auth1Prefix
  let sizes :=
    if n = 3 then [pairedSubMax + 1, pairedSubMax + 1, localAuthNonceLen + 1]
    else [pairedSubMax + 1, localAuthNonceLen + 1]
  if n ≠ 2 ∧ n ≠ 3 then none
  else match decodeFields P line auth1Prefix sizes with
    | some (sub :: rest) =>
      match toCstr sub (pairedSubMax + 1), rest.getLast? with
      | some sub, some np =>
        if h : np.length = localAuthNonceLen then some (sub, ⟨np, h⟩) else none
      | _, _ => none
    | _ => none

def parseAuth3 (P : Platform) (line : Bytes) : Option (Block localAuthMacLen) :=
  match decodeFields P line auth3Prefix [localAuthMacLen + 1] with
  | some [got] => if h : got.length = localAuthMacLen then some ⟨got, h⟩ else none
  | _ => none

/-! ## The handlers -/

def roleText (r : PairedRole) : Bytes := if r = .owner then ascii "owner" else ascii "user"

def sessionRole (r : PairedRole) : LocalSessionRole := if r = .owner then .owner else .user

/-- The role `AUTH3` gives: that of the session's entry, `user` when it has none. -/
def authRole (e : Option PairedEntry) : LocalSessionRole :=
  match e with
  | some e => sessionRole e.role
  | none => .user

def authOkText (r : LocalSessionRole) : Bytes :=
  if r = .owner then ascii "AUTHOK:owner" else ascii "AUTHOK:user"

def handleEnroll (P : Platform) (env : Env) (w : World) (i : Slot) (sock : Nat)
    (line : Bytes) : World :=
  let s := w.pool i
  if s.state ≠ .pakeOk ∨ s.rxEncrypted = false then sendErr P w sock (ascii "SEQ")
  else match parseEnroll P line with
    | none => sendErr P w sock (ascii "BADFMT")
    | some (sub, email) =>
      let r := pairedListAdd (env.listFate 0) w.list w.nvsList sub email
        (.fit pairedKeyLen env.kAccount) (unixOrZero env.unix)
      let w := w.setList r.list r.nvs
      match r.enrolled with
      | none => sendErr P w sock (ascii "FULL")
      | some e =>
        let w := w.setSession i
          { s with pairedIndex := some e.index, role := sessionRole e.role }
        let w := securitySendLine P w sock
          (ascii "ENROLLED:" ++ P.base64Encode e.key.1 ++ ascii "," ++ roleText e.role)
        w.pushEvent env (ascii "paired") sub (roleText e.role)

def handleAuth1 (P : Platform) (env : Env) (w : World) (i : Slot) (sock : Nat)
    (line : Bytes) : World :=
  -- a fresh AUTH1 abandons any handshake, as PAKE1 does
  let s := (w.pool i).resetHandshake
  let w := w.setSession i s
  match parseAuth1 P line with
  | none => sendErr P w sock (ascii "BADFMT")
  | some (sub, np) =>
    let index := pairedListFind w.list sub
    match pairedListGet w.list index with
    | none => sendErr P w sock (ascii "UNKNOWN")
    | some entry =>
      let nd := Block.fit localAuthNonceLen env.nonceDev
      let w := w.setSession i
        { s with noncePhone := np, nonceDev := nd, key := entry.key, pairedIndex := index
                 state := .authWaitProof }
      securitySendLine P w sock
        (ascii "AUTH2:" ++ P.base64Encode nd.1 ++ ascii "," ++
          P.base64Encode (proof P entry.key devLabel np nd).1)

def handleAuth3 (P : Platform) (w : World) (i : Slot) (sock : Nat) (line : Bytes) : World :=
  let s := w.pool i
  if s.state ≠ .authWaitProof then sendErr P w sock (ascii "SEQ")
  else match parseAuth3 P line with
    | none => sendErr P w sock (ascii "BADFMT")
    | some got =>
      if got ≠ proof P s.key phnLabel s.nonceDev s.noncePhone then
        let w := w.setSession i { s with key := zeroKey, pairedIndex := none, state := .new }
        sendErr P w sock (ascii "BADAUTH")
      else
        let role := authRole (pairedListGet w.list s.pairedIndex)
        let w := w.setSession i
          { s with key := localAuthHkdf32 P s.key.1 (s.noncePhone.1 ++ s.nonceDev.1)
                     localAuthHkdfInfo
                   role := role }
        -- AUTHOK is the last plaintext line; the state moves once it is sent
        let w := securitySendLine P w sock (authOkText role)
        w.setSession i { w.pool i with txCtr := 0, rxCtr := 0, state := .authOk }

def localAuthHandleLine (P : Platform) (env : Env) (w : World) (sock : Nat) (line : Bytes) :
    Option World :=
  let isEnroll := hasPrefix line enrollPrefix
  let isAuth1 := hasPrefix line auth1Prefix
  let isAuth3 := hasPrefix line auth3Prefix
  if !isEnroll && !isAuth1 && !isAuth3 then none
  else match localSessionFind w.pool sock with
    | none => some (sendErr P w sock (ascii "NOSESSION"))
    | some i =>
      if isEnroll then some (handleEnroll P env w i sock line)
      else if isAuth1 then some (handleAuth1 P env w i sock line)
      else some (handleAuth3 P w i sock line)

end CyThing
