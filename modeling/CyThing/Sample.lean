import CyThing.System
import CyThing.Lib.Base64

/-! A small platform on which runs can be computed: real base64, and a transparent stand-in
for each cryptographic primitive that still depends on its key. With it a phone's side of
the protocol. -/

namespace CyThing.Sample
open CLib

def tag (key : Block 32) (nonce : Bytes) : Bytes := key.1.take 4 ++ nonce

def openSealed (key : Block 32) (nonce ct : Bytes) : Option Bytes :=
  if ct.drop (ct.length - 16) = tag key nonce then some (ct.take (ct.length - 16)) else none

def proofFor (verifier bytesA : Bytes) : Bytes := (Block.fit 64 (verifier ++ bytesA)).1

def platform : Platform where
  base64Decode := Base64.decode
  base64Encode := Base64.encode
  length_base64Encode := Base64.length_encode
  hmacSha256 := fun key msg => .fit 32 (key.take 4 ++ msg)
  aeadEncrypt := fun key nonce plain => some (plain ++ tag key nonce)
  aeadDecrypt := openSealed
  srpGenSaltVerifier := fun _ password rand => some ((Block.fit 16 rand).1, password)
  srpServer := fun _ verifier bytesA rand => some (rand, (Block.fit 64 (bytesA ++ verifier)).1)
  srpExchangeProofs := fun hd _ m1 =>
    if m1 = proofFor hd.verifier hd.bytesA then some (Block.fit 64 hd.bytesB).1 else none
  claimResponse := fun _ => none
  generateKeyPem := fun _ => none
  keyParses := fun _ => false
  csrBase64 := fun _ => none
  appCommandIsPublic := fun _ => false
  appCommandHandleLine := fun _ _ => none
  scanCommand := ascii "scan"
  initialPassword := ascii "initial0"
  routerSsidPrefix := ascii "ssid:"
  routerPassPrefix := ascii "pass:"

/-! ## The phone -/

def b64 (text : String) : Bytes := Base64.encode (ascii text)

def sealed (key : Block 32) (ctr : Nat) (line : Bytes) : Bytes :=
  let nonce := encNonce encFrameDirToDev ctr
  encPrefix ++ Base64.encode nonce ++ ascii "," ++ Base64.encode (line ++ tag key nonce)

def bytesA : Bytes := ascii "A"

def pakeKey (verifier : Bytes) : Block 32 := .fit 32 (bytesA ++ verifier)

def pake1 (sock : Nat) (env : Env) : Event :=
  .line sock (ascii "PAKE1:" ++ Base64.encode bytesA) env

def pake3 (sock : Nat) (verifier : Bytes) : Event :=
  .line sock (ascii "PAKE3:" ++ Base64.encode (proofFor verifier bytesA)) {}

def enroll (sock : Nat) (verifier : Bytes) (ctr : Nat) (sub email : String) (env : Env) : Event :=
  .line sock (sealed (pakeKey verifier) ctr
    (ascii "ENROLL:" ++ b64 sub ++ ascii "," ++ b64 email)) env

def command (sock : Nat) (key : Block 32) (ctr : Nat) (line : String) (env : Env) : Event :=
  .line sock (sealed key ctr (ascii line)) env

def join (sock : Nat) (peerIp : UInt32) (verifier : Bytes) (sub email : String) (env : Env) :
    List Event :=
  [.accept sock peerIp true, pake1 sock env, pake3 sock verifier,
    enroll sock verifier 1 sub email env]

def ownerJoins : List Event := join 5 1 (ascii "initial0") "owner" "o@x" {}

def userJoins : List Event := join 6 2 (ascii "initial0") "user" "u@x" {}

def twoPhones : List Event := ownerJoins ++ userJoins

def ownerSends (ctr : Nat) (line : String) (env : Env) : Event :=
  command 5 (pakeKey (ascii "initial0")) ctr line env

end CyThing.Sample
