import CyThing.Lib.Bytes

/-! What the firmware links against and cannot be read here: base64, HMAC-SHA256 and
AES-256-GCM of mbedTLS, SRP-6a of esp_srp, the X.509 work of provisioning, and the symbols
an application may override. Everything else of the model is a function of these. -/

namespace CyThing
open CLib

structure SrpHandle where
  salt : Bytes
  verifier : Bytes
  bytesA : Bytes
  bytesB : Bytes
  sessionKey : Bytes
  deriving DecidableEq

inductive AppReply
  | data (sock : Int) (data : Bytes)
  | raw (sock : Int) (text : Bytes)
  deriving DecidableEq

structure Platform where
  /-- `mbedtls_base64_decode` with room enough; `none` on a bad text. -/
  base64Decode : Bytes → Option Bytes
  base64Encode : Bytes → Bytes
  length_base64Encode : ∀ b, (base64Encode b).length = (b.length + 2) / 3 * 4
  hmacSha256 : Bytes → Bytes → Block 32
  /-- `aead(true, key, nonce, plain)`: ciphertext and tag. -/
  aeadEncrypt : Block 32 → Bytes → Bytes → Option Bytes
  /-- `aead(false, key, nonce, ciphertext ‖ tag)`. -/
  aeadDecrypt : Block 32 → Bytes → Bytes → Option Bytes
  /-- `esp_srp_gen_salt_verifier` from identity, password and the generator's bytes. -/
  srpGenSaltVerifier : Bytes → Bytes → Bytes → Option (Bytes × Bytes)
  /-- `esp_srp_set_salt_verifier` … `esp_srp_get_session_key` from salt, verifier, `A` and
  the server's secret exponent: `B` and the session key. -/
  srpServer : Bytes → Bytes → Bytes → Bytes → Option (Bytes × Bytes)
  /-- `esp_srp_exchange_proofs` from identity and `M1`: `M2`, or `none` for a bad proof. -/
  srpExchangeProofs : SrpHandle → Bytes → Bytes → Option Bytes
  /-- The `CLAIM:` payload for a request id; `none` without claim credentials or when
  signing fails. -/
  claimResponse : Bytes → Option Bytes
  /-- A fresh EC key pair as PEM, and whether a PEM parses as one. -/
  generateKeyPem : Bytes → Option Bytes
  keyParses : Bytes → Bool
  /-- The base64 of the CSR for a key pair; `none` when building it fails. -/
  csrBase64 : Bytes → Option Bytes
  appCommandIsPublic : Bytes → Bool
  /-- `app_command_handle_line`: `none` when the application does not know the line. -/
  appCommandHandleLine : Bytes → Nat → Option (List AppReply)
  scanCommand : Bytes
  initialPassword : Bytes
  routerSsidPrefix : Bytes
  routerPassPrefix : Bytes

def Platform.decodeInto (P : Platform) (size : Nat) (text : Bytes) : Option Bytes :=
  (P.base64Decode text).filter (·.length ≤ size)

theorem decodeInto_eq_some {P : Platform} {size : Nat} {text b : Bytes} :
    P.decodeInto size text = some b ↔ P.base64Decode text = some b ∧ b.length ≤ size := by
  simp [Platform.decodeInto, Option.filter_eq_some_iff]

end CyThing
