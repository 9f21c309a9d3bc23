import CyThing.World

/-! `ENC:` frames and the direct sender of the security handlers (`security/enc_frame`,
`security_send_line` of `security/pake_handler`). -/

namespace CyThing
open CLib

abbrev encFrameNonceLen : Nat := 12
abbrev encFrameTagLen : Nat := 16
abbrev encFrameDirToDev : Nat := 1
abbrev encFrameDirToApp : Nat := 2
abbrev encFramePlainMax : Nat := 768
abbrev tcpReceiveDataLength : Nat := 5120

def encPrefix : Bytes := ascii "ENC:"

def encNonce (dir ctr : Nat) : Bytes := putBe 4 dir ++ putBe 8 ctr

theorem length_encNonce (dir ctr : Nat) : (encNonce dir ctr).length = encFrameNonceLen := by
  rw [encNonce, List.length_append, length_putBe, length_putBe]

theorem getBe_encNonce (dir ctr : Nat) (hdir : dir < 2 ^ 32) (hctr : ctr < 2 ^ 64) :
    getBe ((encNonce dir ctr).take 4) = dir ∧ getBe ((encNonce dir ctr).drop 4) = ctr := by
  have hlen := length_putBe 4 dir
  rw [encNonce, List.take_left' hlen, List.drop_left' hlen, getBe_putBe, getBe_putBe,
    Nat.mod_eq_of_lt (b := 256 ^ 4) hdir, Nat.mod_eq_of_lt (b := 256 ^ 8) hctr]
  exact ⟨rfl, rfl⟩

def encLine (P : Platform) (nonce ct : Bytes) : Bytes :=
  encPrefix ++ P.base64Encode nonce ++ ascii "," ++ P.base64Encode ct ++ [10]

/-! ## Receive -/

def openFrame (P : Platform) (s : LocalSession) (line : Bytes) : Option (Nat × Bytes) :=
  match splitFirst 44 (line.drop encPrefix.length) with
  | none => none
  | some (n64, c64) =>
    match P.decodeInto (encFrameNonceLen + 1) n64 with
    | none => none
    | some nonce =>
      if nonce.length ≠ encFrameNonceLen then none
      else match P.decodeInto tcpReceiveDataLength c64 with
        | none => none
        | some ct =>
          if ct.length < encFrameTagLen then none
          else
            let ctr := getBe (nonce.drop 4)
            -- direction and replay before the slower decrypt
            if getBe (nonce.take 4) ≠ encFrameDirToDev ∨ ctr ≤ s.rxCtr then none
            else if encFramePlainMax < ct.length - encFrameTagLen then none
            else match P.aeadDecrypt s.key nonce ct with
              | none => none
              | some plain =>
                if plain.length ≠ ct.length - encFrameTagLen then none else some (ctr, plain)

def isEncLine (line : Bytes) : Bool :=
  decide (encPrefix.length < line.length) && hasPrefix line encPrefix

def encFrameUnwrap (P : Platform) (w : World) (sock : Nat) (line : Bytes) :
    Option Bytes × World :=
  let slot := localSessionFind w.pool sock
  if !isEncLine line then
    (some line, match slot with
      | some i => w.setSession i { w.pool i with rxEncrypted := false }
      | none => w)
  else match slot with
    | none => (none, w.send sock (ascii "ERR:ENC\n"))
    | some i =>
      if !(w.pool i).keyed then (none, w.send sock (ascii "ERR:ENC\n"))
      else match openFrame P (w.pool i) line with
        | none => (none, w.send sock (ascii "ERR:ENC\n"))
        | some (ctr, plain) =>
          (some plain, w.setSession i { w.pool i with rxCtr := ctr, rxEncrypted := true })

/-! ## Send -/

def stripCrLf (payload : Bytes) : Bytes :=
  (payload.reverse.dropWhile fun c => c == 10 || c == 13).reverse

/-- The critical section of `enc_frame_send` on a keyed session: counter, encryption and
send under one lock. -/
def encFrameSeal (P : Platform) (w : World) (i : Slot) (sock : Nat) (plain : Bytes) : World :=
  let s := w.pool i
  let ctr := (s.txCtr + 1) % 2 ^ 64
  let nonce := encNonce encFrameDirToApp ctr
  let w := (w.setSession i { s with txCtr := ctr }).recordSeal ⟨i, s.key, nonce⟩
  match P.aeadEncrypt s.key nonce plain with
  | some ct => w.send sock (encLine P nonce ct)
  | none => w

def encFrameSend (P : Platform) (w : World) (sock : Nat) (payload : Bytes) : World :=
  match localSessionFind w.pool sock with
  | none => w.send sock payload
  | some i =>
    let s := w.pool i
    if !s.keyed then w.send sock payload
    else
      let plain := stripCrLf payload
      if encFramePlainMax < plain.length then w else encFrameSeal P w i sock plain

/-- `security_send_line`: a line that fills its buffer leaves in the clear. -/
def securitySendLine (P : Platform) (w : World) (sock : Nat) (text : Bytes) : World :=
  if text.length + 1 < 64 then encFrameSend P w sock (text ++ [10])
  else (w.send sock text).send sock [10]

def sendErr (P : Platform) (w : World) (sock : Nat) (code : Bytes) : World :=
  securitySendLine P w sock (snprintf 32 (ascii "ERR:" ++ code))

end CyThing
