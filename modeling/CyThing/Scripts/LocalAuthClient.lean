import CyThing.Platform
import CyThing.Lib.Base64

/-! The reconnect and the `list` of the reference client, written against the protocol, not the
firmware (`scripts/local_auth_client.py`). Its texts are ASCII, so a string is its bytes, and
it is only ever asked to decode base64 that somebody encoded. -/

namespace CyThing.Client
open CLib

abbrev dirToDev : Nat := 1
abbrev dirToApp : Nat := 2

def partition (sep : UInt8) (s : Bytes) : Bytes × Bytes := (splitFirst sep s).getD (s, [])

/-! ## The line socket -/

/-- A `LineSocket`; `pending` is what the socket has received and `recv` not yet returned, cut
as the calls will return it. -/
structure LineSocket where
  pending : List Bytes := []
  buf : Bytes := []
  aead : Option (Block 32) := none
  txCtr : Nat := 0
  rxCtr : Nat := 0

def LineSocket.startEncryption (ls : LineSocket) (key : Block 32) : LineSocket :=
  { ls with aead := some key, txCtr := 0, rxCtr := 0 }

/-- `send_line`: the bytes for `sendall`, or `none` when it raises. -/
def LineSocket.sendLine (P : Platform) (ls : LineSocket) (line : Bytes) :
    Option (Bytes × LineSocket) :=
  match ls.aead with
  | none => some (line ++ [10], ls)
  | some key =>
    let ctr := ls.txCtr + 1
    -- to_bytes raises on a counter that does not fit
    if 2 ^ 64 ≤ ctr then none
    else
      let nonce := putBe 4 dirToDev ++ putBe 8 ctr
      match P.aeadEncrypt key nonce line with
      | none => none
      | some ct =>
        some (Base64.fields (ascii "ENC:") nonce ct ++ [10], { ls with txCtr := ctr })

def fill : Bytes → List Bytes → Option (Bytes × List Bytes)
  | buf, [] => if 10 ∈ buf then some (buf, []) else none
  | buf, chunk :: pending =>
    if 10 ∈ buf then some (buf, chunk :: pending)
    else if chunk = [] then none
    else fill (buf ++ chunk) pending

def LineSocket.openLine (P : Platform) (ls : LineSocket) (line : Bytes) :
    Option (Bytes × LineSocket) :=
  match ls.aead with
  | none => some (line, ls)
  | some key =>
    if !hasPrefix line (ascii "ENC:") then some (line, ls)
    else
      let (nonce64, ct64) := partition 44 (line.drop 4)
      match Base64.decode nonce64 with
      | none => none
      | some nonce =>
        let ctr := getBe (nonce.drop 4)
        if getBe (nonce.take 4) ≠ dirToApp ∨ ctr ≤ ls.rxCtr then none
        else match Base64.decode ct64 with
          | none => none
          | some ct =>
            (P.aeadDecrypt key nonce ct).map fun plain => (plain, { ls with rxCtr := ctr })

def LineSocket.recvLine (P : Platform) (ls : LineSocket) : Option (Bytes × LineSocket) :=
  match fill ls.buf ls.pending with
  | none => none
  | some (buf, pending) =>
    let (line, rest) := partition 10 buf
    { ls with buf := rest, pending := pending }.openLine P line

/-! ## The exchange -/

def hmac256 (P : Platform) (key msg : Bytes) : Block 32 := P.hmacSha256 key msg

def hkdf32 (P : Platform) (ikm salt info : Bytes) : Block 32 :=
  hmac256 P (hmac256 P salt ikm).1 (info ++ [1])

inductive Outcome
  | returns (rc : Nat)
  | raises
  deriving DecidableEq

structure Conversation (σ : Type) where
  ls : LineSocket := {}
  far : σ

def auth1Line (sub np : Bytes) : Bytes := Base64.fields (ascii "AUTH1:") sub np

def auth3Line (P : Platform) (kAccount np nd : Bytes) : Bytes :=
  ascii "AUTH3:" ++ Base64.encode (hmac256 P kAccount (ascii "phn" ++ nd ++ np)).1

def checkAuth2 (P : Platform) (kAccount np reply : Bytes) : Except Outcome Bytes :=
  if !hasPrefix reply (ascii "AUTH2:") then .error (.returns 3)
  else
    let (nd64, mac64) := partition 44 (reply.drop (ascii "AUTH2:").length)
    match Base64.decode nd64, Base64.decode mac64 with
    | some nd, some mac =>
      if mac ≠ (hmac256 P kAccount (ascii "dev" ++ np ++ nd)).1 then .error (.returns 4)
      else .ok nd
    | _, _ => .error .raises

section Exchange

variable {σ : Type} (P : Platform) (peer : σ → Bytes → σ × List Bytes)

/-- `send_line`, the answer of the other end, `recv_line`; `none` when either call raises,
which ends the script. -/
def exchange (c : Conversation σ) (line : Bytes) : Option Bytes × Conversation σ :=
  match c.ls.sendLine P line with
  | none => (none, c)
  | some (wire, ls) =>
    let (far, chunks) := peer c.far wire
    let ls := { ls with pending := ls.pending ++ chunks }
    match ls.recvLine P with
    | none => (none, ⟨ls, far⟩)
    | some (reply, ls) => (some reply, ⟨ls, far⟩)

def authenticate (kAccount sub np : Bytes) (c : Conversation σ) : Outcome × Conversation σ :=
  if kAccount.length ≠ 32 then (.returns 2, c)
  else match exchange P peer c (auth1Line sub np) with
    | (none, c) => (.raises, c)
    | (some reply, c) =>
      match checkAuth2 P kAccount np reply with
      | .error outcome => (outcome, c)
      | .ok nd =>
        match exchange P peer c (auth3Line P kAccount np nd) with
        | (none, c) => (.raises, c)
        | (some reply, c) =>
          if reply ≠ ascii "AUTHOK" then (.returns 5, c)
          else
            let kSession := hkdf32 P kAccount (np ++ nd) (ascii "cy-local-v1")
            (.returns 0, { c with ls := c.ls.startEncryption kSession })

end Exchange

/-! ## Lines of a plain socket -/

theorem fill_spec (buf : Bytes) (chunks : List Bytes) (hline : 10 ∈ buf ++ chunks.flatten)
    (hne : ∀ c ∈ chunks, c ≠ []) :
    ∃ b rest, fill buf chunks = some (b, rest) ∧ 10 ∈ b ∧
      b ++ rest.flatten = buf ++ chunks.flatten ∧ ∀ c ∈ rest, c ≠ [] := by
  induction chunks generalizing buf with
  | nil =>
    have hbuf : 10 ∈ buf := by simpa using hline
    exact ⟨buf, [], by rw [fill, if_pos hbuf], hbuf, rfl, by simp⟩
  | cons chunk chunks ih =>
    by_cases hbuf : 10 ∈ buf
    · exact ⟨buf, chunk :: chunks, by rw [fill, if_pos hbuf], hbuf, rfl, hne⟩
    · rw [fill, if_neg hbuf, if_neg (hne chunk (by simp))]
      obtain ⟨b, rest, hfill, hb, hall, hrest⟩ :=
        ih (buf ++ chunk) (by simpa using hline) fun c hc => hne c (by simp [hc])
      exact ⟨b, rest, hfill, hb, by simpa using hall, hrest⟩

theorem fill_line {line : Bytes} {chunks : List Bytes} (hall : chunks.flatten = line ++ [10])
    (hne : ∀ c ∈ chunks, c ≠ []) (hline : 10 ∉ line) :
    fill [] chunks = some (line ++ [10], []) := by
  obtain ⟨b, rest, hfill, hb, hsplit, hrest⟩ :=
    fill_spec [] chunks (by simp [hall]) hne
  rw [List.nil_append, hall] at hsplit
  -- a proper prefix of the line and its end has no `\n`
  rcases List.prefix_concat_iff.mp ⟨rest.flatten, hsplit⟩ with hwhole | hpart
  · rw [hwhole, List.append_right_eq_self, List.flatten_eq_nil_iff] at hsplit
    have hnil : rest = [] := List.eq_nil_iff_forall_not_mem.mpr fun c hc => hrest c hc (hsplit c hc)
    rw [hfill, hwhole, hnil]
  · exact absurd (hpart.subset hb) hline

section Plain

variable {σ : Type} (P : Platform) (peer : σ → Bytes → σ × List Bytes)

theorem exchange_line {far far' : σ} {line reply : Bytes} {chunks : List Bytes}
    (hpeer : peer far (line ++ [10]) = (far', chunks)) (hall : chunks.flatten = reply ++ [10])
    (hne : ∀ c ∈ chunks, c ≠ []) (hreply : 10 ∉ reply) :
    exchange P peer ⟨{}, far⟩ line = (some reply, ⟨{}, far'⟩) := by
  have hpart : partition 10 (reply ++ [10]) = (reply, []) := by
    rw [partition, splitFirst_eq_some.mpr ⟨rfl, hreply⟩, Option.getD_some]
  simp only [exchange, LineSocket.sendLine, hpeer, List.nil_append, LineSocket.recvLine,
    fill_line hall hne hreply, hpart, LineSocket.openLine]

end Plain

theorem checkAuth2_fields (P : Platform) (kAccount np nd mac : Bytes) :
    checkAuth2 P kAccount np (Base64.fields (ascii "AUTH2:") nd mac) =
      if mac ≠ (hmac256 P kAccount (ascii "dev" ++ np ++ nd)).1 then .error (.returns 4)
      else .ok nd := by
  have hpre : hasPrefix (Base64.fields (ascii "AUTH2:") nd mac) (ascii "AUTH2:") = true :=
    hasPrefix_iff.mpr (Base64.prefix_fields ..)
  simp only [checkAuth2, hpre, Bool.not_true, Bool.false_eq_true, if_false, Base64.drop_fields,
    partition, Base64.splitFirst_fields, Option.getD_some, Base64.decode_encode]

/-! ## LIST -/

structure ListRow where
  sub : Bytes
  email : Bytes
  at_ : Bytes
  role : Bytes

def listRow (reply : Bytes) : Option ListRow :=
  match (reply.drop (ascii "PAIRED:").length).splitOn 44 with
  | [sub, email, at_, role] =>
    (Base64.decode sub).bind fun sub =>
      (Base64.decode email).map fun email => ⟨sub, email, at_, role⟩
  | _ => none

/-- The loop of `cmd_list`: the rows it prints and the text behind `PAIREND:`; `none` for an
unexpected reply, or when it is still waiting. -/
def cmdList : List Bytes → Option (List ListRow × Bytes)
  | [] => none
  | reply :: replies =>
    if hasPrefix reply (ascii "PAIREND:") then some ([], reply.drop (ascii "PAIREND:").length)
    else if hasPrefix reply (ascii "PAIRED:") then
      (listRow reply).bind fun row => (cmdList replies).map fun r => (row :: r.1, r.2)
    else none

end CyThing.Client
