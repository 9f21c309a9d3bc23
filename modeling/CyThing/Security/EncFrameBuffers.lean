import CyThing.Replay
import CyThing.Lib.InPlace
import CyThing.Security.EnrollGrammar
import CyThing.Scripts.LocalAuthClient

/-! `ENC:` frames in the buffers of `security/enc_frame`, and their way between the firmware
and the reference client. The sender fills `frame` at running offsets; the receiver decodes the
ciphertext over the front of the line it came in. -/

namespace CyThing
open CLib Layout

/-! ## Words -/

def putU32 (v : UInt32) : Bytes :=
  [(v >>> 24).toUInt8, (v >>> 16).toUInt8, (v >>> 8).toUInt8, v.toUInt8]

def putU64 (v : UInt64) : Bytes := putU32 (v >>> 32).toUInt32 ++ putU32 v.toUInt32

def getU32 (p : Bytes) : UInt32 :=
  (p.getD 0 0).toUInt32 <<< 24 ||| (p.getD 1 0).toUInt32 <<< 16 |||
    (p.getD 2 0).toUInt32 <<< 8 ||| (p.getD 3 0).toUInt32

def getU64 (p : Bytes) : UInt64 := (getU32 p).toUInt64 <<< 32 ||| (getU32 (p.drop 4)).toUInt64

theorem putU32_eq (v : UInt32) : putU32 v = putBe 4 v.toNat := by
  simp only [putU32, putBe, List.cons.injEq, and_true]
  refine ⟨?_, ?_, ?_, ?_⟩ <;> apply UInt8.toNat_inj.mp <;>
    simp [Nat.shiftRight_eq_div_pow]

theorem putU64_eq (v : UInt64) : putU64 v = putBe 8 v.toNat := by
  rw [putU64, putU32_eq, putU32_eq]
  simp only [putBe, List.cons_append, List.nil_append, List.cons.injEq, and_true]
  refine ⟨?_, ?_, ?_, ?_, ?_, ?_, ?_, ?_⟩ <;> apply UInt8.toNat_inj.mp <;>
    simp [Nat.shiftRight_eq_div_pow] <;> omega

theorem mul_or {x y k : Nat} (h : y < 2 ^ k) : x * 2 ^ k ||| y = x * 2 ^ k + y := by
  rw [← Nat.shiftLeft_eq, Nat.shiftLeft_add_eq_or_of_lt h]

theorem toNat_getU32_cons (a b c d : UInt8) (rest : Bytes) :
    (getU32 (a :: b :: c :: d :: rest)).toNat = getBe [a, b, c, d] := by
  have ha := a.toNat_lt
  have hb := b.toNat_lt
  have hc := c.toNat_lt
  have hd := d.toNat_lt
  have hab : a.toNat * 2 ^ 24 ||| b.toNat * 2 ^ 16 = (a.toNat * 256 + b.toNat) * 2 ^ 16 := by
    rw [mul_or (by omega)]
    omega
  have habc : (a.toNat * 256 + b.toNat) * 2 ^ 16 ||| c.toNat * 2 ^ 8 =
      ((a.toNat * 256 + b.toNat) * 256 + c.toNat) * 2 ^ 8 := by
    rw [mul_or (by omega)]
    omega
  have hword : (getU32 (a :: b :: c :: d :: rest)).toNat =
      a.toNat * 2 ^ 24 ||| b.toNat * 2 ^ 16 ||| c.toNat * 2 ^ 8 ||| d.toNat := by
    simp [getU32, Nat.shiftLeft_eq]
    rw [Nat.mod_eq_of_lt (by omega), Nat.mod_eq_of_lt (by omega), Nat.mod_eq_of_lt (by omega)]
  rw [hword, hab, habc, mul_or (by omega)]
  simp [getBe]

theorem toNat_getU32 {p : Bytes} (h : 4 ≤ p.length) : (getU32 p).toNat = getBe (p.take 4) := by
  rcases p with _ | ⟨a, _ | ⟨b, _ | ⟨c, _ | ⟨d, rest⟩⟩⟩⟩
  · cases h
  · cases Nat.le_of_succ_le_succ h
  · cases Nat.le_of_succ_le_succ (Nat.le_of_succ_le_succ h)
  · cases Nat.le_of_succ_le_succ (Nat.le_of_succ_le_succ (Nat.le_of_succ_le_succ h))
  · exact toNat_getU32_cons a b c d rest

theorem toNat_getU64 {p : Bytes} (h : p.length = 8) : (getU64 p).toNat = getBe p := by
  have hhigh := toNat_getU32 (show 4 ≤ p.length by omega)
  have hlow := toNat_getU32 (show 4 ≤ (p.drop 4).length by rw [List.length_drop]; omega)
  have hrest : (p.drop 4).take 4 = p.drop 4 :=
    List.take_of_length_le (by rw [List.length_drop]; omega)
  have hlt : (getU32 p).toNat < 2 ^ 32 := UInt32.toNat_lt _
  have hlt' : (getU32 (p.drop 4)).toNat < 2 ^ 32 := UInt32.toNat_lt _
  have hword : (getU64 p).toNat = (getU32 p).toNat * 2 ^ 32 ||| (getU32 (p.drop 4)).toNat := by
    simp [getU64, Nat.shiftLeft_eq]
    rw [Nat.mod_eq_of_lt (by omega)]
  rw [hword, mul_or hlt', hhigh, hlow, hrest]
  have happend := getBe_append (p.take 4) (p.drop 4)
  rw [List.take_append_drop, List.length_drop, h] at happend
  rw [happend]
  norm_num

/-! ## The sender's buffers -/

abbrev b64Max (n : Nat) : Nat := (n + 2) / 3 * 4 + 1

abbrev encFrameCtSize : Nat := encFramePlainMax + encFrameTagLen

abbrev encFrameSize : Nat :=
  encPrefix.length + b64Max encFrameNonceLen + 1 + b64Max encFrameCtSize + 1

def plainLength (payload : Bytes) : Nat → Nat
  | 0 => 0
  | n + 1 =>
    if payload[n]? = some 10 ∨ payload[n]? = some 13 then plainLength payload n else n + 1

def aeadSeal (P : Platform) (key : Block 32) (nonce plain : Bytes) (size : Nat) : Option Bytes :=
  if size < plain.length + encFrameTagLen then none else P.aeadEncrypt key nonce plain

def aeadOpen (P : Platform) (key : Block 32) (nonce ct : Bytes) (size : Nat) : Option Bytes :=
  if ct.length < encFrameTagLen ∨ size < ct.length - encFrameTagLen then none
  else P.aeadDecrypt key nonce ct

/-- `mbedtls_base64_encode(b + pos, sizeof(b) - pos, &n, src, …)`, which ends its text with a
NUL, and the `n` it reports; without room for both it reports what it would have needed and
writes nothing. -/
def base64EncodeAt {size : Nat} (b : Block size) (pos : Nat) (src : Bytes) :
    Option (Block size × Nat) :=
  let n := (src.length + 2) / 3 * 4
  if src = [] then some (b, 0)
  else if size - pos < n + 1 then some (b, n + 1)
  else (memcpy b pos (Base64.encode src ++ [0])).map fun b' => (b', n)

/-- How `enc_frame_send` fills `frame`, and what it hands to `send()`; `none` when a write
leaves the buffer. -/
def encFrameText (frame : Block encFrameSize) (nonce ct : Bytes) : Option Bytes :=
  (memcpy frame 0 encPrefix).bind fun frame =>
    (base64EncodeAt frame encPrefix.length nonce).bind fun r =>
      let pos := encPrefix.length + r.2
      (memcpy r.1 pos [44]).bind fun frame =>
        (base64EncodeAt frame (pos + 1) ct).bind fun r =>
          (memcpy r.1 (pos + 1 + r.2) [10]).map fun frame => frame.1.take (pos + 1 + r.2 + 1)

def encFrameSendBuffer (P : Platform) (key : Block 32) (txCtr : UInt64) (payload : Bytes)
    (frame : Block encFrameSize) : Option (Option Bytes) :=
  let plainLen := plainLength payload payload.length
  if encFramePlainMax < plainLen then some none
  else
    let nonce := putU32 2 ++ putU64 (txCtr + 1)
    match aeadSeal P key nonce (payload.take plainLen) encFrameCtSize with
    | none => some none
    | some ct => (encFrameText frame nonce ct).map some

section Sender

theorem plainLength_le (payload : Bytes) (n : Nat) : plainLength payload n ≤ n := by
  induction n with
  | zero => exact Nat.le_refl 0
  | succ n ih =>
    rw [plainLength]
    split_ifs
    · exact ih.trans (Nat.le_succ n)
    · exact Nat.le_refl _

theorem plainLength_append {payload : Bytes} {n : Nat} (hn : n ≤ payload.length) (c : UInt8) :
    plainLength (payload ++ [c]) n = plainLength payload n := by
  induction n with
  | zero => rfl
  | succ n ih => rw [plainLength, plainLength, List.getElem?_append_left hn, ih (by omega)]

theorem stripCrLf_append (payload : Bytes) (c : UInt8) :
    stripCrLf (payload ++ [c]) =
      if c = 10 ∨ c = 13 then stripCrLf payload else payload ++ [c] := by
  unfold stripCrLf
  rw [List.reverse_append, List.reverse_singleton, List.singleton_append, List.dropWhile_cons]
  by_cases hc : c = 10 ∨ c = 13
  · have hb : (c == 10 || c == 13) = true := by simpa using hc
    rw [if_pos hb, if_pos hc]
  · have hb : ¬(c == 10 || c == 13) = true := by simpa using hc
    rw [if_neg hb, if_neg hc, List.reverse_cons, List.reverse_reverse]

theorem take_plainLength (payload : Bytes) :
    payload.take (plainLength payload payload.length) = stripCrLf payload := by
  induction payload using List.reverseRecOn with
  | nil => rfl
  | append_singleton payload c ih =>
    have hlast : (payload ++ [c])[payload.length]? = some c := by simp
    rw [List.length_append, List.length_singleton, plainLength, hlast, stripCrLf_append]
    simp only [Option.some.injEq]
    split_ifs
    · rw [plainLength_append (Nat.le_refl _), List.take_append_of_le_length (plainLength_le _ _)]
      exact ih
    · exact List.take_of_length_le (by simp)

theorem exists_base64EncodeAt {size : Nat} {b : Block size} {text : Bytes} (src : Bytes)
    (h : b.1.take text.length = text) (hroom : text.length + b64Max src.length ≤ size) :
    ∃ b', base64EncodeAt b text.length src = some (b', (Base64.encode src).length) ∧
      b'.1.take (text ++ Base64.encode src).length = text ++ Base64.encode src := by
  by_cases hne : src = []
  · subst hne
    have hnil : Base64.encode [] = [] := rfl
    rw [hnil, List.append_nil]
    exact ⟨b, rfl, h⟩
  have hlen := Base64.length_encode src
  have hroom' : text.length + ((src.length + 2) / 3 * 4 + 1) ≤ size := hroom
  have hfit : ¬size - text.length < (src.length + 2) / 3 * 4 + 1 := by omega
  obtain ⟨b', hcopy, htake⟩ := exists_memcpy_append (Base64.encode src ++ [0]) h
    (by simp only [List.length_append, List.length_singleton, hlen]; omega)
  refine ⟨b', ?_, ?_⟩
  · simp only [base64EncodeAt, if_neg hne, if_neg hfit, hcopy, Option.map_some, hlen]
  · have hcut := congrArg (List.take (text ++ Base64.encode src).length) htake
    rw [List.take_take, ← List.append_assoc, List.take_left, Nat.min_eq_left (by simp)] at hcut
    exact hcut

theorem encFrameText_eq (frame : Block encFrameSize) {nonce ct : Bytes}
    (hnonce : nonce.length = encFrameNonceLen) (hct : ct.length ≤ encFrameCtSize) :
    encFrameText frame nonce ct = some (Base64.fields encPrefix nonce ct ++ [10]) := by
  have hpre : encPrefix.length = 4 := rfl
  have hsize : encFrameSize = 1072 := rfl
  have hnonce' : nonce.length = 12 := hnonce
  have hn64 : (Base64.encode nonce).length = 16 := by
    rw [Base64.length_encode, hnonce']
  have hct' : ct.length ≤ 784 := hct
  have hc64 : (Base64.encode ct).length ≤ 1048 := by
    rw [Base64.length_encode]
    omega
  have hempty : frame.1.take ([] : Bytes).length = [] := rfl
  -- the text so far, one write after the other
  obtain ⟨b₁, h₁, t₁⟩ := exists_memcpy_append encPrefix hempty
    (by simp only [List.length_nil]; omega)
  obtain ⟨b₂, h₂, t₂⟩ := exists_base64EncodeAt nonce t₁
    (by simp only [List.nil_append, b64Max, hnonce']; omega)
  obtain ⟨b₃, h₃, t₃⟩ := exists_memcpy_append [44] t₂
    (by simp only [List.nil_append, List.length_append, List.length_singleton]; omega)
  obtain ⟨b₄, h₄, t₄⟩ := exists_base64EncodeAt ct t₃
    (by simp only [List.nil_append, List.length_append, List.length_singleton, b64Max]; omega)
  obtain ⟨b₅, h₅, t₅⟩ := exists_memcpy_append [10] t₄
    (by simp only [List.nil_append, List.length_append, List.length_singleton]; omega)
  simp only [List.nil_append, List.length_append, List.length_singleton, List.length_nil]
    at h₁ h₂ h₃ h₄ h₅ t₅
  simp only [encFrameText, h₁, h₂, h₃, h₄, h₅, Option.bind_some, Option.map_some, t₅]
  rfl

end Sender

/-! ## The receiver's buffer -/

def Platform.standard (P : Platform) : Platform := { P with base64Decode := Base64.decode }

abbrev RxBuffer := Block tcpReceiveDataLength

def putLine (line : RxBuffer) (plain : Bytes) : Option RxBuffer :=
  (memcpy line 0 plain).bind fun line =>
    (memcpy line plain.length [10]).bind fun line => memcpy line (plain.length + 1) [0]

/-- `enc_frame_unwrap` on an `ENC:` line of a keyed session, in the receive buffer: counter,
buffer and length it leaves. `none` when it leaves the buffer, `some none` when it refuses. -/
def encFrameUnwrapBuffer (P : Platform) (s : LocalSession) (line : RxBuffer) (len : Nat) :
    Option (Option (Nat × RxBuffer × Nat)) :=
  match splitFirst 44 ((line.1.take len).drop encPrefix.length) with
  | none => some none
  | some (n64, c64) =>
    match P.standard.decodeInto (encFrameNonceLen + 1) n64 with
    | none => some none
    | some nonce =>
      if nonce.length ≠ encFrameNonceLen then some none
      else match Base64.decodeOver line (encPrefix.length + n64.length + 1) c64.length with
        | none => none
        | some none => some none
        | some (some (line, ctLen)) =>
          if ctLen < encFrameTagLen then some none
          else
            let ctr := getU64 (nonce.drop 4)
            if getU32 nonce ≠ 1 ∨ ctr.toNat ≤ s.rxCtr then some none
            else if encFramePlainMax < ctLen - encFrameTagLen then some none
            else match aeadOpen P s.key nonce (line.1.take ctLen) encFramePlainMax with
              | none => some none
              | some plain =>
                if plain.length ≠ ctLen - encFrameTagLen then some none
                else (putLine line plain).map fun line => some (ctr.toNat, line, plain.length)

inductive Shows : Option (Nat × Bytes) → Option (Nat × RxBuffer × Nat) → Prop
  | refused : Shows none none
  | opened {ctr : Nat} {plain : Bytes} {line : RxBuffer} (h : plain ++ [10, 0] <+: line.1) :
      Shows (some (ctr, plain)) (some (ctr, line, plain.length))

section Receiver

variable {P : Platform} {s : LocalSession} {line : RxBuffer} {len : Nat}

theorem putLine_eq (line : RxBuffer) {plain : Bytes} (h : plain.length ≤ encFramePlainMax) :
    ∃ line', putLine line plain = some line' ∧ plain ++ [10, 0] <+: line'.1 := by
  have hplain : plain.length ≤ 768 := h
  have hsize : tcpReceiveDataLength = 5120 := rfl
  have hempty : line.1.take ([] : Bytes).length = [] := rfl
  obtain ⟨b₁, h₁, t₁⟩ := exists_memcpy_append plain hempty
    (by simp only [List.length_nil]; omega)
  obtain ⟨b₂, h₂, t₂⟩ := exists_memcpy_append [10] t₁
    (by simp only [List.nil_append, List.length_singleton]; omega)
  obtain ⟨b₃, h₃, t₃⟩ := exists_memcpy_append [0] t₂
    (by simp only [List.nil_append, List.length_append, List.length_singleton]; omega)
  simp only [List.nil_append, List.length_append, List.length_singleton, List.length_nil]
    at h₁ h₂ h₃ t₃
  refine ⟨b₃, by simp only [putLine, h₁, h₂, h₃, Option.bind_some], ?_⟩
  rw [List.append_assoc] at t₃
  have hpre := List.take_prefix (plain.length + 1 + 1) b₃.1
  rw [t₃] at hpre
  exact hpre

theorem Shows.check {c : Prop} [Decidable c] {x : Option (Nat × Bytes)}
    {y : Option (Option (Nat × RxBuffer × Nat))} (h : ¬c → ∃ r, y = some r ∧ Shows x r) :
    ∃ r, (if c then some none else y) = some r ∧ Shows (if c then none else x) r := by
  by_cases hc : c
  · rw [if_pos hc, if_pos hc]
    exact ⟨none, rfl, .refused⟩
  · rw [if_neg hc, if_neg hc]
    exact h hc

theorem line_of_split {n64 c64 : Bytes} (hlen : encPrefix.length ≤ len)
    (hfit : len ≤ tcpReceiveDataLength)
    (h : splitFirst 44 ((line.1.take len).drop encPrefix.length) = some (n64, c64)) :
    ∃ front rest, front.length = encPrefix.length + n64.length + 1 ∧
      line.1 = front ++ (c64 ++ rest) := by
  obtain ⟨hbody, -⟩ := splitFirst_eq_some.mp h
  refine ⟨(line.1.take len).take encPrefix.length ++ n64 ++ [44], line.1.drop len, ?_, ?_⟩
  · simp only [List.length_append, List.length_take, List.length_singleton, line.2]
    omega
  · have htake : line.1.take len =
        (line.1.take len).take encPrefix.length ++ (n64 ++ 44 :: c64) := by
      rw [← hbody, List.take_append_drop]
    have hwhole : line.1 = line.1.take len ++ line.1.drop len := (List.take_append_drop ..).symm
    rw [htake] at hwhole
    refine hwhole.trans ?_
    simp

/-- Whatever line is in the buffer, `enc_frame_unwrap` stays inside it and decides as the model
of the frame layer does. -/
theorem encFrameUnwrapBuffer_shows (hlen : encPrefix.length ≤ len)
    (hfit : len ≤ tcpReceiveDataLength) :
    ∃ r, encFrameUnwrapBuffer P s line len = some r ∧
      Shows (openFrame P.standard s (line.1.take len)) r := by
  unfold encFrameUnwrapBuffer openFrame
  rcases hsplit : splitFirst 44 ((line.1.take len).drop encPrefix.length) with _ | ⟨n64, c64⟩
  · exact ⟨none, rfl, .refused⟩
  dsimp only
  rcases P.standard.decodeInto (encFrameNonceLen + 1) n64 with _ | nonce
  · exact ⟨none, rfl, .refused⟩
  dsimp only
  refine Shows.check fun hnonce => ?_
  have hnonce' : nonce.length = 12 := not_not.mp hnonce
  obtain ⟨front, rest, hfront, hline⟩ := line_of_split hlen hfit hsplit
  rcases hdec : Base64.decode c64 with _ | ct
  · have hover : Base64.decodeOver line (encPrefix.length + n64.length + 1) c64.length =
        some none := by
      rw [← hfront]
      exact Base64.decodeOver_none hline hdec
    have hct : P.standard.decodeInto tcpReceiveDataLength c64 = none := by
      simp [Platform.decodeInto, Platform.standard, hdec]
    rw [hover, hct]
    exact ⟨none, rfl, .refused⟩
  obtain ⟨b, hover, htake⟩ := Base64.decodeOver_eq hline hdec
  have hct : P.standard.decodeInto tcpReceiveDataLength c64 = some ct := by
    apply decodeInto_eq_some.mpr
    refine ⟨hdec, ?_⟩
    have := Base64.length_le_of_decode hdec
    have : line.1.length = front.length + (c64.length + rest.length) := by
      rw [hline, List.length_append, List.length_append]
    rw [line.2] at this
    omega
  rw [← hfront, hover, hct]
  dsimp only
  rw [htake]
  have hdir : getU32 nonce ≠ 1 ↔ getBe (nonce.take 4) ≠ encFrameDirToDev := by
    rw [← toNat_getU32 (by omega), not_iff_not, ← UInt32.toNat_inj]
    rfl
  have hctr : (getU64 (nonce.drop 4)).toNat = getBe (nonce.drop 4) :=
    toNat_getU64 (by rw [List.length_drop, hnonce'])
  simp only [hdir, hctr]
  refine Shows.check fun hshort => Shows.check fun _ => Shows.check fun hlong => ?_
  have hopen : aeadOpen P s.key nonce ct encFramePlainMax = P.standard.aeadDecrypt s.key nonce ct :=
    if_neg (not_or.mpr ⟨hshort, hlong⟩)
  rw [hopen]
  rcases P.standard.aeadDecrypt s.key nonce ct with _ | plain
  · exact ⟨none, rfl, .refused⟩
  dsimp only
  refine Shows.check fun hgot => ?_
  have hfits : plain.length ≤ encFramePlainMax := by omega
  obtain ⟨b', hput, hshows⟩ := putLine_eq b hfits
  rw [hput]
  exact ⟨_, rfl, .opened hshows⟩

end Receiver

/-! ## The client's side of a frame -/

namespace Client

def readFrame (P : Platform) (key : Block 32) (line : Bytes) : Option (Nat × Nat × Bytes) :=
  let parts := partition 44 (line.drop 4)
  match Base64.decode parts.1, Base64.decode parts.2 with
  | some nonce, some ct =>
    (P.aeadDecrypt key nonce ct).map fun plain =>
      (getBe (nonce.take 4), getBe (nonce.drop 4), plain)
  | _, _ => none

section Frames

variable {P : Platform} {key : Block 32} {nonce ct : Bytes} {ls : LineSocket}

theorem partition_fields (nonce ct : Bytes) :
    partition 44 ((Base64.fields (ascii "ENC:") nonce ct).drop 4) =
      (Base64.encode nonce, Base64.encode ct) := by
  have hdrop : (Base64.fields (ascii "ENC:") nonce ct).drop 4 =
      Base64.encode nonce ++ 44 :: Base64.encode ct := Base64.drop_fields (ascii "ENC:") nonce ct
  rw [hdrop, partition, Base64.splitFirst_fields, Option.getD_some]

theorem readFrame_fields {plain : Bytes} (h : P.aeadDecrypt key nonce ct = some plain) :
    readFrame P key (Base64.fields (ascii "ENC:") nonce ct) =
      some (getBe (nonce.take 4), getBe (nonce.drop 4), plain) := by
  simp only [readFrame, partition_fields, Base64.decode_encode, h, Option.map_some]

theorem openLine_fields {plain : Bytes} (hkey : ls.aead = some key)
    (h : P.aeadDecrypt key nonce ct = some plain) (hdir : getBe (nonce.take 4) = dirToApp)
    (hnew : ls.rxCtr < getBe (nonce.drop 4)) :
    ls.openLine P (Base64.fields (ascii "ENC:") nonce ct) =
      some (plain, { ls with rxCtr := getBe (nonce.drop 4) }) := by
  have hpre : hasPrefix (Base64.fields (ascii "ENC:") nonce ct) (ascii "ENC:") = true :=
    hasPrefix_iff.mpr (Base64.prefix_fields ..)
  have hgo : ¬(getBe (nonce.take 4) ≠ dirToApp ∨ getBe (nonce.drop 4) ≤ ls.rxCtr) := by
    rw [not_or, not_not]
    exact ⟨hdir, Nat.not_le.mpr hnew⟩
  simp only [LineSocket.openLine, hkey, hpre, Bool.not_true, Bool.false_eq_true, if_false,
    partition_fields, Base64.decode_encode, if_neg hgo, h, Option.map_some]

theorem recvLine_first {line later : Bytes}
    (hall : ls.buf ++ ls.pending.flatten = line ++ 10 :: later) (hne : ∀ c ∈ ls.pending, c ≠ [])
    (hline : 10 ∉ line) :
    ∃ buf pending, ls.recvLine P = { ls with buf := buf, pending := pending }.openLine P line ∧
      buf ++ pending.flatten = later := by
  obtain ⟨b, rest, hfill, hb, hsplit, -⟩ := fill_spec ls.buf ls.pending (by simp [hall]) hne
  rw [hall] at hsplit
  rcases hfirst : splitFirst 10 b with _ | ⟨x, y⟩
  · exact absurd hb (splitFirst_eq_none.mp hfirst)
  obtain ⟨rfl, hx⟩ := splitFirst_eq_some.mp hfirst
  have hxs : splitFirst 10 (line ++ 10 :: later) = some (x, y ++ rest.flatten) := by
    rw [← hsplit]
    exact splitFirst_eq_some.mpr ⟨by simp, hx⟩
  have hls : splitFirst 10 (line ++ 10 :: later) = some (line, later) :=
    splitFirst_eq_some.mpr ⟨rfl, hline⟩
  rw [hls, Option.some.injEq, Prod.mk.injEq] at hxs
  obtain ⟨rfl, rfl⟩ := hxs
  refine ⟨y, rest, ?_, rfl⟩
  simp only [LineSocket.recvLine, hfill, partition, hfirst, Option.getD_some]

end Frames

end Client

/-! ## There and back -/

/-- Base64 is base64, and AES-256-GCM opens what it sealed under a nonce of 12 bytes and adds a
tag of 16. -/
structure Platform.Inverses (P : Platform) : Prop where
  encode_eq : P.base64Encode = Base64.encode
  decode_encode : ∀ b, P.base64Decode (Base64.encode b) = some b
  sealed : ∀ key nonce plain, nonce.length = encFrameNonceLen →
    ∃ ct, P.aeadEncrypt key nonce plain = some ct ∧ ct.length = plain.length + encFrameTagLen ∧
      P.aeadDecrypt key nonce ct = some plain

section RoundTrip

variable {P : Platform} {w : World} {i : Slot} {sock : Nat}

theorem encNonce_toApp (txCtr : Nat) :
    putU32 2 ++ putU64 (UInt64.ofNat txCtr + 1) =
      encNonce encFrameDirToApp ((txCtr + 1) % 2 ^ 64) := by
  rw [putU32_eq, putU64_eq, encNonce]
  simp

theorem encFrameSend_out (hP : P.Inverses) (hi : localSessionFind w.pool sock = some i)
    (hk : (w.pool i).keyed = true) {payload ct : Bytes}
    (hlen : (stripCrLf payload).length ≤ encFramePlainMax)
    (hseal : P.aeadEncrypt (w.pool i).key
      (encNonce encFrameDirToApp (((w.pool i).txCtr + 1) % 2 ^ 64)) (stripCrLf payload) = some ct) :
    ∃ key, (encFrameSend P w sock payload).out = w.out ++ [⟨sock, Base64.fields encPrefix
      (encNonce encFrameDirToApp (((w.pool i).txCtr + 1) % 2 ^ 64)) ct ++ [10], key⟩] := by
  simp only [encFrameSend, hi, hk, Bool.not_true, Bool.false_eq_true, if_false,
    if_neg (Nat.not_lt.mpr hlen), encFrameSeal, hseal, World.send, encLine, hP.encode_eq]
  exact ⟨_, rfl⟩

theorem encFrameSendBuffer_eq {key : Block 32} {txCtr : Nat} {payload ct : Bytes}
    (hlen : (stripCrLf payload).length ≤ encFramePlainMax)
    (hct : ct.length = (stripCrLf payload).length + encFrameTagLen)
    (hseal : P.aeadEncrypt key (encNonce encFrameDirToApp ((txCtr + 1) % 2 ^ 64))
      (stripCrLf payload) = some ct) (frame : Block encFrameSize) :
    encFrameSendBuffer P key (UInt64.ofNat txCtr) payload frame = some (some (Base64.fields
      encPrefix (encNonce encFrameDirToApp ((txCtr + 1) % 2 ^ 64)) ct ++ [10])) := by
  have htake := take_plainLength payload
  have hplain : plainLength payload payload.length = (stripCrLf payload).length := by
    rw [← htake, List.length_take, Nat.min_eq_left (plainLength_le _ _)]
  have hroom : (stripCrLf payload).length + encFrameTagLen ≤ encFrameCtSize :=
    Nat.add_le_add_right hlen _
  have htext := encFrameText_eq frame
    (length_encNonce encFrameDirToApp ((txCtr + 1) % 2 ^ 64)) (hct.trans_le hroom)
  have hsealed : aeadSeal P key (encNonce encFrameDirToApp ((txCtr + 1) % 2 ^ 64))
      (stripCrLf payload) encFrameCtSize = some ct := by
    rw [aeadSeal, if_neg (Nat.not_lt.mpr hroom), hseal]
  have hshort : ¬encFramePlainMax < plainLength payload payload.length := by
    rw [hplain]
    exact Nat.not_lt.mpr hlen
  simp only [encFrameSendBuffer, htake, encNonce_toApp, if_neg hshort, hsealed, htext,
    Option.map_some]

theorem openFrame_fields {s : LocalSession} {nonce ct plain : Bytes}
    (hdec : ∀ b, P.base64Decode (Base64.encode b) = some b)
    (hnonce : nonce.length = encFrameNonceLen) (hdir : getBe (nonce.take 4) = encFrameDirToDev)
    (hctr : s.rxCtr < getBe (nonce.drop 4)) (hct : ct.length = plain.length + encFrameTagLen)
    (hlen : plain.length ≤ encFramePlainMax) (hopen : P.aeadDecrypt s.key nonce ct = some plain) :
    openFrame P s (Base64.fields encPrefix nonce ct) = some (getBe (nonce.drop 4), plain) := by
  have hplain : ct.length - encFrameTagLen = plain.length := by omega
  apply openFrame_of_acceptable
  refine ⟨Base64.encode nonce, Base64.encode ct, nonce, ct, ?_, Base64.comma_notMem_encode nonce,
    hdec nonce, hnonce, hdec ct, by omega, hdir, rfl, hctr, by omega, hopen, by omega⟩
  simp only [Base64.fields, List.append_assoc]
  rfl

theorem isEncLine_fields (nonce ct : Bytes) :
    isEncLine (Base64.fields encPrefix nonce ct) = true := by
  have hlen : encPrefix.length < (Base64.fields encPrefix nonce ct).length := by
    rw [Base64.length_fields]
    omega
  simp only [isEncLine, decide_eq_true hlen, Bool.true_and]
  exact hasPrefix_iff.mpr (Base64.prefix_fields ..)

theorem unwrap_client_frame (hP : P.Inverses) (hi : localSessionFind w.pool sock = some i)
    (hk : (w.pool i).keyed = true) {ls : Client.LineSocket}
    (hkey : ls.aead = some (w.pool i).key) (hnew : (w.pool i).rxCtr < ls.txCtr + 1)
    (hctr : ls.txCtr + 1 < 2 ^ 64) {line : Bytes} (hlen : line.length ≤ encFramePlainMax) :
    ∃ wire, ls.sendLine P line = some (wire ++ [10], { ls with txCtr := ls.txCtr + 1 }) ∧
      10 ∉ wire ∧ wire.length + 1 < tcpReceiveDataLength ∧
      encFrameUnwrap P w sock wire = (some line,
        w.setSession i { w.pool i with rxCtr := ls.txCtr + 1, rxEncrypted := true }) ∧
      ∀ buffer : RxBuffer, wire <+: buffer.1 → ∃ buffer' : RxBuffer,
        encFrameUnwrapBuffer P (w.pool i) buffer wire.length =
          some (some (ls.txCtr + 1, buffer', line.length)) ∧
        line ++ [10, 0] <+: buffer'.1 := by
  obtain ⟨hdir, hread⟩ := getBe_encNonce encFrameDirToDev (ls.txCtr + 1) (by decide) hctr
  have hnonce := length_encNonce encFrameDirToDev (ls.txCtr + 1)
  generalize hn : encNonce encFrameDirToDev (ls.txCtr + 1) = nonce at hdir hread hnonce
  obtain ⟨ct, hseal, hctlen, hopen⟩ := hP.sealed (w.pool i).key nonce line hnonce
  have hmax : line.length ≤ 768 := hlen
  have hroom : (Base64.fields encPrefix nonce ct).length + 1 < tcpReceiveDataLength := by
    rw [Base64.length_fields, hnonce, hctlen]
    change 4 + (12 + 2) / 3 * 4 + 1 + (line.length + 16 + 2) / 3 * 4 + 1 < 5120
    omega
  have hframe : ∀ Q : Platform, (∀ b, Q.base64Decode (Base64.encode b) = some b) →
      Q.aeadDecrypt (w.pool i).key nonce ct = some line →
      openFrame Q (w.pool i) (Base64.fields encPrefix nonce ct) = some (ls.txCtr + 1, line) := by
    intro Q hdec hQ
    rw [← hread] at hnew ⊢
    exact openFrame_fields hdec hnonce hdir hnew hctlen hlen hQ
  refine ⟨Base64.fields encPrefix nonce ct, ?_, Base64.not_mem_fields (by decide) nonce ct, hroom,
    ?_, ?_⟩
  · rw [encNonce] at hn
    simp only [Client.LineSocket.sendLine, hkey, if_neg (Nat.not_le.mpr hctr), hn, hseal]
    rfl
  · simp only [encFrameUnwrap, isEncLine_fields, Bool.not_true, Bool.false_eq_true, if_false, hi,
      hk, hframe P hP.decode_encode hopen]
  · intro buffer hbuffer
    have htake : buffer.1.take (Base64.fields encPrefix nonce ct).length =
        Base64.fields encPrefix nonce ct := (List.prefix_iff_eq_take.mp hbuffer).symm
    have hlong : encPrefix.length ≤ (Base64.fields encPrefix nonce ct).length :=
      (Base64.prefix_fields encPrefix nonce ct).length_le
    obtain ⟨r, hunwrap, hshows⟩ := encFrameUnwrapBuffer_shows (P := P) (s := w.pool i) hlong
      (Nat.le_of_lt (Nat.lt_of_succ_lt hroom))
    rw [htake, hframe P.standard Base64.decode_encode hopen] at hshows
    cases hshows with
    | opened hline => exact ⟨_, hunwrap, hline⟩

theorem enc_frames_round_trip (P : Platform) (hP : P.Inverses) (w : World) (i : Slot)
    (sock : Nat) (hi : localSessionFind w.pool sock = some i) (hk : (w.pool i).keyed = true) :
    (∀ payload, (stripCrLf payload).length ≤ encFramePlainMax →
      let ctr := ((w.pool i).txCtr + 1) % 2 ^ 64
      ∃ text key, (encFrameSend P w sock payload).out = w.out ++ [⟨sock, text ++ [10], key⟩] ∧
        (∀ frame, encFrameSendBuffer P (w.pool i).key (UInt64.ofNat (w.pool i).txCtr) payload
          frame = some (some (text ++ [10]))) ∧
        Client.readFrame P (w.pool i).key text =
          some (Client.dirToApp, ctr, stripCrLf payload) ∧
        ∀ (ls : Client.LineSocket) (later : Bytes), ls.aead = some (w.pool i).key →
          ls.rxCtr < ctr → (∀ c ∈ ls.pending, c ≠ []) →
          ls.buf ++ ls.pending.flatten = text ++ 10 :: later →
          ∃ buf pending, buf ++ pending.flatten = later ∧
            ls.recvLine P = some (stripCrLf payload,
              { ls with buf := buf, pending := pending, rxCtr := ctr })) ∧
    (∀ (ls : Client.LineSocket) (line : Bytes), line.length ≤ encFramePlainMax →
      ls.aead = some (w.pool i).key → (w.pool i).rxCtr < ls.txCtr + 1 → ls.txCtr + 1 < 2 ^ 64 →
      ∃ wire, ls.sendLine P line = some (wire ++ [10], { ls with txCtr := ls.txCtr + 1 }) ∧
        10 ∉ wire ∧ wire.length + 1 < tcpReceiveDataLength ∧
        encFrameUnwrap P w sock wire = (some line,
          w.setSession i { w.pool i with rxCtr := ls.txCtr + 1, rxEncrypted := true }) ∧
        ∀ buffer : RxBuffer, wire <+: buffer.1 → ∃ buffer' : RxBuffer,
          encFrameUnwrapBuffer P (w.pool i) buffer wire.length =
            some (some (ls.txCtr + 1, buffer', line.length)) ∧
          line ++ [10, 0] <+: buffer'.1) := by
  constructor
  · intro payload hlen ctr
    have hctr : ctr < 2 ^ 64 := Nat.mod_lt _ (by decide)
    obtain ⟨hdir, hread⟩ := getBe_encNonce encFrameDirToApp ctr (by decide) hctr
    obtain ⟨ct, hseal, hctlen, hopen⟩ := hP.sealed (w.pool i).key
      (encNonce encFrameDirToApp ctr) (stripCrLf payload) (length_encNonce ..)
    obtain ⟨key, hout⟩ := encFrameSend_out hP hi hk hlen hseal
    refine ⟨Base64.fields encPrefix (encNonce encFrameDirToApp ctr) ct, key, hout,
      encFrameSendBuffer_eq hlen hctlen hseal, ?_, ?_⟩
    · refine (Client.readFrame_fields hopen).trans ?_
      rw [hdir, hread]
    · intro ls later hkey hnew hne hall
      obtain ⟨buf, pending, hrecv, hrest⟩ := Client.recvLine_first (P := P) hall hne
        (Base64.not_mem_fields (by decide) _ ct)
      have hkey' : ({ ls with buf := buf, pending := pending } : Client.LineSocket).aead =
          some (w.pool i).key := hkey
      rw [← hread] at hnew
      refine ⟨buf, pending, hrest, hrecv.trans ?_⟩
      refine (Client.openLine_fields hkey' hopen hdir hnew).trans ?_
      rw [hread]
  · intro ls line hlen hkey hnew hctr
    exact unwrap_client_frame hP hi hk hkey hnew hctr hlen

end RoundTrip

namespace Sample

theorem platform_inverses : platform.Inverses where
  encode_eq := rfl
  decode_encode := Base64.decode_encode
  sealed key nonce plain hn := by
    have htag : (tag key nonce).length = 16 := by
      rw [tag, List.length_append, List.length_take, key.2, hn]
      rfl
    refine ⟨plain ++ tag key nonce, rfl, ?_, ?_⟩
    · rw [List.length_append, htag]
    · change openSealed key nonce (plain ++ tag key nonce) = some plain
      rw [openSealed, List.length_append, htag, Nat.add_sub_cancel, List.drop_left,
        List.take_left, if_pos rfl]

def pakeClient : Client.LineSocket := { aead := some zeroKey }

theorem enc_frames_round_trip_list :
    platform.Inverses ∧ (pakePhone.pool 0).keyed = true ∧
      (∃ text key, (encFrameSend platform pakePhone 5 (ascii "PWOK\r\n")).out =
          pakePhone.out ++ [⟨5, text ++ [10], key⟩] ∧
        Client.readFrame platform zeroKey text = some (Client.dirToApp, 1, ascii "PWOK")) ∧
      ∃ wire, pakeClient.sendLine platform (ascii "LIST") =
          some (wire ++ [10], { pakeClient with txCtr := 1 }) ∧
        (encFrameUnwrap platform pakePhone 5 wire).1 = some (ascii "LIST") := by
  obtain ⟨hforth, hback⟩ :=
    enc_frames_round_trip platform platform_inverses pakePhone 0 5 (by decide) rfl
  refine ⟨platform_inverses, rfl, ?_, ?_⟩
  · obtain ⟨text, key, hout, -, hread, -⟩ := hforth (ascii "PWOK\r\n") (by decide)
    exact ⟨text, key, hout, hread⟩
  · obtain ⟨wire, hsend, -, -, hunwrap, -⟩ :=
      hback pakeClient (ascii "LIST") (by decide) rfl Nat.one_pos (Nat.one_lt_two_pow (by decide))
    exact ⟨wire, hsend, congrArg Prod.fst hunwrap⟩

end Sample

end CyThing
