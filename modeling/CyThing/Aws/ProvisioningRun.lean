import CyThing.Aws.Provisioning
import CyThing.Lib.Trace
import CyThing.Sample

/-! Runs of the provisioning handshake: any lines in any order with any failures of the flash,
and reboots. What a `PFIN` may write is traced back to the lines since the handshake was last
idle. -/

namespace CyThing
open CLib Trace

/-! ## Lines -/

inductive ProvKind
  | reqid | prov | csrreq | devid | cert | pfin
  deriving DecidableEq

def provText (line : Bytes) : Bytes := trimTrailingWs (cstr (line ++ [10]))

def provKind (line : Bytes) : Option ProvKind :=
  if !isProvisioningLine line then none
  else if hasPrefix (provText line) (ascii "REQID:") then some .reqid
  else if hasPrefix (provText line) (ascii "PROV:") then some .prov
  else if hasPrefix (provText line) (ascii "CSRREQ") then some .csrreq
  else if hasPrefix (provText line) (ascii "DEVID:") then some .devid
  else if hasPrefix (provText line) (ascii "CERT:") then some .cert
  else if hasPrefix (provText line) (ascii "PFIN") then some .pfin
  else none

def provHandle (P : Platform) (env : ProvEnv) (p : Provisioning) (text : Bytes) :
    ProvKind → Provisioning × Bytes
  | .reqid => handleReqid P p text
  | .prov => handleProv p text
  | .csrreq => handleCsrreq P env p
  | .devid => handleDevid p text
  | .cert => handleCert P p text
  | .pfin => handlePfin env p

theorem provisioningHandleTcpLine_eq (P : Platform) (env : ProvEnv) (p : Provisioning)
    (line : Bytes) :
    provisioningHandleTcpLine P env p line =
      (provKind line).map (provHandle P env p (provText line)) := by
  have htext : trimTrailingWs (cstr (line ++ [10])) = provText line := rfl
  simp only [provisioningHandleTcpLine, provKind, htext, Option.map_some, Option.map_none,
    apply_ite (Option.map (provHandle P env p (provText line))), provHandle]

inductive ProvEvent
  | line (line : Bytes) (env : ProvEnv)
  | reboot

def provStep (P : Platform) (p : Provisioning) : ProvEvent → Provisioning
  | .line line env =>
    match provisioningHandleTcpLine P env p line with
    | some (p', _) => p'
    | none => p
  | .reboot => provisioningInit p.nvs

def ProvEvent.kind? : ProvEvent → Option ProvKind
  | .line bytes _ => provKind bytes
  | .reboot => none

/-! ## What a line brings -/

def provFields (text : Bytes) : Option (Bytes × Bytes) :=
  (splitFirst 44 (text.drop 5)).bind fun (chan, rest) =>
    (splitFirst 44 rest).map fun (_, endpoint) =>
      (chan.take (provSourceTerminalIdMax - 1), snprintf provEndpointMax endpoint)

def ProvEvent.prov? : ProvEvent → Option (Bytes × Bytes)
  | .line bytes _ => if provKind bytes = some .prov then provFields (provText bytes) else none
  | .reboot => none

def ProvEvent.devid? : ProvEvent → Option Bytes
  | .line bytes _ =>
    if provKind bytes = some .devid then
      some (snprintf provDeviceIdMax ((provText bytes).drop 6))
    else none
  | .reboot => none

structure CertChunk where
  seq : Int
  total : Int
  bytes : Bytes
  deriving DecidableEq

def certFields (text : Bytes) : Option CertChunk :=
  (splitFirst 58 (text.drop 5)).bind fun (_, rest) =>
    (splitFirst 58 rest).map fun (_, chunk) => ⟨atoi (text.drop 5), atoi rest, chunk⟩

def Provisioning.expects (p : Provisioning) (c : CertChunk) : Bool :=
  p.state = .receivingCert && c.seq = p.certNextSeq &&
    (p.certTotalChunks = 0 || c.total = p.certTotalChunks)

def ProvEvent.chunk? (p : Provisioning) : ProvEvent → Option CertChunk
  | .line bytes _ =>
    if provKind bytes = some .cert then (certFields (provText bytes)).filter p.expects else none
  | .reboot => none

def ProvEvent.answersCsr (P : Platform) (p : Provisioning) : ProvEvent → Bool
  | .line bytes env => provKind bytes = some .csrreq && (buildCsrBase64 P env p).1.isSome
  | .reboot => false

/-! ## What one step can do -/

inductive ProvMove (P : Platform) (p : Provisioning) : ProvEvent → Provisioning → Prop
  | reboot : ProvMove P p .reboot (provisioningInit p.nvs)
  | quiet {e : ProvEvent} (h : e.chunk? p = none) : ProvMove P p e p
  | prov {e : ProvEvent} {src ep : Bytes} (h : e.prov? = some (src, ep)) :
    ProvMove P p e
      { p with pendingSourceTerminalId := src, pendingIotEndpoint := ep, state := .gotProv }
  /-- A `CSRREQ` that fails may still have made or loaded a key. -/
  | key {e : ProvEvent} (h : e.chunk? p = none) (keyPem : Bytes) (opkey : Option Bytes) :
    ProvMove P p e { p with keyPem := keyPem, nvs := { p.nvs with opkey := opkey } }
  | csr {e : ProvEvent} (h : e.answersCsr P p = true) (keyPem : Bytes) (opkey : Option Bytes) :
    ProvMove P p e
      { p with keyPem := keyPem, nvs := { p.nvs with opkey := opkey }, state := .sentCsr }
  | devid {e : ProvEvent} {id : Bytes} (h : e.devid? = some id) :
    ProvMove P p e
      { p with
        pendingDeviceId := id, state := .receivingCert
        certB64 := [], certTotalChunks := 0, certNextSeq := 1 }
  | chunk {e : ProvEvent} {c : CertChunk} (h : e.chunk? p = some c) :
    ProvMove P p e (acceptCertChunk P p c.seq c.total c.bytes).1
  | pfin {line : Bytes} {env : ProvEnv} (h : provKind line = some .pfin) :
    ProvMove P p (.line line env) (handlePfin env p).1

theorem handleProv_eq (p : Provisioning) (text : Bytes) :
    (handleProv p text).1 =
      match provFields text with
      | none => p
      | some (src, ep) =>
        { p with pendingSourceTerminalId := src, pendingIotEndpoint := ep, state := .gotProv } := by
  unfold handleProv provFields
  cases splitFirst 44 (text.drop 5) with
  | none => rfl
  | some pr =>
    obtain ⟨chan, rest⟩ := pr
    simp only [Option.bind_some]
    cases splitFirst 44 rest with
    | none => rfl
    | some pr => rfl

theorem handleCert_answer (P : Platform) (p : Provisioning) (text : Bytes) :
    handleCert P p text =
      match (certFields text).filter p.expects with
      | none => (p, ascii "ACK")
      | some c => acceptCertChunk P p c.seq c.total c.bytes := by
  simp only [handleCert, certFields]
  cases splitFirst 58 (text.drop 5) with
  | none => rfl
  | some pr =>
    obtain ⟨seq, rest⟩ := pr
    simp only [Option.bind_some]
    cases splitFirst 58 rest with
    | none => rfl
    | some pr =>
      simp only [Option.map_some, Option.filter]
      by_cases hexp : p.expects ⟨atoi (text.drop 5), atoi rest, pr.2⟩ = true
      · have hgo : ¬ (p.state ≠ .receivingCert ∨ atoi (text.drop 5) ≠ p.certNextSeq ∨
            (p.certTotalChunks ≠ 0 ∧ atoi rest ≠ p.certTotalChunks)) := by
          simp only [Provisioning.expects, Bool.and_eq_true, Bool.or_eq_true, decide_eq_true_eq]
            at hexp
          tauto
        simp only [hexp, if_neg hgo, ite_true]
      · have hstop : p.state ≠ .receivingCert ∨ atoi (text.drop 5) ≠ p.certNextSeq ∨
            (p.certTotalChunks ≠ 0 ∧ atoi rest ≠ p.certTotalChunks) := by
          simp only [Provisioning.expects, Bool.and_eq_true, Bool.or_eq_true, decide_eq_true_eq]
            at hexp
          tauto
        simp only [hexp, if_pos hstop, Bool.false_eq_true, ite_false]

theorem handleCert_eq (P : Platform) (p : Provisioning) (text : Bytes) :
    (handleCert P p text).1 =
      match (certFields text).filter p.expects with
      | none => p
      | some c => (acceptCertChunk P p c.seq c.total c.bytes).1 := by
  rw [handleCert_answer]
  cases (certFields text).filter p.expects <;> rfl

theorem buildCsrBase64_key (P : Platform) (env : ProvEnv) (p : Provisioning) :
    ∃ keyPem opkey, (buildCsrBase64 P env p).2 =
      { p with keyPem := keyPem, nvs := { p.nvs with opkey := opkey } } := by
  have hload : ∃ keyPem opkey, (loadOrGenerateKeypair P env p).2 =
      { p with keyPem := keyPem, nvs := { p.nvs with opkey := opkey } } := by
    unfold loadOrGenerateKeypair
    dsimp only
    repeat' split
    -- only the branch that stores a fresh key touches the flash
    all_goals first | exact ⟨_, p.nvs.opkey, rfl⟩ | exact ⟨_, _, rfl⟩
  obtain ⟨keyPem, opkey, h⟩ := hload
  refine ⟨keyPem, opkey, ?_⟩
  unfold buildCsrBase64
  dsimp only
  split <;> exact h

theorem provStep_move (P : Platform) (p : Provisioning) (e : ProvEvent) :
    ProvMove P p e (provStep P p e) := by
  cases e with
  | reboot => exact .reboot
  | line line env =>
    have hstep : provStep P p (.line line env) =
        match provKind line with
        | none => p
        | some k => (provHandle P env p (provText line) k).1 := by
      simp only [provStep, provisioningHandleTcpLine_eq]
      cases provKind line <;> rfl
    rw [hstep]
    have hno (h : provKind line ≠ some .cert) : (ProvEvent.line line env).chunk? p = none :=
      if_neg h
    cases hk : provKind line with
    | none => exact .quiet (hno (by rw [hk]; rintro ⟨⟩))
    | some k =>
      cases k with
      | reqid =>
        have hsame : (handleReqid P p (provText line)).1 = p := by
          unfold handleReqid
          split <;> rfl
        simp only [provHandle, hsame]
        exact .quiet (hno (by rw [hk]; rintro ⟨⟩))
      | prov =>
        simp only [provHandle, handleProv_eq]
        cases hf : provFields (provText line) with
        | none => exact .quiet (hno (by rw [hk]; rintro ⟨⟩))
        | some f => exact .prov (by simp only [ProvEvent.prov?, hk, ite_true, hf])
      | csrreq =>
        obtain ⟨keyPem, opkey, hkey⟩ := buildCsrBase64_key P env p
        simp only [provHandle, handleCsrreq]
        cases hb : buildCsrBase64 P env p with
        | mk b64 p' =>
          have hans : (ProvEvent.line line env).answersCsr P p = b64.isSome := by
            simp only [ProvEvent.answersCsr, hk, hb, decide_true, Bool.true_and]
          rw [hb] at hkey
          dsimp only at hkey
          subst hkey
          cases b64 with
          | none => exact .key (hno (by rw [hk]; rintro ⟨⟩)) keyPem opkey
          | some b64 => exact .csr hans keyPem opkey
      | devid => exact .devid (by simp only [ProvEvent.devid?, hk, ite_true])
      | cert =>
        simp only [provHandle, handleCert_eq]
        cases hc : (certFields (provText line)).filter p.expects with
        | none => exact .quiet (by simp only [ProvEvent.chunk?, hk, ite_true, hc])
        | some c => exact .chunk (by simp only [ProvEvent.chunk?, hk, ite_true, hc])
      | pfin => exact .pfin hk

/-! ## What `PFIN` does -/

def Provisioning.commits (p : Provisioning) : Bool :=
  p.state = .receivingCert && cstr p.certPem ≠ [] && p.pendingDeviceId ≠ []

def Provisioning.repairs (p : Provisioning) : Bool :=
  !p.commits && p.active && p.pendingSourceTerminalId ≠ []

structure Identity where
  deviceId : Bytes
  sourceTerminalId : Bytes
  iotEndpoint : Bytes
  certPem : Bytes
  deriving DecidableEq

def Provisioning.pendingIdentity (p : Provisioning) : Identity :=
  ⟨p.pendingDeviceId, p.pendingSourceTerminalId, p.pendingIotEndpoint, cstr p.certPem⟩

def Provisioning.adopt (p : Provisioning) : Provisioning :=
  { p with
    deviceId := p.pendingDeviceId
    sourceTerminalId := p.pendingSourceTerminalId
    iotEndpoint := p.pendingIotEndpoint }

theorem handlePfin_eq (env : ProvEnv) (p : Provisioning) :
    (handlePfin env p).1 =
      if p.commits then
        { p.adopt with
          nvs := (persistIdentity env p.adopt).2
          rebootArmed := (persistIdentity env p.adopt).1 || p.rebootArmed }.resetHandshake
      else if p.repairs then
        { p with
          sourceTerminalId := p.pendingSourceTerminalId
          nvs := if env.srctermidOk then
              { p.nvs with srctermid := some p.pendingSourceTerminalId } else p.nvs
          }.resetHandshake
      else p.resetHandshake := by
  by_cases hc : p.commits = true
  · have hgo : ¬ (p.state ≠ .receivingCert ∨ cstr p.certPem = [] ∨ p.pendingDeviceId = []) := by
      simp only [Provisioning.commits, Bool.and_eq_true, decide_eq_true_eq] at hc
      tauto
    rcases h : persistIdentity env p.adopt with ⟨ok, nvs⟩
    unfold Provisioning.adopt at h
    simp only [handlePfin, if_neg hgo, hc, ite_true, h]
    cases ok <;> rfl
  · have hstop : p.state ≠ .receivingCert ∨ cstr p.certPem = [] ∨ p.pendingDeviceId = [] := by
      simp only [Provisioning.commits, Bool.and_eq_true, decide_eq_true_eq] at hc
      tauto
    have hrep : p.repairs = true ↔ p.active = true ∧ p.pendingSourceTerminalId ≠ [] := by
      simp [Provisioning.repairs, hc]
    simp only [handlePfin, if_pos hstop, hc, hrep, Bool.false_eq_true, ite_false]
    split_ifs <;> rfl

def ProvNvs.tuple (n : ProvNvs) : Option Bytes × Option Bytes × Option Bytes × Option Bytes :=
  (n.devid, n.srctermid, n.ep, n.cert)

structure ProvNvs.WrittenFrom (id : Identity) (n n' : ProvNvs) : Prop where
  devid : n'.devid = n.devid ∨ n'.devid = some id.deviceId
  srctermid : n'.srctermid = n.srctermid ∨ n'.srctermid = some id.sourceTerminalId
  ep : n'.ep = n.ep ∨ n'.ep = some id.iotEndpoint
  cert : n'.cert = n.cert ∨ n'.cert = some id.certPem

theorem persistIdentity_written (env : ProvEnv) (p : Provisioning) :
    ProvNvs.WrittenFrom p.pendingIdentity p.nvs (persistIdentity env p.adopt).2 := by
  unfold persistIdentity
  split_ifs
  · exact ⟨.inl rfl, .inl rfl, .inl rfl, .inl rfl⟩
  · exact ⟨.inr rfl, .inl rfl, .inl rfl, .inl rfl⟩
  · exact ⟨.inr rfl, .inr rfl, .inl rfl, .inl rfl⟩
  · exact ⟨.inr rfl, .inr rfl, .inr rfl, .inl rfl⟩
  · exact ⟨.inr rfl, .inr rfl, .inr rfl, .inr rfl⟩

/-! ## The history of a handshake -/

def Awake (t : Step Provisioning ProvEvent) : Prop := t.after.state ≠ .idle

def chunksOf (tr : List (Step Provisioning ProvEvent)) : List CertChunk :=
  tr.filterMap fun t => t.event.chunk? t.before

structure Transfer (P : Platform) (cs : List CertChunk) (p : Provisioning) : Prop where
  next : p.certNextSeq = cs.length + 1
  total : cs = [] ∧ p.certTotalChunks = 0 ∨ cs ≠ [] ∧ p.certTotalChunks ≠ 0
  seqs : ∀ (k : Nat) c, cs[k]? = some c → c.seq = k + 1 ∧ c.total = p.certTotalChunks
  b64 : p.certB64 = (cs.map (·.bytes)).flatten
  decoded : ∀ n : Nat, p.certTotalChunks = n → 1 ≤ n → n ≤ cs.length →
    P.decodeInto (provCertPemMax - 1) ((cs.take n).map (·.bytes)).flatten = some p.certPem

def DevidThen (P : Platform) (tr : List (Step Provisioning ProvEvent)) (p : Provisioning) : Prop :=
  ∃ pre d post, tr = pre ++ d :: post ∧ d.event.devid? = some p.pendingDeviceId ∧
    (∀ u ∈ post, Awake u) ∧ Transfer P (chunksOf post) p

structure Handshaking (P : Platform) (tr : List (Step Provisioning ProvEvent))
    (p : Provisioning) : Prop where
  idle : p.state = .idle → p.pendingSourceTerminalId = []
  prov : p.state ≠ .idle →
    Since (fun t => t.event.prov? = some (p.pendingSourceTerminalId, p.pendingIotEndpoint))
      Awake tr
  csr : p.state = .sentCsr ∨ p.state = .receivingCert →
    Since (fun t => t.event.answersCsr P t.before = true) Awake tr
  devid : p.state = .receivingCert → DevidThen P tr p

/-- The lines come in the order the handshake means: no `CSRREQ` is answered before `PROV`
and no `DEVID` accepted before the CSR, chunks say how many they are, and a `PFIN` that
commits finds the last chunk taken and a certificate without NUL. -/
structure InSequence (P : Platform) (t : Step Provisioning ProvEvent) : Prop where
  csr : t.event.answersCsr P t.before = true → t.before.state ≠ .idle
  devid : t.event.devid? ≠ none →
    t.before.state = .sentCsr ∨ t.before.state = .receivingCert
  chunk : ∀ c ∈ t.event.chunk? t.before, c.total ≠ 0
  pfin : t.event.kind? = some .pfin → t.before.commits = true →
    1 ≤ t.before.certTotalChunks ∧ t.before.certTotalChunks < t.before.certNextSeq ∧
      (0 : UInt8) ∉ t.before.certPem

instance (P : Platform) (t : Step Provisioning ProvEvent) : Decidable (InSequence P t) :=
  decidable_of_iff
    ((t.event.answersCsr P t.before = true → t.before.state ≠ .idle) ∧
      (t.event.devid? ≠ none → t.before.state = .sentCsr ∨ t.before.state = .receivingCert) ∧
      (∀ c ∈ t.event.chunk? t.before, c.total ≠ 0) ∧
      (t.event.kind? = some .pfin → t.before.commits = true →
        1 ≤ t.before.certTotalChunks ∧ t.before.certTotalChunks < t.before.certNextSeq ∧
          (0 : UInt8) ∉ t.before.certPem))
    ⟨fun ⟨h1, h2, h3, h4⟩ => ⟨h1, h2, h3, h4⟩, fun h => ⟨h.csr, h.devid, h.chunk, h.pfin⟩⟩

theorem acceptCertChunk_cases (P : Platform) (p : Provisioning) (c : CertChunk) :
    (∃ q : Provisioning, (acceptCertChunk P p c.seq c.total c.bytes).1 = q.resetHandshake ∧
        q.deviceId = p.deviceId ∧ q.sourceTerminalId = p.sourceTerminalId ∧
        q.iotEndpoint = p.iotEndpoint ∧ q.certPem = p.certPem ∧ q.nvs = p.nvs) ∨
      ∃ pem, (acceptCertChunk P p c.seq c.total c.bytes).1 =
          { p with
            certTotalChunks := c.total, certB64 := p.certB64 ++ c.bytes
            certNextSeq := p.certNextSeq + 1, certPem := pem } ∧
        p.certB64.length + c.bytes.length < certB64BufLen ∧
        (c.seq = c.total ∧
            P.decodeInto (provCertPemMax - 1) (p.certB64 ++ c.bytes) = some pem ∨
          c.seq ≠ c.total ∧ pem = p.certPem) := by
  unfold acceptCertChunk
  dsimp only
  split
  · exact Or.inl ⟨_, rfl, rfl, rfl, rfl, rfl, rfl⟩
  · next hfit =>
    rw [Nat.not_le] at hfit
    split
    · next hlast =>
      cases hd : P.decodeInto (provCertPemMax - 1) (p.certB64 ++ c.bytes) with
      | none => exact Or.inl ⟨_, rfl, rfl, rfl, rfl, rfl, rfl⟩
      | some pem => exact Or.inr ⟨pem, rfl, hfit, Or.inl ⟨hlast, rfl⟩⟩
    · next hmore => exact Or.inr ⟨p.certPem, rfl, hfit, Or.inr ⟨hmore, rfl⟩⟩

section Step

variable {P : Platform} {tr : List (Step Provisioning ProvEvent)} {p p' : Provisioning}
  {e : ProvEvent} {cs : List CertChunk} {c : CertChunk}

theorem chunksOf_concat (tr : List (Step Provisioning ProvEvent))
    (t : Step Provisioning ProvEvent) :
    chunksOf (tr ++ [t]) = chunksOf tr ++ (t.event.chunk? t.before).toList := by
  cases h : t.event.chunk? t.before <;> simp [chunksOf, List.filterMap_append, h]

theorem expects_iff : p.expects c = true ↔ p.state = .receivingCert ∧ c.seq = p.certNextSeq ∧
    (p.certTotalChunks = 0 ∨ c.total = p.certTotalChunks) := by
  simp only [Provisioning.expects, Bool.and_eq_true, Bool.or_eq_true, decide_eq_true_eq, and_assoc]

theorem expects_of_chunk? (h : e.chunk? p = some c) : p.expects c = true := by
  cases e with
  | reboot => cases h
  | line bytes env =>
    simp only [ProvEvent.chunk?] at h
    split at h
    · exact (Option.filter_eq_some_iff.mp h).2
    · cases h

theorem Transfer.add {pem : Bytes} (h : Transfer P cs p) (hexp : p.expects c = true)
    (hne : c.total ≠ 0)
    (hpem : c.seq = c.total ∧
        P.decodeInto (provCertPemMax - 1) (p.certB64 ++ c.bytes) = some pem ∨
      c.seq ≠ c.total ∧ pem = p.certPem) :
    Transfer P (cs ++ [c])
      { p with
        certTotalChunks := c.total, certB64 := p.certB64 ++ c.bytes
        certNextSeq := p.certNextSeq + 1, certPem := pem } := by
  obtain ⟨-, hseq, htotal⟩ := expects_iff.mp hexp
  have hnext := h.next
  -- once a chunk is there, its total is that of the transfer
  have hsame : cs ≠ [] → c.total = p.certTotalChunks := by
    intro hcs
    rcases h.total with ⟨hnil, -⟩ | ⟨-, hnz⟩
    · exact absurd hnil hcs
    · exact htotal.resolve_left hnz
  constructor
  · simp only [List.length_append, List.length_singleton, hnext]
    omega
  · exact Or.inr ⟨by simp, hne⟩
  · intro k d hd
    rw [List.getElem?_append] at hd
    split at hd
    · next hk =>
      obtain ⟨hs, ht⟩ := h.seqs k d hd
      have hcs : cs ≠ [] := by
        rintro rfl
        simp at hk
      exact ⟨hs, ht.trans (hsame hcs).symm⟩
    · next hk =>
      have hk0 : k - cs.length = 0 := by
        by_contra hpos
        rw [List.getElem?_eq_none (by simp; omega)] at hd
        cases hd
      rw [hk0] at hd
      cases hd
      refine ⟨?_, rfl⟩
      rw [hseq, hnext]
      omega
  · simp [h.b64]
  · intro n hn h1 hlen
    have hn : c.total = n := hn
    simp only [List.length_append, List.length_singleton] at hlen
    rcases hpem with ⟨hlast, hdec⟩ | ⟨hmore, rfl⟩
    · have hall : n = cs.length + 1 := by
        rw [hseq, hnext] at hlast
        omega
      rw [hall, List.take_of_length_le (by simp), List.map_append, List.flatten_append, ← h.b64]
      simpa using hdec
    · have hle : n ≤ cs.length := by
        rw [hseq, hnext] at hmore
        omega
      have hcs : cs ≠ [] := by
        rintro rfl
        simp at hle
        omega
      rw [List.take_append_of_le_length hle]
      exact h.decoded n ((hsame hcs).symm.trans hn) h1 hle

theorem Handshaking.of_idle (hs : p.state = .idle) (hp : p.pendingSourceTerminalId = []) :
    Handshaking P tr p where
  idle _ := hp
  prov hne := absurd hs hne
  csr h := by
    rw [hs] at h
    rcases h with h | h <;> cases h
  devid h := by
    rw [hs] at h
    cases h

theorem Handshaking.keep (h : Handshaking P tr p) (hno : e.chunk? p = none)
    (hstate : p'.state = p.state) (hsrc : p'.pendingSourceTerminalId = p.pendingSourceTerminalId)
    (hep : p'.pendingIotEndpoint = p.pendingIotEndpoint)
    (hid : p'.pendingDeviceId = p.pendingDeviceId)
    (htransfer : ∀ cs, Transfer P cs p → Transfer P cs p') :
    Handshaking P (tr ++ [⟨p, e, p'⟩]) p' := by
  have hawake (hne : p'.state ≠ .idle) : Awake ⟨p, e, p'⟩ := hne
  constructor
  · rw [hstate, hsrc]
    exact h.idle
  · intro hne
    rw [hsrc, hep]
    exact (h.prov (hstate ▸ hne)).concat (hawake hne)
  · intro hs
    refine (h.csr (hstate ▸ hs)).concat (hawake ?_)
    rcases hs with hs | hs <;> (rw [hs]; rintro ⟨⟩)
  · intro hs
    obtain ⟨pre, d, post, rfl, hd, hpost, ht⟩ := h.devid (hstate ▸ hs)
    refine ⟨pre, d, post ++ [⟨p, e, p'⟩], by simp, hid ▸ hd, fun u hu => ?_, ?_⟩
    · rcases List.mem_append.mp hu with hu | hu
      · exact hpost u hu
      · rw [List.mem_singleton.mp hu]
        exact hawake (by rw [hs]; rintro ⟨⟩)
    · rw [chunksOf_concat, hno, Option.toList_none, List.append_nil]
      exact htransfer _ ht

theorem Handshaking.chunk (h : Handshaking P tr p) (hc : e.chunk? p = some c)
    (hne : c.total ≠ 0)
    (hp' : p' = (acceptCertChunk P p c.seq c.total c.bytes).1) :
    Handshaking P (tr ++ [⟨p, e, p'⟩]) p' := by
  have hexp := expects_of_chunk? hc
  have hstate := (expects_iff.mp hexp).1
  rcases acceptCertChunk_cases P p c with ⟨q, hq, -⟩ | ⟨pem, hq, -, hpem⟩
  · rw [hp', hq]
    exact .of_idle rfl rfl
  · rw [hq] at hp'
    have hstate' : p'.state = .receivingCert := by rw [hp']; exact hstate
    have hawake : Awake ⟨p, e, p'⟩ := by
      rw [Awake, hstate']
      rintro ⟨⟩
    constructor
    · intro hi
      rw [hstate'] at hi
      cases hi
    · intro _
      have hprov := h.prov (by rw [hstate]; rintro ⟨⟩)
      rw [hp'] at hawake ⊢
      exact hprov.concat hawake
    · exact fun _ => (h.csr (.inr hstate)).concat hawake
    · intro _
      obtain ⟨pre, d, post, rfl, hd, hpost, ht⟩ := h.devid hstate
      refine ⟨pre, d, post ++ [⟨p, e, p'⟩], by simp, by rw [hp']; exact hd, fun u hu => ?_, ?_⟩
      · rcases List.mem_append.mp hu with hu | hu
        · exact hpost u hu
        · rw [List.mem_singleton.mp hu]
          exact hawake
      · rw [chunksOf_concat, hc, hp']
        exact ht.add hexp hne hpem

theorem Handshaking.step (h : Handshaking P tr p) (hm : ProvMove P p e p')
    (hok : InSequence P ⟨p, e, p'⟩) : Handshaking P (tr ++ [⟨p, e, p'⟩]) p' := by
  cases hm with
  | reboot => exact .of_idle rfl rfl
  | quiet hno => exact h.keep hno rfl rfl rfl rfl fun _ ht => ht
  | key hno keyPem opkey =>
    exact h.keep hno rfl rfl rfl rfl fun _ ht => ⟨ht.next, ht.total, ht.seqs, ht.b64, ht.decoded⟩
  | prov hprov =>
    refine ⟨fun hs => (by cases hs), fun _ => .now hprov, fun hs => ?_, fun hs => (by cases hs)⟩
    rcases hs with hs | hs <;> cases hs
  | csr hans keyPem opkey =>
    have hne : p.state ≠ .idle := hok.csr hans
    exact ⟨fun hs => (by cases hs), fun hs => (h.prov hne).concat hs, fun _ => .now hans,
      fun hs => (by cases hs)⟩
  | devid hid =>
    have hs : p.state = .sentCsr ∨ p.state = .receivingCert :=
      hok.devid (by rw [hid]; exact Option.some_ne_none _)
    have hne : p.state ≠ .idle := by
      rcases hs with hs | hs <;> (rw [hs]; rintro ⟨⟩)
    refine ⟨fun hs => (by cases hs), fun hs => (h.prov hne).concat hs,
      fun _ => (h.csr hs).concat ?_,
      fun _ => ⟨tr, _, [], rfl, hid, fun _ hu => absurd hu List.not_mem_nil, ?_⟩⟩
    · rintro ⟨⟩
    · exact ⟨rfl, .inl ⟨rfl, rfl⟩, fun k c hk => (by cases hk), rfl,
        fun n hn h1 hle => absurd (Nat.le_trans h1 hle) (by decide)⟩
  | chunk hc => exact h.chunk hc (hok.chunk _ hc) rfl
  | pfin hk =>
    rw [handlePfin_eq]
    split_ifs <;> exact .of_idle rfl rfl

end Step

theorem handshaking_run (P : Platform) (nvs : ProvNvs) (es : List ProvEvent)
    (hok : ∀ t ∈ trace (provStep P) (provisioningInit nvs) es, InSequence P t) :
    Handshaking P (trace (provStep P) (provisioningInit nvs) es)
      (run (provStep P) (provisioningInit nvs) es) :=
  trace_induction (Q := Handshaking P) (.of_idle rfl rfl)
    (fun _ p e h hok => h.step (provStep_move P p e) hok) es hok

/-! ## What is committed -/

/-- Since the handshake was last idle: a `PROV` line with this source terminal and endpoint, a
`CSRREQ` that was answered, and a `DEVID` line with this id; and after that all chunks of a
certificate that decodes to this one. -/
structure CompleteHandshake (P : Platform) (tr : List (Step Provisioning ProvEvent))
    (id : Identity) : Prop where
  prov : Since (fun t => t.event.prov? = some (id.sourceTerminalId, id.iotEndpoint)) Awake tr
  csr : Since (fun t => t.event.answersCsr P t.before = true) Awake tr
  cert : ∃ pre d post chunks, tr = pre ++ d :: post ∧ d.event.devid? = some id.deviceId ∧
    (∀ u ∈ post, Awake u) ∧ chunks <+: chunksOf post ∧ chunks ≠ [] ∧
    (∀ (k : Nat) c, chunks[k]? = some c → c.seq = k + 1 ∧ c.total = chunks.length) ∧
    P.decodeInto (provCertPemMax - 1) (chunks.map (·.bytes)).flatten = some id.certPem

theorem Handshaking.complete {P : Platform} {tr : List (Step Provisioning ProvEvent)}
    {p : Provisioning} (h : Handshaking P tr p) (hc : p.commits = true)
    (h1 : 1 ≤ p.certTotalChunks) (hall : p.certTotalChunks < p.certNextSeq)
    (h0 : (0 : UInt8) ∉ p.certPem) : CompleteHandshake P tr p.pendingIdentity := by
  have hstate : p.state = .receivingCert := by
    simp only [Provisioning.commits, Bool.and_eq_true, decide_eq_true_eq] at hc
    exact hc.1.1
  obtain ⟨pre, d, post, htr, hd, hpost, ht⟩ := h.devid hstate
  obtain ⟨n, hn⟩ : ∃ n : Nat, p.certTotalChunks = n := ⟨p.certTotalChunks.toNat, by omega⟩
  have hle : n ≤ (chunksOf post).length := by
    have := ht.next
    omega
  have hlen : ((chunksOf post).take n).length = n := by
    rw [List.length_take]
    omega
  refine ⟨h.prov (by rw [hstate]; rintro ⟨⟩), h.csr (.inr hstate),
    pre, d, post, (chunksOf post).take n, htr, hd, hpost, List.take_prefix _ _, ?_, ?_, ?_⟩
  · rw [← List.length_pos_iff, hlen]
    omega
  · intro k c hk
    rw [hlen, ← hn]
    rw [List.getElem?_take] at hk
    split at hk
    · exact ht.seqs k c hk
    · cases hk
  · rw [ht.decoded n hn (by omega) hle, Provisioning.pendingIdentity, cstr_eq_self h0]

theorem Handshaking.writes {P : Platform} {tr : List (Step Provisioning ProvEvent)}
    {p p' : Provisioning} {e : ProvEvent} (h : Handshaking P tr p) (hm : ProvMove P p e p')
    (hok : InSequence P ⟨p, e, p'⟩) (hw : p'.nvs.tuple ≠ p.nvs.tuple) :
    e.kind? = some .pfin ∧
      (p.commits = true ∧ CompleteHandshake P tr p.pendingIdentity ∧
          ProvNvs.WrittenFrom p.pendingIdentity p.nvs p'.nvs ∨
        p.repairs = true ∧
          Since (fun t => t.event.prov? = some (p.pendingSourceTerminalId, p.pendingIotEndpoint))
            Awake tr ∧
          p'.nvs = { p.nvs with srctermid := some p.pendingSourceTerminalId }) := by
  cases hm with
  | reboot => exact absurd rfl hw
  | quiet => exact absurd rfl hw
  | prov => exact absurd rfl hw
  | key => exact absurd rfl hw
  | csr => exact absurd rfl hw
  | devid => exact absurd rfl hw
  | chunk hc =>
    rename_i c
    rcases acceptCertChunk_cases P p c with ⟨q, hq, -, -, -, -, hnvs⟩ | ⟨pem, hq, -⟩
    · rw [hq] at hw
      exact absurd (congrArg ProvNvs.tuple hnvs) hw
    · rw [hq] at hw
      exact absurd rfl hw
  | pfin hk =>
    refine ⟨hk, ?_⟩
    rw [handlePfin_eq] at hw ⊢
    split_ifs at hw ⊢ with hc hr hs
    · obtain ⟨h1, hall, h0⟩ := hok.pfin hk hc
      exact .inl ⟨hc, h.complete hc h1 hall h0, persistIdentity_written _ p⟩
    · have hsrc : p.pendingSourceTerminalId ≠ [] := by
        simp only [Provisioning.repairs, Bool.and_eq_true, decide_eq_true_eq] at hr
        exact hr.2
      exact .inr ⟨hr, h.prov fun hidle => hsrc (h.idle hidle), rfl⟩
    · exact absurd rfl hw
    · exact absurd rfl hw

section Commit

variable (P : Platform) (nvs : ProvNvs) (es : List ProvEvent) (e : ProvEvent)

abbrev provRun : Provisioning := run (provStep P) (provisioningInit nvs) es

abbrev provTrace : List (Step Provisioning ProvEvent) :=
  trace (provStep P) (provisioningInit nvs) es

/-- Whatever lines came before, from boot with anything in flash: if they came in sequence, an
event that changes the identity in flash is a `PFIN` that writes from the identity of a
complete handshake, or one that moves a provisioned device to the source terminal of a `PROV`
line. -/
theorem pfin_writes_complete_handshake (hok : ∀ t ∈ provTrace P nvs (es ++ [e]), InSequence P t)
    (hw : (provRun P nvs (es ++ [e])).nvs.tuple ≠ (provRun P nvs es).nvs.tuple) :
    e.kind? = some .pfin ∧
      ((provRun P nvs es).commits = true ∧
          CompleteHandshake P (provTrace P nvs es) (provRun P nvs es).pendingIdentity ∧
          ProvNvs.WrittenFrom (provRun P nvs es).pendingIdentity (provRun P nvs es).nvs
            (provRun P nvs (es ++ [e])).nvs ∨
        (provRun P nvs es).repairs = true ∧
          Since (fun t => t.event.prov? = some ((provRun P nvs es).pendingSourceTerminalId,
            (provRun P nvs es).pendingIotEndpoint)) Awake (provTrace P nvs es) ∧
          (provRun P nvs (es ++ [e])).nvs = { (provRun P nvs es).nvs with
            srctermid := some (provRun P nvs es).pendingSourceTerminalId }) := by
  have hsplit : provRun P nvs (es ++ [e]) = provStep P (provRun P nvs es) e := by
    rw [provRun, run_append]
    rfl
  have hbefore := handshaking_run P nvs es fun t ht => hok t (by
    rw [provTrace, trace_append]
    exact List.mem_append_left _ ht)
  have hlast := hok ⟨provRun P nvs es, e, provStep P (provRun P nvs es) e⟩ (by
    rw [provTrace, trace_concat]
    exact List.mem_append_right _ (List.mem_singleton_self _))
  rw [hsplit] at hw ⊢
  exact hbefore.writes (provStep_move P _ e) hlast hw

end Commit

namespace Sample

def csrPlatform : Platform :=
  { platform with
    generateKeyPem := fun rand => some (ascii "KEY" ++ rand)
    keyParses := fun _ => true
    csrBase64 := fun key => some (Base64.encode key) }

def provLine (text : String) : ProvEvent := .line (ascii text) {}

def handshakeLines : List ProvEvent :=
  [provLine "PROV:terminal,lamp,endpoint", provLine "CSRREQ", provLine "DEVID:device",
    provLine "CERT:1:2:Q0VS", provLine "CERT:2:2:VA=="]

theorem pfin_writes_sample :
    (provRun csrPlatform {} (handshakeLines ++ [provLine "PFIN"])).nvs.tuple =
        (some (ascii "device"), some (ascii "terminal"), some (ascii "endpoint"),
          some (ascii "CERT")) ∧
      CompleteHandshake csrPlatform (provTrace csrPlatform {} handshakeLines)
        ⟨ascii "device", ascii "terminal", ascii "endpoint", ascii "CERT"⟩ := by
  have h := pfin_writes_complete_handshake csrPlatform {} handshakeLines (provLine "PFIN")
    (by decide +kernel) (by decide +kernel)
  have hid : (provRun csrPlatform {} handshakeLines).pendingIdentity =
      ⟨ascii "device", ascii "terminal", ascii "endpoint", ascii "CERT"⟩ := by decide +kernel
  have hrep : (provRun csrPlatform {} handshakeLines).repairs = false := by decide +kernel
  refine ⟨by decide +kernel, ?_⟩
  rcases h.2 with ⟨-, hcomplete, -⟩ | ⟨hr, -⟩
  · rwa [hid] at hcomplete
  · rw [hrep] at hr
    cases hr

def provisionedNvs : ProvNvs :=
  { devid := some (ascii "old"), srctermid := some (ascii "terminal")
    ep := some (ascii "endpoint"), cert := some (ascii "OLDCERT"), opkey := some (ascii "KEY") }

/-- On a provisioned device `DEVID` and `PFIN` alone commit: the certificate of the old
identity stands in for the transfer, and nothing asks for `PROV` or `CSRREQ`. -/
theorem pfin_without_handshake :
    (provRun csrPlatform provisionedNvs ([provLine "DEVID:new"] ++ [provLine "PFIN"])).nvs.tuple =
        (some (ascii "new"), some [], some [], some (ascii "OLDCERT")) ∧
      ∀ id, ¬ CompleteHandshake csrPlatform
        (provTrace csrPlatform provisionedNvs [provLine "DEVID:new"]) id := by
  refine ⟨by decide +kernel, fun id h => ?_⟩
  have hnone : ∀ t ∈ provTrace csrPlatform provisionedNvs [provLine "DEVID:new"],
      t.event.answersCsr csrPlatform t.before = false := by decide +kernel
  obtain ⟨pre, t, post, htr, ht, -⟩ := h.csr
  rw [hnone t (by rw [htr]; simp)] at ht
  cases ht

end Sample

end CyThing
