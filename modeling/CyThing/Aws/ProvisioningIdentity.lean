import CyThing.Aws.ProvisioningRun

/-! The identity of the device, as it runs and as a reboot would load it. A completed `CERT`
transfer replaces the certificate in use before any `PFIN`, and `PFIN` writes four keys one by
one after it has switched the globals; where neither shows, both identities change as a
whole. -/

namespace CyThing
open CLib Trace

def Provisioning.live (p : Provisioning) : Identity :=
  ⟨p.deviceId, p.sourceTerminalId, p.iotEndpoint, cstr p.certPem⟩

def Provisioning.reload (p : Provisioning) : Identity := (provisioningInit p.nvs).live

def Provisioning.switched (p : Provisioning) (id : Identity) : Identity :=
  if p.commits then p.pendingIdentity
  else if p.repairs then { id with sourceTerminalId := p.pendingSourceTerminalId }
  else id

def SwitchesWhole (f : Provisioning → Identity) (t : Step Provisioning ProvEvent) : Prop :=
  f t.after =
    if t.event.kind? = some .pfin then t.before.switched (f t.before) else f t.before

/-! ## When it does -/

def Trimmed (text : Bytes) : Bool := trimTrailingWs text = text

def Provisioning.persists (env : ProvEnv) (p : Provisioning) : Bool :=
  if p.commits then
    env.devidOk && env.srctermidOk && env.epOk && env.certOk && Trimmed p.pendingDeviceId &&
      Trimmed p.pendingSourceTerminalId && Trimmed p.pendingIotEndpoint
  else !p.repairs || env.srctermidOk && Trimmed p.pendingSourceTerminalId

def Persists (t : Step Provisioning ProvEvent) : Bool :=
  match t.event with
  | .line bytes env => provKind bytes ≠ some .pfin || t.before.persists env
  | .reboot => true

def KeepsCert (P : Platform) (t : Step Provisioning ProvEvent) : Bool :=
  match t.event.chunk? t.before with
  | none => true
  | some c =>
    certB64BufLen ≤ t.before.certB64.length + c.bytes.length || c.seq ≠ c.total ||
      match P.decodeInto (provCertPemMax - 1) (t.before.certB64 ++ c.bytes) with
      | none => true
      | some pem => cstr pem = cstr t.before.certPem

/-! ## Steps -/

section Step

variable {P : Platform} {env : ProvEnv} {p p' : Provisioning} {e : ProvEvent} {c : CertChunk}

theorem cstr_cstr (b : Bytes) : cstr (cstr b) = cstr b :=
  cstr_eq_self fun h => by simpa using List.mem_takeWhile_imp h

theorem reload_congr (h : p'.nvs.tuple = p.nvs.tuple) : p'.reload = p.reload := by
  simp only [ProvNvs.tuple, Prod.mk.injEq] at h
  obtain ⟨hd, hs, he, hc⟩ := h
  simp only [Provisioning.reload, Provisioning.live, provisioningInit, hd, hs, he, hc]

theorem live_handlePfin (env : ProvEnv) (p : Provisioning) :
    (handlePfin env p).1.live = p.switched p.live := by
  rw [handlePfin_eq, Provisioning.switched]
  split_ifs <;> rfl

theorem reload_handlePfin (h : p.persists env = true) :
    (handlePfin env p).1.reload = p.switched p.reload := by
  rw [Provisioning.persists] at h
  rw [handlePfin_eq, Provisioning.switched]
  split_ifs at h ⊢ with hc hr hs
  · simp only [Bool.and_eq_true, Trimmed, decide_eq_true_eq] at h
    obtain ⟨⟨⟨⟨⟨⟨hdev, hsrc⟩, hep⟩, hcert⟩, htd⟩, hts⟩, hte⟩ := h
    have hnvs : (persistIdentity env p.adopt).2 =
        { p.nvs with
          devid := some p.pendingDeviceId, srctermid := some p.pendingSourceTerminalId
          ep := some p.pendingIotEndpoint, cert := some (cstr p.certPem) } := by
      simp only [persistIdentity, hdev, hsrc, hep, hcert, Bool.not_true, Bool.false_eq_true,
        ite_false]
      rfl
    simp only [Provisioning.reload, Provisioning.resetHandshake, hnvs, Provisioning.live,
      provisioningInit, Option.getD_some, htd, hts, hte, cstr_cstr, Provisioning.pendingIdentity]
  · simp only [hr, Bool.not_true, Bool.false_or, Bool.and_eq_true, Trimmed,
      decide_eq_true_eq] at h
    simp only [Provisioning.reload, Provisioning.resetHandshake, Provisioning.live,
      provisioningInit, Option.getD_some, h.2]
  · simp only [hr, Bool.not_true, Bool.false_or, Bool.and_eq_true] at h
    exact absurd h.1 hs
  · rfl

theorem tuple_of_not_pfin (hm : ProvMove P p e p') (hk : e.kind? ≠ some .pfin) :
    p'.nvs.tuple = p.nvs.tuple := by
  cases hm with
  | reboot => rfl
  | quiet => rfl
  | prov => rfl
  | key => rfl
  | csr => rfl
  | devid => rfl
  | chunk hc =>
    rename_i c
    rcases acceptCertChunk_cases P p c with ⟨q, hq, -, -, -, -, hnvs⟩ | ⟨pem, hq, -⟩
    · rw [hq]
      exact congrArg ProvNvs.tuple hnvs
    · rw [hq]
  | pfin h => exact absurd h hk

theorem provStep_pfin (p : Provisioning) {bytes : Bytes} (h : provKind bytes = some .pfin) :
    provStep P p (.line bytes env) = (handlePfin env p).1 := by
  simp only [provStep, provisioningHandleTcpLine_eq, h, Option.map_some]
  rfl

theorem eq_line_of_pfin (h : e.kind? = some .pfin) :
    ∃ bytes env, e = .line bytes env ∧ provKind bytes = some .pfin := by
  cases e with
  | reboot => cases h
  | line bytes env => exact ⟨bytes, env, rfl, h⟩

theorem reload_step (p : Provisioning) (hp : Persists ⟨p, e, provStep P p e⟩ = true) :
    SwitchesWhole Provisioning.reload ⟨p, e, provStep P p e⟩ := by
  by_cases hk : e.kind? = some .pfin
  · obtain ⟨bytes, env, rfl, hline⟩ := eq_line_of_pfin hk
    simp only [Persists, hline, ne_eq, not_true_eq_false, decide_false, Bool.false_or] at hp
    simp only [SwitchesWhole, hk, ite_true, provStep_pfin p hline]
    exact reload_handlePfin hp
  · simp only [SwitchesWhole, hk, ite_false]
    exact reload_congr (tuple_of_not_pfin (provStep_move P p e) hk)

theorem live_chunk (hc : e.chunk? p = some c) (hkeep : KeepsCert P ⟨p, e, p'⟩ = true) :
    (acceptCertChunk P p c.seq c.total c.bytes).1.live = p.live := by
  rcases acceptCertChunk_cases P p c with ⟨q, hq, hd, hs, he, hpem, -⟩ | ⟨pem, hq, hfit, hpem⟩
  · rw [hq]
    simp only [Provisioning.live, Provisioning.resetHandshake, hd, hs, he, hpem]
  · have hsame : cstr pem = cstr p.certPem := by
      rcases hpem with ⟨hlast, hdec⟩ | ⟨-, rfl⟩
      · simp only [KeepsCert, hc, hdec, hlast] at hkeep
        simpa [Nat.not_le.mpr hfit] using hkeep
      · rfl
    rw [hq]
    simp only [Provisioning.live, hsame]

theorem live_step (hsame : p.live = p.reload) (hkeep : KeepsCert P ⟨p, e, provStep P p e⟩ = true) :
    SwitchesWhole Provisioning.live ⟨p, e, provStep P p e⟩ := by
  by_cases hk : e.kind? = some .pfin
  · obtain ⟨bytes, env, rfl, hline⟩ := eq_line_of_pfin hk
    simp only [SwitchesWhole, hk, ite_true, provStep_pfin p hline]
    exact live_handlePfin env p
  · simp only [SwitchesWhole, hk, ite_false]
    have hm := provStep_move P p e
    generalize provStep P p e = p' at hm hkeep ⊢
    cases hm with
    | reboot => exact hsame.symm
    | quiet => rfl
    | prov => rfl
    | key => rfl
    | csr => rfl
    | devid => rfl
    | chunk hc => exact live_chunk hc hkeep
    | pfin h => exact absurd h hk

theorem live_eq_reload_step (hsame : p.live = p.reload)
    (hlive : SwitchesWhole Provisioning.live ⟨p, e, p'⟩)
    (hreload : SwitchesWhole Provisioning.reload ⟨p, e, p'⟩) : p'.live = p'.reload := by
  unfold SwitchesWhole at hlive hreload
  rw [hlive, hreload, hsame]

end Step

/-! ## Runs -/

theorem live_eq_reload_run (P : Platform) (nvs : ProvNvs) (es : List ProvEvent)
    (hok : ∀ t ∈ provTrace P nvs es, Persists t = true ∧ KeepsCert P t = true) :
    (provRun P nvs es).live = (provRun P nvs es).reload :=
  trace_induction (Q := fun _ p => p.live = p.reload) rfl
    (fun _ p _ hsame hstep =>
      live_eq_reload_step hsame (live_step hsame hstep.2) (reload_step p hstep.1)) es hok

/-- From boot with anything in flash, over any lines and reboots: where the writes of every
switching `PFIN` succeed, the identity that a reboot would load changes only at `PFIN`, and as a
whole. Where no transfer brings another certificate either, the identity in use is at all times
the one that a reboot would load. -/
theorem identity_switches_whole (P : Platform) (nvs : ProvNvs) (es : List ProvEvent)
    (hok : ∀ t ∈ provTrace P nvs es, Persists t = true) :
    (∀ t ∈ provTrace P nvs es, SwitchesWhole Provisioning.reload t) ∧
      ((∀ t ∈ provTrace P nvs es, KeepsCert P t = true) →
        ∀ t ∈ provTrace P nvs es,
          SwitchesWhole Provisioning.live t ∧ t.after.live = t.after.reload) := by
  have hreload : ∀ t ∈ provTrace P nvs es, SwitchesWhole Provisioning.reload t := by
    rintro ⟨p, e, p'⟩ ht
    obtain ⟨-, -, -, -, ha⟩ := mem_trace ht
    obtain rfl : p' = provStep P p e := ha
    exact reload_step _ (hok _ ht)
  refine ⟨hreload, ?_⟩
  rintro hkeep ⟨p, e, p'⟩ ht
  obtain ⟨pre, post, hes, hb, ha⟩ := mem_trace ht
  obtain rfl : p = provRun P nvs pre := hb
  obtain rfl : p' = provStep P (provRun P nvs pre) e := ha
  have hsame := live_eq_reload_run P nvs pre fun u hu => by
    have hu' : u ∈ provTrace P nvs es := by
      rw [hes, provTrace, trace_append]
      exact List.mem_append_left _ hu
    exact ⟨hok u hu', hkeep u hu'⟩
  have hlive := live_step hsame (hkeep _ ht)
  exact ⟨hlive, live_eq_reload_step hsame hlive (hreload _ ht)⟩

namespace Sample

def moveLines : List ProvEvent :=
  [provLine "PROV:other,lamp,host", provLine "CSRREQ", provLine "DEVID:device",
    provLine "CERT:1:1:T0xEQ0VSVA==", provLine "PFIN", .reboot]

theorem identity_switches_sample :
    (provRun csrPlatform provisionedNvs moveLines).live =
        ⟨ascii "device", ascii "other", ascii "host", ascii "OLDCERT"⟩ ∧
      ∀ t ∈ provTrace csrPlatform provisionedNvs moveLines,
        SwitchesWhole Provisioning.live t ∧ t.after.live = t.after.reload :=
  ⟨by decide +kernel,
    (identity_switches_whole csrPlatform provisionedNvs moveLines (by decide +kernel)).2
      (by decide +kernel)⟩

def oldIdentity : Identity :=
  ⟨ascii "old", ascii "terminal", ascii "endpoint", ascii "OLDCERT"⟩

/-- A handshake that ends after the last chunk leaves the old id in use with the new
certificate; a `PFIN` that fails at its second write leaves in flash the new id with the old
certificate, and in use the new identity. -/
theorem identity_half_switched :
    (provRun csrPlatform provisionedNvs handshakeLines).live =
        { oldIdentity with certPem := ascii "CERT" } ∧
      (provRun csrPlatform provisionedNvs handshakeLines).reload = oldIdentity ∧
      (provRun csrPlatform provisionedNvs
          (handshakeLines ++ [.line (ascii "PFIN") { srctermidOk := false }])).live =
        ⟨ascii "device", ascii "terminal", ascii "endpoint", ascii "CERT"⟩ ∧
      (provRun csrPlatform provisionedNvs
          (handshakeLines ++ [.line (ascii "PFIN") { srctermidOk := false }])).reload =
        { oldIdentity with deviceId := ascii "device" } := by
  decide +kernel

end Sample

end CyThing
