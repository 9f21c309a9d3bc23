import CyThing.Ble.BlePairing
import CyThing.HandlerActions
import CyThing.Sample

/-! From the credentials a phone sends, over TCP or BLE, to the station configuration after
the reboot. -/

namespace CyThing
open CLib Trace Flash

/-! ## The TCP flow -/

def earlierCommands : List Bytes :=
  [pake1Prefix, pake3Prefix, enrollPrefix, auth1Prefix, auth3Prefix, ascii "UNPAIR",
    ascii "LIST", ascii "REVOKE:", ascii "PWSET:", ascii "PWCLEAR", ascii "DISCOVERYMODE:",
    ascii "DISCOVERYMODE?", ascii "RESET", ascii "REQID:", ascii "PROV:", ascii "CSRREQ",
    ascii "DEVID:", ascii "CERT:", ascii "PFIN", ascii "startupdatecomm", ascii "credentialcomm",
    ascii "updatingcomm"]

def tcpFlowPrefixes : List Bytes := [ascii "StartP", ascii "ssid:", ascii "pass:", ascii "FinishP"]

theorem not_earlier_of_flow {line pre q : Bytes} (hpre : pre ∈ tcpFlowPrefixes)
    (hline : hasPrefix line pre = true) (hq : q ∈ earlierCommands) :
    hasPrefix line q = false := by
  have hclash : ∀ p ∈ tcpFlowPrefixes, ∀ q ∈ earlierCommands,
      hasPrefix q p = false ∧ hasPrefix p q = false := by decide +kernel
  exact not_hasPrefix_of_hasPrefix (hclash pre hpre q hq) hline

theorem ne_of_not_hasPrefix {line q : Bytes} (h : hasPrefix line q = false) : line ≠ q := by
  rintro rfl
  rw [hasPrefix_iff.mpr (List.prefix_refl line)] at h
  cases h

section Dispatch

variable {P : Platform} {env : Env} {w : World} {sock : Nat} {line : Bytes}

theorem not_earlier (hno : ∀ q ∈ earlierCommands, hasPrefix line q = false) :
    lineKind line = .other ∧ isProvisioningLine line = false ∧
      ∀ w sock, otaHandleLine w sock line = none := by
  simp only [earlierCommands, List.forall_mem_cons, List.not_mem_nil, false_implies,
    implies_true, and_true] at hno
  obtain ⟨h1, h3, he, ha1, ha3, hun, hli, hre, hpw, hcl, hdm, hdg, hrs, hprov⟩ := hno
  obtain ⟨p1, p2, p3, p4, p5, p6, o1, o2, o3⟩ := hprov
  refine ⟨?_, ?_, fun w sock => ?_⟩
  · simp only [lineKind, h1, h3, he, ha1, ha3, ownerCommand, ne_of_not_hasPrefix hun,
      ne_of_not_hasPrefix hli, hre, hpw, ne_of_not_hasPrefix hcl, hdm, ne_of_not_hasPrefix hdg,
      ne_of_not_hasPrefix hrs, Bool.false_eq_true, ite_false]
  · simp only [isProvisioningLine, p1, p2, p3, p4, p5, p6, Bool.or_false]
  · simp only [otaHandleLine, o1, o2, o3, Bool.false_eq_true, ite_false]

theorem dispatch_pairing (hno : ∀ q ∈ earlierCommands, hasPrefix line q = false)
    (hallow : (accessPolicyAllow P w sock line).1 = true) {p : PairingState} {ack : Bool}
    (hp : pairingHandleLine P env.flashOk w.pairing line = some (p, ack)) :
    (tcpDispatchLine P env w sock line).pairing = p ∧
      (tcpDispatchLine P env w sock line).pool = w.pool ∧
      (tcpDispatchLine P env w sock line).pw = w.pw := by
  obtain ⟨hkind, hprov, hota⟩ := not_earlier hno
  have hpolicy := accessPolicyAllow_eq hallow
  have hsec : securityHandleLine P env w sock line = none := by
    rw [securityHandleLine_eq, if_pos hkind]
  have hprovLine (x : World) : provisioningLine P env x sock line = none := by
    simp only [provisioningLine, provisioningHandleTcpLine, hprov, Bool.not_false, ite_true]
  simp only [tcpDispatchLine, hpolicy, hsec, dispatchBehindPolicy, hprovLine, hota, pairingLine,
    World.enter, hp, Bool.not_true, Bool.false_eq_true, ite_false]
  cases ack with
  | false => exact ⟨rfl, rfl, rfl⟩
  | true => exact ⟨rfl, rfl, rfl⟩

end Dispatch

/-! ## What Wi-Fi pairing makes of the four lines -/

section Pairing

variable {P : Platform} {flashOk : Bool} {p : PairingState} {pre value : Bytes}

theorem isPairingCommandValid_self (pre value : Bytes) :
    isPairingCommandValid (pre ++ value ++ [10]) pre [10] = true := by
  have hpre : hasPrefix (pre ++ value ++ [10]) pre = true :=
    hasPrefix_iff.mpr ⟨value ++ [10], by simp⟩
  have hsuf : hasSuffix (pre ++ value ++ [10]) [10] = true :=
    List.isSuffixOf_iff_suffix.mpr ⟨pre ++ value, rfl⟩
  simp only [isPairingCommandValid, hpre, hsuf, Bool.and_true, decide_eq_true_eq,
    List.length_append]
  omega

theorem pairingValue_self (h : value.length < 128) :
    pairingValue (pre ++ value ++ [10]) pre [10] 128 = value := by
  have hlen :
      (pre ++ value ++ [10]).length - pre.length - [(10 : UInt8)].length = value.length := by
    simp only [List.length_append, List.length_singleton]
    omega
  have hmin : min value.length (128 - 1) = value.length := by omega
  rw [pairingValue, hlen, hmin, List.append_assoc, List.drop_left, List.take_left]

theorem cstr_line (hpre : (0 : UInt8) ∉ pre) (hvalue : (0 : UInt8) ∉ value) :
    cstr (pre ++ value ++ [10]) = pre ++ value ++ [10] := by
  apply cstr_eq_self
  simp [hpre, hvalue]

theorem pairing_start :
    pairingHandleLine P flashOk p (ascii "StartP") =
      some ({ p with step := .setRouterSsid }, true) := by
  rfl

theorem pairing_ssid (hs : P.routerSsidPrefix = ascii "ssid:") (hstep : p.step = .setRouterSsid)
    (hlen : value.length < 128) (h0 : (0 : UInt8) ∉ value) :
    pairingHandleLine P flashOk p (ascii "ssid:" ++ value) =
      some ({ p with tempSsid := value, step := .setRouterPass }, true) := by
  have hstart : hasPrefix (ascii "ssid:" ++ value) (ascii "StartP") = false :=
    not_hasPrefix_of_hasPrefix (p := ascii "ssid:") (by decide +kernel)
      (hasPrefix_iff.mpr ⟨value, rfl⟩)
  have htext : cstr (ascii "ssid:" ++ value ++ [10]) = ascii "ssid:" ++ value ++ [10] :=
    cstr_line (by decide +kernel) h0
  simp only [pairingHandleLine, hs, htext, hstart, isPairingCommandValid_self,
    pairingValue_self hlen, hstep, Bool.false_eq_true, ite_true, ite_false]

theorem pairing_pass (hs : P.routerSsidPrefix = ascii "ssid:")
    (hp : P.routerPassPrefix = ascii "pass:") (hstep : p.step = .setRouterPass)
    (hlen : value.length < 128) (h0 : (0 : UInt8) ∉ value) :
    pairingHandleLine P flashOk p (ascii "pass:" ++ value) =
      some ({ p with tempPassword := value, step := .finishPairing }, true) := by
  have hstart : hasPrefix (ascii "pass:" ++ value) (ascii "StartP") = false :=
    not_hasPrefix_of_hasPrefix (p := ascii "pass:") (by decide +kernel)
      (hasPrefix_iff.mpr ⟨value, rfl⟩)
  have hssid : hasPrefix (ascii "pass:" ++ value ++ [10]) (ascii "ssid:") = false :=
    not_hasPrefix_of_hasPrefix (p := ascii "pass:") (by decide +kernel)
      (hasPrefix_iff.mpr ⟨value ++ [10], by simp⟩)
  have hvalid : isPairingCommandValid (ascii "pass:" ++ value ++ [10]) (ascii "ssid:") [10] =
      false := by simp only [isPairingCommandValid, hssid, Bool.and_false, Bool.false_and]
  have htext : cstr (ascii "pass:" ++ value ++ [10]) = ascii "pass:" ++ value ++ [10] :=
    cstr_line (by decide +kernel) h0
  simp only [pairingHandleLine, hs, hp, htext, hstart, hvalid, isPairingCommandValid_self,
    pairingValue_self hlen, hstep, Bool.false_eq_true, ite_true, ite_false]

theorem pairing_finish (hs : P.routerSsidPrefix = ascii "ssid:")
    (hp : P.routerPassPrefix = ascii "pass:") (hstep : p.step = .finishPairing) :
    pairingHandleLine P true p (ascii "FinishP") =
      some ({ p with stored := some (p.tempSsid, p.tempPassword), rebootArmed := true
                     step := .startPairing }, true) := by
  have hclash : hasPrefix (ascii "FinishP") (ascii "StartP") = false ∧
      isPairingCommandValid (cstr (ascii "FinishP" ++ [10])) (ascii "ssid:") [10] = false ∧
      isPairingCommandValid (cstr (ascii "FinishP" ++ [10])) (ascii "pass:") [10] = false ∧
      hasPrefix (ascii "FinishP") (ascii "FinishP") = true := by decide +kernel
  obtain ⟨h1, h2, h3, h4⟩ := hclash
  simp only [pairingHandleLine, hs, hp, h1, h2, h3, h4, hstep, pairingCommit,
    Bool.false_eq_true, ite_true, ite_false]

end Pairing

/-! ## The whole flow -/

section Flow

variable {P : Platform} {w : World} {sock : Nat} {ssid pass : Bytes}

theorem allowed_congr {w' : World} (hpool : w'.pool = w.pool) (hpw : w'.pw = w.pw)
    (line : Bytes) :
    (accessPolicyAllow P w' sock line).1 = (accessPolicyAllow P w sock line).1 := by
  simp only [accessPolicyAllow, hpool, hpw]
  split_ifs <;> rfl

/-- The policy lets every line of the socket through: there is no password yet, or the
session is authenticated and the line came encrypted. -/
def Allowed (P : Platform) (w : World) (sock : Nat) : Prop :=
  ∀ line, (accessPolicyAllow P w sock line).1 = true

theorem dispatch_flow (env : Env) (pre : Bytes) {line : Bytes} (hpre : pre ∈ tcpFlowPrefixes)
    (hline : hasPrefix line pre = true) (hallow : Allowed P w sock) {p : PairingState}
    {ack : Bool} (hp : pairingHandleLine P env.flashOk w.pairing line = some (p, ack)) :
    (tcpDispatchLine P env w sock line).pairing = p ∧
      Allowed P (tcpDispatchLine P env w sock line) sock := by
  obtain ⟨hpairing, hpool, hpw⟩ :=
    dispatch_pairing (fun q hq => not_earlier_of_flow hpre hline hq) (hallow line) hp
  exact ⟨hpairing, fun l => (allowed_congr hpool hpw l).trans (hallow l)⟩

def tcpFlow (P : Platform) (w : World) (sock : Nat) (ssid pass : Bytes)
    (env₁ env₂ env₃ env₄ : Env) : World :=
  let w := tcpDispatchLine P env₁ w sock (ascii "StartP")
  let w := tcpDispatchLine P env₂ w sock (ascii "ssid:" ++ ssid)
  let w := tcpDispatchLine P env₃ w sock (ascii "pass:" ++ pass)
  tcpDispatchLine P env₄ w sock (ascii "FinishP")

theorem tcpFlow_stored (hs : P.routerSsidPrefix = ascii "ssid:")
    (hp : P.routerPassPrefix = ascii "pass:")
    (hallow : Allowed P w sock)
    (hslen : ssid.length < 128) (hplen : pass.length < 128)
    (hs0 : (0 : UInt8) ∉ ssid) (hp0 : (0 : UInt8) ∉ pass) (env₁ env₂ env₃ : Env) {env₄ : Env}
    (hflash : env₄.flashOk = true) :
    (tcpFlow P w sock ssid pass env₁ env₂ env₃ env₄).pairing.stored = some (ssid, pass) := by
  obtain ⟨hp₁, hallow₁⟩ := dispatch_flow env₁ (ascii "StartP")
    (by simp [tcpFlowPrefixes]) (hasPrefix_iff.mpr (List.prefix_refl _)) hallow pairing_start
  obtain ⟨hp₂, hallow₂⟩ := dispatch_flow env₂ (ascii "ssid:")
    (by simp [tcpFlowPrefixes]) (hasPrefix_iff.mpr (List.prefix_append _ ssid)) hallow₁
    (pairing_ssid hs (by rw [hp₁]) hslen hs0)
  obtain ⟨hp₃, hallow₃⟩ := dispatch_flow env₃ (ascii "pass:")
    (by simp [tcpFlowPrefixes]) (hasPrefix_iff.mpr (List.prefix_append _ pass)) hallow₂
    (pairing_pass hs hp (by rw [hp₂]) hplen hp0)
  obtain ⟨hp₄, -⟩ := dispatch_flow env₄ (ascii "FinishP")
    (by simp [tcpFlowPrefixes]) (hasPrefix_iff.mpr (List.prefix_refl _)) hallow₃
    (hflash ▸ pairing_finish hs hp (by rw [hp₃]))
  rw [tcpFlow, hp₄, hp₃, hp₂]

def bleFlow (ssid pass : Bytes) : List BleEvent :=
  [.write .ssid ssid true, .write .pass pass true] ++
    [.write .ctrl [blePairCtrlCommit] true, .task {}, .task {}, .task {}, .task {}, .task {},
      .task {}]

theorem takeWrite_of_length {max min : Nat} (dst : CredBuffer max) {value : Bytes}
    (hmin : min ≤ value.length) (hmax : value.length ≤ max) (h0 : (0 : UInt8) ∉ value) :
    ∃ cred, takeWrite dst min value = .ok cred ∧ cred.text = value := by
  have hok : takeWrite dst min value = .ok _ := dif_pos ⟨hmin, hmax⟩
  exact ⟨_, hok, (takeWrite_ok hok).2.trans (cstr_eq_self h0)⟩

theorem bleFlow_commits {b : Ble} (hfree : b.commitInProgress = false) (hs : 1 ≤ ssid.length)
    (hslen : ssid.length ≤ blePairSsidMax) (hplen : pass.length ≤ blePairPassMax)
    (hs0 : (0 : UInt8) ∉ ssid) (hp0 : (0 : UInt8) ∉ pass) :
    (run bleStep b (bleFlow ssid pass)).commits =
      b.commits ++ [⟨(ssid, pass), terminated (ssid, pass)⟩] := by
  obtain ⟨cs, hcs, hst⟩ := takeWrite_of_length b.credSsid hs hslen hs0
  obtain ⟨cp, hcp, hpt⟩ := takeWrite_of_length b.credPass (Nat.zero_le _) hplen hp0
  have hcsb : cs.bytes.take (ssid.length + 1) = ssid ++ [0] := hst ▸ cs.take_text
  have hcpb : cp.bytes.take (pass.length + 1) = pass ++ [0] := hpt ▸ cp.take_text
  have hwrites : run bleStep b [.write .ssid ssid true, .write .pass pass true] =
      { b with credSsid := cs, credPass := cp, haveSsid := true, status := .ready } := by
    simp only [run_cons, run_nil, bleStep, gattWrite, hcs, hcp, Except.map, hfree, setStatus,
      Bool.false_eq_true, ite_false]
  have hctrl (x : Ble) : bleStep x (.write .ctrl [blePairCtrlCommit] true) =
      handleControl true blePairCtrlCommit x := rfl
  have htask (x : Ble) : bleStep x (.task {}) = commitTaskStep {} x := rfl
  rw [bleFlow, run_append, hwrites]
  simp only [run_cons, run_nil, hctrl, htask, hfree, setStatus, handleControl, commitTaskStep,
    Bool.false_eq_true, ite_true, ite_false, Bool.not_true, hst, hpt, hcsb, hcpb, terminated]

end Flow

/-! ## The round trip -/

theorem wifiTrialConfig_eq {ssid pass : Bytes} (hs0 : (0 : UInt8) ∉ ssid)
    (hp0 : (0 : UInt8) ∉ pass) : wifiTrialConfig ssid pass = .of ssid pass := by
  have hhead : (pass.headD 0 != 0) = !pass.isEmpty := by
    cases pass with
    | nil => rfl
    | cons c cs =>
      have hc : c ≠ 0 := fun h => hp0 (by simp [h])
      simpa using hc
  simp only [wifiTrialConfig, StaConfig.of, cstr_eq_self hs0, cstr_eq_self hp0, hhead]

def KeepsCredentials (p : Partition) (ssid pass : Bytes) : Prop :=
  ∃ config, cythingBegin p = .station config ∧
    config.ssid.1 = ssid ++ List.replicate (32 - ssid.length) 0 ∧
    config.password.1 = pass ++ List.replicate (64 - pass.length) 0 ∧
    config.ssid = (wifiTrialConfig ssid pass).ssid ∧
    config.password = (wifiTrialConfig ssid pass).password

theorem keepsCredentials_iff {ssid pass : Bytes} (hs : ssid.length ≤ 32) (hp : pass.length ≤ 64)
    (hs0 : (0 : UInt8) ∉ ssid) (hp0 : (0 : UInt8) ∉ pass) (part : Partition) (rodata : Bytes) :
    KeepsCredentials (flashStoreWifiRouterInfo part rodata (terminated (ssid, pass))) ssid pass ↔
      ∀ c ∈ ssid ++ pass, c ≠ 37 := by
  have htrial := wifiTrialConfig_eq hs0 hp0
  constructor
  · rintro ⟨config, hboot, -, -, hsame, hsame'⟩
    rw [htrial] at hsame hsame'
    have hslen : (ssid ++ [0]).length ≤ flashFieldSize := by simp [flashFieldSize]; omega
    have hplen : (pass ++ [0]).length ≤ flashFieldSize := by simp [flashFieldSize]; omega
    obtain ⟨-, hssid, hpass⟩ := holds_flashStore part rodata (terminated (ssid, pass)) hslen hplen
    obtain ⟨hs37, hp37⟩ :=
      noPercent_of_cythingBegin hssid hpass hs0 hp0 hs hp hboot hsame hsame'
    rintro c hc rfl
    exact (List.mem_append.mp hc).elim hs37 hp37
  · intro hpct
    refine ⟨.of ssid pass, cythingBegin_flashStore part rodata hs hp fun c hc => ⟨?_, hpct c hc⟩,
      Block.fit_val hs, Block.fit_val hp, by rw [htrial], by rw [htrial]⟩
    rintro rfl
    exact (List.mem_append.mp hc).elim hs0 hp0

/-- Either flow stores the credentials, and they survive the reboot byte for byte, as the trial
had them, if and only if there is no percent sign in them. -/
theorem credentials_round_trip (P : Platform) (hs : P.routerSsidPrefix = ascii "ssid:")
    (hp : P.routerPassPrefix = ascii "pass:") (ssid pass : Bytes)
    (hslen : 1 ≤ ssid.length ∧ ssid.length ≤ 32) (hplen : pass.length ≤ 64)
    (hclean : ∀ c ∈ ssid ++ pass, c ≠ 0 ∧ c ≠ 10) (part : Partition) (rodata : Bytes) :
    (∀ w sock env₁ env₂ env₃ env₄, Allowed P w sock → env₄.flashOk = true →
        ∃ stored, (tcpFlow P w sock ssid pass env₁ env₂ env₃ env₄).pairing.stored = some stored ∧
          (KeepsCredentials (flashStoreWifiRouterInfo part rodata (terminated stored)) ssid pass ↔
            ∀ c ∈ ssid ++ pass, c ≠ 37)) ∧
      ∀ b : Ble, b.commitInProgress = false →
        ∃ c, (run bleStep b (bleFlow ssid pass)).commits = b.commits ++ [c] ∧
          c.tried = (ssid, pass) ∧
          (KeepsCredentials (flashStoreWifiRouterInfo part rodata c.stored) ssid pass ↔
            ∀ c ∈ ssid ++ pass, c ≠ 37) := by
  have hs0 : (0 : UInt8) ∉ ssid := fun h => (hclean 0 (by simp [h])).1 rfl
  have hp0 : (0 : UInt8) ∉ pass := fun h => (hclean 0 (by simp [h])).1 rfl
  have hiff := keepsCredentials_iff hslen.2 hplen hs0 hp0 part rodata
  refine ⟨fun w sock env₁ env₂ env₃ env₄ hallow hflash => ⟨(ssid, pass), ?_, hiff⟩,
    fun b hfree => ⟨⟨(ssid, pass), terminated (ssid, pass)⟩, ?_, rfl, hiff⟩⟩
  · exact tcpFlow_stored hs hp hallow (by omega) (by omega) hs0 hp0 env₁ env₂ env₃ hflash
  · exact bleFlow_commits hfree hslen.1 hslen.2 hplen hs0 hp0

theorem allowed_of_no_password {P : Platform} {w : World} {sock : Nat}
    (h : devicePasswordIsSet w.pw = false) : Allowed P w sock := fun line => by
  simp only [accessPolicyAllow, isPublic, h, Bool.not_false, Bool.or_true, Bool.true_or, ite_true]

theorem credentials_round_trip_home :
    (∃ stored, (tcpFlow Sample.platform World.fresh 5 (ascii "Home") (ascii "secret") {} {} {}
        {}).pairing.stored = some stored ∧
      KeepsCredentials (flashStoreWifiRouterInfo (fun _ => 0) [] (terminated stored))
        (ascii "Home") (ascii "secret")) ∧
    ∃ c, (run bleStep {} (bleFlow (ascii "Home") (ascii "secret"))).commits = [c] ∧
      KeepsCredentials (flashStoreWifiRouterInfo (fun _ => 0) [] c.stored)
        (ascii "Home") (ascii "secret") := by
  have hpct : ∀ c ∈ ascii "Home" ++ ascii "secret", c ≠ 37 := by decide +kernel
  obtain ⟨htcp, hble⟩ := credentials_round_trip Sample.platform rfl rfl (ascii "Home")
    (ascii "secret") (by decide +kernel) (by decide +kernel) (by decide +kernel) (fun _ => 0) []
  obtain ⟨stored, hstored, hkeeps⟩ :=
    htcp World.fresh 5 {} {} {} {} (allowed_of_no_password rfl) rfl
  obtain ⟨c, hcommits, -, hkeeps'⟩ := hble {} rfl
  exact ⟨⟨stored, hstored, hkeeps.mpr hpct⟩, c, hcommits, hkeeps'.mpr hpct⟩

/-- The read-back strings are used as formats: of two percent signs one is left. -/
theorem percent_sign_lost :
    (tcpFlow Sample.platform World.fresh 5 (ascii "a%%b") (ascii "secret") {} {} {}
        {}).pairing.stored = some (ascii "a%%b", ascii "secret") ∧
      cythingBegin (flashStoreWifiRouterInfo (fun _ => 0) []
        (terminated (ascii "a%%b", ascii "secret"))) =
        .station (.of (ascii "a%b") (ascii "secret")) ∧
      (StaConfig.of (ascii "a%b") (ascii "secret")).ssid ≠
        (wifiTrialConfig (ascii "a%%b") (ascii "secret")).ssid := by
  refine ⟨by decide +kernel, by decide +kernel, by decide +kernel⟩

end CyThing
