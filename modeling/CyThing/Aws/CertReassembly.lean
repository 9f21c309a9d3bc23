import CyThing.Aws.ProvisioningRun
import CyThing.Lib.InOrder
import Mathlib.Data.List.Flatten

/-! The certificate in the `CERT` lines after a `DEVID`: which line is answered `CERTOK`, what is
in `g_prov_cert_pem` then, and that the reassembly stays in its buffer, for chunks among
duplicated, stale, skipped-ahead and wrong-total lines. -/

namespace CyThing
open CLib Trace InOrder

/-! ## The chunks and what comes -/

def sentChunks (chunks : List Bytes) : List CertChunk :=
  chunks.mapIdx fun i chunk => ⟨i + 1, chunks.length, chunk⟩

def ProvEvent.cert? : ProvEvent → Option CertChunk
  | .line bytes _ => if provKind bytes = some .cert then certFields (provText bytes) else none
  | .reboot => none

def heard (events : List ProvEvent) : List CertChunk := events.filterMap ProvEvent.cert?

def HeardAll (chunks : List Bytes) (events : List ProvEvent) : Prop :=
  (sentChunks chunks).Sublist (heard events)

instance (chunks : List Bytes) (events : List ProvEvent) : Decidable (HeardAll chunks events) :=
  inferInstanceAs (Decidable (List.Sublist _ _))

def provReply (P : Platform) (p : Provisioning) : ProvEvent → Option Bytes
  | .line bytes env => (provisioningHandleTcpLine P env p bytes).map Prod.snd
  | .reboot => none

def certOf (P : Platform) (text : Bytes) : Option Bytes :=
  if text.length < certB64BufLen then P.decodeInto (provCertPemMax - 1) text else none

structure CertLines (chunks : List Bytes) (events : List ProvEvent) : Prop where
  kinds : ∀ e ∈ events, e.kind? = some .cert
  copies : ∀ c ∈ heard events, c.total = chunks.length → 1 ≤ c.seq → c.seq ≤ chunks.length →
    c ∈ sentChunks chunks

structure HandshakeIdle (p : Provisioning) : Prop where
  state : p.state = .idle
  sourceTerminalId : p.pendingSourceTerminalId = []
  iotEndpoint : p.pendingIotEndpoint = []
  deviceId : p.pendingDeviceId = []
  certB64 : p.certB64 = []
  certTotalChunks : p.certTotalChunks = 0
  certNextSeq : p.certNextSeq = 1

def Spoiled (chunks : List Bytes) (k : Nat) : Prop :=
  certB64BufLen ≤ (chunks.take k).flatten.length ∨ k = chunks.length

structure CertAnswered (P : Platform) (chunks : List Bytes) (pem₀ : Bytes)
    (before : List ProvEvent) (p : Provisioning) (e : ProvEvent) : Prop where
  length : (provStep P p e).certB64.length < certB64BufLen
  certok : provReply P p e = some (ascii "CERTOK") ↔
    HeardAll chunks (before ++ [e]) ∧ ¬ HeardAll chunks before ∧
      (certOf P chunks.flatten).isSome
  pem : ∀ pem, certOf P chunks.flatten = some pem →
    (provStep P p e).certPem = if HeardAll chunks (before ++ [e]) then pem else pem₀
  reset : certOf P chunks.flatten = none →
    (provStep P p e).certPem = pem₀ ∧
      ∀ k ≤ chunks.length, Spoiled chunks k →
        ((sentChunks chunks).take k).Sublist (heard (before ++ [e])) →
        HandshakeIdle (provStep P p e)

/-! ## One line -/

section Chunks

variable {chunks : List Bytes} {c : CertChunk} {k : Nat}

@[simp]
theorem length_sentChunks (chunks : List Bytes) : (sentChunks chunks).length = chunks.length :=
  List.length_mapIdx

theorem getElem?_sentChunks : (sentChunks chunks)[k]? = some c ↔
    c.seq = k + 1 ∧ c.total = chunks.length ∧ chunks[k]? = some c.bytes := by
  rw [sentChunks, List.getElem?_mapIdx, Option.map_eq_some_iff]
  constructor
  · rintro ⟨chunk, hchunk, rfl⟩
    exact ⟨rfl, rfl, hchunk⟩
  · rintro ⟨hseq, htotal, hchunk⟩
    exact ⟨c.bytes, hchunk, by rw [← hseq, ← htotal]⟩

theorem getElem?_of_mem_sentChunks (h : c ∈ sentChunks chunks) (hseq : c.seq = k + 1) :
    (sentChunks chunks)[k]? = some c := by
  obtain ⟨j, hj⟩ := List.mem_iff_getElem?.mp h
  have hjk : j = k := by
    have hj := (getElem?_sentChunks.mp hj).1
    omega
  exact hjk ▸ hj

theorem heardAll_iff {events : List ProvEvent} :
    HeardAll chunks events ↔
      progress (sentChunks chunks) (heard events) = chunks.length := by
  rw [HeardAll, sublist_iff, length_sentChunks]

theorem heard_append (events events' : List ProvEvent) :
    heard (events ++ events') = heard events ++ heard events' := List.filterMap_append

theorem heard_concat (events : List ProvEvent) (e : ProvEvent) :
    heard (events ++ [e]) = heard events ++ e.cert?.toList := by
  rw [heard_append]
  cases hc : e.cert? <;> simp [heard, hc]

theorem progress_heard_concat {chunks : List CertChunk} {events : List ProvEvent} {e : ProvEvent}
    (hno : ∀ c ∈ e.cert?, chunks[progress chunks (heard events)]? ≠ some c) :
    progress chunks (heard (events ++ [e])) = progress chunks (heard events) := by
  rw [heard_concat]
  cases hc : e.cert? with
  | none => rw [Option.toList_none, List.append_nil]
  | some c => rw [Option.toList_some, progress_concat, if_neg (hno c hc)]

end Chunks

section CertStep

variable {P : Platform} {p : Provisioning} {e : ProvEvent}

theorem certStep_quiet (hk : e.kind? = some .cert) (h : e.cert?.filter p.expects = none) :
    provStep P p e = p ∧ provReply P p e = some (ascii "ACK") := by
  cases e with
  | reboot => cases hk
  | line bytes env =>
    have hk : provKind bytes = some .cert := hk
    rw [ProvEvent.cert?, if_pos hk] at h
    simp only [provStep, provReply, provisioningHandleTcpLine_eq, hk, Option.map_some, provHandle,
      handleCert_answer, h, and_self]

theorem certStep_accept {c : CertChunk} (h : e.cert? = some c) (hexp : p.expects c = true) :
    provStep P p e = (acceptCertChunk P p c.seq c.total c.bytes).1 ∧
      provReply P p e = some (acceptCertChunk P p c.seq c.total c.bytes).2 := by
  cases e with
  | reboot => cases h
  | line bytes env =>
    rw [ProvEvent.cert?] at h
    split at h
    · next hk =>
      have hfilter : (certFields (provText bytes)).filter p.expects = some c := by
        rw [h, Option.filter_some, if_pos hexp]
      simp only [provStep, provReply, provisioningHandleTcpLine_eq, hk, Option.map_some,
        provHandle, handleCert_answer, hfilter, and_self]
    · cases h

end CertStep

/-! ## The transfer -/

inductive CertPhase (P : Platform) (chunks : List Bytes) (pem₀ : Bytes) (k : Nat)
    (p : Provisioning) : Prop
  | collecting (more : k < chunks.length) (state : p.state = .receivingCert)
      (next : p.certNextSeq = k + 1)
      (total : k ≠ 0 → p.certTotalChunks = chunks.length)
      (unset : k = 0 → p.certTotalChunks = 0)
      (b64 : p.certB64 = (chunks.take k).flatten) (short : p.certB64.length < certB64BufLen)
      (pem : p.certPem = pem₀)
  | done (pos : 0 < chunks.length) (all : k = chunks.length)
      (cert : certOf P chunks.flatten = some p.certPem)
      (short : p.certB64.length < certB64BufLen)
      (past : p.state = .receivingCert →
        p.certTotalChunks = chunks.length ∧ chunks.length < p.certNextSeq)
  | failed (cert : certOf P chunks.flatten = none) (idle : HandshakeIdle p)
      (pem : p.certPem = pem₀)

section Transfer

variable {P : Platform} {chunks : List Bytes} {pem₀ : Bytes} {k : Nat} {p : Provisioning}
  {c : CertChunk} {e : ProvEvent}

theorem handshakeIdle_resetHandshake (p : Provisioning) : HandshakeIdle p.resetHandshake :=
  ⟨rfl, rfl, rfl, rfl, rfl, rfl, rfl⟩

theorem CertPhase.short (h : CertPhase P chunks pem₀ k p) : p.certB64.length < certB64BufLen := by
  cases h with
  | collecting _ _ _ _ _ _ short => exact short
  | done _ _ _ short => exact short
  | failed _ idle =>
    rw [idle.certB64]
    exact (by decide : 0 < certB64BufLen)

theorem CertPhase.accept (more : k < chunks.length) (state : p.state = .receivingCert)
    (next : p.certNextSeq = k + 1) (b64 : p.certB64 = (chunks.take k).flatten)
    (pem : p.certPem = pem₀) (hc : (sentChunks chunks)[k]? = some c) :
    CertPhase P chunks pem₀ (k + 1) (acceptCertChunk P p c.seq c.total c.bytes).1 ∧
      ((acceptCertChunk P p c.seq c.total c.bytes).2 = ascii "CERTOK" ↔
        k + 1 = chunks.length ∧ (certOf P chunks.flatten).isSome) := by
  obtain ⟨hseq, htotal, hchunk⟩ := getElem?_sentChunks.mp hc
  have htext : p.certB64 ++ c.bytes = (chunks.take (k + 1)).flatten := by
    rw [b64, List.take_add_one, hchunk]
    simp
  have hack : ascii "ACK" ≠ ascii "CERTOK" := by decide
  have hle : (p.certB64 ++ c.bytes).length ≤ chunks.flatten.length := by
    have hall : (p.certB64 ++ c.bytes) ++ (chunks.drop (k + 1)).flatten = chunks.flatten := by
      rw [htext, ← List.flatten_append, List.take_append_drop]
    exact hall ▸ (List.sublist_append_left _ _).length_le
  rw [acceptCertChunk]
  dsimp only
  rw [← List.length_append]
  by_cases hlong : certB64BufLen ≤ (p.certB64 ++ c.bytes).length
  · have hnone : certOf P chunks.flatten = none := if_neg (by omega)
    rw [if_pos hlong]
    exact ⟨.failed hnone (handshakeIdle_resetHandshake _) pem, by simp [hack, hnone]⟩
  rw [if_neg hlong]
  by_cases hlast : k + 1 = chunks.length
  · rw [if_pos (by rw [hseq, htotal, ← hlast]; rfl), htext, hlast, List.take_length]
    rw [htext, hlast, List.take_length] at hlong
    have hcert : certOf P chunks.flatten = P.decodeInto (provCertPemMax - 1) chunks.flatten :=
      if_pos (Nat.not_le.mp hlong)
    cases hd : P.decodeInto (provCertPemMax - 1) chunks.flatten with
    | none =>
      rw [hd] at hcert
      exact ⟨.failed hcert (handshakeIdle_resetHandshake _) pem, by simp [hack, hcert]⟩
    | some pem =>
      rw [hd] at hcert
      refine ⟨.done (by omega) rfl hcert (Nat.not_le.mp hlong) fun _ => ⟨htotal, ?_⟩,
        by simp [hcert]⟩
      change (chunks.length : Int) < p.certNextSeq + 1
      omega
  · rw [if_neg (by rw [hseq, htotal]; omega)]
    refine ⟨.collecting (by omega) state ?_ (fun _ => htotal) (fun h0 => by omega) htext
      (Nat.not_le.mp hlong) pem, by simp [hack, hlast]⟩
    change p.certNextSeq + 1 = _
    omega

theorem accept_past (hne : c.seq ≠ c.total) :
    (acceptCertChunk P p c.seq c.total c.bytes).2 = ascii "ACK" ∧
      (acceptCertChunk P p c.seq c.total c.bytes).1.certPem = p.certPem ∧
      (acceptCertChunk P p c.seq c.total c.bytes).1.certB64.length < certB64BufLen ∧
      ((acceptCertChunk P p c.seq c.total c.bytes).1.state = .receivingCert →
        (acceptCertChunk P p c.seq c.total c.bytes).1.certTotalChunks = c.total ∧
        (acceptCertChunk P p c.seq c.total c.bytes).1.certNextSeq = p.certNextSeq + 1) := by
  rw [acceptCertChunk]
  dsimp only
  rw [← List.length_append]
  rw [if_neg hne]
  split
  · exact ⟨rfl, rfl, (by decide : 0 < certB64BufLen), fun h => by cases h⟩
  · next hfit => exact ⟨rfl, rfl, Nat.not_le.mp hfit, fun _ => ⟨rfl, rfl⟩⟩

theorem HandshakeIdle.not_expects (h : HandshakeIdle p) : p.expects c = false := by
  rw [Bool.eq_false_iff]
  intro hexp
  have hstate := (expects_iff.mp hexp).1
  rw [h.state] at hstate
  cases hstate

theorem filter_expects_eq_none (h : ∀ c ∈ e.cert?, p.expects c = false) :
    e.cert?.filter p.expects = none := by
  cases hc : e.cert? with
  | none => rfl
  | some c => rw [Option.filter_some, h c hc, if_neg Bool.false_ne_true]

theorem CertPhase.next (h : CertPhase P chunks pem₀ k p) (hkind : e.kind? = some .cert)
    (hc : e.cert? = some c) (hk : (sentChunks chunks)[k]? = some c) :
    CertPhase P chunks pem₀ (k + 1) (provStep P p e) ∧
      (provReply P p e = some (ascii "CERTOK") ↔
        k + 1 = chunks.length ∧ (certOf P chunks.flatten).isSome) := by
  obtain ⟨hseq, htotal, hchunk⟩ := getElem?_sentChunks.mp hk
  cases h with
  | collecting more state next total unset b64 short pem =>
    have hexp : p.expects c = true := by
      refine expects_iff.mpr ⟨state, hseq.trans next.symm, ?_⟩
      by_cases h0 : k = 0
      · exact .inl (unset h0)
      · exact .inr (htotal.trans (total h0).symm)
    obtain ⟨hstep, hreply⟩ := certStep_accept (P := P) hc hexp
    rw [hstep, hreply, Option.some_inj]
    exact CertPhase.accept more state next b64 pem hk
  | done _ all =>
    rw [all, List.getElem?_eq_none (le_refl _)] at hchunk
    cases hchunk
  | failed cert idle pem =>
    obtain ⟨hstep, hreply⟩ := certStep_quiet (P := P) hkind
      (filter_expects_eq_none fun c _ => idle.not_expects)
    rw [hstep, hreply, cert]
    exact ⟨.failed cert idle pem, by simp [show ascii "ACK" ≠ ascii "CERTOK" by decide]⟩

theorem CertPhase.other (h : CertPhase P chunks pem₀ k p) (hkind : e.kind? = some .cert)
    (hno : ∀ c ∈ e.cert?, (sentChunks chunks)[k]? ≠ some c)
    (hcopy : ∀ c ∈ e.cert?, c.total = chunks.length → 1 ≤ c.seq → c.seq ≤ chunks.length →
      c ∈ sentChunks chunks)
    (hfirst : ∀ c ∈ e.cert?, k = 0 → c.seq = 1 → c.total = chunks.length) :
    CertPhase P chunks pem₀ k (provStep P p e) ∧
      provReply P p e ≠ some (ascii "CERTOK") := by
  -- before the first chunk the total is not known, so there a line with sequence number 1 has to be
  -- the chunk's
  have hack : some (ascii "ACK") ≠ some (ascii "CERTOK") := by decide
  cases hq : e.cert?.filter p.expects with
  | none =>
    obtain ⟨hstep, hreply⟩ := certStep_quiet (P := P) hkind hq
    rw [hstep, hreply]
    exact ⟨h, hack⟩
  | some c =>
    obtain ⟨hc, hexp⟩ := Option.filter_eq_some_iff.mp hq
    obtain ⟨hstate, hnext, htot⟩ := expects_iff.mp hexp
    cases h with
    | collecting more state next total unset b64 short pem =>
      -- it would be the next chunk
      have hseq : c.seq = k + 1 := hnext.trans next
      have htotal : c.total = chunks.length := by
        by_cases h0 : k = 0
        · exact hfirst c hc h0 (by omega)
        · have := total h0
          omega
      exact absurd
        (getElem?_of_mem_sentChunks (hcopy c hc htotal (by omega) (by omega)) hseq) (hno c hc)
    | done pos all cert short past =>
      obtain ⟨htotal, hpast⟩ := past hstate
      have hne : c.seq ≠ c.total := by omega
      obtain ⟨hreply, hpem, hshort, hgo⟩ := accept_past (P := P) (p := p) hne
      obtain ⟨hstep, hreply'⟩ := certStep_accept (P := P) hc hexp
      rw [hstep, hreply', hreply]
      refine ⟨.done pos all (hpem ▸ cert) hshort fun hs => ?_, hack⟩
      obtain ⟨ht, hn⟩ := hgo hs
      omega
    | failed cert idle pem =>
      rw [idle.not_expects] at hexp
      cases hexp

end Transfer

/-! ## Every sequence of lines -/

section Run

variable {P : Platform} {chunks : List Bytes} {events before : List ProvEvent} {e : ProvEvent}
  {p₀ : Provisioning} {d : ProvEvent}

theorem CertLines.append_left {events' : List ProvEvent}
    (h : CertLines chunks (events ++ events')) : CertLines chunks events where
  kinds e he := h.kinds e (List.mem_append_left _ he)
  copies c hc := h.copies c (by rw [heard_append]; exact List.mem_append_left _ hc)

def FirstIsChunk (chunks : List Bytes) (events : List ProvEvent) : Prop :=
  ∀ c ∈ (heard events).find? (fun c => c.seq = 1), c.total = chunks.length

theorem FirstIsChunk.append_left {events' : List ProvEvent}
    (h : FirstIsChunk chunks (events ++ events')) : FirstIsChunk chunks events := by
  intro c hc
  exact h c (by rw [heard_append, List.find?_append, Option.mem_def.mp hc, Option.some_or]; rfl)

theorem certPhase_devid (hne : chunks ≠ []) (hd : d.devid? ≠ none) :
    CertPhase P chunks p₀.certPem 0 (provStep P p₀ d) := by
  cases d with
  | reboot => exact absurd rfl hd
  | line bytes env =>
    have hk : provKind bytes = some .devid := by
      by_contra hk
      exact hd (if_neg hk)
    have hstep : provStep P p₀ (.line bytes env) = (handleDevid p₀ (provText bytes)).1 := by
      simp only [provStep, provisioningHandleTcpLine_eq, hk, Option.map_some, provHandle]
    rw [hstep]
    exact .collecting (List.length_pos_iff.mpr hne) rfl rfl (fun h => absurd rfl h) (fun _ => rfl)
      rfl (by decide : 0 < certB64BufLen) rfl

theorem first_of_progress_zero (hlines : CertLines chunks (before ++ [e]))
    (hfirst : FirstIsChunk chunks (before ++ [e])) (hne : chunks ≠ [])
    (h0 : progress (sentChunks chunks) (heard before) = 0) {c : CertChunk} (hc : e.cert? = some c)
    (hseq : c.seq = 1) : c.total = chunks.length := by
  -- while no chunk is taken, no line with sequence number 1 has come
  have hlen : 1 ≤ (sentChunks chunks).length := by
    rw [length_sentChunks]
    exact List.length_pos_iff.mpr hne
  cases hfind : (heard before).find? (fun c => c.seq = 1) with
  | none =>
    refine hfirst c ?_
    rw [heard_concat, List.find?_append, hfind, hc, Option.none_or, Option.toList_some,
      List.find?_singleton, if_pos (by simpa using hseq), Option.mem_some_iff]
  | some b =>
    -- that one was a chunk's line, so the first chunk would be taken
    exfalso
    have hb := List.find?_some hfind
    have hmem := List.mem_of_find?_eq_some hfind
    have hbseq : b.seq = 1 := by simpa using hb
    have hbtotal := hfirst.append_left b hfind
    have hsent := hlines.append_left.copies b hmem hbtotal (by omega)
      (by have := List.length_pos_iff.mpr hne; omega)
    have hhead := getElem?_of_mem_sentChunks hsent (k := 0) (by omega)
    have htake : (sentChunks chunks).take 1 = [b] := by
      rw [List.take_add_one, hhead]
      rfl
    have hone := (take_sublist_iff (m := heard before) hlen).mp
      (by rw [htake]; exact List.singleton_sublist.mpr hmem)
    omega

theorem certPhase_concat (hne : chunks ≠ []) {p : Provisioning} {pem₀ : Bytes}
    (hlines : CertLines chunks (before ++ [e])) (hfirst : FirstIsChunk chunks (before ++ [e]))
    (h : CertPhase P chunks pem₀ (progress (sentChunks chunks) (heard before)) p) :
    CertPhase P chunks pem₀ (progress (sentChunks chunks) (heard (before ++ [e])))
        (provStep P p e) ∧
      (provReply P p e = some (ascii "CERTOK") ↔
        HeardAll chunks (before ++ [e]) ∧ ¬ HeardAll chunks before ∧
          (certOf P chunks.flatten).isSome) := by
  have hkind := hlines.kinds e (List.mem_append_right _ (List.mem_singleton_self e))
  have hcopy : ∀ c ∈ e.cert?, c.total = chunks.length → 1 ≤ c.seq → c.seq ≤ chunks.length →
      c ∈ sentChunks chunks := by
    intro c hc
    refine hlines.copies c ?_
    rw [heard_concat]
    exact List.mem_append_right _ (Option.mem_toList.mpr hc)
  rw [heardAll_iff, heardAll_iff]
  by_cases hnext : ∃ c ∈ e.cert?,
      (sentChunks chunks)[progress (sentChunks chunks) (heard before)]? = some c
  · obtain ⟨c, hc, hk⟩ := hnext
    have hheard : heard (before ++ [e]) = heard before ++ [c] := by
      rw [heard_concat, Option.mem_def.mp hc, Option.toList_some]
    obtain ⟨hlt, -⟩ := List.getElem?_eq_some_iff.mp hk
    rw [length_sentChunks] at hlt
    obtain ⟨hphase, hreply⟩ := h.next hkind hc hk
    rw [hheard, progress_concat, if_pos hk]
    refine ⟨hphase, hreply.trans ?_⟩
    have hmore : progress (sentChunks chunks) (heard before) ≠ chunks.length := by omega
    rw [and_iff_right hmore]
  · have hno : ∀ c ∈ e.cert?,
        (sentChunks chunks)[progress (sentChunks chunks) (heard before)]? ≠ some c :=
      fun c hc hk => hnext ⟨c, hc, hk⟩
    obtain ⟨hphase, hreply⟩ := h.other hkind hno hcopy fun c hc h0 hseq =>
      first_of_progress_zero hlines hfirst hne h0 hc hseq
    rw [progress_heard_concat hno]
    exact ⟨hphase, ⟨fun hr => absurd hr hreply, fun hr => absurd hr.1 hr.2.1⟩⟩

theorem certPhase_run (hne : chunks ≠ []) (hd : d.devid? ≠ none) (events : List ProvEvent)
    (hlines : CertLines chunks events) (hfirst : FirstIsChunk chunks events) :
    CertPhase P chunks p₀.certPem (progress (sentChunks chunks) (heard events))
      (run (provStep P) p₀ (d :: events)) := by
  induction events using List.reverseRecOn with
  | nil => exact certPhase_devid hne hd
  | append_singleton events e ih =>
    rw [← List.cons_append, run_append]
    exact (certPhase_concat hne hlines hfirst
      (ih hlines.append_left hfirst.append_left)).1

end Run

/-- After any `DEVID`, for a text in any chunks and every sequence of `CERT` lines with copies of
the chunks' lines among others that are none, the first line with sequence number 1 being a
chunk's: how each line is answered. -/
theorem certificate_reassembled (P : Platform) (p₀ : Provisioning) (d : ProvEvent)
    (hd : d.devid? ≠ none) (chunks : List Bytes) (hne : chunks ≠ []) (events : List ProvEvent)
    (hlines : CertLines chunks events) (hfirst : FirstIsChunk chunks events)
    (before : List ProvEvent) (e : ProvEvent) (hpre : before ++ [e] <+: events) :
    CertAnswered P chunks p₀.certPem before (run (provStep P) p₀ (d :: before)) e := by
  obtain ⟨after, rfl⟩ := hpre
  have hbefore : CertPhase P chunks p₀.certPem (progress (sentChunks chunks) (heard before))
      (run (provStep P) p₀ (d :: before)) :=
    certPhase_run hne hd before hlines.append_left.append_left hfirst.append_left.append_left
  obtain ⟨hphase, hreply⟩ :=
    certPhase_concat hne hlines.append_left hfirst.append_left hbefore
  refine ⟨hphase.short, hreply, ?_, ?_⟩
  · intro pem hpem
    cases hphase with
    | collecting more _ _ _ _ _ _ same => rw [if_neg (heardAll_iff.not.mpr more.ne), same]
    | done _ all cert => rw [if_pos (heardAll_iff.mpr all), ← Option.some_inj, ← cert, hpem]
    | failed cert =>
      rw [hpem] at cert
      cases cert
  · intro hnone
    cases hphase with
    | collecting more _ _ _ _ b64 short same =>
      refine ⟨same, fun k hk hspoiled hheard => ?_⟩
      -- the first `k` chunks are taken, and so far the text fits and is not complete
      have hle := (take_sublist_iff (by rwa [length_sentChunks])).mp hheard
      rw [b64] at short
      rcases hspoiled with hlong | rfl
      · have hsub := (List.take_sublist_take_left (l := chunks) hle).flatten.length_le
        omega
      · omega
    | done _ _ cert =>
      rw [hnone] at cert
      cases cert
    | failed _ idle same => exact ⟨same, fun _ _ _ _ => idle⟩

namespace Sample

def certChunks : List Bytes := [ascii "Q0VS", ascii "VA=="]

def mixedCertLines : List ProvEvent :=
  [provLine "CERT:2:2:VA==", provLine "CERT:1:2:Q0VS", provLine "CERT:1:2:Q0VS",
    provLine "CERT:2:3:VA==", provLine "CERT:2:2:VA==", provLine "CERT:3:2:AAAA"]

theorem certificate_reassembled_mixed :
    CertAnswered csrPlatform certChunks [] (mixedCertLines.take 4)
        (run (provStep csrPlatform) {} (provLine "DEVID:device" :: mixedCertLines.take 4))
        (provLine "CERT:2:2:VA==") ∧
      HeardAll certChunks (mixedCertLines.take 4 ++ [provLine "CERT:2:2:VA=="]) ∧
      certOf csrPlatform certChunks.flatten = some (ascii "CERT") ∧
      CertAnswered csrPlatform [ascii "Q0VS", ascii "V"] [] [provLine "CERT:1:2:Q0VS"]
        (run (provStep csrPlatform) {} [provLine "DEVID:device", provLine "CERT:1:2:Q0VS"])
        (provLine "CERT:2:2:V") ∧
      HeardAll [ascii "Q0VS", ascii "V"] [provLine "CERT:1:2:Q0VS", provLine "CERT:2:2:V"] ∧
      certOf csrPlatform (ascii "Q0VSV") = none :=
  ⟨certificate_reassembled csrPlatform {} (provLine "DEVID:device") (by decide +kernel) certChunks
    (by decide) mixedCertLines ⟨by decide +kernel, by decide +kernel⟩ (by
      unfold FirstIsChunk
      decide +kernel) (mixedCertLines.take 4) (provLine "CERT:2:2:VA==")
    ⟨[provLine "CERT:3:2:AAAA"], rfl⟩, by decide +kernel, by decide +kernel,
    certificate_reassembled csrPlatform {} (provLine "DEVID:device") (by decide +kernel)
      [ascii "Q0VS", ascii "V"] (by decide) [provLine "CERT:1:2:Q0VS", provLine "CERT:2:2:V"]
      ⟨by decide +kernel, by decide +kernel⟩ (by
        unfold FirstIsChunk
        decide +kernel) [provLine "CERT:1:2:Q0VS"] (provLine "CERT:2:2:V") ⟨[], rfl⟩,
    by decide +kernel, by decide +kernel⟩

/-- Before the first chunk any total will do: a line with sequence number 1 and a wrong total is
taken for the certificate, and the chunks that follow are ignored. -/
def wrongTotalFirst : List ProvEvent :=
  [provLine "CERT:1:1:QUJD", provLine "CERT:1:2:Q0VS", provLine "CERT:2:2:VA=="]

theorem wrong_total_taken :
    CertLines certChunks wrongTotalFirst ∧ HeardAll certChunks wrongTotalFirst ∧
      certOf csrPlatform certChunks.flatten = some (ascii "CERT") ∧
      provReply csrPlatform (run (provStep csrPlatform) {} [provLine "DEVID:device"])
          (provLine "CERT:1:1:QUJD") = some (ascii "CERTOK") ∧
      (run (provStep csrPlatform) {} (provLine "DEVID:device" :: wrongTotalFirst)).certPem =
        ascii "ABC" ∧
      ¬ CertAnswered csrPlatform certChunks [] []
        (run (provStep csrPlatform) {} [provLine "DEVID:device"]) (provLine "CERT:1:1:QUJD") := by
  obtain ⟨hall, hcert, hreply, hpem, hearly⟩ :
      HeardAll certChunks wrongTotalFirst ∧
      certOf csrPlatform certChunks.flatten = some (ascii "CERT") ∧
      provReply csrPlatform (run (provStep csrPlatform) {} [provLine "DEVID:device"])
          (provLine "CERT:1:1:QUJD") = some (ascii "CERTOK") ∧
      (run (provStep csrPlatform) {} (provLine "DEVID:device" :: wrongTotalFirst)).certPem =
        ascii "ABC" ∧
      ¬ HeardAll certChunks [provLine "CERT:1:1:QUJD"] := by decide +kernel
  exact ⟨⟨by decide +kernel, by decide +kernel⟩, hall, hcert, hreply, hpem,
    fun h => hearly (h.certok.mp hreply).1⟩

end Sample

end CyThing
