import CyThing.Handshake
import CyThing.PairedSessions
import CyThing.Sample
import CyThing.Lib.Layout
import CyThing.Security.EncFrameBuffers

/-! The firmware and the reference client on one connection: `authenticate` sends, the receive
task collects bytes into lines and handles them, and what the device sends back arrives cut in
any way. -/

namespace CyThing
open CLib Client

/-! ## The device at the other end -/

structure RecvTask where
  w : World
  rx : Bytes := []
  lines : Nat := 0

/-- One round of `tcp_client_recv_task`; an oversized line is dropped. -/
def RecvTask.recvByte (P : Platform) (env : Nat → Env) (sock : Nat) (d : RecvTask)
    (b : UInt8) : RecvTask :=
  let rx := d.rx ++ [b]
  if tcpReceiveDataLength ≤ rx.length then { d with rx := [] }
  else if b = 10 then
    { w := step P d.w (.line sock rx.dropLast (env d.lines)), lines := d.lines + 1 }
  else { d with rx := rx }

/-- How a network delivers a stream of bytes: in order, whole, in pieces of its own choice. -/
structure Network where
  cut : Bytes → List Bytes
  flatten_cut : ∀ b, (cut b).flatten = b
  cut_ne : ∀ b, ∀ c ∈ cut b, c ≠ []

def sentSince (sock : Nat) (before out : List Sent) : Bytes :=
  ((out.drop before.length).filter fun x => x.sock == sock).flatMap Sent.bytes

def RecvTask.answer (P : Platform) (env : Nat → Env) (net : Network) (sock : Nat) (d : RecvTask)
    (wire : Bytes) : RecvTask × List Bytes :=
  let d' := wire.foldl (RecvTask.recvByte P env sock) d
  (d', net.cut (sentSince sock d.w.out d'.w.out))

section Bytes

variable (P : Platform) (env : Nat → Env) (sock : Nat)

theorem RecvTask.foldl_recvByte {line : Bytes} (hline : 10 ∉ line) (d : RecvTask)
    (hlen : d.rx.length + line.length < tcpReceiveDataLength) :
    line.foldl (RecvTask.recvByte P env sock) d = { d with rx := d.rx ++ line } := by
  induction line generalizing d with
  | nil => simp
  | cons b line ih =>
    rw [List.mem_cons, not_or] at hline
    rw [List.length_cons] at hlen
    have hbyte : d.recvByte P env sock b = { d with rx := d.rx ++ [b] } := by
      have hshort : ¬ tcpReceiveDataLength ≤ (d.rx ++ [b]).length := by
        rw [List.length_append, List.length_singleton]
        omega
      simp only [RecvTask.recvByte, if_neg hshort, if_neg (Ne.symm hline.1)]
    have hlen' : (d.rx ++ [b]).length + line.length < tcpReceiveDataLength := by
      rw [List.length_append, List.length_singleton]
      omega
    rw [List.foldl_cons, hbyte, ih hline.2 _ hlen']
    simp only [List.append_assoc, List.singleton_append]

theorem RecvTask.recv_line {line : Bytes} (hline : 10 ∉ line)
    (hlen : line.length + 1 < tcpReceiveDataLength) (w : World) (n : Nat) :
    (line ++ [10]).foldl (RecvTask.recvByte P env sock) { w := w, lines := n } =
      { w := step P w (.line sock line (env n)), lines := n + 1 } := by
  have hshort : ¬ tcpReceiveDataLength ≤ (line ++ [10]).length := by
    rw [List.length_append, List.length_singleton]
    omega
  rw [List.foldl_append, RecvTask.foldl_recvByte P env sock hline { w := w, lines := n }
    (by simp only [List.length_nil]; omega)]
  simp only [List.foldl_cons, List.foldl_nil, RecvTask.recvByte, List.nil_append, if_neg hshort,
    if_true, List.dropLast_concat]

end Bytes

/-! ## The lines the device sends -/

def SendsLine (sock : Nat) (w w' : World) (text : Bytes) : Prop :=
  ∃ sent, w'.out = w.out ++ sent ∧ (∀ x ∈ sent, x.sock = sock) ∧
    sent.flatMap Sent.bytes = text ++ [10]

theorem SendsLine.sentSince {sock : Nat} {w w' : World} {text : Bytes}
    (h : SendsLine sock w w' text) :
    sentSince sock w.out w'.out = text ++ [10] := by
  obtain ⟨sent, hout, hsock, hbytes⟩ := h
  have hall : sent.filter (fun x => x.sock == sock) = sent :=
    List.filter_eq_self.mpr fun x hx => by simp [hsock x hx]
  rw [CyThing.sentSince, hout, List.drop_left, hall, hbytes]

section Handlers

variable {P : Platform} {env : Env} {w : World} {sock : Nat} {i : Slot} {line : Bytes}

theorem securitySendLine_sends (hi : localSessionFind w.pool sock = some i)
    (hk : (w.pool i).keyed = false) (text : Bytes) :
    SendsLine sock w (securitySendLine P w sock text) text ∧
      (securitySendLine P w sock text).pool = w.pool := by
  simp only [securitySendLine, encFrameSend, hi, hk, Bool.not_false, if_true]
  split_ifs
  · exact ⟨⟨[⟨sock, text ++ [10], w.keyOf sock⟩], rfl, by simp, by simp⟩, rfl⟩
  · refine ⟨⟨[⟨sock, text, w.keyOf sock⟩, ⟨sock, [10], w.keyOf sock⟩], ?_, by simp, by simp⟩, rfl⟩
    simp only [World.send, List.append_assoc]
    rfl

def World.plainLine (w : World) (i : Slot) : World :=
  w.setSession i { w.pool i with rxEncrypted := false }

theorem World.find_plainLine (hi : localSessionFind w.pool sock = some i) :
    localSessionFind (w.plainLine i).pool sock = some i :=
  localSessionFind_update hi rfl

def authKinds : List (Bytes × LineKind) := [(auth1Prefix, .auth1), (auth3Prefix, .auth3)]

theorem lineKind_auth {pre : Bytes} {k : LineKind} (hk : (pre, k) ∈ authKinds)
    (h : hasPrefix line pre = true) :
    lineKind line = k ∧ isHandshake line = true ∧ isEncLine line = false := by
  have hclash : ∀ p ∈ authKinds,
      ∀ q ∈ [pake1Prefix, pake3Prefix, enrollPrefix, auth1Prefix, auth3Prefix, encPrefix],
        q = p.1 ∨ hasPrefix q p.1 = false ∧ hasPrefix p.1 q = false := by decide +kernel
  have hno : ∀ q ∈ [pake1Prefix, pake3Prefix, enrollPrefix, auth1Prefix, auth3Prefix, encPrefix],
      q ≠ pre → hasPrefix line q = false := fun q hq hne =>
    not_hasPrefix_of_hasPrefix ((hclash _ hk q hq).resolve_left hne) h
  simp only [authKinds, List.mem_cons, Prod.mk.injEq, List.not_mem_nil, or_false] at hk
  simp only [List.forall_mem_cons, List.not_mem_nil, false_implies, implies_true, and_true] at hno
  obtain ⟨h1, h3, he, ha1, -, henc⟩ := hno
  rcases hk with ⟨rfl, rfl⟩ | ⟨rfl, rfl⟩
  · refine ⟨?_, ?_, ?_⟩
    · simp only [lineKind, h1 (by decide), h3 (by decide), he (by decide), h,
        Bool.false_eq_true, if_false, if_true]
    · simp only [isHandshake, show hasPrefix line (ascii "AUTH1:") = true from h, Bool.or_true,
        Bool.true_or]
    · rw [isEncLine, henc (by decide), Bool.and_false]
  · refine ⟨?_, ?_, ?_⟩
    · simp only [lineKind, h1 (by decide), h3 (by decide), he (by decide), ha1 (by decide), h,
        Bool.false_eq_true, if_false, if_true]
    · simp only [isHandshake, show hasPrefix line (ascii "AUTH3:") = true from h, Bool.or_true,
        Bool.true_or]
    · rw [isEncLine, henc (by decide), Bool.and_false]

theorem step_auth {pre : Bytes} {k : LineKind} (hk : (pre, k) ∈ authKinds)
    (hi : localSessionFind w.pool sock = some i) (h : pre <+: line) :
    step P w (.line sock line env) = handleKind P env (w.plainLine i) i sock line k := by
  obtain ⟨rfl, hshake, henc⟩ := lineKind_auth hk (hasPrefix_iff.mpr h)
  have hother : lineKind line ≠ .other := by
    intro heq
    rw [heq] at hk
    revert hk
    simp [authKinds]
  simp only [step, handleLine, encFrameUnwrap, henc, Bool.not_false, if_true, hi]
  exact tcpDispatchLine_of_handshake (World.find_plainLine hi) hshake hother

end Handlers

/-! ## Two sides that speak the same primitives -/

/-- What both sides take for granted: base64 is base64, AES-256-GCM opens what it sealed under
a nonce of 12 bytes and adds a tag of 16, and different keys give different proofs. -/
structure Platform.Interoperable (P : Platform) : Prop where
  encode_eq : P.base64Encode = Base64.encode
  decode_encode : ∀ b, P.base64Decode (Base64.encode b) = some b
  sealed : ∀ key nonce plain, nonce.length = encFrameNonceLen →
    ∃ ct, P.aeadEncrypt key nonce plain = some ct ∧ ct.length = plain.length + encFrameTagLen ∧
      P.aeadDecrypt key nonce ct = some plain
  proof_ne : ∀ k k' : Block 32, k ≠ k' → ∀ msg, P.hmacSha256 k.1 msg ≠ P.hmacSha256 k'.1 msg

theorem Platform.Interoperable.inverses {P : Platform} (h : P.Interoperable) : P.Inverses :=
  ⟨h.encode_eq, h.decode_encode, h.sealed⟩

structure PairedAccount (l : PairedBlob) (sub : Bytes) (key : Block pairedKeyLen) : Prop where
  named : toCstr sub (pairedSubMax + 1) = some sub
  row : ∃ r, pairedListFind l sub = some r ∧ (l.entries r).key = key

theorem PairedAccount.length_le {l : PairedBlob} {sub : Bytes} {key : Block pairedKeyLen}
    (h : PairedAccount l sub key) : sub.length ≤ pairedSubMax :=
  (toCstr_sub h.named).2

theorem PairedAccount.of_row {l : PairedBlob} (hwf : l.WellFormed) {r : Nat} (hr : r < l.count)
    (hname : toCstr (l.entries r).userSub (pairedSubMax + 1) = some (l.entries r).userSub) :
    PairedAccount l (l.entries r).userSub (l.entries r).key := by
  refine ⟨hname, ?_⟩
  rcases hfind : pairedListFind l (l.entries r).userSub with _ | k
  · exact absurd rfl (findLocked_eq_none.mp hfind r hr)
  · have hk : k = r := hwf.distinct k (findLocked_lt hfind) r hr (findLocked_sub hfind)
    exact ⟨k, rfl, by rw [hk]⟩

theorem parseEnroll_named {P : Platform} {line sub email : Bytes}
    (h : parseEnroll P line = some (sub, email)) :
    toCstr sub (pairedSubMax + 1) = some sub := by
  have hself : ∀ {b t : Bytes} {size : Nat}, toCstr b size = some t → t = b := by
    intro b t size ht
    simp only [toCstr] at ht
    split_ifs at ht
    exact (Option.some.inj ht).symm
  simp only [parseEnroll] at h
  split_ifs at h
  split at h
  · split at h
    · next hs _ =>
      cases h
      rwa [← hself hs] at hs
    · cases h
  · cases h

theorem PairedAccount.enrolled {P : Platform} {l : PairedBlob} (hwf : l.WellFormed)
    {line sub email : Bytes} (hparse : parseEnroll P line = some (sub, email)) {fate : NvsFate}
    {nvs : Option StoredList} {key : Block pairedKeyLen} {pairedAt : Nat} {e : Enrolled}
    (he : (pairedListAdd fate l nvs sub email key pairedAt).enrolled = some e) :
    PairedAccount (pairedListAdd fate l nvs sub email key pairedAt).list sub e.key := by
  obtain ⟨hadded, -⟩ := hwf.added (parseEnroll_sub hparse) he
  have hkey : ((pairedListAdd fate l nvs sub email key pairedAt).list.entries e.index).key =
      e.key := by
    rcases pairedListAdd_cases fate nvs sub email key pairedAt hwf.clear with
      ⟨hn, -, -⟩ | ⟨r, -, -, ha⟩ | ⟨-, -, -, ha⟩
    · rw [hn] at he
      cases he
    · rw [ha] at he ⊢
      cases he
      simp only [PairedBlob.refreshed, Function.update_self, PairedEntry.touch]
    · rw [ha] at he ⊢
      cases he
      simp only [PairedBlob.appended, Function.update_self, PairedEntry.touch]
  have hrow := PairedAccount.of_row hadded.wf hadded.index_lt
    (by rw [hadded.sub_eq]; exact parseEnroll_named hparse)
  rwa [hadded.sub_eq, hkey] at hrow

section Parse

variable {P : Platform} (hP : P.Interoperable)

include hP

theorem Platform.Interoperable.decodeInto {size : Nat} {b : Bytes} (h : b.length ≤ size) :
    P.decodeInto size (Base64.encode b) = some b := by
  simp [Platform.decodeInto, hP.decode_encode, Option.filter, h]

theorem parseAuth1_auth1Line {sub : Bytes} (hsub : toCstr sub (pairedSubMax + 1) = some sub)
    (np : Block localAuthNonceLen) :
    parseAuth1 P (auth1Line sub np.1) = some (sub, np) := by
  have hdrop : (auth1Line sub np.1).drop auth1Prefix.length =
      Base64.encode sub ++ 44 :: Base64.encode np.1 := Base64.drop_fields ..
  have hlong : ¬ (auth1Line sub np.1).length ≤ auth1Prefix.length := by
    intro h
    rw [List.drop_eq_nil_of_le h] at hdrop
    simp at hdrop
  have hcount : countFields (auth1Line sub np.1) auth1Prefix = 2 := by
    rw [countFields, if_neg hlong, hdrop, List.count_append, List.count_cons_self,
      List.count_eq_zero_of_not_mem (Base64.comma_notMem_encode sub),
      List.count_eq_zero_of_not_mem (Base64.comma_notMem_encode np.1)]
  have hlen : sub.length ≤ pairedSubMax + 1 := (toCstr_sub hsub).2.trans (Nat.le_succ _)
  have hnp : np.1.length ≤ localAuthNonceLen + 1 := np.2.le.trans (Nat.le_succ _)
  have hfields : decodeFields P (auth1Line sub np.1) auth1Prefix
      [pairedSubMax + 1, localAuthNonceLen + 1] = some [sub, np.1] := by
    simp only [decodeFields, if_neg hlong, hdrop, decodeFieldList, Base64.splitFirst_fields,
      hP.decodeInto hlen,
      Base64.comma_notMem_encode np.1, if_false, hP.decodeInto hnp, Option.map_some]
  simp only [parseAuth1, hcount]
  simp [hfields, hsub, np.2]

theorem parseAuth3_auth3Line (key : Bytes) (np nd : Bytes) :
    parseAuth3 P (auth3Line P key np nd) = some (hmac256 P key (ascii "phn" ++ nd ++ np)) := by
  generalize hmac : hmac256 P key (ascii "phn" ++ nd ++ np) = mac
  have hdrop : (auth3Line P key np nd).drop auth3Prefix.length = Base64.encode mac.1 := by
    rw [auth3Line, hmac]
    exact List.drop_left
  have hlong : ¬ (auth3Line P key np nd).length ≤ auth3Prefix.length := by
    intro h
    have hnil := congrArg List.length hdrop
    rw [List.drop_eq_nil_of_le h, Base64.length_encode, mac.2] at hnil
    simp at hnil
  have hfit : mac.1.length ≤ localAuthMacLen + 1 := mac.2.le.trans (Nat.le_succ _)
  have hfields : decodeFields P (auth3Line P key np nd) auth3Prefix [localAuthMacLen + 1] =
      some [mac.1] := by
    simp only [decodeFields, if_neg hlong, hdrop, decodeFieldList,
      Base64.comma_notMem_encode mac.1, if_false, hP.decodeInto hfit, Option.map_some]
  simp [parseAuth3, hfields, mac.2]

end Parse

/-! ## The two lines of the handshake -/

structure WaitsProof (w : World) (sock : Nat) (i : Slot) (key : Block 32)
    (np nd : Block localAuthNonceLen) : Prop where
  found : localSessionFind w.pool sock = some i
  state : (w.pool i).state = .authWaitProof
  key : (w.pool i).key = key
  noncePhone : (w.pool i).noncePhone = np
  nonceDev : (w.pool i).nonceDev = nd

def auth2Line (P : Platform) (key : Block 32) (np nd : Block localAuthNonceLen) : Bytes :=
  Base64.fields (ascii "AUTH2:") nd.1 (proof P key devLabel np nd).1

section Steps

variable {P : Platform} {env : Env} {w : World} {sock : Nat} {i : Slot} {line : Bytes}

theorem setSession_sends (hi : localSessionFind w.pool sock = some i) {s : LocalSession}
    (hsock : s.sock = (w.pool i).sock) (hk : s.keyed = false) (text : Bytes) :
    SendsLine sock w (securitySendLine P (w.setSession i s) sock text) text ∧
      localSessionFind (securitySendLine P (w.setSession i s) sock text).pool sock = some i ∧
      (securitySendLine P (w.setSession i s) sock text).pool i = s := by
  have hfound : localSessionFind (w.setSession i s).pool sock = some i :=
    localSessionFind_update hi hsock
  obtain ⟨hsends, hpool⟩ := securitySendLine_sends (P := P) hfound (by rwa [World.setSession_self])
    text
  refine ⟨hsends, ?_, ?_⟩
  · rw [hpool, hfound]
  · rw [hpool, World.setSession_self]

theorem waitsProof_sends (hi : localSessionFind w.pool sock = some i) {s : LocalSession}
    (hsock : s.sock = (w.pool i).sock) (hstate : s.state = .authWaitProof) (text : Bytes) :
    SendsLine sock w (securitySendLine P (w.setSession i s) sock text) text ∧
      WaitsProof (securitySendLine P (w.setSession i s) sock text) sock i s.key s.noncePhone
        s.nonceDev := by
  obtain ⟨hsends, hfound, hself⟩ := setSession_sends (P := P) hi hsock
    (by simp [LocalSession.keyed, hstate]) text
  refine ⟨hsends, ⟨hfound, ?_, ?_, ?_, ?_⟩⟩ <;> rw [hself]
  exact hstate

theorem handleAuth1_known (hi : localSessionFind w.pool sock = some i) {sub : Bytes}
    {np : Block localAuthNonceLen} {r : Nat} (hparse : parseAuth1 P line = some (sub, np))
    (hfind : pairedListFind w.list sub = some r) (henc : P.base64Encode = Base64.encode) :
    SendsLine sock w (handleAuth1 P env w i sock line)
        (auth2Line P (w.list.entries r).key np (.fit localAuthNonceLen env.nonceDev)) ∧
      WaitsProof (handleAuth1 P env w i sock line) sock i (w.list.entries r).key np
        (.fit localAuthNonceLen env.nonceDev) := by
  have hlist : ∀ s, (w.setSession i s).list = w.list := fun s => rfl
  have hget : pairedListGet w.list (some r) = some (w.list.entries r) :=
    if_pos (findLocked_lt hfind)
  have hreset : localSessionFind (w.setSession i (w.pool i).resetHandshake).pool sock = some i :=
    localSessionFind_update hi rfl
  simp only [handleAuth1, hparse, hlist, hfind, hget, henc]
  refine waitsProof_sends hreset ?_ ?_ _
  · exact (sock_reset w i).symm
  · rfl

structure AuthOk (w : World) (sock : Nat) (i : Slot) (key : Block 32) : Prop where
  found : localSessionFind w.pool sock = some i
  state : (w.pool i).state = .authOk
  key : (w.pool i).key = key
  rxCtr : (w.pool i).rxCtr = 0

theorem WaitsProof.not_authenticated {key : Block 32} {np nd : Block localAuthNonceLen}
    (h : WaitsProof w sock i key np nd) : (w.pool i).authenticated = false := by
  simp [LocalSession.authenticated, h.state]

theorem WaitsProof.plainLine {key : Block 32} {np nd : Block localAuthNonceLen}
    (h : WaitsProof w sock i key np nd) : WaitsProof (w.plainLine i) sock i key np nd := by
  refine ⟨World.find_plainLine h.found, ?_, ?_, ?_, ?_⟩ <;>
    rw [World.plainLine, World.setSession_self]
  exacts [h.state, h.key, h.noncePhone, h.nonceDev]

theorem authOk_sends (hi : localSessionFind w.pool sock = some i) {s : LocalSession}
    (hsock : s.sock = (w.pool i).sock) (hstate : s.state = .authWaitProof) (text : Bytes) :
    let x := securitySendLine P (w.setSession i s) sock text
    let y := x.setSession i { x.pool i with txCtr := 0, rxCtr := 0, state := .authOk }
    SendsLine sock w y text ∧ AuthOk y sock i s.key := by
  intro x y
  obtain ⟨hsends, hfound, hself⟩ := setSession_sends (P := P) hi hsock
    (by simp [LocalSession.keyed, hstate]) text
  refine ⟨hsends, ⟨localSessionFind_update hfound rfl, ?_, ?_, ?_⟩⟩ <;>
    rw [World.setSession_self]
  change (x.pool i).key = s.key
  rw [hself]

theorem handleAuth3_right {key : Block 32} {np nd : Block localAuthNonceLen}
    (h : WaitsProof w sock i key np nd)
    (hparse : parseAuth3 P line = some (proof P key phnLabel nd np)) :
    ∃ role, SendsLine sock w (handleAuth3 P w i sock line) (authOkText role) ∧
      AuthOk (handleAuth3 P w i sock line) sock i
        (localAuthHkdf32 P key.1 (np.1 ++ nd.1) localAuthHkdfInfo) := by
  simp only [handleAuth3, h.state, hparse, h.key, h.noncePhone, h.nonceDev, ne_eq,
    not_true_eq_false, if_false]
  refine ⟨_, authOk_sends h.found ?_ ?_ _⟩ <;> rfl

theorem handleAuth3_wrong {key : Block 32} {np nd : Block localAuthNonceLen}
    (h : WaitsProof w sock i key np nd) {got : Block localAuthMacLen}
    (hparse : parseAuth3 P line = some got) (hgot : got ≠ proof P key phnLabel nd np) :
    ((handleAuth3 P w i sock line).pool i).state = .new := by
  simp only [handleAuth3, h.state, hparse, h.key, h.noncePhone, h.nonceDev, ne_eq,
    not_true_eq_false, if_false, hgot, not_false_eq_true, if_true, sendErr]
  refine (congrArg LocalSession.state (setSession_sends h.found ?_ ?_ _).2.2).trans ?_ <;> rfl

end Steps

/-! ## The client's lines on the device -/

section Lines

variable {P : Platform} (hP : P.Interoperable) {w : World} {sock : Nat} {i : Slot}

include hP

theorem step_auth1 (hi : localSessionFind w.pool sock = some i) {sub : Bytes} {key : Block 32}
    (hacc : PairedAccount w.list sub key) (np : Block localAuthNonceLen) (env : Env) :
    SendsLine sock w (step P w (.line sock (auth1Line sub np.1) env))
        (auth2Line P key np (.fit localAuthNonceLen env.nonceDev)) ∧
      WaitsProof (step P w (.line sock (auth1Line sub np.1) env)) sock i key np
        (.fit localAuthNonceLen env.nonceDev) := by
  obtain ⟨r, hfind, rfl⟩ := hacc.row
  have hpre : auth1Prefix <+: auth1Line sub np.1 := Base64.prefix_fields ..
  rw [step_auth (k := .auth1) (by simp [authKinds]) hi hpre]
  exact handleAuth1_known (World.find_plainLine hi) (parseAuth1_auth1Line hP hacc.named np) hfind
    hP.encode_eq

theorem step_auth3 {key : Block 32} {np nd : Block localAuthNonceLen}
    (h : WaitsProof w sock i key np nd) (env : Env) :
    ∃ role, SendsLine sock w (step P w (.line sock (auth3Line P key.1 np.1 nd.1) env))
        (authOkText role) ∧
      AuthOk (step P w (.line sock (auth3Line P key.1 np.1 nd.1) env)) sock i
        (localAuthHkdf32 P key.1 (np.1 ++ nd.1) localAuthHkdfInfo) := by
  have hpre : auth3Prefix <+: auth3Line P key.1 np.1 nd.1 := List.prefix_append ..
  rw [step_auth (k := .auth3) (by simp [authKinds]) h.found hpre]
  exact handleAuth3_right h.plainLine (parseAuth3_auth3Line hP key.1 np.1 nd.1)

theorem step_auth3_wrong {key k : Block 32} {np nd : Block localAuthNonceLen}
    (h : WaitsProof w sock i key np nd) (hk : k ≠ key) (env : Env) :
    ((step P w (.line sock (auth3Line P k.1 np.1 nd.1) env)).pool i).state = .new := by
  have hpre : auth3Prefix <+: auth3Line P k.1 np.1 nd.1 := List.prefix_append ..
  rw [step_auth (k := .auth3) (by simp [authKinds]) h.found hpre]
  exact handleAuth3_wrong h.plainLine (parseAuth3_auth3Line hP k.1 np.1 nd.1)
    (hP.proof_ne k key hk _)

theorem unwrap_first_frame {key : Block 32} (h : AuthOk w sock i key) (ls : LineSocket)
    {line : Bytes} (hlen : line.length ≤ encFramePlainMax) :
    ∃ wire ls', (ls.startEncryption key).sendLine P line = some (wire ++ [10], ls') ∧
      10 ∉ wire ∧ wire.length + 1 < tcpReceiveDataLength ∧
      (encFrameUnwrap P w sock wire).1 = some line := by
  have hkeyed : (w.pool i).keyed = true := LocalSession.keyed_iff.mpr (.inr h.state)
  have hkey : (ls.startEncryption key).aead = some (w.pool i).key := congrArg some h.key.symm
  have hnew : (w.pool i).rxCtr < (ls.startEncryption key).txCtr + 1 := by
    rw [h.rxCtr]
    exact Nat.one_pos
  have hctr : (ls.startEncryption key).txCtr + 1 < 2 ^ 64 := Nat.one_lt_two_pow (by decide)
  obtain ⟨wire, hsend, hline, hroom, hunwrap, -⟩ :=
    unwrap_client_frame hP.inverses h.found hkeyed hkey hnew hctr hlen
  exact ⟨wire, _, hsend, hline, hroom, congrArg Prod.fst hunwrap⟩

end Lines

/-! ## The whole exchange -/

theorem hkdf32_eq (P : Platform) (ikm salt : Bytes) :
    hkdf32 P ikm salt (ascii "cy-local-v1") = localAuthHkdf32 P ikm salt localAuthHkdfInfo := by
  have hinfo : localAuthHkdfInfo.take 63 = ascii "cy-local-v1" :=
    List.take_of_length_le (by decide)
  rw [localAuthHkdf32, hinfo]
  rfl

theorem not_mem_auth3Line (P : Platform) (k np nd : Bytes) : 10 ∉ auth3Line P k np nd := by
  have hpre : (10 : UInt8) ∉ ascii "AUTH3:" := by decide
  simp only [auth3Line, List.mem_append, not_or]
  exact ⟨hpre, Base64.newline_notMem_encode _⟩

theorem length_auth3Line (P : Platform) (k np nd : Bytes) : (auth3Line P k np nd).length = 50 := by
  have hpre : (ascii "AUTH3:").length = 6 := by decide
  rw [auth3Line, List.length_append, Base64.length_encode, hpre, (hmac256 P k _).2]

theorem authOkText_spec (role : LocalSessionRole) :
    10 ∉ authOkText role ∧ authOkText role ≠ ascii "AUTHOK" := by
  cases role <;> decide

section Exchange

variable {P : Platform} (env : Nat → Env) (net : Network) {w : World} {sock : Nat} {i : Slot}

theorem exchange_device {line text : Bytes} {n : Nat} (hline : 10 ∉ line)
    (hlen : line.length + 1 < tcpReceiveDataLength) (htext : 10 ∉ text)
    (hsends : SendsLine sock w (step P w (.line sock line (env n))) text) :
    exchange P (RecvTask.answer P env net sock) ⟨{}, { w := w, lines := n }⟩ line =
      (some text, ⟨{}, { w := step P w (.line sock line (env n)), lines := n + 1 }⟩) := by
  refine exchange_line P _ ?_ (net.flatten_cut (text ++ [10])) (net.cut_ne _) htext
  simp only [RecvTask.answer, RecvTask.recv_line P env sock hline hlen, hsends.sentSince]

def deviceNonce (env : Nat → Env) : Block localAuthNonceLen :=
  .fit localAuthNonceLen (env 0).nonceDev

def afterAuth1 (P : Platform) (env : Nat → Env) (w : World) (sock : Nat) (sub np : Bytes) :
    World :=
  step P w (.line sock (auth1Line sub np) (env 0))

theorem exchange_auth1 (hP : P.Interoperable) (hi : localSessionFind w.pool sock = some i)
    {sub : Bytes} {key : Block 32} (hacc : PairedAccount w.list sub key)
    (np : Block localAuthNonceLen) :
    exchange P (RecvTask.answer P env net sock) { far := { w := w } } (auth1Line sub np.1) =
      (some (auth2Line P key np (deviceNonce env)),
        ⟨{}, { w := afterAuth1 P env w sock sub np.1, lines := 1 }⟩) := by
  have hlen : (auth1Line sub np.1).length + 1 < tcpReceiveDataLength := by
    have hsub : sub.length ≤ 40 := hacc.length_le
    have hpre : (ascii "AUTH1:").length = 6 := by decide
    rw [auth1Line, Base64.length_fields, hpre, np.2]
    change 6 + (sub.length + 2) / 3 * 4 + 1 + (16 + 2) / 3 * 4 + 1 < 5120
    omega
  have hline : 10 ∉ auth1Line sub np.1 := Base64.not_mem_fields (by decide) sub np.1
  have hreply : 10 ∉ auth2Line P key np (deviceNonce env) :=
    Base64.not_mem_fields (by decide) (deviceNonce env).1 _
  exact exchange_device env net hline hlen hreply (step_auth1 hP hi hacc np (env 0)).1

theorem waitsProof_afterAuth1 (hP : P.Interoperable) (hi : localSessionFind w.pool sock = some i)
    {sub : Bytes} {key : Block 32} (hacc : PairedAccount w.list sub key)
    (np : Block localAuthNonceLen) :
    WaitsProof (afterAuth1 P env w sock sub np.1) sock i key np (deviceNonce env) :=
  (step_auth1 hP hi hacc np (env 0)).2

theorem authenticate_other (hP : P.Interoperable) (hi : localSessionFind w.pool sock = some i)
    {sub : Bytes} {key k : Block 32} (hacc : PairedAccount w.list sub key) (hk : k ≠ key)
    (np : Block localAuthNonceLen) :
    authenticate P (RecvTask.answer P env net sock) k.1 sub np.1 { far := { w := w } } =
      (.returns 4, ⟨{}, { w := afterAuth1 P env w sock sub np.1, lines := 1 }⟩) := by
  simp only [authenticate, k.2, ne_eq, not_true_eq_false, if_false,
    exchange_auth1 env net hP hi hacc np]
  generalize deviceNonce env = nd
  have hmac : (proof P key devLabel np nd).1 ≠ (hmac256 P k.1 (ascii "dev" ++ np.1 ++ nd.1)).1 :=
    fun h => hP.proof_ne key k (Ne.symm hk) _ (Subtype.ext h)
  rw [auth2Line, checkAuth2_fields, if_pos hmac]

theorem authenticate_same (hP : P.Interoperable) (hi : localSessionFind w.pool sock = some i)
    {sub : Bytes} {key : Block 32} (hacc : PairedAccount w.list sub key)
    (np : Block localAuthNonceLen) :
    let auth3 : Event := .line sock (auth3Line P key.1 np.1 (deviceNonce env).1) (env 1)
    authenticate P (RecvTask.answer P env net sock) key.1 sub np.1 { far := { w := w } } =
      (.returns 5, ⟨{}, { w := step P (afterAuth1 P env w sock sub np.1) auth3, lines := 2 }⟩) := by
  have hwaits := waitsProof_afterAuth1 env hP hi hacc np
  simp only [authenticate, key.2, ne_eq, not_true_eq_false, if_false,
    exchange_auth1 env net hP hi hacc np]
  generalize deviceNonce env = nd at hwaits ⊢
  have hmac : (proof P key devLabel np nd).1 = (hmac256 P key.1 (ascii "dev" ++ np.1 ++ nd.1)).1 :=
    rfl
  have hproof : checkAuth2 P key.1 np.1 (auth2Line P key np nd) = .ok nd.1 := by
    rw [auth2Line, checkAuth2_fields, if_neg (not_not.mpr hmac)]
  obtain ⟨role, hsends, -⟩ := step_auth3 hP hwaits (env 1)
  have hreply := exchange_device env net (not_mem_auth3Line P key.1 np.1 nd.1)
    (by rw [length_auth3Line]; decide) (authOkText_spec role).1 hsends
  simp only [hproof, hreply, (authOkText_spec role).2, not_false_eq_true, if_true]

/-- The reconnect of `authenticate` against the device, for any account of its list. A client
with another key turns away the device's proof, and the device would turn away the client's. A
client with the right key is authenticated by the device, under the key it has itself derived
and with a first frame that would be opened, and yet gives up: it waits for `AUTHOK` alone,
and the device's last line names the role. -/
theorem reference_client_reconnect (hP : P.Interoperable)
    (hi : localSessionFind w.pool sock = some i) {sub : Bytes} {key : Block 32}
    (hacc : PairedAccount w.list sub key) (k : Block 32) (np : Block localAuthNonceLen) :
    let nd := deviceNonce env
    let kSession := hkdf32 P k.1 (np.1 ++ nd.1) (ascii "cy-local-v1")
    let r := authenticate P (RecvTask.answer P env net sock) k.1 sub np.1 { far := { w := w } }
    (k ≠ key → r.1 = .returns 4 ∧ (r.2.far.w.pool i).authenticated = false ∧
      ∀ env', ((step P r.2.far.w (.line sock (auth3Line P k.1 np.1 nd.1) env')).pool
        i).authenticated = false) ∧
    (k = key → r.1 = .returns 5 ∧ (r.2.far.w.pool i).state = .authOk ∧
      (r.2.far.w.pool i).key = kSession ∧
      ∀ line, line.length ≤ encFramePlainMax → ∃ wire ls,
        (r.2.ls.startEncryption kSession).sendLine P line = some (wire ++ [10], ls) ∧
        10 ∉ wire ∧ wire.length + 1 < tcpReceiveDataLength ∧
        (encFrameUnwrap P r.2.far.w sock wire).1 = some line) := by
  intro nd kSession r
  have hwaits : WaitsProof (afterAuth1 P env w sock sub np.1) sock i key np nd :=
    waitsProof_afterAuth1 env hP hi hacc np
  constructor
  · intro hk
    have hr : r = _ := authenticate_other env net hP hi hacc hk np
    rw [hr]
    refine ⟨rfl, hwaits.not_authenticated, fun env' => ?_⟩
    have hnew := step_auth3_wrong hP hwaits hk env'
    simp [LocalSession.authenticated, hnew]
  · rintro rfl
    have hr : r = _ := authenticate_same env net hP hi hacc np
    have hkey : kSession = localAuthHkdf32 P k.1 (np.1 ++ nd.1) localAuthHkdfInfo :=
      hkdf32_eq P k.1 _
    obtain ⟨-, -, hok⟩ := step_auth3 hP hwaits (env 1)
    rw [hr, hkey]
    exact ⟨rfl, hok.state, hok.key, fun line hline => unwrap_first_frame hP hok {} hline⟩

end Exchange

/-! ## A phone that comes back -/

namespace Sample

def mac (key msg : Bytes) : Block 32 :=
  ⟨List.zipWith (· ^^^ ·) (Block.fit 32 key).1 (Block.fit 32 msg).1, by simp [Block.fit]⟩

def macPlatform : Platform := { platform with hmacSha256 := mac }

theorem mac_ne {k k' : Block 32} (h : k ≠ k') (msg : Bytes) : mac k.1 msg ≠ mac k'.1 msg := by
  intro heq
  have hlist := congrArg Subtype.val heq
  simp only [mac, Layout.fit_val_self] at hlist
  refine h (Subtype.ext (List.ext_getElem (k.2.trans k'.2.symm) fun n hn hn' => ?_))
  have hmsg : n < (Block.fit 32 msg).1.length := by
    rw [(Block.fit 32 msg).2, ← k.2]
    exact hn
  have hbyte := congrArg (·[n]?) hlist
  simpa [List.getElem?_zipWith, hn, hn', hmsg] using hbyte

theorem macPlatform_interoperable : macPlatform.Interoperable where
  encode_eq := rfl
  decode_encode := Base64.decode_encode
  sealed := platform_inverses.sealed
  proof_ne _ _ h msg := mac_ne h msg

def onePiece : Network where
  cut b := if b = [] then [] else [b]
  flatten_cut b := by split_ifs with h <;> simp [h]
  cut_ne b c hc := by
    split_ifs at hc with h
    · cases hc
    · rw [List.mem_singleton.mp hc]
      exact h

def accountKey : Block 32 := .fit 32 (ascii "K_account")

def otherKey : Block 32 := .fit 32 (ascii "another key")

def reconnectNonce : Block localAuthNonceLen := .fit localAuthNonceLen (ascii "N_p")

def comesBack : World :=
  Trace.run (step macPlatform) .fresh
    (join 5 1 (ascii "initial0") "owner" "o@x" { kAccount := accountKey.1 } ++ [.accept 7 1 true])

theorem comesBack_account : PairedAccount comesBack.list (ascii "owner") accountKey :=
  ⟨by decide +kernel, 0, by decide +kernel, by decide +kernel⟩

end Sample

open Sample in
theorem reference_client_reconnect_owner :
    macPlatform.Interoperable ∧ PairedAccount comesBack.list (ascii "owner") accountKey ∧
      ∃ i, localSessionFind comesBack.pool 7 = some i ∧
        let r := authenticate macPlatform (RecvTask.answer macPlatform (fun _ => {}) onePiece 7)
          otherKey.1 (ascii "owner") reconnectNonce.1 { far := { w := comesBack } }
        let r' := authenticate macPlatform (RecvTask.answer macPlatform (fun _ => {}) onePiece 7)
          accountKey.1 (ascii "owner") reconnectNonce.1 { far := { w := comesBack } }
        (r.1 = .returns 4 ∧ (r.2.far.w.pool i).authenticated = false) ∧
          r'.1 = .returns 5 ∧ (r'.2.far.w.pool i).state = .authOk := by
  have hi : localSessionFind comesBack.pool 7 = some 1 := by decide +kernel
  obtain ⟨hother, hother', -⟩ := (reference_client_reconnect (fun _ => {}) onePiece
    macPlatform_interoperable hi comesBack_account otherKey reconnectNonce).1 (by decide +kernel)
  obtain ⟨hsame, hsame', -⟩ := (reference_client_reconnect (fun _ => {}) onePiece
    macPlatform_interoperable hi comesBack_account accountKey reconnectNonce).2 rfl
  exact ⟨macPlatform_interoperable, comesBack_account, _, hi, ⟨hother, hother'⟩, hsame, hsame'⟩

open Sample in
/-- The phone holds the very key the device holds for it. The device ends authenticated, and
`authenticate` reports that its proof was rejected. -/
theorem reference_client_gives_up :
    macPlatform.Interoperable ∧ PairedAccount comesBack.list (ascii "owner") accountKey ∧
      let r := authenticate macPlatform (RecvTask.answer macPlatform (fun _ => {}) onePiece 7)
        accountKey.1 (ascii "owner") reconnectNonce.1 { far := { w := comesBack } }
      r.1 = .returns 5 ∧ r.2.ls.aead = none ∧
        (localSessionFind r.2.far.w.pool 7).map (fun i => (r.2.far.w.pool i).state) =
          some .authOk := by
  refine ⟨macPlatform_interoperable, comesBack_account, ?_⟩
  decide +kernel

end CyThing
