import CyThing.Core

/-! What the security handlers do to the whole device, replies and frame counters included: a
row of edits, and at the end of a handshake one session that becomes keyed with its counters at
zero. Every frame property of the handlers is an induction over the edits. -/

namespace CyThing
open CLib

/-! ## Edits -/

/-- What an edit may do to a session: it loses its key or keeps it with both counters, and only
where `touched` it differs in more than the frame layer's part. -/
structure SessionEdit (touched : Prop) (s s' : LocalSession) : Prop where
  sock : s'.sock = s.sock
  keyed : s'.keyed = false ∨
    s'.state = s.state ∧ s'.key = s.key ∧ s'.txCtr = s.txCtr ∧ s'.rxCtr = s.rxCtr
  same : touched ∨ s'.unframed = s.unframed

inductive Edits (P : Platform) (T : Set Slot) (w : World) : World → Prop
  | refl : Edits P T w w
  | sessions {w' : World} {pool : Pool} (h : Edits P T w w')
      (hp : ∀ j, SessionEdit (j ∈ T) (w'.pool j) (pool j)) : Edits P T w { w' with pool := pool }
  | setPw {w' : World} {pw : DevicePassword} (h : Edits P T w w') : Edits P T w (w'.setPw pw)
  | setList {w' : World} {list : PairedBlob} {nvs : Option StoredList} (h : Edits P T w w') :
      Edits P T w (w'.setList list nvs)
  | pushEvent {w' : World} {env : Env} {event sub role : Bytes} (h : Edits P T w w') :
      Edits P T w (w'.pushEvent env event sub role)
  | discoveryMode {w' : World} {mode : Nat} (h : Edits P T w w') :
      Edits P T w { w' with discoveryMode := mode }
  | send {w' : World} {sock : Nat} {bytes : Bytes} (h : Edits P T w w') :
      Edits P T w (w'.send sock bytes)
  | frame {w' : World} {sock : Nat} {payload : Bytes} (h : Edits P T w w') :
      Edits P T w (encFrameSend P w' sock payload)

theorem SessionEdit.refl (touched : Prop) (s : LocalSession) : SessionEdit touched s s :=
  ⟨rfl, .inr ⟨rfl, rfl, rfl, rfl⟩, .inr rfl⟩

section Handlers

variable {P : Platform} {T : Set Slot} {env : Env} {w w' : World} {i : Slot} {sock : Nat}
  {line : Bytes}

theorem Edits.setSession {s : LocalSession} (h : Edits P T w w')
    (hs : SessionEdit (i ∈ T) (w'.pool i) s) : Edits P T w (w'.setSession i s) := by
  refine h.sessions fun j => ?_
  by_cases hj : j = i
  · subst hj
    rw [Function.update_self]
    exact hs
  · rw [Function.update_of_ne hj]
    exact .refl _ _

theorem Edits.unkey {s : LocalSession} (h : Edits P T w w') (hi : i ∈ T)
    (hsock : s.sock = (w'.pool i).sock) (hs : s.keyed = false) :
    Edits P T w (w'.setSession i s) := h.setSession ⟨hsock, .inl hs, .inl hi⟩

theorem Edits.sendLine {text : Bytes} (h : Edits P T w w') :
    Edits P T w (securitySendLine P w' sock text) := by
  rw [securitySendLine]
  split_ifs
  · exact h.frame
  · exact h.send.send

theorem Edits.err {code : Bytes} (h : Edits P T w w') : Edits P T w (sendErr P w' sock code) :=
  h.sendLine

theorem Edits.onPairedRemoved {r : Nat} (h : Edits P Set.univ w w') :
    Edits P Set.univ w (w'.onPairedRemoved r) := by
  refine h.sessions fun j => ?_
  change SessionEdit _ _ ((w'.pool j).onPairedRemoved r)
  rcases (w'.pool j).onPairedRemoved_cases r with ⟨-, -, he⟩ | ⟨k, -, -, -, he⟩ | ⟨-, he⟩
  · rw [he]
    exact ⟨rfl, .inl rfl, .inl trivial⟩
  · rw [he]
    exact ⟨rfl, .inr ⟨rfl, rfl, rfl, rfl⟩, .inl trivial⟩
  · rw [he]
    exact .refl _ _

theorem Edits.dropAllAuth (h : Edits P Set.univ w w') :
    Edits P Set.univ w { w' with pool := localSessionDropAllAuth w'.pool } := by
  refine h.sessions fun j => ?_
  rw [localSessionDropAllAuth]
  split_ifs
  · exact .refl _ _
  · exact ⟨rfl, .inl rfl, .inl trivial⟩

/-! ## The handlers that key no session -/

theorem sock_reset (w : World) (i : Slot) :
    ((w.setSession i (w.pool i).resetHandshake).pool i).sock = (w.pool i).sock := by
  rw [World.setSession_self]
  rfl

theorem edits_handlePake1 : Edits P {i} w (handlePake1 P env w i sock line) := by
  have hreset : Edits P {i} w (w.setSession i (w.pool i).resetHandshake) :=
    .unkey .refl rfl rfl rfl
  simp only [handlePake1]
  split_ifs
  · exact hreset.err
  split
  · exact hreset.err
  split
  · exact hreset.setPw.err
  split
  · exact hreset.setPw.err
  · exact .sendLine (.unkey hreset.setPw rfl (sock_reset w i).symm rfl)

theorem edits_handleEnroll : Edits P {i} w (handleEnroll P env w i sock line) := by
  simp only [handleEnroll]
  split_ifs
  · exact Edits.refl.err
  split
  · exact Edits.refl.err
  split
  · exact Edits.refl.setList.err
  · exact .pushEvent (.sendLine
      (.setSession (.setList .refl) ⟨rfl, .inr ⟨rfl, rfl, rfl, rfl⟩, .inl rfl⟩))

theorem edits_handleAuth1 : Edits P {i} w (handleAuth1 P env w i sock line) := by
  have hreset : Edits P {i} w (w.setSession i (w.pool i).resetHandshake) :=
    .unkey .refl rfl rfl rfl
  simp only [handleAuth1]
  split
  · exact hreset.err
  split
  · exact hreset.err
  · exact .sendLine (.unkey hreset rfl (sock_reset w i).symm rfl)

theorem edits_handleList : Edits P ∅ w (handleList P w sock) := by
  have hfold : ∀ (es : List PairedEntry) (x : World), Edits P ∅ w x →
      Edits P ∅ w (es.foldl (fun x e => securitySendLine P x sock (pairedLine P e)) x) := by
    intro es x hx
    induction es generalizing x with
    | nil => exact hx
    | cons e es ih =>
      rw [List.foldl_cons]
      exact ih _ hx.sendLine
  exact (hfold _ w .refl).sendLine

theorem edits_handleRevoke : Edits P Set.univ w (handleRevoke P env w i sock line) := by
  simp only [handleRevoke]
  split
  · exact Edits.refl.err
  split
  · exact Edits.refl.err
  split
  · exact Edits.refl.err
  split_ifs
  · exact Edits.refl.err
  · exact Edits.refl.setList.err
  · exact Edits.refl.setList.onPairedRemoved.pushEvent.sendLine

theorem edits_revokeFrom (env : Env) (n r k : Nat) {w' : World} (h : Edits P Set.univ w w') :
    Edits P Set.univ w (revokeFrom env n r k w') := by
  induction n generalizing r k w' with
  | zero => exact h
  | succ n ih =>
    simp only [revokeFrom]
    split_ifs
    · exact ih _ _ h.setList.onPairedRemoved.pushEvent
    · exact ih _ _ h.setList
    · exact ih _ _ h
    · exact h

theorem edits_handlePwset : Edits P Set.univ w (handlePwset P env w sock line) := by
  simp only [handlePwset]
  split
  · exact Edits.refl.err
  split_ifs
  · exact Edits.refl.setPw.err
  · exact .sendLine (.setList (edits_revokeFrom env _ _ _ Edits.refl.setPw))

theorem edits_handlePwclear : Edits P ∅ w (handlePwclear P env w sock) := by
  simp only [handlePwclear]
  split_ifs
  · exact Edits.refl.setPw.err
  · exact Edits.refl.setPw.sendLine

theorem edits_handleDiscoverymode : Edits P ∅ w (handleDiscoverymode P env w sock line) := by
  simp only [handleDiscoverymode]
  split
  · split_ifs
    · exact Edits.refl.err
    · exact Edits.refl.err
    · exact Edits.refl.discoveryMode.sendLine
  · exact Edits.refl.err

theorem edits_handleReset : Edits P Set.univ w (handleReset P env w sock) :=
  .pushEvent (.dropAllAuth (.setPw (.setList (.sendLine .refl))))

theorem edits_handleUnpair : Edits P Set.univ w (handleUnpair P env w i sock) := by
  simp only [handleUnpair]
  split
  · exact Edits.refl.err
  split_ifs
  · exact Edits.refl.err
  split
  · exact Edits.refl.sendLine
  split_ifs
  · exact Edits.refl.sendLine.setList
  · exact Edits.refl.sendLine.setList.onPairedRemoved.pushEvent

/-! ## The end of a handshake -/

inductive Handled (P : Platform) (T : Set Slot) (w : World) : World → Prop
  | edits {w' : World} (h : Edits P T w w') : Handled P T w w'
  | settled {w' : World} {i : Slot} {st : LocalSessionState} (h : Edits P T w w') (hi : i ∈ T)
      (hk : (w.pool i).keyed = false) (hst : st = .pakeOk ∨ st = .authOk) :
      Handled P T w (w'.setSession i { w'.pool i with txCtr := 0, rxCtr := 0, state := st })

theorem handled_handlePake3 : Handled P {i} w (handlePake3 P env w i sock line) := by
  simp only [handlePake3]
  by_cases hs : (w.pool i).state = .pakeWaitProof
  · rw [if_neg (not_not.mpr hs)]
    have hwait : (w.pool i).keyed = false := by simp only [LocalSession.keyed, hs]; rfl
    split
    · exact .edits Edits.refl.err
    split
    · exact .edits (.err (.unkey .refl rfl rfl rfl))
    split
    · exact .edits (.err (.unkey (.setPw .refl) rfl rfl rfl))
    · exact .settled (.sendLine (.setPw (.unkey .refl rfl rfl hwait))) rfl hwait (.inl rfl)
  · rw [if_pos hs]
    exact .edits Edits.refl.err

theorem handled_handleAuth3 : Handled P {i} w (handleAuth3 P w i sock line) := by
  simp only [handleAuth3]
  by_cases hs : (w.pool i).state = .authWaitProof
  · rw [if_neg (not_not.mpr hs)]
    have hwait : (w.pool i).keyed = false := by simp only [LocalSession.keyed, hs]; rfl
    split
    · exact .edits Edits.refl.err
    split_ifs
    · exact .edits (.err (.unkey .refl rfl rfl rfl))
    · exact .settled (.sendLine (.unkey .refl rfl rfl hwait)) rfl hwait (.inr rfl)
  · rw [if_pos hs]
    exact .edits Edits.refl.err

def touched (i : Slot) : LineKind → Set Slot
  | .pake1 | .pake3 | .enroll | .auth1 | .auth3 => {i}
  | .owner .revoke | .owner .pwset | .owner .reset | .owner .unpair => Set.univ
  | .owner _ | .other => ∅

theorem handled_handleKind (P : Platform) (env : Env) (w : World) (i : Slot) (sock : Nat)
    (line : Bytes) (k : LineKind) :
    Handled P (touched i k) w (handleKind P env w i sock line k) := by
  cases k with
  | pake1 => exact .edits edits_handlePake1
  | pake3 => exact handled_handlePake3
  | enroll => exact .edits edits_handleEnroll
  | auth1 => exact .edits edits_handleAuth1
  | auth3 => exact handled_handleAuth3
  | owner c =>
    simp only [handleKind]
    split_ifs
    · cases c with
      | list => exact .edits edits_handleList
      | revoke => exact .edits edits_handleRevoke
      | pwset => exact .edits edits_handlePwset
      | pwclear => exact .edits edits_handlePwclear
      | discoverymode => exact .edits edits_handleDiscoverymode
      | discoverymodeGet => exact .edits Edits.refl.sendLine
      | reset => exact .edits edits_handleReset
      | unpair => exact .edits edits_handleUnpair
    · exact .edits Edits.refl.err
  | other => exact .edits .refl

/-! ## Sockets and untouched sessions -/

theorem unframed_of_core (h : w'.core = w.core) (j : Slot) :
    (w'.pool j).unframed = (w.pool j).unframed := congrArg (fun c : Core => c.pool j) h

theorem Edits.sock_eq (h : Edits P T w w') (j : Slot) : (w'.pool j).sock = (w.pool j).sock := by
  induction h with
  | refl => rfl
  | sessions h hp ih => exact (hp j).sock.trans ih
  | setPw h ih | setList h ih | pushEvent h ih | discoveryMode h ih | send h ih => exact ih
  | frame h ih =>
    exact (congrArg LocalSession.sock (unframed_of_core (core_encFrameSend ..) j)).trans ih

theorem Edits.untouched {j : Slot} (h : Edits P T w w') (hj : j ∉ T) :
    (w'.pool j).unframed = (w.pool j).unframed := by
  induction h with
  | refl => rfl
  | sessions h hp ih => exact ((hp j).same.resolve_left hj).trans ih
  | setPw h ih | setList h ih | pushEvent h ih | discoveryMode h ih | send h ih => exact ih
  | frame h ih => exact (unframed_of_core (core_encFrameSend ..) j).trans ih

theorem Handled.sock_eq (h : Handled P T w w') (j : Slot) :
    (w'.pool j).sock = (w.pool j).sock := by
  cases h with
  | edits h => exact h.sock_eq j
  | @settled x i st h =>
    by_cases hj : j = i
    · subst hj
      rw [World.setSession_self]
      exact h.sock_eq j
    · have hsame : (x.setSession i { x.pool i with txCtr := 0, rxCtr := 0, state := st }).pool j =
          x.pool j := Function.update_of_ne hj ..
      rw [hsame]
      exact h.sock_eq j

theorem Handled.untouched {j : Slot} (h : Handled P T w w') (hj : j ∉ T) :
    (w'.pool j).unframed = (w.pool j).unframed := by
  cases h with
  | edits h => exact h.untouched hj
  | @settled x i st h hi =>
    have hne : j ≠ i := fun hji => hj (hji ▸ hi)
    have hsame : (x.setSession i { x.pool i with txCtr := 0, rxCtr := 0, state := st }).pool j =
        x.pool j := Function.update_of_ne hne ..
    rw [hsame]
    exact h.untouched hj

end Handlers

/-! ## Behind the policy -/

inductive Outer (sock : Nat) (line : Bytes) (w : World) : World → Prop
  | refl : Outer sock line w w
  | enter {w' : World} {hd : Handler} (h : Outer sock line w w') :
      Outer sock line w (w'.enter hd sock line)
  | prov {w' : World} {prov : Provisioning} (h : Outer sock line w w') :
      Outer sock line w { w' with prov := prov }
  | pairing {w' : World} {pairing : PairingState} (h : Outer sock line w w') :
      Outer sock line w { w' with pairing := pairing }
  | ota {w' : World} {url : Bytes} {tasks : List Nat} (h : Outer sock line w w') :
      Outer sock line w { w' with firmwareUrl := url, otaTasks := tasks }
  | send {w' : World} {bytes : Bytes} (h : Outer sock line w w') :
      Outer sock line w (w'.send sock bytes)
  | reply {w' : World} (r : AppReply) (h : Outer sock line w w') :
      Outer sock line w (w'.appReply r)

inductive Later (sock : Nat) (line : Bytes) (w : World) : World → Prop
  | refl : Later sock line w w
  | enter {w' : World} {hd : Handler} (h : Later sock line w w') :
      Later sock line w (w'.enter hd sock line)
  | pairing {w' : World} {pairing : PairingState} (h : Later sock line w w') :
      Later sock line w { w' with pairing := pairing }
  | ota {w' : World} {url : Bytes} {tasks : List Nat} (h : Later sock line w w') :
      Later sock line w { w' with firmwareUrl := url, otaTasks := tasks }
  | reply {w' : World} (r : AppReply) (h : Later sock line w w') :
      Later sock line w (w'.appReply r)

section Behind

variable {P : Platform} {env : Env} {w w' w'' : World} {sock : Nat} {line : Bytes}

theorem later_otaHandleLine (hw : Later sock line w w')
    (h : otaHandleLine w' sock line = some w'') : Later sock line w w'' := by
  simp only [otaHandleLine] at h
  split_ifs at h <;> cases h
  · exact hw.reply (.raw sock _)
  · exact hw.reply (.raw sock _)
  · exact hw.ota.reply (.raw sock _)

theorem later_pairingLine (hw : Later sock line w w')
    (h : pairingLine P env w' sock line = some w'') : Later sock line w w'' := by
  simp only [pairingLine] at h
  split at h
  · cases h
  · cases h
    split_ifs
    · exact hw.pairing.reply (.raw sock _)
    · exact hw.pairing

theorem later_foldl_appReply (rs : List AppReply) (hw : Later sock line w w') :
    Later sock line w (rs.foldl World.appReply w') := by
  induction rs generalizing w' with
  | nil => exact hw
  | cons r rs ih => exact ih (hw.reply r)

theorem later_dispatchBehindPolicy (P : Platform) (env : Env) (w : World) (sock : Nat)
    (line : Bytes) :
    provisioningLine P env (w.enter .provisioning sock line) sock line =
        some (dispatchBehindPolicy P env w sock line) ∨
      provisioningLine P env (w.enter .provisioning sock line) sock line = none ∧
        Later sock line (w.enter .provisioning sock line)
          (dispatchBehindPolicy P env w sock line) := by
  simp only [dispatchBehindPolicy]
  split
  · next hp => exact Or.inl hp
  next hp =>
  refine Or.inr ⟨hp, ?_⟩
  split
  · next ho => exact later_otaHandleLine (.enter .refl) ho
  split
  · next hp => exact later_pairingLine (.enter (.enter .refl)) hp
  split
  · next replies _ => exact later_foldl_appReply replies (.enter (.enter (.enter .refl)))
  · exact .enter (.enter (.enter .refl))

theorem outer_provisioningLine (hw : Outer sock line w w')
    (h : provisioningLine P env w' sock line = some w'') : Outer sock line w w'' := by
  simp only [provisioningLine] at h
  split at h
  · cases h
  · cases h
    split_ifs
    · exact hw.prov.send
    · exact hw.prov.send.send

theorem Later.outer (hw : Outer sock line w w') (h : Later sock line w' w'') :
    Outer sock line w w'' := by
  induction h with
  | refl => exact hw
  | enter h ih => exact ih.enter
  | pairing h ih => exact ih.pairing
  | ota h ih => exact ih.ota
  | reply r h ih => exact ih.reply r

theorem outer_dispatchBehindPolicy (P : Platform) (env : Env) (w : World) (sock : Nat)
    (line : Bytes) : Outer sock line w (dispatchBehindPolicy P env w sock line) := by
  have hentered : Outer sock line w (w.enter .provisioning sock line) := .enter .refl
  rcases later_dispatchBehindPolicy P env w sock line with hp | ⟨-, hlater⟩
  · exact outer_provisioningLine hentered hp
  · exact hlater.outer hentered

theorem appReply_eq (w : World) (r : AppReply) :
    ∃ id tcp mqtt, w.appReply r =
      { w with responseId := id, tcpFifo := tcp, mqttFifo := mqtt } := by
  cases r with
  | data target data =>
    simp only [World.appReply, World.sendData]
    split_ifs
    · split
      · exact ⟨_, _, _, rfl⟩
      · exact ⟨_, _, w.mqttFifo, rfl⟩
    · exact ⟨_, _, w.mqttFifo, rfl⟩
  | raw target text => exact ⟨w.responseId, _, w.mqttFifo, rfl⟩

theorem Outer.link (h : Outer sock line w w') : w'.pool = w.pool ∧ w'.seals = w.seals := by
  induction h with
  | refl => exact ⟨rfl, rfl⟩
  | enter h ih | prov h ih | pairing h ih | ota h ih | send h ih => exact ih
  | @reply x r h ih =>
    obtain ⟨id, tcp, mqtt, heq⟩ := appReply_eq x r
    rw [heq]
    exact ih

theorem Outer.core (h : Outer sock line w w') : w'.core = w.core := by
  induction h with
  | refl => rfl
  | enter h ih | prov h ih | pairing h ih | ota h ih | send h ih => exact ih
  | @reply x r h ih => exact (x.core_appReply r).trans ih

theorem Later.out_prov (h : Later sock line w w') : w'.out = w.out ∧ w'.prov = w.prov := by
  induction h with
  | refl => exact ⟨rfl, rfl⟩
  | enter h ih | pairing h ih | ota h ih => exact ih
  | @reply x r h ih =>
    obtain ⟨id, tcp, mqtt, heq⟩ := appReply_eq x r
    rw [heq]
    exact ih

end Behind

theorem step_quiet {P : Platform} {w : World} {e : Event}
    (hline : ∀ sock bytes env, e ≠ .line sock bytes env) (hsend : e ≠ .send)
    (hboot : ∀ factory env, e ≠ .reboot factory env) :
    ∃ core accounts pairing id tcp mqtt, step P w e = { w with
      toCore := core, accounts := accounts, pairing := pairing, responseId := id
      tcpFifo := tcp, mqttFifo := mqtt } := by
  cases e with
  | line sock bytes env => exact absurd rfl (hline sock bytes env)
  | send => exact absurd rfl hsend
  | reboot factory env => exact absurd rfl (hboot factory env)
  | accept sock peerIp taskOk =>
    have ha := acceptConnection_accepts w sock peerIp taskOk
    rw [step]
    generalize acceptConnection w sock peerIp taskOk = w' at ha
    cases ha with
    | turnedAway | opened | undone => exact ⟨_, _, _, _, _, _, rfl⟩
  | queue reply =>
    obtain ⟨id, tcp, mqtt, heq⟩ := appReply_eq w reply
    rw [step, heq]
    exact ⟨w.toCore, w.accounts, w.pairing, _, _, _, rfl⟩
  | close sock | tick us | pairingTimeout => exact ⟨_, _, _, _, _, _, rfl⟩

end CyThing
