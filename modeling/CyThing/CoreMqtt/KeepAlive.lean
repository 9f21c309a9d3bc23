import CyThing.CoreMqtt.Callbacks

/-! Keeping the connection alive: when the client sends a PINGREQ, that it waits for one answer
at a time, and that it notices a broker that has gone silent. -/

namespace CyThing.CoreMqtt
open CLib Trace Simulation

/-! ## One look at the clock -/

def pingDue (c : Context) (now : UInt32) : Bool :=
  let txTimeoutMs := min (1000 * c.keepAliveIntervalSec.toUInt32) packetTxTimeoutMs
  let timeElapsed := calculateElapsedTime now c.lastPacketRxTime
  (txTimeoutMs ≠ 0 ∧ calculateElapsedTime now c.lastPacketTxTime ≥ txTimeoutMs) ∨
    (timeElapsed ≠ 0 ∧ timeElapsed ≥ packetRxTimeoutMs)

theorem handleKeepAlive_eq (c : Context) :
    handleKeepAlive c =
      if c.waitingForPingResp then
        (if calculateElapsedTime (getTime c).1 c.pingReqSendTimeMs > mqttPingrespTimeoutMs then
          .keepAliveTimeout else .success, (getTime c).2)
      else if pingDue c (getTime c).1 then mqttPing (getTime c).2
      else (.success, (getTime c).2) := by
  obtain ⟨_, _, _, _, _, _, htime⟩ := read_getTime c
  rcases hclock : getTime c with ⟨now, c'⟩
  rw [hclock] at htime
  have hdue : pingDue c now = true ↔ _ := decide_eq_true_iff
  simp only [handleKeepAlive, hclock]
  subst htime
  split
  · rfl
  split
  · next htx => rw [if_pos (hdue.mpr (.inl htx))]
  next htx =>
  split
  · next hrx => rw [if_pos (hdue.mpr (.inr hrx))]
  · next hrx => rw [if_neg fun h => (hdue.mp h).elim htx hrx]

theorem mqttPing_cases (c : Context) :
    ∃ k c', Wrote c ([packetTypePingreq, 0].take k) c' ∧
      (mqttPing c = (.sendFailed, c') ∨
        k = 2 ∧ mqttPing c = (.success, { c' with
          pingReqSendTimeMs := c'.lastPacketTxTime
          waitingForPingResp := true })) := by
  obtain ⟨k, hk, hwrote, hresult⟩ := wrote_sendMessageVector c [[packetTypePingreq, 0]]
  rw [← sendBuffer_eq] at hwrote hresult
  refine ⟨k, _, hwrote, ?_⟩
  rcases hsent : sendBuffer c [packetTypePingreq, 0] with ⟨sendResult, c'⟩
  rw [hsent] at hresult
  simp only [mqttPing, hsent]
  split
  · exact .inl rfl
  · next hall =>
    simp only [List.flatten_singleton, List.length_cons, List.length_nil] at hk
    simp only at hresult
    exact .inr ⟨by omega, rfl⟩

/-! ## Idle polls -/

theorem store_nil (buffer : Bytes) (offset : Nat) : store buffer offset [] = buffer := by
  rw [store, List.append_nil, List.length_nil, Nat.add_zero, List.take_append_drop]

theorem receivePacketHeader_idle {c : Context} {reads : List TlsRead}
    (hreads : c.reads = .wantRead :: reads) (hroom : c.index < c.networkBuffer.length) :
    receivePacketHeader c true =
      (if (handleKeepAlive { c with reads }).1 = .success then (headStatus (held c)).1
        else (handleKeepAlive { c with reads }).1, (headStatus (held c)).2,
        (handleKeepAlive { c with reads }).2) := by
  have hrecv : espTlsTransportRecv c (c.networkBuffer.length - c.index) =
      (some [], { c with reads }) := by
    rw [espTlsTransportRecv, if_neg (by omega), hreads]
  have hhead : headerFields (mqttProcessIncomingPacketTypeAndLength c.networkBuffer c.index) =
      headStatus (held c) := by
    rw [processIncoming_take (by omega)]
    rfl
  simp only [receivePacketHeader, hrecv, List.length_nil, Nat.add_zero, store_nil, true_and,
    if_true, hhead]

section App

variable (app : AppCall → List PublishInfo)

theorem sent_receiveSingleIteration {size : Nat} {c : Context} (hbuf : Buffered size c)
    (manageKeepAlive : Bool) :
    (receivePacketHeader c manageKeepAlive).2.2.sent <+:
      (receiveSingleIteration app c manageKeepAlive).2.sent := by
  rcases receiveSingleIteration_inv app hbuf manageKeepAlive with
    ⟨status, hresult, -⟩ | ⟨total, hresult, -⟩ |
      ⟨type, remainingLength, headerLength, -, -, -, hresult, -⟩ <;>
    rw [hresult]
  · have hkept := congrArg View.sent (read_discardStoredPacket
      (receivePacketHeader c manageKeepAlive).2.2 total).view
    exact ⟨[], by rw [List.append_nil]; exact hkept.symm⟩
  · obtain ⟨events, hevents⟩ : ∃ events, Explained 0 0 ⟨True, True⟩
        (receivePacketHeader c manageKeepAlive).2.2.view events (handlePacket app
          (receivePacketHeader c manageKeepAlive).2.2 (type, remainingLength, headerLength)
          manageKeepAlive).2.view :=
      handlePacket_explained (fun _ _ _ _ => trivial) _ _ manageKeepAlive
    have hsent := congrArg View.sent hevents.run_eq
    rw [run_step] at hsent
    exact ⟨_, hsent⟩

theorem pingresp_length {remainingData : Bytes} {remainingLength headerLength : Nat}
    (h : (mqttDeserializeAck
      ⟨packetTypePingresp, remainingData, remainingLength, headerLength⟩ false).1 = .success) :
    remainingLength = 0 := by
  have hpingresp : (mqttDeserializeAck
      ⟨packetTypePingresp, remainingData, remainingLength, headerLength⟩ false).1 =
      deserializePingresp ⟨packetTypePingresp, remainingData, remainingLength, headerLength⟩ := rfl
  rw [hpingresp, deserializePingresp] at h
  by_contra hne
  rw [if_pos hne] at h
  cases h

theorem waiting_handlePacket (c : Context) (type : UInt8) (remainingLength headerLength : Nat)
    (manageKeepAlive : Bool) :
    let c' := (handlePacket app c (type, remainingLength, headerLength) manageKeepAlive).2
    c'.waitingForPingResp = c.waitingForPingResp ∨
      type = packetTypePingresp ∧ remainingLength = 0 ∧ manageKeepAlive = true := by
  by_cases hpublish : type &&& 0xF0 = packetTypePublish
  · simp only [handlePacket, if_pos hpublish]
    obtain ⟨_, _, _, _, _, _, _, _, _, heq⟩ := output_handleIncomingPublish app c
      ⟨type, c.networkBuffer.drop headerLength, remainingLength, headerLength⟩
    rw [heq]
    exact .inl rfl
  · simp only [handlePacket, if_neg hpublish]
    rcases handleIncomingAck_output app c
      ⟨type, c.networkBuffer.drop headerLength, remainingLength, headerLength⟩ manageKeepAlive with
      ⟨_, _, _, _, _, _, _, _, _, heq⟩ | ⟨htype, hsuccess, hmanage, -⟩
    · rw [heq]
      exact .inl rfl
    · right
      subst htype
      exact ⟨rfl, pingresp_length hsuccess, hmanage⟩

/-! ## One answer at a time -/

def pinged (t : Step Context ClientCall) : Bool :=
  match t.event with
  | .processLoop =>
    let (status, _, c) := receivePacketHeader t.before true
    decide (c.sent ≠ t.before.sent ∧ status ≠ .sendFailed)
  | _ => false

def answered (t : Step Context ClientCall) : Bool :=
  match t.event with
  | .processLoop => decide (handledPacket t.before true = some [packetTypePingresp, 0])
  | _ => false

theorem Read.waiting {c c' : Context} (h : Read c c') :
    c'.waitingForPingResp = c.waitingForPingResp := by
  obtain ⟨_, _, _, _, _, _, rfl⟩ := h
  rfl

theorem Wrote.waiting {c c' : Context} {bytes : Bytes} (h : Wrote c bytes c') :
    c'.waitingForPingResp = c.waitingForPingResp := by
  obtain ⟨_, _, _, _, rfl⟩ := h
  rfl

theorem handleKeepAlive_ping (c : Context) :
    (handleKeepAlive c).2.waitingForPingResp = c.waitingForPingResp ∧
        ((handleKeepAlive c).2.sent = c.sent ∨ (handleKeepAlive c).1 = .sendFailed) ∨
      c.waitingForPingResp = false ∧ (handleKeepAlive c).2.waitingForPingResp = true := by
  have hclock : (getTime c).2.waitingForPingResp = c.waitingForPingResp := (read_getTime c).waiting
  have hsent : (getTime c).2.sent = c.sent := congrArg View.sent (read_getTime c).view
  rw [handleKeepAlive_eq]
  split
  · exact .inl ⟨hclock, .inl hsent⟩
  next hidle =>
  split
  · obtain ⟨k, c', hwrote, hresult⟩ := mqttPing_cases (getTime c).2
    rcases hresult with hresult | ⟨-, hresult⟩ <;> rw [hresult]
    · exact .inl ⟨hwrote.waiting.trans hclock, .inr rfl⟩
    · exact .inr ⟨by simpa using hidle, rfl⟩
  · exact .inl ⟨hclock, .inl hsent⟩

theorem receivePacketHeader_ping (c : Context) :
    let result := receivePacketHeader c true
    result.2.2.waitingForPingResp = c.waitingForPingResp ∧
        (result.2.2.sent = c.sent ∨ result.1 = .sendFailed) ∨
      c.waitingForPingResp = false ∧ result.2.2.waitingForPingResp = true := by
  have hread := read_espTlsTransportRecv c (c.networkBuffer.length - c.index)
  rw [receivePacketHeader]
  rcases hrecv : espTlsTransportRecv c (c.networkBuffer.length - c.index) with
    ⟨_ | bytes, c'⟩ <;> rw [hrecv] at hread
  · exact .inl ⟨hread.waiting, .inl (congrArg View.sent hread.view)⟩
  have hstore := hread.trans (read_buffer c' (store c'.networkBuffer c'.index bytes)
    (c'.index + bytes.length))
  generalize hnew : { c' with
    networkBuffer := store c'.networkBuffer c'.index bytes
    index := c'.index + bytes.length } = c'' at hstore
  have hsent : c''.sent = c.sent := congrArg View.sent hstore.view
  simp only [hnew]
  split
  · rw [← hstore.waiting, ← hsent]
    refine (handleKeepAlive_ping c'').imp_left (And.imp_right (Or.imp_right fun hfailed => ?_))
    simp [hfailed]
  · exact .inl ⟨hstore.waiting, .inl hsent⟩

theorem waiting_receivePacketHeader (c : Context) :
    (receivePacketHeader c false).2.2.waitingForPingResp = c.waitingForPingResp := by
  have hread := read_espTlsTransportRecv c (c.networkBuffer.length - c.index)
  rw [receivePacketHeader]
  rcases hrecv : espTlsTransportRecv c (c.networkBuffer.length - c.index) with
    ⟨_ | bytes, c'⟩ <;> rw [hrecv] at hread
  · exact hread.waiting
  · simp only [Bool.false_eq_true, and_false, if_false]
    exact hread.waiting

theorem waiting_receiveSingleIteration {size : Nat} {c : Context} (hbuf : Buffered size c)
    (manageKeepAlive : Bool) :
    (receiveSingleIteration app c manageKeepAlive).2.waitingForPingResp =
        (receivePacketHeader c manageKeepAlive).2.2.waitingForPingResp ∨
      manageKeepAlive = true ∧ handledPacket c manageKeepAlive = some [packetTypePingresp, 0] := by
  rcases receiveSingleIteration_inv app hbuf manageKeepAlive with
    ⟨status, hresult, -⟩ | ⟨total, hresult, -⟩ |
      ⟨type, remainingLength, headerLength, -, -, -, hresult, hhandled⟩ <;>
    rw [hresult]
  · exact .inl rfl
  · exact .inl (read_discardStoredPacket _ total).waiting
  · rw [hhandled]
    refine (waiting_handlePacket app _ type remainingLength headerLength manageKeepAlive).imp_right
      ?_
    rintro ⟨rfl, rfl, hmanage⟩
    exact ⟨hmanage, by rw [List.take_zero]; rfl⟩

theorem ping_step {size : Nat} {c : Context} (hbuf : Buffered size c) (call : ClientCall) :
    let t : Step Context ClientCall := ⟨c, call, (clientStep app c call).2⟩
    (pinged t).toNat + c.waitingForPingResp.toNat ≤
      (answered t).toNat + t.after.waitingForPingResp.toNat := by
  -- a PINGREQ is sent only while none is awaited, and the wait ends with a PINGRESP
  intro t
  cases call with
  | processLoop =>
    have hbounds := Bool.toNat_le (pinged t)
    have hwait := Bool.toNat_le c.waitingForPingResp
    have hpacket : t.after.waitingForPingResp =
        (receivePacketHeader c true).2.2.waitingForPingResp ∨ answered t = true :=
      (waiting_receiveSingleIteration app hbuf true).imp_right fun h => decide_eq_true h.2
    rcases receivePacketHeader_ping c with ⟨hkept, hquiet⟩ | ⟨hidle, hwaiting⟩
    · have hsilent : pinged t = false :=
        decide_eq_false fun h => hquiet.elim h.1 h.2
      rw [hsilent, Bool.toNat_false, Nat.zero_add]
      rcases hpacket with hsame | hanswered
      · rw [hsame, hkept]
        exact Nat.le_add_left _ _
      · rw [hanswered, Bool.toNat_true]
        omega
    · rw [hidle, Bool.toNat_false, Nat.add_zero]
      rcases hpacket with hsame | hanswered
      · rw [hsame, hwaiting, Bool.toNat_true]
        omega
      · rw [hanswered, Bool.toNat_true]
        omega
  | receiveLoop =>
    have hkept : t.after.waitingForPingResp = c.waitingForPingResp := by
      refine ((waiting_receiveSingleIteration app hbuf false).resolve_right ?_).trans
        (waiting_receivePacketHeader c)
      rintro ⟨hmanage, -⟩
      cases hmanage
    rw [hkept]
    exact Nat.le_refl _
  | request request =>
    obtain ⟨_, _, _, _, _, _, _, _, _, heq⟩ := output_request c request
    have hkept : t.after.waitingForPingResp = c.waitingForPingResp := by
      show (request.send c).2.waitingForPingResp = _
      rw [heq]
    rw [hkept]
    exact Nat.le_refl _

theorem buffered_step {size : Nat} {c : Context} (hbuf : Buffered size c) (call : ClientCall) :
    Buffered size (clientStep app c call).2 := (calledFor_step app hbuf call).1

omit app in
theorem countP_singleton_toNat {α : Type*} (p : α → Bool) (a : α) :
    [a].countP p = (p a).toNat := by
  cases h : p a <;> simp [h]

/-- At most one PINGREQ is under way: in every run, one more was sent than were answered, or
none more. -/
theorem one_ping_at_a_time {c : Context} (hindex : c.index ≤ c.networkBuffer.length)
    (calls : List ClientCall) :
    let tr := trace (advance (clientStep app)) c calls
    tr.countP pinged ≤ tr.countP answered + 1 := by
  obtain ⟨-, hcount⟩ : Buffered c.networkBuffer.length (run (advance (clientStep app)) c calls) ∧
      (trace (advance (clientStep app)) c calls).countP pinged ≤
        (trace (advance (clientStep app)) c calls).countP answered +
          (run (advance (clientStep app)) c calls).waitingForPingResp.toNat := by
    refine history_induction (Q := fun tr c' => Buffered c.networkBuffer.length c' ∧
      tr.countP pinged ≤ tr.countP answered + c'.waitingForPingResp.toNat)
      ⟨⟨rfl, hindex⟩, Nat.zero_le _⟩ ?_ calls
    rintro tr c' call ⟨hbuf, hcount⟩
    refine ⟨buffered_step app hbuf call, ?_⟩
    have hstep := ping_step app hbuf call
    rw [List.countP_append, List.countP_append, countP_singleton_toNat, countP_singleton_toNat]
    simp only at hstep
    rw [advance]
    omega
  have hone := Bool.toNat_le (run (advance (clientStep app)) c calls).waitingForPingResp
  exact hcount.trans (Nat.add_le_add_left hone _)

end App

theorem one_ping_at_a_time_sample :
    let c := { sampleContext [.wantRead, .data [0xD0, 0], .wantRead, .wantRead] with
      writes := [2, 2, 2], now := 30000 }
    let calls : List ClientCall := [.processLoop, .processLoop, .processLoop, .processLoop]
    let tr := trace (advance (clientStep fun _ => [])) c calls
    tr.countP pinged ≤ tr.countP answered + 1 := by
  intro c
  exact one_ping_at_a_time (fun _ => []) (c := c) (by decide) _

section App

variable (app : AppCall → List PublishInfo)

/-! ## The broker goes silent -/

theorem lastPacketRxTime_step {size : Nat} {c : Context} (hbuf : Buffered size c)
    (call : ClientCall) :
    (clientStep app c call).2.lastPacketRxTime = c.lastPacketRxTime := by
  cases call with
  | processLoop => exact (receiveSingleIteration_cases app hbuf true).2.1
  | receiveLoop => exact (receiveSingleIteration_cases app hbuf false).2.1
  | request request => exact (output_request c request).keepsInput.lastPacketRxTime

omit app in
theorem clock_reads (c : Context) (reads : List TlsRead) :
    (getTime { c with reads }).1 = (getTime c).1 := by
  simp only [getTime]
  cases c.times <;> rfl

omit app in
theorem elapsed_zero (now : UInt32) : calculateElapsedTime now 0 = now := UInt32.sub_zero now

theorem late_poll_pings {size : Nat} {c : Context} (hbuf : Buffered size c)
    (hrx : c.lastPacketRxTime = 0) {reads : List TlsRead} (hreads : c.reads = .wantRead :: reads)
    (hroom : c.index < c.networkBuffer.length) (hidle : c.waitingForPingResp = false)
    (hlate : packetRxTimeoutMs ≤ (getTime c).1) :
    (mqttProcessLoop app c).1 = .sendFailed ∨
      c.sent ++ [packetTypePingreq, 0] <+: (mqttProcessLoop app c).2.sent := by
  have hclock := clock_reads c reads
  have hdue : pingDue { c with reads } (getTime { c with reads }).1 = true := by
    refine decide_eq_true (Or.inr ?_)
    rw [hclock, hrx, elapsed_zero]
    refine ⟨fun hzero => ?_, hlate⟩
    rw [hzero] at hlate
    exact absurd hlate (by decide)
  have hping : handleKeepAlive { c with reads } = mqttPing (getTime { c with reads }).2 := by
    rw [handleKeepAlive_eq, if_neg (by simp [hidle]), if_pos hdue]
  have hsent : (getTime { c with reads }).2.sent = c.sent :=
    congrArg View.sent (read_getTime { c with reads }).view
  have hheader := receivePacketHeader_idle hreads hroom
  rw [hping] at hheader
  obtain ⟨k, c', hwrote, hresult⟩ := mqttPing_cases (getTime { c with reads }).2
  rcases hresult with hresult | ⟨rfl, hresult⟩ <;> rw [hresult] at hheader
  · left
    simp only [reduceCtorEq, if_false] at hheader
    rw [mqttProcessLoop, (receiveSingleIteration_of_ne app hheader (by decide)).1]
    rfl
  · right
    have hkept := sent_receiveSingleIteration app hbuf true
    rw [hheader] at hkept
    rw [← hsent]
    exact hwrote.sent ▸ hkept

/-- `lastPacketRxTime` is never set. Whatever has been received, once the clock is past
`PACKET_RX_TIMEOUT_MS` a poll that finds nothing sends a PINGREQ, unless one is under way. -/
theorem idle_poll_pings {c : Context} (hindex : c.index ≤ c.networkBuffer.length)
    (hrx : c.lastPacketRxTime = 0) (calls : List ClientCall) {reads : List TlsRead} :
    let c' := run (advance (clientStep app)) c calls
    c'.reads = .wantRead :: reads → c'.index < c'.networkBuffer.length →
      c'.waitingForPingResp = false → packetRxTimeoutMs ≤ (getTime c').1 →
      (mqttProcessLoop app c').1 = .sendFailed ∨
        c'.sent ++ [packetTypePingreq, 0] <+: (mqttProcessLoop app c').2.sent := by
  obtain ⟨hbuf, hnever⟩ : Buffered c.networkBuffer.length
      (run (advance (clientStep app)) c calls) ∧
      (run (advance (clientStep app)) c calls).lastPacketRxTime = 0 := by
    refine history_induction (Q := fun _ c' => Buffered c.networkBuffer.length c' ∧
      c'.lastPacketRxTime = 0) ⟨⟨rfl, hindex⟩, hrx⟩ ?_ calls
    rintro - c' call ⟨hbuf, hnever⟩
    exact ⟨buffered_step app hbuf call, (lastPacketRxTime_step app hbuf call).trans hnever⟩
  exact fun hreads hroom hidle hlate =>
    late_poll_pings app hbuf hnever hreads hroom hidle hlate

end App

theorem idle_poll_pings_sample :
    let c := { sampleContext [.data [0xD0, 0], .wantRead] with writes := [2], now := 30000 }
    let c' := run (advance (clientStep fun _ => [])) c [.processLoop]
    (mqttProcessLoop (fun _ => []) c').1 = .sendFailed ∨
      c'.sent ++ [packetTypePingreq, 0] <+: (mqttProcessLoop (fun _ => []) c').2.sent := by
  intro c
  have hreads : (run (advance (clientStep fun _ => [])) c [.processLoop]).reads = [.wantRead] := by
    decide +kernel
  exact idle_poll_pings (fun _ => []) (by decide) rfl [.processLoop] hreads (by decide +kernel)
    (by decide +kernel) (by decide +kernel)

section App

variable (app : AppCall → List PublishInfo)

theorem silent_poll {c : Context} (hwaiting : c.waitingForPingResp = true) (hempty : c.index = 0)
    (hroom : 0 < c.networkBuffer.length) {reads : List TlsRead}
    (hreads : c.reads = .wantRead :: reads) :
    mqttProcessLoop app c =
      (if calculateElapsedTime (getTime c).1 c.pingReqSendTimeMs > mqttPingrespTimeoutMs then
        .keepAliveTimeout else .success, (getTime { c with reads }).2) := by
  have hclock := clock_reads c reads
  have hheld : held c = [] := by rw [held, hempty, List.take_zero]
  have hheader := receivePacketHeader_idle hreads (by omega)
  rw [handleKeepAlive_eq, if_pos hwaiting, hclock, hheld] at hheader
  rw [mqttProcessLoop]
  split
  · next hlate =>
    simp only [if_pos hlate, reduceCtorEq, if_false] at hheader
    exact (receiveSingleIteration_of_ne app hheader (by decide)).1
  · next hearly =>
    simp only [if_neg hearly, if_true] at hheader
    exact (receiveSingleIteration_of_ne app hheader (by decide)).1

/-- While the broker is silent every poll returns success until `MQTT_PINGRESP_TIMEOUT_MS` is
over, by the clock it reads, and the keep alive timeout from then on; nothing more is sent. -/
theorem silent_broker_noticed {c : Context} (hwaiting : c.waitingForPingResp = true)
    (hempty : c.index = 0) (hroom : 0 < c.networkBuffer.length) {polls : Nat}
    {rest : List TlsRead} (hreads : c.reads = List.replicate polls .wantRead ++ rest) :
    ∀ t ∈ trace (advance (clientStep app)) c (List.replicate polls .processLoop),
      (clientStep app t.before t.event).1 =
          (if calculateElapsedTime (getTime t.before).1 c.pingReqSendTimeMs >
            mqttPingrespTimeoutMs then .keepAliveTimeout else .success) ∧
        t.after.sent = c.sent := by
  induction polls generalizing c with
  | zero => exact fun t ht => absurd ht List.not_mem_nil
  | succ polls ih =>
    rw [List.replicate_succ, List.cons_append] at hreads
    have hpoll := silent_poll app hwaiting hempty hroom hreads
    obtain ⟨writes, times, now, lastPacketTxTime, hafter⟩ :=
      wrote_getTime { c with reads := List.replicate polls .wantRead ++ rest }
    rw [List.append_nil] at hafter
    intro t ht
    rw [List.replicate_succ, trace] at ht
    have hstep : advance (clientStep app) c .processLoop =
        (getTime { c with reads := List.replicate polls .wantRead ++ rest }).2 :=
      congrArg Prod.snd hpoll
    rw [hstep] at ht
    rcases List.mem_cons.mp ht with rfl | ht
    · exact ⟨congrArg Prod.fst hpoll, by rw [hafter]⟩
    · rw [hafter] at ht
      exact ih (c := { c with
        reads := List.replicate polls .wantRead ++ rest
        writes, times, now, lastPacketTxTime }) hwaiting hempty hroom rfl t ht

end App

theorem silent_broker_noticed_sample :
    let c := { sampleContext [.wantRead, .wantRead] with
      waitingForPingResp := true, pingReqSendTimeMs := 40000, times := [42000, 46000] }
    answers (clientStep fun _ => []) c (List.replicate 2 .processLoop) =
        [.success, .keepAliveTimeout] ∧
      ∀ t ∈ trace (advance (clientStep fun _ => [])) c (List.replicate 2 .processLoop),
        (clientStep (fun _ => []) t.before t.event).1 =
            (if calculateElapsedTime (getTime t.before).1 40000 > mqttPingrespTimeoutMs then
              .keepAliveTimeout else .success) ∧
          t.after.sent = [] := by
  intro c
  have hreads : c.reads = List.replicate 2 .wantRead ++ [] := rfl
  exact ⟨by decide +kernel, silent_broker_noticed (fun _ => []) rfl rfl (by decide) hreads⟩

end CyThing.CoreMqtt
