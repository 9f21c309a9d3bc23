import CyThing.CoreMqtt.Events

/-! A publish and its acknowledgements, over the client's whole life: a packet id is free again
only after the exchange of acknowledgements that belongs to it, so a publish that the broker
repeats is not handed to the application twice. -/

namespace CyThing.CoreMqtt
open CLib Trace Simulation
open scoped List

/-! ## What an exchange waits for -/

section Exchange

variable {m n : Nat} {side : Side} {x : Exchanges m n} {r r' : PubAckInfo}

def Side.remaining (side : Side) (r : PubAckInfo) : List EngineCall :=
  ((side.path r.qos).dropWhile fun state => decide (state ≠ r.publishState)).map fun state =>
    PubAckInfo.awaits { r with publishState := state }

theorem nodup_path (side : Side) (qos : Qos) : (side.path qos).Nodup := by
  cases side <;> cases qos <;> decide

theorem dropWhile_ne {α : Type*} [DecidableEq α] {pre post : List α} {a : α}
    (h : (pre ++ a :: post).Nodup) :
    (pre ++ a :: post).dropWhile (fun b => decide (b ≠ a)) = a :: post := by
  have hnew : ∀ b ∈ pre, b ≠ a := by
    rintro b hb rfl
    exact (List.nodup_cons.mp (List.nodup_middle.mp h)).1 (List.mem_append_left _ hb)
  rw [List.dropWhile_append_of_pos (by simpa using hnew),
    List.dropWhile_cons_of_neg (by simp)]

theorem remaining_eq (pre post : List PublishState)
    (hpath : side.path r.qos = pre ++ r.publishState :: post) :
    side.remaining r = r.awaits ::
      post.map fun state => PubAckInfo.awaits { r with publishState := state } := by
  have hnodup := nodup_path side r.qos
  rw [hpath] at hnodup
  rw [Side.remaining, hpath, dropWhile_ne hnodup, List.map_cons]

theorem remaining_next (h : side.Next r r') :
    side.remaining r = r.awaits :: side.remaining r' := by
  obtain ⟨packetId, qos, state⟩ := r
  obtain ⟨packetId', qos', state'⟩ := r'
  obtain ⟨rfl, rfl, pre, post, hpath⟩ := h
  rw [remaining_eq pre (state' :: post) (by simp [← hpath]),
    remaining_eq (pre ++ [state]) post (by simp [← hpath]), List.map_cons]

theorem remaining_last (h : (side.path r.qos).getLast? = some r.publishState) :
    side.remaining r = [r.awaits] := by
  obtain ⟨pre, hpath⟩ := List.getLast?_eq_some_iff.mp h
  exact remaining_eq pre [] hpath

theorem exchange_run (hpath : ∀ side : Side, side.OnPath (x.on side)) (hr : r ∈ x.on side)
    (calls : List EngineCall) :
    .clear ∈ calls ∨ side.remaining r <+ calls ∨
      ∃ r' ∈ (run (advance Exchanges.step) x calls).on side, r'.packetId = r.packetId := by
  induction calls generalizing x r with
  | nil => exact .inr (.inr ⟨r, hr, rfl⟩)
  | cons call calls ih =>
    have hkeeps := fun side => step_keeps hpath call side
    have hnext : ∀ side : Side, side.OnPath ((advance Exchanges.step x call).on side) :=
      fun side => (hkeeps side).on_path
    rcases (hkeeps side).goes_on r hr with hstays | rfl | ⟨rfl, ⟨r', hr', hmoved⟩ | ⟨hlast, -⟩⟩
    · rcases ih hnext hstays with hclear | hsub | hused
      · exact .inl (List.mem_cons_of_mem _ hclear)
      · exact .inr (.inl (hsub.cons _))
      · exact .inr (.inr hused)
    · exact .inl (List.mem_cons_self ..)
    · rcases ih hnext hr' with hclear | hsub | ⟨r'', hr'', hid⟩
      · exact .inl (List.mem_cons_of_mem _ hclear)
      · rw [remaining_next hmoved]
        exact .inr (.inl (hsub.cons_cons _))
      · exact .inr (.inr ⟨r'', hr'', hid.trans hmoved.packetId⟩)
    · rw [remaining_last hlast]
      exact .inr (.inl (List.singleton_sublist.mpr (List.mem_cons_self ..)))

end Exchange

/-! ## Handshakes -/

def Side.handshake (side : Side) (packetId : UInt16) (qos : Qos) : List LogEntry :=
  match side, qos with
  | _, .qos0 => []
  | .sender, .qos1 => [.ackReceived packetId .puback]
  | .sender, .qos2 =>
    [.ackReceived packetId .pubrec, .ackSent packetId .pubrel, .ackReceived packetId .pubcomp]
  | .receiver, .qos1 => [.ackSent packetId .puback]
  | .receiver, .qos2 =>
    [.ackSent packetId .pubrec, .ackReceived packetId .pubrel, .ackSent packetId .pubcomp]

def Side.starts (side : Side) (entry : LogEntry) : Option (UInt16 × Qos) :=
  match side, entry with
  | .sender, .published packetId qos => some (packetId, qos)
  | .receiver, .delivered packetId qos => some (packetId, qos)
  | _, _ => none

def Side.AgainAfterHandshake (side : Side) (log : List LogEntry) : Prop :=
  ∀ pre entry mid entry' post packetId qos qos', log = pre ++ entry :: (mid ++ entry' :: post) →
    side.starts entry = some (packetId, qos) → side.starts entry' = some (packetId, qos') →
    .cleared ∈ mid ∨ side.handshake packetId qos <+ mid

def LogEntry.ofAck : EngineCall → Option LogEntry
  | .ack packetId packetType .send => some (.ackSent packetId packetType)
  | .ack packetId packetType .receive => some (.ackReceived packetId packetType)
  | .reserve _ _ | .publish _ _ _ | .clear => none

theorem filterMap_ofAck (events : List Event) :
    (events.flatMap Event.engineCalls).filterMap LogEntry.ofAck <+
      events.filterMap Event.entry := by
  induction events with
  | nil => exact List.Sublist.refl _
  | cons e events ih =>
    rw [List.flatMap_cons, List.filterMap_append]
    cases e with
    | ackReceived packetId packetType => exact ih.cons_cons _
    | ackSent packetId packetType => exact ih.cons_cons _
    | wrote | called | unreserved | refused => exact ih
    | unsent | published | delivered | cleared => exact ih.cons _

theorem cleared_mem_entries {events : List Event}
    (h : EngineCall.clear ∈ events.flatMap Event.engineCalls) :
    .cleared ∈ events.filterMap Event.entry := by
  obtain ⟨e, he, hcall⟩ := List.mem_flatMap.mp h
  cases e with
  | cleared => exact List.mem_filterMap.mpr ⟨_, he, rfl⟩
  | _ => simp [Event.engineCalls] at hcall

theorem events_of_entries {events : List Event} {pre mid post : List LogEntry}
    {entry entry' : LogEntry}
    (h : events.filterMap Event.entry = pre ++ entry :: (mid ++ entry' :: post)) :
    ∃ before e between e' after, events = before ++ e :: (between ++ e' :: after) ∧
      e.entry = some entry ∧ e'.entry = some entry' ∧ between.filterMap Event.entry = mid := by
  obtain ⟨before, rest, rfl, -, hrest⟩ := List.filterMap_eq_append_iff.mp h
  obtain ⟨skipped, e, rest, rfl, -, he, hrest⟩ := List.filterMap_eq_cons_iff.mp hrest
  obtain ⟨between, rest, rfl, hbetween, hrest⟩ := List.filterMap_eq_append_iff.mp hrest
  obtain ⟨skipped', e', after, rfl, hskipped', he', -⟩ := List.filterMap_eq_cons_iff.mp hrest
  refine ⟨before ++ skipped, e, between ++ skipped', e', after, by simp, he, he', ?_⟩
  rw [List.filterMap_append, hbetween, List.filterMap_eq_nil_iff.mpr hskipped', List.append_nil]

def Side.first (side : Side) (packetId : UInt16) (qos : Qos) : PubAckInfo :=
  ⟨packetId, qos, match side with
    | .sender => .publishSend
    | .receiver => mqttCalculateStatePublish .receive qos⟩

theorem filterMap_remaining_first (side : Side) (packetId : UInt16) (qos : Qos) :
    (side.remaining (side.first packetId qos)).filterMap LogEntry.ofAck =
      side.handshake packetId qos := by
  cases side <;> cases qos <;> rfl

section Again

variable {m n : Nat} {scope : Scope} {side : Side} {x : Exchanges m n} {v v' : View}

theorem answer_eq (hm : 0 < m) (hn : 0 < n) (h : Refines v.records x) (call : EngineCall) :
    v.answer m n call = (x.step call).1.1 := by
  rw [View.answer, (engineStep_simulates hm hn v.records x call h).1]

theorem reserve_fresh {packetId : UInt16} {qos : Qos} (hqos : qos ≠ .qos0)
    (h : (x.step (.reserve packetId qos)).1.1 = .success) :
    (∀ r ∈ x.on .sender, r.packetId ≠ packetId) ∧
      (x.step (.reserve packetId qos)).2.on .sender =
        x.on .sender ++ [Side.sender.first packetId qos] := by
  simp only [Exchanges.step, if_neg hqos] at h ⊢
  split at h
  · cases h
  next hid =>
  rw [dif_neg hid]
  exact x.outgoing.add_eq_success h

theorem View.Reserves.fresh (hm : 0 < m) (hn : 0 < n) (h : Refines v.records x)
    {packetId : UInt16} {qos : Qos} (hrecord : v.Reserves m n scope packetId qos)
    (hscope : ¬ scope.resends) :
    (∀ r ∈ x.on .sender, r.packetId ≠ packetId) ∧
      (x.step (.reserve packetId qos)).2.on .sender =
        x.on .sender ++ [Side.sender.first packetId qos] := by
  obtain ⟨hqos, hreserve⟩ := hrecord
  rw [answer_eq hm hn h] at hreserve
  exact reserve_fresh hqos (hreserve.resolve_right fun hagain => hscope hagain.2)

theorem receive_fresh {packetId : UInt16} {qos : Qos} (hqos : qos ≠ .qos0)
    (h : (x.step (.publish packetId .receive qos)).1.1 = .success) :
    (∀ r ∈ x.on .receiver, r.packetId ≠ packetId) ∧
      (x.step (.publish packetId .receive qos)).2.on .receiver =
        x.on .receiver ++ [Side.receiver.first packetId qos] := by
  simp only [Exchanges.step, if_neg hqos] at h ⊢
  split at h
  · cases h
  next hid =>
  rw [dif_neg hid]
  exact x.incoming.add_eq_success h

theorem start_fresh (hm : 0 < m) (hn : 0 < n) (h : Refines v.records x) {e : Event}
    (hallowed : e.Allowed m n scope v) (hside : side = .sender → ¬ scope.resends)
    {entry : LogEntry} (hentry : e.entry = some entry) {packetId : UInt16} {qos : Qos}
    (hstart : side.starts entry = some (packetId, qos)) :
    (∀ r ∈ x.on side, r.packetId ≠ packetId) ∧ e ≠ .cleared ∧
      e.engineCalls.filterMap LogEntry.ofAck = [] ∧
      ∃ call rest, e.engineCalls = call :: rest ∧ .clear ∉ rest ∧
        side.first packetId qos ∈ (advance Exchanges.step x call).on side := by
  cases side with
  | sender =>
    cases e <;> cases hentry <;> cases hstart
    obtain ⟨hfresh, hafter⟩ := View.Reserves.fresh hm hn h hallowed (hside rfl)
    refine ⟨hfresh, by simp, rfl, _, _, rfl, by simp, ?_⟩
    rw [advance, hafter]
    simp
  | receiver =>
    cases e <;> cases hentry <;> cases hstart
    obtain ⟨hqos, -, hsuccess⟩ := hallowed
    rw [answer_eq hm hn h] at hsuccess
    obtain ⟨hfresh, hafter⟩ := receive_fresh hqos hsuccess
    refine ⟨hfresh, by simp, rfl, _, _, rfl, by simp, ?_⟩
    rw [advance, hafter]
    simp

theorem Explained.again (hm : 0 < m) (hn : 0 < n) {events : List Event}
    (h : Explained m n scope v events v') (hclear : v.records = clearRecords m n)
    (hside : side = .sender → ¬ scope.resends) :
    side.AgainAfterHandshake (events.filterMap Event.entry) := by
  intro pre entry mid entry' post packetId qos qos' hlog hstart hstart'
  obtain ⟨before, e, between, e', after, rfl, he, he', rfl⟩ := events_of_entries hlog
  obtain ⟨-, -, hnoack, call, rest, hcalls, hnoclear, hfirst⟩ :=
    start_fresh hm hn (refines_run hm hn hclear before) h.allowed_at hside he hstart
  have hallowed' : e'.Allowed m n scope (run (View.step m n) v (before ++ e :: between)) := by
    rw [← List.cons_append, ← List.append_assoc] at h
    exact h.allowed_at
  obtain ⟨hfresh, -⟩ :=
    start_fresh hm hn (refines_run hm hn hclear _) hallowed' hside he' hstart'
  have hpath : ∀ side : Side, side.OnPath ((run (advance Exchanges.step) (Exchanges.none m n)
      (before.flatMap Event.engineCalls ++ [call])).on side) := onPath_run (onPath_none m n) _
  rw [run_append] at hpath
  rcases exchange_run hpath hfirst (rest ++ between.flatMap Event.engineCalls) with
    hends | hsub | ⟨r, hr, hid⟩
  · exact .inl (cleared_mem_entries ((List.mem_append.mp hends).resolve_left hnoclear))
  · right
    have hacks : side.remaining (side.first packetId qos) <+
        e.engineCalls ++ between.flatMap Event.engineCalls := by
      rw [hcalls]
      exact hsub.cons _
    have hshake := hacks.filterMap LogEntry.ofAck
    rw [filterMap_remaining_first, List.filterMap_append, hnoack, List.nil_append] at hshake
    exact hshake.trans (filterMap_ofAck between)
  · refine absurd hid (hfresh r ?_)
    rw [List.flatMap_append, List.flatMap_cons, hcalls, List.cons_append, run_append, run_cons]
    exact hr

end Again

/-! ## Runs -/

def AppCall.delivery (call : AppCall) : Option (UInt16 × Qos) :=
  call.publishInfo.bind fun publishInfo =>
    if publishInfo.qos = .qos0 then none else some (call.packetIdentifier, publishInfo.qos)

structure Context.Fresh (m n : Nat) (c : Context) : Prop where
  records : c.publishRecords = clearRecords m n
  calls : c.calls = []
  log : c.log = []

section Runs

theorem availableRecord_ne_sendFailed (records : List PubAckInfo) (packetId : UInt16)
    (index availableIndex : Nat) (validEntryFound : Bool) :
    (availableRecord records packetId index availableIndex validEntryFound).2 ≠ .sendFailed := by
  induction index generalizing availableIndex validEntryFound with
  | zero => simp [availableRecord]
  | succ index ih =>
    rw [availableRecord]
    split
    · exact ih _ _
    split
    · simp
    · exact ih _ _

theorem addRecord_ne_sendFailed (records : List PubAckInfo) (packetId : UInt16) (qos : Qos)
    (publishState : PublishState) :
    (addRecord records packetId qos publishState).1 ≠ .sendFailed := by
  simp only [addRecord]
  generalize (if (records.getD (records.length - 1) {}).packetId ≠ 0 then compactRecords records
    else records) = compacted
  split
  · simp
  · exact availableRecord_ne_sendFailed _ _ _ _ _

theorem mqttReserveState_ne_sendFailed (c : PublishRecords) (packetId : UInt16) (qos : Qos) :
    (mqttReserveState c packetId qos).1 ≠ .sendFailed := by
  rw [mqttReserveState]
  split
  · simp
  split
  · simp
  · exact addRecord_ne_sendFailed _ _ _ _

theorem updateStatePublish_send_ne_sendFailed (c : PublishRecords) (recordIndex : Nat)
    (packetId : UInt16) (qos : Qos) (currentState newState : PublishState) :
    (updateStatePublish c recordIndex packetId .send qos currentState newState).1 ≠
      .sendFailed := by
  rw [updateStatePublish]
  split
  · split <;> simp
  · simp

theorem mqttUpdateStatePublish_send_ne_sendFailed (c : PublishRecords) (packetId : UInt16)
    (qos : Qos) : (mqttUpdateStatePublish c packetId .send qos).1 ≠ .sendFailed := by
  simp only [mqttUpdateStatePublish]
  split
  · simp
  split
  · simp
  split
  · simp
  split
  · simp
  · exact updateStatePublish_send_ne_sendFailed _ _ _ _ _ _

theorem log_mqttPublish (c : Context) {publishInfo : PublishInfo} (hqos : publishInfo.qos ≠ .qos0)
    (packetId : UInt16) :
    ((mqttPublish c publishInfo packetId).1 = .success →
      (mqttPublish c publishInfo packetId).2.log =
        c.log ++ [.published packetId publishInfo.qos]) ∧
    ((mqttPublish c publishInfo packetId).1 = .sendFailed →
      (mqttPublish c publishInfo packetId).2.log =
        c.log ++ [.unsent packetId publishInfo.qos]) := by
  rcases mqttPublish_cases c publishInfo packetId with
    heq | ⟨-, hreserve, heq⟩ | ⟨remainingLength, packetSize, -, -, -, heq⟩ <;> rw [heq]
  · simp
  · exact ⟨fun h => absurd h hreserve, fun h => absurd h (mqttReserveState_ne_sendFailed _ _ _)⟩
  obtain ⟨k, c', ⟨_, _, _, _, rfl⟩, hresult⟩ := publishReserved_cases
    { c with publishRecords := (mqttReserveState c.publishRecords packetId publishInfo.qos).2 }
    publishInfo remainingLength packetId
  rcases hresult with ⟨hqos0, -⟩ | ⟨-, hresult⟩ | ⟨-, -, hresult⟩
  · exact absurd hqos0 hqos
  · rw [hresult]
    exact ⟨(nomatch ·), fun _ => rfl⟩
  · rw [hresult]
    exact ⟨fun _ => rfl, fun h => absurd h (mqttUpdateStatePublish_send_ne_sendFailed _ _ _)⟩

variable {m n : Nat} {scope : Scope}

theorem delivery_event {v : View} {e : Event} (h : e.Allowed m n scope v) :
    e.calls.filterMap AppCall.delivery = e.entry.toList.filterMap Side.receiver.starts := by
  cases e with
  | called call =>
    have hnone : call.delivery = none := by
      rw [AppCall.delivery]
      cases hinfo : call.publishInfo with
      | none => rfl
      | some publishInfo => exact if_pos (h publishInfo hinfo)
    simp [Event.calls, Event.entry, hnone]
  | delivered call qos =>
    obtain ⟨hqos, ⟨publishInfo, hinfo, rfl⟩, -⟩ := h
    have hsome : call.delivery = some (call.packetIdentifier, publishInfo.qos) := by
      rw [AppCall.delivery, hinfo]
      exact if_neg hqos
    simp [Event.calls, Event.entry, hsome, Side.starts]
  | _ => rfl

theorem Explained.deliveries {v v' : View} {events : List Event}
    (h : Explained m n scope v events v')
    (hv : v.calls.filterMap AppCall.delivery = v.log.filterMap Side.receiver.starts) :
    v'.calls.filterMap AppCall.delivery = v'.log.filterMap Side.receiver.starts := by
  refine h.keeps
    (Q := fun u => u.calls.filterMap AppCall.delivery = u.log.filterMap Side.receiver.starts)
    hv fun u e hu he => ?_
  rw [View.step, List.filterMap_append, List.filterMap_append, hu, delivery_event he]

theorem Explained.log_eq {v v' : View} {events : List Event} (h : Explained m n scope v events v') :
    v'.log = v.log ++ events.filterMap Event.entry := by
  have hlog := congrArg View.log h.run_eq
  rw [run_step] at hlog
  exact hlog.symm

theorem Context.Fresh.again (hm : 0 < m) (hn : 0 < n) {c c' : Context} (hfresh : c.Fresh m n)
    {events : List Event} (h : Explained m n scope c.view events c'.view) {side : Side}
    (hside : side = .sender → ¬ scope.resends) : side.AgainAfterHandshake c'.log := by
  have hlog : c'.log = c.log ++ events.filterMap Event.entry := h.log_eq
  rw [hlog, hfresh.log, List.nil_append]
  exact h.again hm hn hfresh.records hside

end Runs

/-- However the connection cuts and repeats, and over any number of sessions: a publish of QoS 1
or 2 goes to the application under a packet id that another one had before only after the whole
handshake of that one, or in a new session. -/
theorem delivered_again_after_handshake (app : AppCall → List PublishInfo) {m n : Nat}
    (hm : 0 < m) (hn : 0 < n) {c : Context} (hfresh : c.Fresh m n) (calls : List SessionCall) :
    let c' := run (advance (sessionStep app)) c calls
    c'.calls.filterMap AppCall.delivery = c'.log.filterMap Side.receiver.starts ∧
      Side.receiver.AgainAfterHandshake c'.log := by
  obtain ⟨events, hevents⟩ := run_explained ⟨True, True⟩ trivial hm hn (fun _ _ _ _ => trivial)
    hfresh.records calls (fun _ _ _ => trivial)
  refine ⟨hevents.deliveries ?_, hfresh.again hm hn hevents (fun h => by cases h)⟩
  rw [Context.view, hfresh.calls, hfresh.log]
  rfl

theorem length_sampleTopic : [(97 : UInt8)].length < 2 ^ 16 := by decide

def samplePublish : SessionCall :=
  .client (.request (.publish ⟨.qos1, false, false, ⟨[97], length_sampleTopic⟩, []⟩ 1))

-- a publish of QoS 2 comes, comes again before its handshake is over, its PUBREL comes, and another
-- publish under its packet id; a publish of QoS 1 is sent twice with one packet id, its PUBACK in
-- between
def sampleSession : List SessionCall :=
  [.client .processLoop, samplePublish, .client .processLoop, .client .processLoop,
    .client .processLoop, samplePublish, .client .processLoop, .disconnect]

def sampleStart : Context :=
  { sampleContext [.data [0x34, 5, 0, 1, 97, 0, 9], .data [0x3C, 5, 0, 1, 97, 0, 9],
      .data [0x62, 2, 0, 9], .data [0x40, 2, 0, 1], .data [0x34, 5, 0, 1, 97, 0, 9]] with
    writes := List.replicate 16 20 }

theorem fresh_sampleStart : sampleStart.Fresh 2 2 := ⟨rfl, rfl, rfl⟩

theorem delivered_again_after_handshake_sample :
    let c' := run (advance (sessionStep fun _ => [])) sampleStart sampleSession
    c'.log.filterMap Side.receiver.starts = [(9, .qos2), (9, .qos2)] ∧
      c'.calls.filterMap AppCall.delivery = [(9, .qos2), (9, .qos2)] ∧
      Side.receiver.AgainAfterHandshake c'.log := by
  obtain ⟨hsame, hagain⟩ := delivered_again_after_handshake (fun _ => []) (by decide) (by decide)
    fresh_sampleStart sampleSession
  have hlog : (run (advance (sessionStep fun _ => [])) sampleStart sampleSession).log.filterMap
      Side.receiver.starts = [(9, .qos2), (9, .qos2)] := by decide +kernel
  exact ⟨hlog, hsame.trans hlog, hagain⟩

/-- A client that never marks a publish as sent again uses a packet id again only after the whole
handshake of the publish that had it, or in a new session. -/
theorem packet_id_reused_after_handshake (app : AppCall → List PublishInfo)
    (happ : ∀ call, ∀ publishInfo ∈ app call, publishInfo.dup = false) {m n : Nat}
    (hm : 0 < m) (hn : 0 < n) {c : Context} (hfresh : c.Fresh m n) (calls : List SessionCall)
    (hcalls : ∀ call, .client call ∈ calls → call.dup = false) :
    (∀ t ∈ trace (advance (sessionStep app)) c calls, ∀ publishInfo packetId,
      t.event = .client (.request (.publish publishInfo packetId)) → publishInfo.qos ≠ .qos0 →
      (sessionStep app t.before t.event).1 = .success →
      t.after.log = t.before.log ++ [.published packetId publishInfo.qos]) ∧
    Side.sender.AgainAfterHandshake (run (advance (sessionStep app)) c calls).log := by
  constructor
  · intro t ht publishInfo packetId hevent hqos hsuccess
    obtain ⟨-, -, -, -, hafter⟩ := mem_trace ht
    rw [hafter, advance, hevent]
    rw [hevent] at hsuccess
    exact (log_mqttPublish t.before hqos packetId).1 hsuccess
  obtain ⟨events, hevents⟩ := run_explained ⟨False, True⟩ trivial hm hn
    (fun call publishInfo hmem hdup => by rw [happ call publishInfo hmem] at hdup; cases hdup)
    hfresh.records calls (fun call hmem hdup => by rw [hcalls call hmem] at hdup; cases hdup)
  exact hfresh.again hm hn hevents (fun _ h => h)

theorem packet_id_reused_after_handshake_sample :
    let c₁ := run (advance (sessionStep fun _ => [])) sampleStart (sampleSession.take 1)
    let c' := run (advance (sessionStep fun _ => [])) sampleStart sampleSession
    (sessionStep (fun _ => []) c₁ samplePublish).2.log = c₁.log ++ [.published 1 .qos1] ∧
      c'.log.filterMap Side.sender.starts = [(1, .qos1), (1, .qos1)] ∧
      Side.sender.AgainAfterHandshake c'.log := by
  intro c₁ c'
  have hdup : ∀ call, .client call ∈ sampleSession → call.dup = false := by
    intro call hcall
    simp only [sampleSession, samplePublish, List.mem_cons, SessionCall.client.injEq, reduceCtorEq,
      List.not_mem_nil, or_false] at hcall
    rcases hcall with rfl | rfl | rfl | rfl | rfl | rfl | rfl <;> rfl
  obtain ⟨hlogged, hagain⟩ := packet_id_reused_after_handshake (fun _ => [])
    (fun _ _ h => absurd h List.not_mem_nil) (by decide) (by decide) fresh_sampleStart
    sampleSession hdup
  refine ⟨?_, by decide +kernel, hagain⟩
  have hmem : ⟨c₁, samplePublish, advance (sessionStep fun _ => []) c₁ samplePublish⟩ ∈
      trace (advance (sessionStep fun _ => [])) sampleStart sampleSession := by
    have hsplit : sampleSession = sampleSession.take 1 ++ samplePublish :: sampleSession.drop 2 :=
      rfl
    rw [hsplit, trace_append]
    exact List.mem_append_right _ List.mem_cons_self
  have hsuccess : (sessionStep (fun _ => []) c₁ samplePublish).1 = .success := by decide +kernel
  clear_value c₁
  exact hlogged _ hmem _ 1 rfl (by decide) hsuccess

end CyThing.CoreMqtt
