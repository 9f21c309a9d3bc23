import CyThing.CoreMqtt.StateEngine

/-! The exchanges of acknowledgements follow the protocol: over every run of the state engine a
record stands in one of the states of its exchange, goes through them one by one, and leaves
only with the acknowledgement that ends the exchange. -/

namespace CyThing.CoreMqtt
open OrderedSlots Trace Simulation

inductive Side
  | sender | receiver
  deriving DecidableEq

def Side.path : Side → Qos → List PublishState
  | _, .qos0 => []
  | .sender, .qos1 => [.publishSend, .pubAckPending]
  | .sender, .qos2 => [.publishSend, .pubRecPending, .pubRelSend, .pubCompPending]
  | .receiver, .qos1 => [.pubAckSend]
  | .receiver, .qos2 => [.pubRecSend, .pubRelPending, .pubCompSend]

def PubAckInfo.awaits (r : PubAckInfo) : EngineCall :=
  match r.publishState with
  | .publishSend => .publish r.packetId .send r.qos
  | .pubAckPending => .ack r.packetId .puback .receive
  | .pubRecPending => .ack r.packetId .pubrec .receive
  | .pubRelSend => .ack r.packetId .pubrel .send
  | .pubCompPending => .ack r.packetId .pubcomp .receive
  | .pubAckSend => .ack r.packetId .puback .send
  | .pubRecSend => .ack r.packetId .pubrec .send
  | .pubRelPending => .ack r.packetId .pubrel .receive
  | .pubCompSend => .ack r.packetId .pubcomp .send
  | .stateNull | .publishDone => .clear

def Side.records (side : Side) (c : PublishRecords) : List PubAckInfo :=
  match side with
  | .sender => c.outgoing
  | .receiver => c.incoming

structure Side.Next (side : Side) (r r' : PubAckInfo) : Prop where
  packetId : r'.packetId = r.packetId
  qos : r'.qos = r.qos
  state : [r.publishState, r'.publishState] <:+: side.path r.qos

structure Side.Keeps (side : Side) (call : EngineCall) (before after : List PubAckInfo) :
    Prop where
  on_path : ∀ r ∈ after, r.publishState ∈ side.path r.qos
  /-- a record stays unless the session ends or its call comes, which takes it one state on or
  ends its exchange -/
  goes_on : ∀ r ∈ before, r ∈ after ∨ call = .clear ∨ call = r.awaits ∧
    ((∃ r' ∈ after, side.Next r r') ∨
      (side.path r.qos).getLast? = some r.publishState ∧ ∀ r' ∈ after, r'.packetId ≠ r.packetId)
  /-- a record was there before, or starts its exchange -/
  comes_from : ∀ r' ∈ after, r' ∈ before ∨ (∃ r ∈ before, side.Next r r') ∨
    ((∀ r ∈ before, r.packetId ≠ r'.packetId) ∧
      (side.path r'.qos).head? = some r'.publishState)

def Side.OnPath (side : Side) (items : List PubAckInfo) : Prop :=
  ∀ r ∈ items, r.publishState ∈ side.path r.qos

section Steps

variable {side : Side} {call : EngineCall} {capacity : Nat} {q : InFlight capacity}
  {packetId : UInt16} {r : PubAckInfo} {state : PublishState} {before after : List PubAckInfo}

theorem keeps_self (h : side.OnPath before) : side.Keeps call before before where
  on_path := h
  goes_on := fun _ hr => .inl hr
  comes_from := fun _ hr => .inl hr

theorem keeps_add (h : side.OnPath q.items) (hr : r.packetId ≠ 0)
    (hhead : (side.path r.qos).head? = some r.publishState) :
    side.Keeps call q.items (q.add r hr).2.items := by
  rw [(q.add_eq r hr).2]
  split
  · next hnew =>
    refine ⟨?_, fun x hx => .inl (List.mem_append_left _ hx), ?_⟩
    · intro x hx
      rcases List.mem_append.mp hx with hx | hx
      · exact h x hx
      · rw [List.mem_singleton.mp hx]
        exact List.mem_of_head? hhead
    · intro x hx
      rcases List.mem_append.mp hx with hx | hx
      · exact .inl hx
      · rw [List.mem_singleton.mp hx]
        exact .inr (.inr ⟨q.find_eq_none.mp hnew.1, hhead⟩)
  · exact keeps_self h

theorem keeps_replace (r' : PubAckInfo) (h : side.OnPath before) (hr : r ∈ before)
    (hcall : call = r.awaits) (hnext : side.Next r r')
    (hafter : ∀ x, x ∈ after ↔ x = r' ∨ x ∈ before ∧ x.packetId ≠ r.packetId)
    (hunique : ∀ x ∈ before, x.packetId = r.packetId → x = r) : side.Keeps call before after where
  on_path := by
    intro x hx
    rcases (hafter x).mp hx with rfl | hx
    · rw [hnext.qos]
      exact hnext.state.subset (by simp)
    · exact h x hx.1
  goes_on := by
    intro x hx
    by_cases hid : x.packetId = r.packetId
    · rw [hunique x hx hid]
      exact .inr (.inr ⟨hcall, .inl ⟨r', (hafter r').mpr (.inl rfl), hnext⟩⟩)
    · exact .inl ((hafter x).mpr (.inr ⟨hx, hid⟩))
  comes_from := by
    intro x hx
    rcases (hafter x).mp hx with rfl | hx
    · exact .inr (.inl ⟨r, hr, hnext⟩)
    · exact .inl hx.1

theorem find_unique (hfind : q.find packetId = some r) {x : PubAckInfo} (hx : x ∈ q.items)
    (hid : x.packetId = packetId) : x = r := by
  obtain ⟨hr, rfl⟩ := q.find_eq_some.mp hfind
  exact List.inj_on_of_nodup_map q.nodup hx hr hid

theorem keeps_setState (h : side.OnPath q.items) (hfind : q.find packetId = some r)
    (hcall : call = r.awaits) (hnext : [r.publishState, state] <:+: side.path r.qos) :
    side.Keeps call q.items (q.setState packetId state).items := by
  obtain ⟨hr, rfl⟩ := q.find_eq_some.mp hfind
  refine keeps_replace { r with publishState := state } h hr hcall ⟨rfl, rfl, hnext⟩ ?_
    fun x hx => find_unique hfind hx
  intro x
  rw [q.items_setState, List.mem_map]
  constructor
  · rintro ⟨y, hy, rfl⟩
    by_cases hid : y.packetId = r.packetId
    · rw [find_unique hfind hy hid]
      exact .inl (if_pos rfl)
    · rw [PubAckInfo.moved, if_neg hid]
      exact .inr ⟨hy, hid⟩
  · rintro (rfl | ⟨hx, hid⟩)
    · exact ⟨r, hr, if_pos rfl⟩
    · exact ⟨x, hx, if_neg hid⟩

theorem keeps_release (h : side.OnPath q.items) (hid : packetId ≠ 0)
    (hfind : q.find packetId = some r) (hqos : r.qos = .qos2) (hcall : call = r.awaits)
    (hnext : [r.publishState, .pubRelSend] <:+: side.path r.qos) :
    side.Keeps call q.items
      ((q.erase packetId).add ⟨packetId, .qos2, .pubRelSend⟩ hid).2.items := by
  have hitems := ((q.erase packetId).add_eq ⟨packetId, .qos2, .pubRelSend⟩ hid).2
  rw [if_pos ⟨q.find_erase, q.length_erase_lt hfind⟩] at hitems
  obtain ⟨hr, rfl⟩ := q.find_eq_some.mp hfind
  rw [hitems]
  refine keeps_replace ⟨r.packetId, .qos2, .pubRelSend⟩ h hr hcall ⟨rfl, hqos.symm, hnext⟩ ?_
    fun x hx => find_unique hfind hx
  intro x
  simp [or_comm]

theorem keeps_erase (h : side.OnPath q.items) (hfind : q.find packetId = some r)
    (hcall : call = r.awaits) (hlast : (side.path r.qos).getLast? = some r.publishState) :
    side.Keeps call q.items (q.erase packetId).items := by
  obtain ⟨hr, rfl⟩ := q.find_eq_some.mp hfind
  have hmem : ∀ x, x ∈ (q.erase r.packetId).items ↔ x ∈ q.items ∧ x.packetId ≠ r.packetId := by
    intro x
    simp
  refine ⟨fun x hx => h x ((hmem x).mp hx).1, ?_, fun x hx => .inl ((hmem x).mp hx).1⟩
  intro x hx
  by_cases hid : x.packetId = r.packetId
  · rw [find_unique hfind hx hid]
    exact .inr (.inr ⟨hcall, .inr ⟨hlast, fun r' hr' => ((hmem r').mp hr').2⟩⟩)
  · exact .inl ((hmem x).mpr ⟨hx, hid⟩)

def ackSide (packetType : PubAckType) (opType : StateOperation) : Side :=
  if isPublishOutgoing packetType opType then .sender else .receiver

theorem ack_on_path (packetId : UInt16) (packetType : PubAckType) (opType : StateOperation)
    (qos : Qos) (hstate : state ∈ (ackSide packetType opType).path qos)
    (hvalid : validateTransitionAck state (mqttCalculateStateAck packetType opType qos) = true) :
    let newState := mqttCalculateStateAck packetType opType qos
    newState = state ∨
      EngineCall.ack packetId packetType opType = PubAckInfo.awaits ⟨packetId, qos, state⟩ ∧
      (newState = .publishDone ∧ ((ackSide packetType opType).path qos).getLast? = some state ∨
        newState ≠ .publishDone ∧ (newState = .pubRelSend → qos = .qos2) ∧
          [state, newState] <:+: (ackSide packetType opType).path qos) := by
  revert hstate hvalid
  cases packetType <;> cases opType <;> cases qos <;> cases state <;>
    simp [ackSide, isPublishOutgoing, Side.path, mqttCalculateStateAck, validateTransitionAck,
      PubAckInfo.awaits] <;> decide

theorem keeps_acknowledge (packetType : PubAckType) (opType : StateOperation)
    (h : (ackSide packetType opType).OnPath q.items) (hid : packetId ≠ 0) :
    (ackSide packetType opType).Keeps (.ack packetId packetType opType) q.items
      (q.acknowledge packetId hid (mqttCalculateStateAck packetType opType)).2.items := by
  unfold InFlight.acknowledge
  cases hfind : q.find packetId with
  | none => exact keeps_self h
  | some r =>
    obtain ⟨hr, rfl⟩ := q.find_eq_some.mp hfind
    dsimp only
    by_cases hvalid : validateTransitionAck r.publishState
        (mqttCalculateStateAck packetType opType r.qos) = true
    · have hcases := ack_on_path r.packetId packetType opType r.qos (h r hr) hvalid
      rw [if_pos hvalid]
      dsimp only at hcases ⊢
      generalize mqttCalculateStateAck packetType opType r.qos = newState at hcases
      by_cases hsame : newState = r.publishState
      · rw [if_pos hsame]
        exact keeps_self h
      · rw [if_neg hsame]
        obtain ⟨hcall, hcases⟩ := hcases.resolve_left hsame
        rcases hcases with ⟨rfl, hlast⟩ | ⟨hdone, hrel, hnext⟩
        · rw [if_pos rfl]
          exact keeps_erase h hfind hcall hlast
        · rw [if_neg hdone]
          split
          · next hsend =>
            exact keeps_release h hid hfind (hrel hsend) hcall (hsend ▸ hnext)
          · exact keeps_setState h hfind hcall hnext
    · rw [if_neg hvalid]
      exact keeps_self h

end Steps

section Runs

variable {m n : Nat} {x : Exchanges m n}

def Exchanges.on (x : Exchanges m n) (side : Side) : List PubAckInfo :=
  match side with
  | .sender => x.outgoing.items
  | .receiver => x.incoming.items

theorem keeps_sent {q : InFlight m} (h : Side.sender.OnPath q.items) (packetId : UInt16)
    (qos : Qos) :
    Side.sender.Keeps (.publish packetId .send qos) q.items (q.sent packetId qos).2.items := by
  unfold InFlight.sent
  cases hfind : q.find packetId with
  | none => exact keeps_self h
  | some r =>
    obtain ⟨hr, rfl⟩ := q.find_eq_some.mp hfind
    dsimp only
    split
    · exact keeps_self h
    next hqos =>
    obtain rfl := not_ne_iff.mp hqos
    split
    swap
    · exact keeps_self h
    next hstate =>
    rcases hstate with hfirst | hagain
    · refine keeps_setState h hfind ?_ ?_
      · rw [PubAckInfo.awaits, hfirst]
      · have hpath := h r hr
        rw [hfirst] at hpath ⊢
        revert hpath
        cases r.qos <;> decide
    · -- sent again: the record stays as it is
      rw [← hagain, setState_self hfind]
      exact keeps_self h

theorem head?_sender {qos : Qos} (h : qos ≠ .qos0) :
    (Side.sender.path qos).head? = some .publishSend := by
  revert h
  cases qos <;> decide

theorem head?_receiver {qos : Qos} (h : qos ≠ .qos0) :
    (Side.receiver.path qos).head? = some (mqttCalculateStatePublish .receive qos) := by
  revert h
  cases qos <;> decide

theorem step_keeps (h : ∀ side : Side, side.OnPath (x.on side)) (call : EngineCall) (side : Side) :
    side.Keeps call (x.on side) ((x.step call).2.on side) := by
  have hout : Side.sender.OnPath x.outgoing.items := h .sender
  have hin : Side.receiver.OnPath x.incoming.items := h .receiver
  cases call with
  | clear =>
    refine ⟨?_, fun r hr => .inr (.inl rfl), ?_⟩ <;> cases side <;> exact List.forall_mem_nil _
  | reserve packetId qos =>
    unfold Exchanges.step
    dsimp only
    split
    · exact keeps_self (h side)
    · next hqos =>
      split
      · exact keeps_self (h side)
      · next hid =>
        cases side with
        | sender => exact keeps_add hout hid (head?_sender hqos)
        | receiver => exact keeps_self hin
  | publish packetId opType qos =>
    unfold Exchanges.step
    dsimp only
    split
    · exact keeps_self (h side)
    · next hqos =>
      split
      · exact keeps_self (h side)
      · next hid =>
        cases opType with
        | send =>
          cases side with
          | sender => exact keeps_sent hout packetId qos
          | receiver => exact keeps_self hin
        | receive =>
          cases side with
          | sender => exact keeps_self hout
          | receiver => exact keeps_add hin hid (head?_receiver hqos)
  | ack packetId packetType opType =>
    unfold Exchanges.step
    dsimp only
    split
    · exact keeps_self (h side)
    · next hid =>
      split
      · next hside =>
        have hack : ackSide packetType opType = .sender := if_pos hside
        cases side with
        | sender =>
          have hkeeps := keeps_acknowledge packetType opType (hack.symm ▸ hout) hid
          rw [hack] at hkeeps
          exact hkeeps
        | receiver => exact keeps_self hin
      · next hside =>
        have hack : ackSide packetType opType = .receiver := if_neg hside
        cases side with
        | sender => exact keeps_self hout
        | receiver =>
          have hkeeps := keeps_acknowledge packetType opType (hack.symm ▸ hin) hid
          rw [hack] at hkeeps
          exact hkeeps

theorem Refines.live_records {c : PublishRecords} (h : Refines c x) (side : Side) :
    live PubAckInfo.free (side.records c) = x.on side := by
  cases side with
  | sender => exact h.outgoing.live_eq
  | receiver => exact h.incoming.live_eq

theorem onPath_run (h : ∀ side : Side, side.OnPath (x.on side)) (calls : List EngineCall) :
    ∀ side : Side, side.OnPath ((run (advance Exchanges.step) x calls).on side) := by
  induction calls generalizing x with
  | nil => exact h
  | cons call calls ih => exact ih fun side => (step_keeps h call side).on_path

theorem onPath_none (m n : Nat) (side : Side) : side.OnPath ((Exchanges.none m n).on side) := by
  cases side <;> exact List.forall_mem_nil _

/-- Every exchange follows the protocol, in every run of the state engine. -/
theorem exchanges_follow_protocol (m n : Nat) (hm : 0 < m) (hn : 0 < n)
    (calls : List EngineCall) :
    ∀ t ∈ trace (advance (engineStep m n)) (clearRecords m n) calls, ∀ side : Side,
      side.Keeps t.event (live PubAckInfo.free (side.records t.before))
        (live PubAckInfo.free (side.records t.after)) := by
  intro t ht side
  obtain ⟨pre, -, -, hbefore, hafter⟩ := mem_trace ht
  have hrefines := ((engineStep_simulates hm hn).run (clearRecords_refines m n) pre).2
  rw [← hbefore] at hrefines
  have hnext := (engineStep_simulates hm hn _ _ t.event hrefines).2
  rw [hafter, hrefines.live_records, advance, hnext.live_records]
  exact step_keeps (onPath_run (onPath_none m n) pre) t.event side

theorem exchanges_follow_protocol_sample :
    (∀ side : Side, live PubAckInfo.free (side.records
      (run (advance (engineStep 10 10)) (clearRecords 10 10) sampleCalls)) = []) ∧
    ∀ t ∈ trace (advance (engineStep 10 10)) (clearRecords 10 10) sampleCalls, ∀ side : Side,
      side.Keeps t.event (live PubAckInfo.free (side.records t.before))
        (live PubAckInfo.free (side.records t.after)) :=
  ⟨fun side => by cases side <;> decide +kernel,
    exchanges_follow_protocol 10 10 (by decide) (by decide) sampleCalls⟩

end Runs

end CyThing.CoreMqtt
