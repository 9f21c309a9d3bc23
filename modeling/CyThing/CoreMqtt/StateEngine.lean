import CyThing.CoreMqtt.InFlight
import CyThing.Lib.Simulation

/-! The state engine over whole runs. -/

namespace CyThing.CoreMqtt
open OrderedSlots Trace Simulation

/-! ## The engine as a machine -/

inductive EngineCall
  | reserve (packetId : UInt16) (qos : Qos)
  | publish (packetId : UInt16) (opType : StateOperation) (qos : Qos)
  | ack (packetId : UInt16) (packetType : PubAckType) (opType : StateOperation)
  | clear
  deriving DecidableEq

def engineStep (m n : Nat) (c : PublishRecords) :
    EngineCall → (MqttStatus × PublishState) × PublishRecords
  | .reserve packetId qos =>
    let (status, c) := mqttReserveState c packetId qos
    ((status, .stateNull), c)
  | .publish packetId opType qos =>
    let (status, newState, c) := mqttUpdateStatePublish c packetId opType qos
    ((status, newState), c)
  | .ack packetId packetType opType =>
    let (status, newState, c) := mqttUpdateStateAck c packetId packetType opType
    ((status, newState), c)
  | .clear => ((.success, .stateNull), clearRecords m n)

/-! ## What the engine is for -/

structure Exchanges (m n : Nat) where
  outgoing : InFlight m
  incoming : InFlight n

/-- An acknowledgement moves an exchange on, ends it, or comes at the wrong time. After a
PUBREC the exchange is the newest: PUBRELs go out in the order of the PUBRECs. -/
def InFlight.acknowledge {capacity : Nat} (q : InFlight capacity) (packetId : UInt16)
    (hid : packetId ≠ 0) (next : Qos → PublishState) :
    (MqttStatus × PublishState) × InFlight capacity :=
  match q.find packetId with
  | none => ((.badResponse, .stateNull), q)
  | some r =>
    let newState := next r.qos
    if validateTransitionAck r.publishState newState then
      ((.success, newState),
        if newState = r.publishState then q
        else if newState = .publishDone then q.erase packetId
        else if newState = .pubRelSend then
          ((q.erase packetId).add ⟨packetId, .qos2, .pubRelSend⟩ hid).2
        else q.setState packetId newState)
    else ((.illegalState, .stateNull), q)

def InFlight.sent {capacity : Nat} (q : InFlight capacity) (packetId : UInt16) (qos : Qos) :
    (MqttStatus × PublishState) × InFlight capacity :=
  let newState := mqttCalculateStatePublish .send qos
  match q.find packetId with
  | none => ((.badParameter, .stateNull), q)
  | some r =>
    if r.qos ≠ qos then ((.badParameter, .stateNull), q)
    else if r.publishState = .publishSend ∨ r.publishState = newState then
      ((.success, newState), q.setState packetId newState)
    else ((.illegalState, .stateNull), q)

def Exchanges.step {m n : Nat} (x : Exchanges m n) :
    EngineCall → (MqttStatus × PublishState) × Exchanges m n
  | .reserve packetId qos =>
    if qos = .qos0 then ((.success, .stateNull), x)
    else if hid : packetId = 0 then ((.badParameter, .stateNull), x)
    else
      let (status, outgoing) := x.outgoing.add ⟨packetId, qos, .publishSend⟩ hid
      ((status, .stateNull), { x with outgoing })
  | .publish packetId opType qos =>
    if qos = .qos0 then ((.success, .publishDone), x)
    else if hid : packetId = 0 then ((.badParameter, .stateNull), x)
    else
      match opType with
      | .send =>
        let (answer, outgoing) := x.outgoing.sent packetId qos
        (answer, { x with outgoing })
      | .receive =>
        let newState := mqttCalculateStatePublish .receive qos
        let (status, incoming) := x.incoming.add ⟨packetId, qos, newState⟩ hid
        ((status, if status = .success then newState else .stateNull), { x with incoming })
  | .ack packetId packetType opType =>
    if hid : packetId = 0 then ((.badParameter, .stateNull), x)
    else if isPublishOutgoing packetType opType then
      let (answer, outgoing) :=
        x.outgoing.acknowledge packetId hid (mqttCalculateStateAck packetType opType)
      (answer, { x with outgoing })
    else
      let (answer, incoming) :=
        x.incoming.acknowledge packetId hid (mqttCalculateStateAck packetType opType)
      (answer, { x with incoming })
  | .clear => ((.success, .stateNull), ⟨.empty m, .empty n⟩)

def Exchanges.none (m n : Nat) : Exchanges m n := ⟨.empty m, .empty n⟩

/-! ## The records refine it -/

structure Refines {m n : Nat} (c : PublishRecords) (x : Exchanges m n) : Prop where
  outgoing : Holds c.outgoing x.outgoing
  incoming : Holds c.incoming x.incoming

section Refinement

variable {capacity : Nat} {records : List PubAckInfo} {q : InFlight capacity} {packetId : UInt16}
  {r : PubAckInfo}

theorem setState_self (hfind : q.find packetId = some r) :
    q.setState packetId r.publishState = q := by
  apply InFlight.ext
  rw [q.items_setState]
  refine (List.map_congr_left fun x hx => ?_).trans (List.map_id _)
  obtain ⟨hr, hid⟩ := q.find_eq_some.mp hfind
  unfold PubAckInfo.moved
  split
  · next hx' =>
    rw [List.inj_on_of_nodup_map q.nodup hx hr (hx'.trans hid.symm)]
    rfl
  · rfl

theorem add_erase_eq (hfind : q.find packetId = some r) (hid : packetId ≠ 0) (qos : Qos)
    (state : PublishState) : ((q.erase packetId).add ⟨packetId, qos, state⟩ hid).1 = .success := by
  rw [((q.erase packetId).add_eq ⟨packetId, qos, state⟩ hid).1, if_pos q.find_erase,
    if_pos (q.length_erase_lt hfind)]

def acknowledgeIn (records : List PubAckInfo) (packetId : UInt16) (next : Qos → PublishState) :
    (MqttStatus × PublishState) × List PubAckInfo :=
  match findInRecord records packetId with
  | none => ((.badResponse, .stateNull), records)
  | some (recordIndex, qos, currentState) =>
    let (status, records) := updateStateAck records recordIndex packetId currentState (next qos)
    ((status, if status = .success then next qos else .stateNull), records)

theorem acknowledgeIn_refines (h : Holds records q) (hcap : 0 < capacity) (hid : packetId ≠ 0)
    (next : Qos → PublishState) :
    (acknowledgeIn records packetId next).1 = (q.acknowledge packetId hid next).1 ∧
      Holds (acknowledgeIn records packetId next).2 (q.acknowledge packetId hid next).2 := by
  unfold acknowledgeIn InFlight.acknowledge
  cases hfind : q.find packetId with
  | none =>
    rw [findInRecord_eq_none h hid hfind]
    exact ⟨rfl, h⟩
  | some r =>
    obtain ⟨pre, post, rfl, hrecord⟩ := exists_findInRecord h hid hfind
    obtain ⟨-, rfl⟩ := q.find_eq_some.mp hfind
    rw [hrecord]
    dsimp only
    generalize next r.qos = newState
    unfold updateStateAck
    by_cases hvalid : validateTransitionAck r.publishState newState = true
    · rw [if_pos hvalid, if_pos hvalid]
      by_cases hsame : newState = r.publishState
      · simp only [hsame, ne_eq, not_true_eq_false, if_false, if_true]
        exact ⟨trivial, h⟩
      · rw [if_pos (Ne.symm hsame), if_neg hsame]
        by_cases hdone : newState = .publishDone
        · subst hdone
          exact ⟨rfl, holds_erase h hid .publishDone⟩
        · by_cases hrel : newState = .pubRelSend
          · subst hrel
            have hadd := holds_addRecord (r := ⟨r.packetId, .qos2, .pubRelSend⟩)
              (holds_erase h hid .pubRelSend) hcap hid
            rw [add_erase_eq hfind hid] at hadd
            simp only [hadd.1, if_true, reduceCtorEq, if_false, decide_false, decide_true,
              Bool.or_true]
            exact ⟨trivial, hadd.2⟩
          · simp only [hdone, hrel, if_false, if_true, decide_false, Bool.or_self]
            exact ⟨trivial, holds_setState h hid newState⟩
    · simp only [hvalid, Bool.false_eq_true, if_false]
      exact ⟨rfl, h⟩

theorem validateTransitionPublish_send (state : PublishState) {qos : Qos} (hqos : qos ≠ .qos0) :
    validateTransitionPublish state (mqttCalculateStatePublish .send qos) .send qos = true ↔
      state = .publishSend ∨ state = mqttCalculateStatePublish .send qos := by
  revert hqos
  cases qos <;> cases state <;> decide

theorem validateTransitionPublish_receive {qos : Qos} (hqos : qos ≠ .qos0) :
    validateTransitionPublish .stateNull (mqttCalculateStatePublish .receive qos) .receive qos =
      true := by
  revert hqos
  cases qos <;> decide

variable {m n : Nat} {c : PublishRecords} {x : Exchanges m n}

theorem reserve_refines (h : Refines c x) (hm : 0 < m) (packetId : UInt16) (qos : Qos) :
    (engineStep m n c (.reserve packetId qos)).1 = (x.step (.reserve packetId qos)).1 ∧
      Refines (engineStep m n c (.reserve packetId qos)).2 (x.step (.reserve packetId qos)).2 := by
  simp only [engineStep, mqttReserveState, Exchanges.step]
  by_cases hqos : qos = .qos0
  · simpa only [hqos, if_true, true_and] using h
  · by_cases hid : packetId = 0
    · simpa only [hqos, hid, if_true, if_false, dif_pos, true_and] using h
    · obtain ⟨hstatus, hholds⟩ :=
        holds_addRecord (r := ⟨packetId, qos, .publishSend⟩) h.outgoing hm hid
      simp only [hqos, hid, if_false, dif_neg, not_false_eq_true]
      exact ⟨congrArg (·, _) hstatus, hholds, h.incoming⟩

theorem publish_refines (h : Refines c x) (hn : 0 < n) (packetId : UInt16)
    (opType : StateOperation) (qos : Qos) :
    (engineStep m n c (.publish packetId opType qos)).1 =
        (x.step (.publish packetId opType qos)).1 ∧
      Refines (engineStep m n c (.publish packetId opType qos)).2
        (x.step (.publish packetId opType qos)).2 := by
  simp only [engineStep, mqttUpdateStatePublish, Exchanges.step]
  by_cases hqos : qos = .qos0
  · simpa only [hqos, if_true, true_and] using h
  · by_cases hid : packetId = 0
    · simpa only [hqos, hid, if_true, if_false, dif_pos, true_and] using h
    · simp only [hqos, hid, if_false, dif_neg, not_false_eq_true]
      cases opType with
      | receive =>
        obtain ⟨hstatus, hholds⟩ := holds_addRecord
          (r := ⟨packetId, qos, mqttCalculateStatePublish .receive qos⟩) h.incoming hn hid
        simp only [updateStatePublish, validateTransitionPublish_receive hqos, if_true]
        rw [hstatus]
        exact ⟨rfl, h.outgoing, hholds⟩
      | send =>
        unfold InFlight.sent
        cases hfind : x.outgoing.find packetId with
        | none =>
          rw [findInRecord_eq_none h.outgoing hid hfind]
          exact ⟨rfl, h⟩
        | some r =>
          obtain ⟨pre, post, hsplit, hrecord⟩ := exists_findInRecord h.outgoing hid hfind
          rw [hrecord]
          by_cases hr : r.qos = qos
          · simp only [hr, ne_eq, not_true_eq_false, if_false, updateStatePublish,
              validateTransitionPublish_send _ hqos]
            generalize mqttCalculateStatePublish .send qos = newState
            obtain ⟨-, rfl⟩ := x.outgoing.find_eq_some.mp hfind
            by_cases hsame : r.publishState = newState
            · -- sent again: the record stays as it is
              subst hsame
              simp only [or_true, if_true, not_true_eq_false, if_false, true_and]
              rw [setState_self hfind]
              exact h
            · by_cases hfirst : r.publishState = .publishSend
              · simp only [hfirst, true_or, if_true]
                have hholds := h.outgoing
                rw [hsplit] at hholds ⊢
                rw [if_pos (hfirst ▸ hsame)]
                exact ⟨rfl, holds_setState hholds hid newState, h.incoming⟩
              · simp only [hsame, hfirst, or_self, if_false, reduceCtorEq, true_and]
                exact h
          · simp only [hr, ne_eq, not_false_eq_true, if_true, true_and]
            exact h

theorem ack_refines (h : Refines c x) (hm : 0 < m) (hn : 0 < n) (packetId : UInt16)
    (packetType : PubAckType) (opType : StateOperation) :
    (engineStep m n c (.ack packetId packetType opType)).1 =
        (x.step (.ack packetId packetType opType)).1 ∧
      Refines (engineStep m n c (.ack packetId packetType opType)).2
        (x.step (.ack packetId packetType opType)).2 := by
  by_cases hid : packetId = 0
  · simp only [engineStep, mqttUpdateStateAck, Exchanges.step, hid, if_true, dif_pos, true_and]
    exact h
  · by_cases hout : isPublishOutgoing packetType opType = true
    · obtain ⟨hanswer, hholds⟩ := acknowledgeIn_refines h.outgoing hm hid
        (mqttCalculateStateAck packetType opType)
      have hstep : engineStep m n c (.ack packetId packetType opType) =
          ((acknowledgeIn c.outgoing packetId (mqttCalculateStateAck packetType opType)).1,
            { c with outgoing := (acknowledgeIn c.outgoing packetId
                (mqttCalculateStateAck packetType opType)).2 }) := by
        simp only [engineStep, mqttUpdateStateAck, acknowledgeIn, hid, hout, if_true, if_false]
        cases findInRecord c.outgoing packetId <;> rfl
      simp only [hstep, Exchanges.step, hid, hout, if_true, dif_neg, not_false_eq_true]
      exact ⟨hanswer, hholds, h.incoming⟩
    · obtain ⟨hanswer, hholds⟩ := acknowledgeIn_refines h.incoming hn hid
        (mqttCalculateStateAck packetType opType)
      have hstep : engineStep m n c (.ack packetId packetType opType) =
          ((acknowledgeIn c.incoming packetId (mqttCalculateStateAck packetType opType)).1,
            { c with incoming := (acknowledgeIn c.incoming packetId
                (mqttCalculateStateAck packetType opType)).2 }) := by
        simp only [engineStep, mqttUpdateStateAck, acknowledgeIn, hid, hout, if_false,
          Bool.false_eq_true]
        cases findInRecord c.incoming packetId <;> rfl
      simp only [hstep, Exchanges.step, hid, hout, if_false, dif_neg, not_false_eq_true,
        Bool.false_eq_true]
      exact ⟨hanswer, h.outgoing, hholds⟩

/-- The engine's calls answer as the exchanges say, and keep to them. -/
theorem engineStep_simulates (hm : 0 < m) (hn : 0 < n) :
    Simulates Refines (engineStep m n) (Exchanges.step (m := m) (n := n)) := by
  intro c x call h
  cases call with
  | reserve packetId qos => exact reserve_refines h hm packetId qos
  | publish packetId opType qos => exact publish_refines h hn packetId opType qos
  | ack packetId packetType opType => exact ack_refines h hm hn packetId packetType opType
  | clear => exact ⟨rfl, holds_empty m, holds_empty n⟩

theorem clearRecords_refines (m n : Nat) : Refines (clearRecords m n) (Exchanges.none m n) :=
  ⟨holds_empty m, holds_empty n⟩

/-- The record arrays are queues of exchanges, in every run: each call returns what the queues
say, and the records in use are the exchanges under way, in their order. -/
theorem records_refine_exchanges (m n : Nat) (hm : 0 < m) (hn : 0 < n)
    (calls : List EngineCall) :
    answers (engineStep m n) (clearRecords m n) calls =
        answers Exchanges.step (Exchanges.none m n) calls ∧
      Refines (run (advance (engineStep m n)) (clearRecords m n) calls)
        (run (advance Exchanges.step) (Exchanges.none m n) calls) :=
  (engineStep_simulates hm hn).run (clearRecords_refines m n) calls

def sampleCalls : List EngineCall :=
  [.reserve 1 .qos1, .publish 1 .send .qos1, .publish 7 .receive .qos2, .reserve 2 .qos2,
    .ack 7 .pubrec .send, .ack 1 .puback .receive, .publish 2 .send .qos2,
    .ack 2 .pubrec .receive, .ack 7 .pubrel .receive, .ack 2 .pubrel .send,
    .ack 7 .pubcomp .send, .ack 2 .pubcomp .receive]

theorem records_refine_exchanges_sample :
    answers (engineStep 10 10) (clearRecords 10 10) sampleCalls =
        answers Exchanges.step (Exchanges.none 10 10) sampleCalls ∧
      Refines (run (advance (engineStep 10 10)) (clearRecords 10 10) sampleCalls)
        (run (advance Exchanges.step) (Exchanges.none 10 10) sampleCalls) :=
  records_refine_exchanges 10 10 (by decide) (by decide) sampleCalls

end Refinement

end CyThing.CoreMqtt
