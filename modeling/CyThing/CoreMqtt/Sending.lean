import CyThing.CoreMqtt.PacketRoundTrip
import CyThing.CoreMqtt.Session

/-! What a send leaves on the wire: the message up to some byte, however the connection cuts it,
and all of it when the call succeeds. -/

namespace CyThing.CoreMqtt
open CLib

def Wrote (c : Context) (bytes : Bytes) (c' : Context) : Prop :=
  ∃ writes times now lastPacketTxTime,
    c' = { c with writes, times, now, lastPacketTxTime, sent := c.sent ++ bytes }

theorem Wrote.refl (c : Context) : Wrote c [] c :=
  ⟨c.writes, c.times, c.now, c.lastPacketTxTime, by rw [List.append_nil]⟩

theorem Wrote.publishRecords {c c' : Context} {bytes : Bytes} (h : Wrote c bytes c') :
    c'.publishRecords = c.publishRecords := by
  obtain ⟨_, _, _, _, rfl⟩ := h
  rfl

theorem Wrote.sent {c c' : Context} {bytes : Bytes} (h : Wrote c bytes c') :
    c'.sent = c.sent ++ bytes := by
  obtain ⟨_, _, _, _, rfl⟩ := h
  rfl

theorem Wrote.trans {c c' c'' : Context} {bytes more : Bytes} (h : Wrote c bytes c')
    (h' : Wrote c' more c'') : Wrote c (bytes ++ more) c'' := by
  obtain ⟨_, _, _, _, rfl⟩ := h
  obtain ⟨writes, times, now, tx, rfl⟩ := h'
  exact ⟨writes, times, now, tx, by rw [List.append_assoc]⟩

theorem Wrote.after {c c' c'' : Context} {bytes : Bytes} (h : Wrote c bytes c')
    (h' : Wrote c' [] c'') : Wrote c bytes c'' := by
  simpa only [List.append_nil] using h.trans h'

theorem Wrote.before {c c' c'' : Context} {bytes : Bytes} (h : Wrote c [] c')
    (h' : Wrote c' bytes c'') : Wrote c bytes c'' := h.trans h'

theorem wrote_writes (c : Context) (writes : List Int) : Wrote c [] { c with writes } :=
  ⟨writes, c.times, c.now, c.lastPacketTxTime, by rw [List.append_nil]⟩

theorem wrote_lastPacketTxTime (c : Context) (lastPacketTxTime : UInt32) :
    Wrote c [] { c with lastPacketTxTime } :=
  ⟨c.writes, c.times, c.now, lastPacketTxTime, by rw [List.append_nil]⟩

theorem wrote_getTime (c : Context) : Wrote c [] (getTime c).2 := by
  rw [getTime]
  split
  · exact Wrote.refl c
  · next now times _ => exact ⟨c.writes, times, now, c.lastPacketTxTime, by rw [List.append_nil]⟩

theorem wrote_transportSend (answer : Int) (data : Bytes) (c : Context) :
    (espTlsTransportSend answer data c).1 ≤ data.length ∧
      Wrote c (data.take (espTlsTransportSend answer data c).1.toNat)
        (espTlsTransportSend answer data c).2 := by
  rw [espTlsTransportSend]
  split
  · exact ⟨by omega, Wrote.refl c⟩
  · exact ⟨Int.min_le_right _ _, c.writes, c.times, c.now, c.lastPacketTxTime, rfl⟩

theorem wrote_sendRound (timeoutMs : UInt32) (answer : Int) (data : Bytes) (c : Context) :
    (sendRound timeoutMs answer data c).1 ≤ data.length ∧
      Wrote c (data.take (sendRound timeoutMs answer data c).1.toNat)
        (sendRound timeoutMs answer data c).2.2 := by
  obtain ⟨hle, hsend⟩ := wrote_transportSend answer data c
  simp only [sendRound]
  refine ⟨hle, ?_⟩
  generalize (espTlsTransportSend answer data c).1 = sendResult at *
  generalize (espTlsTransportSend answer data c).2 = sentContext at *
  refine hsend.after (Wrote.after ?_ (wrote_getTime _))
  split
  · exact (wrote_getTime _).after (wrote_lastPacketTxTime _ _)
  · exact Wrote.refl _

theorem sendRound_down (timeoutMs : UInt32) (data : Bytes) (c : Context) :
    (sendRound timeoutMs (-1) data c).1 < 0 := by
  simp only [sendRound, espTlsTransportSend]
  split <;> omega

/-! ## Vectors -/

theorem flatten_advanceVectors (vectors : List Bytes) (n : Nat) :
    (advanceVectors vectors n).flatten = vectors.flatten.drop n := by
  induction vectors generalizing n with
  | nil => simp [advanceVectors]
  | cons vector vectors ih =>
    rw [advanceVectors, List.flatten_cons, List.drop_append]
    split
    · next h => rw [ih, List.drop_eq_nil_of_le h, List.nil_append]
    · next h => rw [List.flatten_cons, Nat.sub_eq_zero_of_le (by omega), List.drop_zero]

theorem take_headD {vectors : List Bytes} {n : Nat} (h : n ≤ (vectors.headD []).length) :
    (vectors.headD []).take n = vectors.flatten.take n := by
  cases vectors with
  | nil => rfl
  | cons vector vectors =>
    exact (List.take_append_of_le_length h).symm

theorem length_headD_le (vectors : List Bytes) :
    (vectors.headD []).length ≤ vectors.flatten.length := by
  cases vectors with
  | nil => exact Nat.le_refl _
  | cons vector vectors => simp

theorem sum_length (vectors : List Bytes) :
    (vectors.map List.length).sum = vectors.flatten.length := List.length_flatten.symm

theorem sendBufferLoop_eq (timeoutMs : UInt32) {bytesToSend : Nat} (writes : List Int)
    (c : Context) {data : Bytes} {bytesSent : Nat} (hsum : bytesToSend = bytesSent + data.length) :
    sendBufferLoop timeoutMs writes c data bytesSent =
      sendVectorLoop timeoutMs bytesToSend writes c [data] bytesSent := by
  induction writes generalizing c data bytesSent with
  | nil => rfl
  | cons answer writes ih =>
    have hle := (wrote_sendRound timeoutMs answer data { c with writes }).1
    rcases hround : sendRound timeoutMs answer data { c with writes } with
      ⟨sendResult, timedOut, c'⟩
    simp only [sendBufferLoop, sendVectorLoop, List.headD_cons, hround] at hle ⊢
    split
    · rfl
    · have hiff : (data.drop sendResult.toNat).length = 0 ↔
          bytesToSend ≤ bytesSent + sendResult.toNat := by
        rw [List.length_drop]
        omega
      simp only [hiff]
      split
      · rfl
      · next hmore =>
        rw [advanceVectors, if_neg (by omega), ih]
        rw [List.length_drop]
        omega

theorem sendBuffer_eq (c : Context) (data : Bytes) :
    sendBuffer c data = sendMessageVector c [data] := by
  simp only [sendBuffer, sendMessageVector, List.map_cons, List.map_nil, List.sum_cons,
    List.sum_nil, Nat.add_zero]
  split
  · rfl
  · exact sendBufferLoop_eq _ _ _ (Nat.zero_add _).symm

theorem wrote_sendVectorLoop (timeoutMs : UInt32) (bytesToSend : Nat) (writes : List Int)
    (c : Context) (vectors : List Bytes) (bytesSent : Nat) :
    ∃ k ≤ vectors.flatten.length,
      Wrote c (vectors.flatten.take k)
        (sendVectorLoop timeoutMs bytesToSend writes c vectors bytesSent).2 ∧
      ((sendVectorLoop timeoutMs bytesToSend writes c vectors bytesSent).1 = ↑(bytesSent + k) ∨
        (sendVectorLoop timeoutMs bytesToSend writes c vectors bytesSent).1 < 0) := by
  have hhead := length_headD_le vectors
  induction writes generalizing c vectors bytesSent with
  | nil =>
    obtain ⟨hle, hround⟩ :=
      wrote_sendRound timeoutMs (-1) (vectors.headD []) { c with writes := [] }
    have hdown := sendRound_down timeoutMs (vectors.headD []) { c with writes := [] }
    rw [take_headD (by omega)] at hround
    exact ⟨_, by omega, (wrote_writes c []).before hround, Or.inr hdown⟩
  | cons answer writes ih =>
    obtain ⟨hle, hround⟩ := wrote_sendRound timeoutMs answer (vectors.headD []) { c with writes }
    rcases hresult : sendRound timeoutMs answer (vectors.headD []) { c with writes } with
      ⟨sendResult, timedOut, c'⟩
    simp only [sendVectorLoop, hresult] at hle hround ⊢
    rw [take_headD (by omega)] at hround
    have hwrote := (wrote_writes c writes).before hround
    split
    · next hneg => exact ⟨sendResult.toNat, by omega, hwrote, Or.inr hneg⟩
    split
    · exact ⟨sendResult.toNat, by omega, hwrote, Or.inl rfl⟩
    · obtain ⟨k, hk, hwrote', hresult⟩ := ih c' (advanceVectors vectors sendResult.toNat)
        (bytesSent + sendResult.toNat) (length_headD_le _)
      rw [flatten_advanceVectors] at hk hwrote'
      rw [List.length_drop] at hk
      rw [Nat.add_assoc] at hresult
      refine ⟨sendResult.toNat + k, by omega, ?_, hresult⟩
      rw [List.take_add]
      exact hwrote.trans hwrote'

theorem wrote_sendMessageVector (c : Context) (vectors : List Bytes) :
    ∃ k ≤ vectors.flatten.length,
      Wrote c (vectors.flatten.take k) (sendMessageVector c vectors).2 ∧
      ((sendMessageVector c vectors).1 = k ∨ (sendMessageVector c vectors).1 < 0) := by
  simp only [sendMessageVector]
  split
  · exact ⟨0, Nat.zero_le _, wrote_getTime c, Or.inl rfl⟩
  · obtain ⟨k, hk, hwrote, hresult⟩ := wrote_sendVectorLoop ((getTime c).1 + mqttSendTimeoutMs)
      (vectors.map List.length).sum (getTime c).2.writes (getTime c).2 vectors 0
    rw [Nat.zero_add] at hresult
    exact ⟨k, hk, (wrote_getTime c).before hwrote, hresult⟩

theorem wrote_of_sent {c c' : Context} {vectors : List Bytes} {result : Int}
    (h : sendMessageVector c vectors = (result, c')) :
    ∃ k, Wrote c (vectors.flatten.take k) c' ∧
      (result = ↑((vectors.map List.length).sum) → k = vectors.flatten.length) := by
  obtain ⟨k, hk, hwrote, hresult⟩ := wrote_sendMessageVector c vectors
  rw [h] at hwrote hresult
  refine ⟨k, hwrote, fun hall => ?_⟩
  rw [sum_length] at hall
  simp only at hresult
  omega

/-! ## PUBLISH -/

theorem wrote_sendPublishWithoutCopy (c : Context) (publishInfo : PublishInfo)
    (remainingLength : Nat) (packetId : UInt16) :
    let message := publishBytes publishInfo remainingLength packetId
    let result := sendPublishWithoutCopy c publishInfo
      (mqttSerializePublishHeaderWithoutTopic publishInfo remainingLength) packetId
    ∃ k, Wrote c (message.take k) result.2 ∧
      (result.1 = .sendFailed ∨ result.1 = .success ∧ k = message.length) := by
  simp only [sendPublishWithoutCopy]
  rcases hsent : sendMessageVector c (publishVectors publishInfo
    (mqttSerializePublishHeaderWithoutTopic publishInfo remainingLength) packetId) with
    ⟨bytesSent, c'⟩
  obtain ⟨k, hwrote, hall⟩ := wrote_of_sent hsent
  refine ⟨k, hwrote, ?_⟩
  split
  · exact Or.inl rfl
  · next hwhole => exact Or.inr ⟨rfl, hall (not_not.mp hwhole)⟩

theorem publishReserved_cases (c : Context) (publishInfo : PublishInfo) (remainingLength : Nat)
    (packetId : UInt16) :
    let message := publishBytes publishInfo remainingLength packetId
    let update := mqttUpdateStatePublish c.publishRecords packetId .send publishInfo.qos
    ∃ k c', Wrote c (message.take k) c' ∧
      (publishInfo.qos = .qos0 ∧ (∃ status,
          publishReserved c publishInfo remainingLength packetId = (status, c') ∧
          (status = .success → k = message.length)) ∨
        publishInfo.qos ≠ .qos0 ∧ publishReserved c publishInfo remainingLength packetId =
          (.sendFailed, c'.note (.unsent packetId publishInfo.qos)) ∨
        k = message.length ∧ publishInfo.qos ≠ .qos0 ∧
          publishReserved c publishInfo remainingLength packetId =
            (update.1, { c'.note (.published packetId publishInfo.qos) with
              publishRecords := update.2.2 })) := by
  obtain ⟨k, hwrote, hresult⟩ :=
    wrote_sendPublishWithoutCopy c publishInfo remainingLength packetId
  rcases hsent : sendPublishWithoutCopy c publishInfo
    (mqttSerializePublishHeaderWithoutTopic publishInfo remainingLength) packetId with ⟨status, c'⟩
  simp only [hsent, publishReserved] at hwrote hresult ⊢
  have hrecords := hwrote.publishRecords
  refine ⟨k, c', hwrote, ?_⟩
  by_cases hqos : publishInfo.qos = .qos0
  · refine Or.inl ⟨hqos, status, by simp [hqos], fun hsuccess => ?_⟩
    rcases hresult with hfailed | ⟨-, hk⟩
    · rw [hfailed] at hsuccess
      cases hsuccess
    · exact hk
  · rcases hresult with hfailed | ⟨hsuccess, hk⟩
    · exact Or.inr (Or.inl ⟨hqos, by simp [hqos, hfailed]⟩)
    · refine Or.inr (Or.inr ⟨hk, hqos, ?_⟩)
      simp [hqos, hsuccess, Context.note, hrecords]

theorem mqttGetPublishPacketSize_eq_error {publishInfo : PublishInfo} {status : MqttStatus}
    (h : mqttGetPublishPacketSize publishInfo = .error status) : status = .badParameter := by
  rw [mqttGetPublishPacketSize] at h
  split at h
  · cases h
    rfl
  · split at h <;> cases h
    rfl

theorem mqttPublish_cases (c : Context) (publishInfo : PublishInfo) (packetId : UInt16) :
    let reserve := mqttReserveState c.publishRecords packetId publishInfo.qos
    mqttPublish c publishInfo packetId = (.badParameter, c) ∨
    (publishInfo.qos ≠ .qos0 ∧ reserve.1 ≠ .success ∧
      mqttPublish c publishInfo packetId =
        (reserve.1, { c with publishRecords := reserve.2 })) ∨
    ∃ remainingLength packetSize,
      mqttGetPublishPacketSize publishInfo = .ok (remainingLength, packetSize) ∧
      (publishInfo.qos ≠ .qos0 → packetId ≠ 0) ∧
      (publishInfo.qos = .qos0 ∨ reserve.1 = .success ∨
        reserve.1 = .stateCollision ∧ publishInfo.dup) ∧
      mqttPublish c publishInfo packetId =
        publishReserved { c with publishRecords := reserve.2 } publishInfo remainingLength
          packetId := by
  by_cases hbad : publishInfo.qos ≠ .qos0 ∧ packetId = 0
  · have hinvalid : validatePublishParams publishInfo packetId = .badParameter := if_pos hbad
    exact Or.inl (by simp [mqttPublish, hinvalid])
  have hvalid : validatePublishParams publishInfo packetId = .success := if_neg hbad
  have hid : publishInfo.qos ≠ .qos0 → packetId ≠ 0 := fun hqos hzero => hbad ⟨hqos, hzero⟩
  simp only [mqttPublish, hvalid, ne_eq, not_true_eq_false, if_false]
  cases hsize : mqttGetPublishPacketSize publishInfo with
  | error status =>
    obtain rfl := mqttGetPublishPacketSize_eq_error hsize
    exact Or.inl rfl
  | ok sizes =>
    obtain ⟨remainingLength, packetSize⟩ := sizes
    right
    simp only
    by_cases hqos : publishInfo.qos = .qos0
    · refine Or.inr ⟨remainingLength, packetSize, rfl, hid, Or.inl hqos, ?_⟩
      simp [hqos, mqttReserveState]
    · rw [if_neg hqos]
      split
      · next hgo =>
        exact Or.inr ⟨remainingLength, packetSize, rfl, hid, Or.inr hgo, rfl⟩
      · next hstop => exact Or.inl ⟨hqos, fun h => hstop (Or.inl h), rfl⟩

/-! ## SUBSCRIBE and UNSUBSCRIBE -/

def subscriptionBytes (subscriptionType : SubscriptionType) (subscription : SubscribeInfo) :
    Bytes :=
  encodeString subscription.topicFilter ++
    if subscriptionType = .subscribe then [subscription.qos.byte] else []

theorem flatten_addEncodedString (text : MqttString) :
    (addEncodedStringToVector text).flatten = encodeString text := by
  rw [addEncodedStringToVector, encodeString, List.flatten_cons]
  split
  · simp
  · next h => simp [List.eq_nil_of_length_eq_zero (not_not.mp h)]

theorem flatten_subscriptionVectors (subscriptionType : SubscriptionType)
    (subscription : SubscribeInfo) :
    (subscriptionVectors subscriptionType subscription).flatten =
      subscriptionBytes subscriptionType subscription := by
  rw [subscriptionVectors, subscriptionBytes, List.flatten_append, flatten_addEncodedString]
  split <;> simp

theorem length_subscriptionVectors_le (subscriptionType : SubscriptionType)
    (subscription : SubscribeInfo) :
    (subscriptionVectors subscriptionType subscription).length ≤
      subscriptionType.stringVectorSlots := by
  rw [subscriptionVectors, addEncodedStringToVector]
  cases subscriptionType <;> simp [SubscriptionType.stringVectorSlots] <;> split <;> simp

theorem length_fillVectors_le (subscriptionType : SubscriptionType)
    (subscriptions : List SubscribeInfo) (ioVector : List Bytes)
    (h : ioVector.length ≤ mqttSubUnsubMaxVectors) :
    (fillVectors subscriptionType subscriptions ioVector).1.length ≤ mqttSubUnsubMaxVectors := by
  induction subscriptions generalizing ioVector with
  | nil => exact h
  | cons subscription subscriptions ih =>
    rw [fillVectors]
    split
    · next hroom =>
      apply ih
      have hslots := length_subscriptionVectors_le subscriptionType subscription
      rw [List.length_append]
      have : subscriptionType.stringVectorSlots ≤ mqttSubUnsubMaxVectors := by
        cases subscriptionType <;> decide
      omega
    · exact h

theorem flatten_fillVectors (subscriptionType : SubscriptionType)
    (subscriptions : List SubscribeInfo) (ioVector : List Bytes) :
    (fillVectors subscriptionType subscriptions ioVector).1.flatten ++
        (fillVectors subscriptionType subscriptions ioVector).2.flatMap
          (subscriptionBytes subscriptionType) =
      ioVector.flatten ++ subscriptions.flatMap (subscriptionBytes subscriptionType) := by
  induction subscriptions generalizing ioVector with
  | nil => rfl
  | cons subscription subscriptions ih =>
    rw [fillVectors]
    split
    · rw [ih, List.flatten_append, flatten_subscriptionVectors, List.flatMap_cons,
        List.append_assoc]
    · rfl

theorem length_fillVectors_lt (subscriptionType : SubscriptionType)
    (subscriptions : List SubscribeInfo) (ioVector : List Bytes) :
    (fillVectors subscriptionType subscriptions ioVector).2.length ≤ subscriptions.length ∧
      (ioVector.length ≤ 1 → subscriptions ≠ [] →
        (fillVectors subscriptionType subscriptions ioVector).2.length < subscriptions.length) := by
  induction subscriptions generalizing ioVector with
  | nil => exact ⟨Nat.le_refl _, fun _ h => absurd rfl h⟩
  | cons subscription subscriptions ih =>
    rw [fillVectors]
    split
    · have hle := (ih (ioVector ++ subscriptionVectors subscriptionType subscription)).1
      rw [List.length_cons]
      exact ⟨by omega, fun _ _ => by omega⟩
    · next hfull =>
      refine ⟨Nat.le_refl _, fun hone => ?_⟩
      have : 1 ≤ mqttSubUnsubMaxVectors - subscriptionType.stringVectorSlots := by
        cases subscriptionType <;> decide
      omega

theorem wrote_sendSubscriptionLoop {rounds : Nat} (subscriptionType : SubscriptionType)
    (c : Context) (ioVector : List Bytes) (subscriptions : List SubscribeInfo)
    (hrounds : subscriptions.length ≤ rounds) (hroom : ioVector.length ≤ 1)
    (hstart : subscriptions = [] → ioVector = []) :
    ∃ k, Wrote c
        ((ioVector.flatten ++ subscriptions.flatMap (subscriptionBytes subscriptionType)).take k)
        (sendSubscriptionLoop subscriptionType rounds c ioVector subscriptions).2 ∧
      ((sendSubscriptionLoop subscriptionType rounds c ioVector subscriptions).1 = .success →
        k = (ioVector.flatten ++
          subscriptions.flatMap (subscriptionBytes subscriptionType)).length) := by
  induction rounds generalizing c ioVector subscriptions with
  | zero =>
    obtain rfl := List.eq_nil_of_length_eq_zero (Nat.le_zero.mp hrounds)
    obtain rfl := hstart rfl
    exact ⟨0, Wrote.refl c, fun _ => rfl⟩
  | succ rounds ih =>
    rw [sendSubscriptionLoop]
    split
    · next hnone =>
      obtain rfl := List.eq_nil_of_length_eq_zero hnone
      obtain rfl := hstart rfl
      exact ⟨0, Wrote.refl c, fun _ => rfl⟩
    next hsome =>
    have hlt := (length_fillVectors_lt subscriptionType subscriptions ioVector).2 hroom
      (fun h => hsome (by rw [h]; rfl))
    rw [← flatten_fillVectors subscriptionType subscriptions ioVector]
    rcases hfill : fillVectors subscriptionType subscriptions ioVector with ⟨vectors, rest⟩
    rcases hsent : sendMessageVector c vectors with ⟨bytesSent, c'⟩
    simp only [hfill] at hlt
    obtain ⟨k, hwrote, hall⟩ := wrote_of_sent hsent
    simp only [hsent]
    split
    · next hcut =>
      refine ⟨min k vectors.flatten.length, ?_, fun h => by cases h⟩
      rw [List.take_append_of_le_length (Nat.min_le_right _ _), ← List.take_take,
        List.take_length]
      exact hwrote
    · next hwhole =>
      obtain rfl := hall (not_not.mp hwhole)
      rw [List.take_length] at hwrote
      obtain ⟨k', hwrote', hall'⟩ := ih c' [] rest (by omega) (Nat.zero_le _) (fun _ => rfl)
      refine ⟨vectors.flatten.length + k', ?_, fun h => ?_⟩
      · rw [List.take_length_add_append]
        exact hwrote.trans hwrote'
      · rw [hall' h, List.length_append, List.length_append]
        simp

inductive Request
  | publish (publishInfo : PublishInfo) (packetId : UInt16)
  | subscribe (subscriptions : List SubscribeInfo) (packetId : UInt16)
  | unsubscribe (subscriptions : List SubscribeInfo) (packetId : UInt16)

/-- `MQTT_Publish`, `MQTT_Subscribe`, `MQTT_Unsubscribe`: the parts are sent from where they
are. -/
def Request.send (c : Context) : Request → MqttStatus × Context
  | .publish publishInfo packetId => mqttPublish c publishInfo packetId
  | .subscribe subscriptions packetId => mqttSubscribe c subscriptions packetId
  | .unsubscribe subscriptions packetId => mqttUnsubscribe c subscriptions packetId

def Request.sizes : Request → Except MqttStatus (Nat × Nat)
  | .publish publishInfo _ => mqttGetPublishPacketSize publishInfo
  | .subscribe subscriptions _ => mqttGetSubscribePacketSize subscriptions
  | .unsubscribe subscriptions _ => mqttGetUnsubscribePacketSize subscriptions

def Sends (c : Context) (packet : Bytes) (result : MqttStatus × Context) : Prop :=
  ∃ k, result.2.sent = c.sent ++ packet.take k ∧ (result.1 = .success → k = packet.length)

def Request.packet (remainingLength : Nat) : Request → Bytes
  | .publish publishInfo packetId => publishBytes publishInfo remainingLength packetId
  | .subscribe subscriptions packetId =>
    mqttSerializeSubscribeHeader remainingLength packetId ++
      subscriptions.flatMap (subscriptionBytes .subscribe)
  | .unsubscribe subscriptions packetId =>
    mqttSerializeUnsubscribeHeader remainingLength packetId ++
      subscriptions.flatMap (subscriptionBytes .unsubscribe)

section Sizes

variable {request : Request} {remainingLength packetSize : Nat}

end Sizes

theorem validateSubscribe_eq_success {subscriptions : List SubscribeInfo} {packetId : UInt16}
    (h : validateSubscribeUnsubscribeParams subscriptions packetId = .success) :
    subscriptions.length ≠ 0 := by
  intro hzero
  simp [validateSubscribeUnsubscribeParams, hzero] at h

theorem wrote_subscriptions (subscriptionType : SubscriptionType) (c : Context) (header : Bytes)
    (subscriptions : List SubscribeInfo) (hsome : subscriptions.length ≠ 0) :
    ∃ bytes, Wrote c bytes
      (sendSubscriptionLoop subscriptionType subscriptions.length c [header] subscriptions).2 := by
  obtain ⟨k, hwrote, -⟩ := wrote_sendSubscriptionLoop subscriptionType c [header] subscriptions
    (Nat.le_refl _) (Nat.le_refl 1) (fun h => absurd (by rw [h]; rfl) hsome)
  exact ⟨_, hwrote⟩

theorem wrote_mqttSubscribe (c : Context) (subscriptions : List SubscribeInfo)
    (packetId : UInt16) : ∃ bytes, Wrote c bytes (mqttSubscribe c subscriptions packetId).2 := by
  simp only [mqttSubscribe]
  split
  · exact ⟨[], Wrote.refl c⟩
  next hvalid =>
  split
  · exact ⟨[], Wrote.refl c⟩
  · exact wrote_subscriptions _ c _ _ (validateSubscribe_eq_success (not_not.mp hvalid))

theorem wrote_mqttUnsubscribe (c : Context) (subscriptions : List SubscribeInfo)
    (packetId : UInt16) : ∃ bytes, Wrote c bytes (mqttUnsubscribe c subscriptions packetId).2 := by
  simp only [mqttUnsubscribe]
  split
  · exact ⟨[], Wrote.refl c⟩
  next hvalid =>
  split
  · exact ⟨[], Wrote.refl c⟩
  · exact wrote_subscriptions _ c _ _ (validateSubscribe_eq_success (not_not.mp hvalid))

end CyThing.CoreMqtt
