import CyThing.CoreMqtt.Client
import Mathlib.Tactic.Ring

/-! The packets survive the wire: what the client sends is what it would accept, and it accepts
nothing else. -/

namespace CyThing.CoreMqtt
open CLib Layout

/-! ## Fields -/

theorem toNat_joinBytes (hi lo : UInt8) :
    ((hi.toUInt16 <<< 8) ||| lo.toUInt16).toNat = hi.toNat * 256 + lo.toNat := by
  have hhi := hi.toNat_lt
  have hlo := lo.toNat_lt
  have hor := Nat.two_pow_add_eq_or_of_lt (i := 8) (b := lo.toNat) (by omega) hi.toNat
  rw [UInt16.toNat_or, UInt16.toNat_shiftLeft]
  simp only [UInt8.toNat_toUInt16, UInt16.toNat_ofNat, Nat.reducePow, Nat.reduceMod,
    Nat.shiftLeft_eq] at hor ⊢
  rw [Nat.mod_eq_of_lt (by omega), Nat.mul_comm, hor]

theorem uint16Bytes_eq (x : UInt16) :
    uint16Bytes x = [UInt8.ofNat (x.toNat / 256), UInt8.ofNat (x.toNat % 256)] := by
  have hx := x.toNat_lt
  have hhi : ((x >>> 8).toUInt8).toNat = x.toNat / 256 := by
    rw [UInt16.toNat_toUInt8, UInt16.toNat_shiftRight]
    simp only [UInt16.toNat_ofNat, Nat.reducePow, Nat.reduceMod, Nat.shiftRight_eq_div_pow]
    omega
  have hlo : ((x &&& 0x00ff).toUInt8).toNat = x.toNat % 256 := by
    rw [UInt16.toNat_toUInt8, UInt16.toNat_and]
    have hand := Nat.and_two_pow_sub_one_eq_mod x.toNat 8
    simp only [UInt16.toNat_ofNat, Nat.reducePow, Nat.reduceMod, Nat.reduceSub] at hand ⊢
    omega
  rw [uint16Bytes, ← hhi, ← hlo, UInt8.ofNat_toNat, UInt8.ofNat_toNat]

@[simp] theorem length_uint16Bytes (x : UInt16) : (uint16Bytes x).length = 2 := rfl

theorem uint16Decode_uint16Bytes (x : UInt16) (pre rest : Bytes) :
    uint16Decode (pre ++ uint16Bytes x ++ rest) pre.length = x := by
  have hx := x.toNat_lt
  rw [← UInt16.toNat_inj, uint16Decode, uint16Bytes_eq, toNat_joinBytes]
  simp
  omega

theorem uint16Bytes_uint16Decode {data : Bytes} {offset : Nat} (h : offset + 2 ≤ data.length) :
    uint16Bytes (uint16Decode data offset) = slice data offset 2 := by
  obtain ⟨hi, hhi⟩ : ∃ hi, data[offset]? = some hi := ⟨_, List.getElem?_eq_getElem (by omega)⟩
  obtain ⟨lo, hlo⟩ : ∃ lo, data[offset + 1]? = some lo := ⟨_, List.getElem?_eq_getElem (by omega)⟩
  have hlo' := lo.toNat_lt
  rw [uint16Bytes_eq, uint16Decode, toNat_joinBytes]
  simp only [List.getD_eq_getElem?_getD, hhi, hlo, Option.getD_some]
  have h1 : (hi.toNat * 256 + lo.toNat) / 256 = hi.toNat := by omega
  have h2 : (hi.toNat * 256 + lo.toNat) % 256 = lo.toNat := by omega
  rw [h1, h2, UInt8.ofNat_toNat, UInt8.ofNat_toNat, slice]
  apply List.ext_getElem?
  intro i
  rcases i with _ | _ | i <;> simp [hhi, hlo]

/-! ## The fixed header -/

theorem remainingLengthEncodedSize_eq {n : Nat} (h : n < 128 ^ 4) :
    remainingLengthEncodedSize n = (Varint.encode 4 n).length := by
  rw [remainingLengthEncodedSize]
  by_cases h1 : n < 128
  · rw [if_pos h1, Varint.encode_of_lt 3 h1, List.length_singleton]
  rw [if_neg h1, Varint.encode_of_le 3 (by omega), List.length_cons]
  by_cases h2 : n < 16384
  · rw [if_pos h2, Varint.encode_of_lt 2 (by omega), List.length_singleton]
  rw [if_neg h2, Varint.encode_of_le 2 (by omega), List.length_cons]
  by_cases h3 : n < 2097152
  · rw [if_pos h3, Varint.encode_of_lt 1 (by omega), List.length_singleton]
  · rw [if_neg h3, Varint.encode_of_le 1 (by omega), Varint.encode_of_lt 0 (by omega)]
    rfl

theorem and_7f (b : UInt8) : (b &&& 0x7F).toNat = b.toNat % 128 := by
  rw [UInt8.toNat_and]
  exact Nat.and_two_pow_sub_one_eq_mod b.toNat 7

theorem and_80_eq_zero (b : UInt8) : b &&& 0x80 = 0 ↔ b.toNat < 128 := by
  have hall : ∀ i : Fin 256, (UInt8.ofNat i.val &&& 0x80 = 0 ↔ i.val < 128) := by decide +kernel
  have hb := hall ⟨b.toNat, b.toNat_lt⟩
  rwa [UInt8.ofNat_toNat] at hb

def loopAnswer (remainingLength multiplier bytesDecoded : Nat) :
    Varint.Reading → Except MqttStatus (Nat × Nat)
  | .value n len => .ok (remainingLength + n * multiplier, bytesDecoded + len)
  | .incomplete => .error .needMoreBytes
  | .overlong => .error .badResponse

theorem remainingLengthLoop_eq {buffer : Bytes} {index : Nat} (hindex : index ≤ buffer.length)
    (k j remainingLength : Nat) (hjk : j + k = 4) :
    remainingLengthLoop buffer index (k + 1) remainingLength (128 ^ j) j =
      loopAnswer remainingLength (128 ^ j) j
        (Varint.decode k ((buffer.take index).drop (j + 1))) := by
  induction k generalizing j remainingLength with
  | zero =>
    obtain rfl : j = 4 := by omega
    rfl
  | succ k ih =>
    have hmul : ¬ 128 ^ j > 2097152 := by
      have : 128 ^ j ≤ 128 ^ 3 := Nat.pow_le_pow_right (by decide) (by omega)
      omega
    rw [remainingLengthLoop, if_neg hmul]
    by_cases hj : index > j + 1
    · have hlt : j + 1 < (buffer.take index).length := by
        rw [List.length_take]
        omega
      rw [if_pos hj, List.drop_eq_getElem_cons hlt, Varint.decode, List.getElem_take]
      have hget : buffer.getD (j + 1) 0 = buffer[j + 1] := by
        rw [List.getD_eq_getElem?_getD, List.getElem?_eq_getElem (by omega), Option.getD_some]
      simp only [hget, ne_eq, and_80_eq_zero, and_7f, ite_not]
      generalize buffer[j + 1] = b
      split
      · next hb => rw [Nat.mod_eq_of_lt hb]; rfl
      · rw [← Nat.pow_succ, ih (j + 1) _ (by omega)]
        cases Varint.decode k ((buffer.take index).drop (j + 1 + 1)) with
        | value n len =>
          simp only [loopAnswer, Varint.Reading.shift, Except.ok.injEq, Prod.mk.injEq]
          refine ⟨?_, by omega⟩
          rw [Nat.pow_succ]
          ring
        | incomplete => rfl
        | overlong => rfl
    · rw [if_neg hj, List.drop_eq_nil_of_le (by rw [List.length_take]; omega), Varint.decode]
      rfl

theorem processRemainingLength_eq {buffer : Bytes} {index : Nat}
    (hindex : index ≤ buffer.length) :
    processRemainingLength buffer index =
      match Varint.decode 4 ((buffer.take index).drop 1) with
      | .value n len =>
        if len = (Varint.encode 4 n).length then .ok (n, len + 1) else .error .badResponse
      | .incomplete => .error .needMoreBytes
      | .overlong => .error .badResponse := by
  have hloop := remainingLengthLoop_eq hindex 4 0 0 rfl
  rw [Nat.pow_zero, Nat.zero_add] at hloop
  rw [processRemainingLength, hloop]
  cases hread : Varint.decode 4 ((buffer.take index).drop 1) with
  | value n len =>
    have hn := (Varint.decode_bounds hread).2.2.2
    simp only [loopAnswer, Nat.zero_add, Nat.mul_one, remainingLengthEncodedSize_eq hn]
    by_cases hlen : len = (Varint.encode 4 n).length
    · rw [if_neg (not_not_intro hlen), if_pos hlen]
    · rw [if_pos hlen, if_neg hlen]
  | incomplete => rfl
  | overlong => rfl

theorem encodeRemainingLength_eq {n : Nat} (h : n < 128 ^ 4) :
    encodeRemainingLength n = Varint.encode 4 n :=
  Varint.encode_eq_encode h (by decide) 1

theorem processIncoming_eq_ok_iff {buffer : Bytes} {index : Nat} (hindex : index ≤ buffer.length)
    {type : UInt8} {n headerLength : Nat} :
    mqttProcessIncomingPacketTypeAndLength buffer index = .ok (type, n, headerLength) ↔
      incomingPacketValid type ∧ n < 128 ^ 4 ∧
        headerLength = (Varint.encode 4 n).length + 1 ∧
        type :: Varint.encode 4 n <+: buffer.take index := by
  rw [mqttProcessIncomingPacketTypeAndLength]
  by_cases hone : index < 1
  · obtain rfl : index = 0 := by omega
    simp
  obtain ⟨b, bytes, hbytes⟩ : ∃ b bytes, buffer.take index = b :: bytes :=
    List.exists_cons_of_ne_nil (List.ne_nil_of_length_pos (by rw [List.length_take]; omega))
  have hb : buffer.getD 0 0 = b := by
    have hhead := congrArg (·[0]?) hbytes
    simp only [List.getElem?_take, List.getElem?_cons_zero] at hhead
    rw [if_pos (by omega)] at hhead
    rw [List.getD_eq_getElem?_getD, hhead, Option.getD_some]
  rw [if_neg hone, hb, processRemainingLength_eq hindex, hbytes, List.drop_succ_cons,
    List.drop_zero, List.cons_prefix_cons]
  by_cases hvalid : incomingPacketValid b
  swap
  · rw [if_neg hvalid]
    constructor
    · intro h
      cases h
    · rintro ⟨hv, -, -, rfl, -⟩
      exact absurd hv hvalid
  rw [if_pos hvalid]
  constructor
  · intro h
    cases hread : Varint.decode 4 bytes with
    | value m len =>
      obtain ⟨-, -, hle, hm⟩ := Varint.decode_bounds hread
      simp only [hread] at h
      split at h
      · next hlen =>
        cases h
        refine ⟨hvalid, hm, by rw [hlen], rfl, ?_⟩
        rw [← Varint.take_eq_encode hread hlen]
        exact List.take_prefix _ _
      · cases h
    | incomplete => rw [hread] at h; cases h
    | overlong => rw [hread] at h; cases h
  · rintro ⟨-, hn, rfl, rfl, rest, rfl⟩
    rw [Varint.decode_encode hn (by decide)]
    simp only [if_true]
    rfl

def packetBytes (type : UInt8) (body : Bytes) : Bytes :=
  type :: Varint.encode 4 body.length ++ body

theorem packetBytes_of_processIncoming {buffer : Bytes} {index : Nat}
    (hindex : index ≤ buffer.length) {type : UInt8} {n headerLength : Nat}
    (hheader : mqttProcessIncomingPacketTypeAndLength buffer index = .ok (type, n, headerLength))
    (hwhole : headerLength + n ≤ index) {body : Bytes}
    (hbody : (buffer.drop headerLength).take n = body) :
    body.length = n ∧ n < 128 ^ 4 ∧ buffer.take (headerLength + n) = packetBytes type body := by
  obtain ⟨-, hn, rfl, hpre⟩ := (processIncoming_eq_ok_iff hindex).mp hheader
  have hlen : body.length = n := by
    rw [← hbody, List.length_take, List.length_drop]
    omega
  have hhead := List.prefix_iff_eq_take.mp hpre
  rw [List.take_take, List.length_cons, Nat.min_eq_left (by omega)] at hhead
  refine ⟨hlen, hn, ?_⟩
  rw [packetBytes, hlen, hhead, ← hbody, List.take_add]

theorem processIncoming_of_packetBytes {buffer : Bytes} {index : Nat}
    (hindex : index ≤ buffer.length) {type : UInt8} (hvalid : incomingPacketValid type)
    {body : Bytes} (hbody : body.length < 128 ^ 4)
    (hpre : packetBytes type body <+: buffer.take index) :
    ∃ headerLength rest,
      mqttProcessIncomingPacketTypeAndLength buffer index =
        .ok (type, body.length, headerLength) ∧
      headerLength + body.length ≤ index ∧ buffer.drop headerLength = body ++ rest := by
  obtain ⟨rest, hrest⟩ := hpre
  rw [packetBytes] at hrest
  refine ⟨(Varint.encode 4 body.length).length + 1, rest ++ buffer.drop index, ?_, ?_, ?_⟩
  · rw [processIncoming_eq_ok_iff hindex]
    exact ⟨hvalid, hbody, rfl, body ++ rest, by rw [← hrest]; simp⟩
  · have := congrArg List.length hrest
    simp only [List.length_append, List.length_cons, List.length_take] at this
    omega
  · conv_lhs => rw [← List.take_append_drop index buffer, ← hrest]
    simp

/-! ## PUBLISH -/

def publishBody (publishInfo : PublishInfo) (packetId : UInt16) : Bytes :=
  encodeString publishInfo.topicName ++
    ((if publishInfo.qos = .qos0 then [] else uint16Bytes packetId) ++ publishInfo.payload)

theorem publishBytes_eq (publishInfo : PublishInfo) (n : Nat) (packetId : UInt16) :
    publishBytes publishInfo n packetId =
      publishFlags publishInfo :: encodeRemainingLength n ++ encodeString publishInfo.topicName ++
        (if publishInfo.qos = .qos0 then [] else uint16Bytes packetId) ++ publishInfo.payload := by
  rw [publishBytes, publishVectors, mqttSerializePublishHeaderWithoutTopic, encodeString]
  split <;> split <;> simp_all

theorem publishBytes_eq_packetBytes {publishInfo : PublishInfo} {packetId : UInt16} {n : Nat}
    (hn : n = (publishBody publishInfo packetId).length) (hmax : n < 128 ^ 4) :
    publishBytes publishInfo n packetId =
      packetBytes (publishFlags publishInfo) (publishBody publishInfo packetId) := by
  rw [packetBytes, ← hn, publishBytes_eq, encodeRemainingLength_eq hmax, publishBody]
  simp

theorem publishFlags_iff (type : UInt8) (publishInfo : PublishInfo) :
    type = publishFlags publishInfo ↔
      type &&& 0xF0 = packetTypePublish ∧ processPublishFlags (type &&& 0x0F) =
        some (publishInfo.qos, publishInfo.retain, publishInfo.dup) := by
  obtain ⟨qos, retain, dup, topicName, payload⟩ := publishInfo
  have hall : ∀ (i : Fin 256) (retain dup : Bool), ∀ qos ∈ [Qos.qos0, Qos.qos1, Qos.qos2],
      (UInt8.ofNat i.val = publishFlags ⟨qos, retain, dup, ⟨[], by decide⟩, []⟩ ↔
        UInt8.ofNat i.val &&& 0xF0 = packetTypePublish ∧
          processPublishFlags (UInt8.ofNat i.val &&& 0x0F) = some (qos, retain, dup)) := by
    decide +kernel
  have htype := hall ⟨type.toNat, type.toNat_lt⟩ retain dup qos (by cases qos <;> simp)
  rwa [UInt8.ofNat_toNat] at htype

theorem uint16Decode_append (x : UInt16) (rest : Bytes) :
    uint16Decode (uint16Bytes x ++ rest) 0 = x :=
  uint16Decode_uint16Bytes x [] rest

theorem encodeString_slice {data : Bytes} (h : 2 + (uint16Decode data 0).toNat ≤ data.length) :
    encodeString ⟨slice data 2 (uint16Decode data 0).toNat,
      length_slice_lt data 2 (uint16Decode data 0)⟩ =
      data.take (2 + (uint16Decode data 0).toNat) := by
  rw [encodeString, length_slice h, UInt16.ofNat_toNat, uint16Bytes_uint16Decode (by omega)]
  exact take_append_slice data 2 _

theorem deserializePublish_eq_ok {data : Bytes} {type : UInt8} {n headerLength : Nat}
    (hn : n ≤ data.length) {publishInfo : PublishInfo} {packetId : UInt16}
    (h : mqttDeserializePublish ⟨type, data, n, headerLength⟩ = .ok (packetId, publishInfo)) :
    type = publishFlags publishInfo ∧ data.take n = publishBody publishInfo packetId ∧
      0 < publishInfo.topicName.1.length + publishInfo.payload.length ∧
      (packetId = 0 ↔ publishInfo.qos = .qos0) := by
  rw [publishFlags_iff]
  simp only [mqttDeserializePublish] at h
  split at h
  · cases h
  next htype =>
  split at h
  · cases h
  next qos retain dup hflags =>
  split at h
  · cases h
  next hmin =>
  split at h
  · cases h
  next hfit =>
  split at h
  · next hq =>
    simp only [checkPublishRemainingLength, hq, if_true, Bool.not_eq_true, Bool.not_eq_false',
      decide_eq_true_eq] at hmin hfit
    cases h
    refine ⟨⟨not_not.mp htype, hflags⟩, ?_, ?_, by simp [hq]⟩
    · simp only [publishBody, encodeString_slice (show _ ≤ data.length by omega), if_pos hq,
        List.nil_append, take_append_slice]
      congr 1
      omega
    · rw [length_slice (by omega), length_slice (by omega)]
      omega
  · next hq =>
    simp only [checkPublishRemainingLength, hq, if_false, Bool.not_eq_true, Bool.not_eq_false',
      decide_eq_true_eq] at hmin hfit
    split at h
    · cases h
    next hid =>
    cases h
    refine ⟨⟨not_not.mp htype, hflags⟩, ?_, ?_, by simp [hq, hid]⟩
    · simp only [publishBody, encodeString_slice (show _ ≤ data.length by omega), if_neg hq]
      rw [uint16Bytes_uint16Decode (by omega), ← slice_add, take_append_slice]
      congr 1
      omega
    · rw [length_slice (by omega), length_slice (by omega)]
      omega

def publishAckTypes : List UInt8 :=
  [packetTypePuback, packetTypePubrec, packetTypePubrel, packetTypePubcomp]

theorem deserializeSimpleAck_eq_ok {packet : PacketInfo} {packetId : UInt16} :
    deserializeSimpleAck packet = .ok packetId ↔
      packet.remainingLength = 2 ∧ uint16Decode packet.remainingData 0 = packetId ∧
        packetId ≠ 0 := by
  simp only [deserializeSimpleAck]
  split
  · next h => simp [h]
  next h =>
  split
  · next hid =>
    simp only [reduceCtorEq, hid, false_iff]
    rintro ⟨-, rfl, hne⟩
    exact hne rfl
  · next hid =>
    simp only [Except.ok.injEq]
    exact ⟨fun heq => ⟨not_not.mp h, heq, heq ▸ hid⟩, fun heq => heq.2.1⟩

theorem deserializeSimpleAck_eq_error {packet : PacketInfo} {status : MqttStatus}
    (h : deserializeSimpleAck packet = .error status) : status = .badResponse := by
  simp only [deserializeSimpleAck] at h
  split at h
  · cases h
    rfl
  · split at h <;> cases h
    rfl

theorem deserializeAck_eq_success {packet : PacketInfo} (htype : packet.type ∈ publishAckTypes)
    {sessionPresent : Bool} {packetId : UInt16} :
    mqttDeserializeAck packet sessionPresent = (.success, packetId, sessionPresent) ↔
      deserializeSimpleAck packet = .ok packetId := by
  have hother : ∀ type, type ∉ publishAckTypes → packet.type ≠ type :=
    fun type hmem heq => hmem (heq ▸ htype)
  have hconnack := hother packetTypeConnack (by decide)
  have hsuback := hother packetTypeSuback (by decide)
  have hpingresp := hother packetTypePingresp (by decide)
  have hsimple : packet.type = packetTypeUnsuback ∨ packet.type = packetTypePuback ∨
      packet.type = packetTypePubrec ∨ packet.type = packetTypePubrel ∨
      packet.type = packetTypePubcomp := by
    refine .inr ?_
    simpa only [publishAckTypes, List.mem_cons, List.not_mem_nil, or_false] using htype
  rw [mqttDeserializeAck, if_neg hconnack, if_neg hsuback, if_neg hpingresp, if_pos hsimple]
  cases hread : deserializeSimpleAck packet with
  | ok id => simp
  | error status => simp [deserializeSimpleAck_eq_error hread]

theorem mqttSerializeAck_eq_ok {packetType : UInt8} (htype : packetType ∈ publishAckTypes)
    {packetId : UInt16} {message : Bytes} :
    mqttSerializeAck packetType packetId = .ok message ↔
      packetId ≠ 0 ∧ message = packetBytes packetType (uint16Bytes packetId) := by
  simp only [publishAckTypes, List.mem_cons, List.not_mem_nil, or_false] at htype
  have htwo : Varint.encode 4 2 = [2] := by decide
  rw [mqttSerializeAck, if_pos htype, packetBytes, length_uint16Bytes, htwo]
  split
  · next h => simp [h]
  · next h => simp [h, eq_comm]

theorem incomingPacketValid_publishAck {packetType : UInt8}
    (htype : packetType ∈ publishAckTypes) : incomingPacketValid packetType := by
  simp only [publishAckTypes, List.mem_cons, List.not_mem_nil, or_false] at htype
  rcases htype with rfl | rfl | rfl | rfl <;> rfl

/-- An acknowledgement of a publish is accepted exactly when it is the one that
`MQTT_SerializeAck` writes. -/
theorem ack_accepted_iff {buffer : Bytes} {index : Nat} (hindex : index ≤ buffer.length)
    {packetType : UInt8} (htype : packetType ∈ publishAckTypes) (packetId : UInt16)
    (sessionPresent : Bool) :
    (∃ n headerLength,
      mqttProcessIncomingPacketTypeAndLength buffer index = .ok (packetType, n, headerLength) ∧
      headerLength + n ≤ index ∧
      mqttDeserializeAck ⟨packetType, buffer.drop headerLength, n, headerLength⟩ sessionPresent =
        (.success, packetId, sessionPresent)) ↔
    ∃ message, mqttSerializeAck packetType packetId = .ok message ∧
      message <+: buffer.take index := by
  simp only [mqttSerializeAck_eq_ok htype]
  constructor
  · rintro ⟨n, headerLength, hheader, hwhole, hread⟩
    rw [deserializeAck_eq_success htype, deserializeSimpleAck_eq_ok] at hread
    obtain ⟨hn, hid, hne⟩ := hread
    obtain rfl : n = 2 := hn
    obtain ⟨-, -, hpacket⟩ := packetBytes_of_processIncoming hindex hheader hwhole rfl
    refine ⟨_, ⟨hne, rfl⟩, ?_⟩
    rw [← hid, uint16Bytes_uint16Decode (by rw [List.length_drop]; omega), slice, List.drop_zero,
      ← hpacket]
    exact List.take_prefix_take_left hwhole
  · rintro ⟨-, ⟨hne, rfl⟩, hpre⟩
    obtain ⟨headerLength, rest, hheader, hwhole, hdrop⟩ := processIncoming_of_packetBytes hindex
      (incomingPacketValid_publishAck htype) (by rw [length_uint16Bytes]; decide) hpre
    refine ⟨_, headerLength, hheader, hwhole, ?_⟩
    rw [deserializeAck_eq_success htype, deserializeSimpleAck_eq_ok, hdrop]
    exact ⟨length_uint16Bytes packetId, uint16Decode_append packetId rest, hne⟩

theorem ack_accepted_sample :
    ∃ message, mqttSerializeAck packetTypePubrec 258 = .ok message ∧
      message <+: List.take 4 [0x50, 2, 1, 2, 0] :=
  (ack_accepted_iff (by decide) (by decide) 258 false).mp ⟨2, 2, rfl, by decide, rfl⟩

end CyThing.CoreMqtt
