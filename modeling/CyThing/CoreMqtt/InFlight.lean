import CyThing.CoreMqtt.State
import CyThing.Lib.Trace
import Mathlib.Data.List.Nodup

/-! What a record array of the state engine is for: the publishes under way in one direction,
oldest first. The array functions are shown to be the operations of such a queue. -/

namespace CyThing.CoreMqtt
open OrderedSlots Trace

structure InFlight (capacity : Nat) where
  items : List PubAckInfo
  valid : ∀ r ∈ items, r.packetId ≠ 0
  nodup : (items.map PubAckInfo.packetId).Nodup
  length_le : items.length ≤ capacity

def PubAckInfo.moved (packetId : UInt16) (state : PublishState) (r : PubAckInfo) : PubAckInfo :=
  if r.packetId = packetId then { r with publishState := state } else r

@[simp] theorem packetId_moved (packetId : UInt16) (state : PublishState) (r : PubAckInfo) :
    (r.moved packetId state).packetId = r.packetId := by
  unfold PubAckInfo.moved
  split <;> rfl

namespace InFlight

variable {capacity : Nat} (q : InFlight capacity) {packetId : UInt16} {r : PubAckInfo}

def find (packetId : UInt16) : Option PubAckInfo :=
  q.items.find? fun r => r.packetId == packetId

theorem find_eq_none : q.find packetId = none ↔ ∀ r ∈ q.items, r.packetId ≠ packetId := by
  simp [find, List.find?_eq_none]

theorem find_eq_some : q.find packetId = some r ↔ r ∈ q.items ∧ r.packetId = packetId := by
  constructor
  · intro h
    exact ⟨List.mem_of_find?_eq_some h, by simpa using List.find?_some h⟩
  · rintro ⟨hmem, rfl⟩
    rcases hfind : q.find r.packetId with _ | r'
    · exact absurd rfl (q.find_eq_none.mp hfind r hmem)
    · have hr' := List.mem_of_find?_eq_some hfind
      have hid : r'.packetId = r.packetId := by simpa using List.find?_some hfind
      rw [List.inj_on_of_nodup_map q.nodup hr' hmem hid]

def empty (capacity : Nat) : InFlight capacity where
  items := []
  valid := List.forall_mem_nil _
  nodup := List.nodup_nil
  length_le := Nat.zero_le _

def erase (packetId : UInt16) : InFlight capacity where
  items := q.items.filter fun r => r.packetId ≠ packetId
  valid := fun r hr => q.valid r (List.mem_of_mem_filter hr)
  nodup := q.nodup.sublist (List.filter_sublist.map _)
  length_le := (List.length_filter_le ..).trans q.length_le

@[simp] theorem items_erase :
    (q.erase packetId).items = q.items.filter fun r => r.packetId ≠ packetId := rfl

theorem map_packetId_moved (items : List PubAckInfo) (state : PublishState) :
    (items.map (PubAckInfo.moved packetId state)).map PubAckInfo.packetId =
      items.map PubAckInfo.packetId := by
  rw [List.map_map]
  exact List.map_congr_left fun r _ => packetId_moved packetId state r

theorem valid_moved (packetId : UInt16) (state : PublishState) :
    ∀ r ∈ q.items.map (PubAckInfo.moved packetId state), r.packetId ≠ 0 := by
  intro r' hr'
  obtain ⟨r, hr, rfl⟩ := List.mem_map.mp hr'
  rw [packetId_moved]
  exact q.valid r hr

def setState (packetId : UInt16) (state : PublishState) : InFlight capacity where
  items := q.items.map (PubAckInfo.moved packetId state)
  valid := q.valid_moved packetId state
  nodup := (map_packetId_moved q.items state).symm ▸ q.nodup
  length_le := (List.length_map _).trans_le q.length_le

@[simp] theorem items_setState (state : PublishState) :
    (q.setState packetId state).items = q.items.map (PubAckInfo.moved packetId state) := rfl

theorem valid_concat (hr : r.packetId ≠ 0) : ∀ r' ∈ q.items ++ [r], r'.packetId ≠ 0 := by
  intro r' hr'
  rcases List.mem_append.mp hr' with h | h
  · exact q.valid r' h
  · rw [List.mem_singleton.mp h]
    exact hr

theorem nodup_concat (hnew : q.find r.packetId = none) :
    ((q.items ++ [r]).map PubAckInfo.packetId).Nodup := by
  rw [List.map_append, List.nodup_append]
  refine ⟨q.nodup, List.nodup_singleton _, ?_⟩
  intro id hid id' hid'
  obtain ⟨r', hr', rfl⟩ := List.mem_map.mp hid
  rw [List.mem_singleton.mp hid']
  exact q.find_eq_none.mp hnew r' hr'

def insert (r : PubAckInfo) (hr : r.packetId ≠ 0) (hnew : q.find r.packetId = none)
    (hroom : q.items.length < capacity) : InFlight capacity where
  items := q.items ++ [r]
  valid := q.valid_concat hr
  nodup := q.nodup_concat hnew
  length_le := (List.length_append ..).trans_le hroom

def add (r : PubAckInfo) (hr : r.packetId ≠ 0) : MqttStatus × InFlight capacity :=
  if hnew : q.find r.packetId = none then
    if hroom : q.items.length < capacity then (.success, q.insert r hr hnew hroom)
    else (.noMemory, q)
  else (.stateCollision, q)

@[ext] theorem ext {q q' : InFlight capacity} (h : q.items = q'.items) : q = q' := by
  cases q
  cases q'
  cases h
  rfl

theorem add_eq (r : PubAckInfo) (hr : r.packetId ≠ 0) :
    (q.add r hr).1 = (if q.find r.packetId = none then
        if q.items.length < capacity then .success else .noMemory
      else .stateCollision) ∧
    (q.add r hr).2.items = if q.find r.packetId = none ∧ q.items.length < capacity then
        q.items ++ [r] else q.items := by
  unfold add
  split
  · next hnew =>
    split
    · next hroom => simp [hnew, hroom, insert]
    · next hroom => simp [hnew, hroom]
  · next hnew => simp [hnew]

theorem add_eq_success {r : PubAckInfo} {hr : r.packetId ≠ 0} (h : (q.add r hr).1 = .success) :
    (∀ r' ∈ q.items, r'.packetId ≠ r.packetId) ∧ (q.add r hr).2.items = q.items ++ [r] := by
  obtain ⟨hstatus, hitems⟩ := q.add_eq r hr
  rw [h] at hstatus
  split at hstatus
  swap
  · cases hstatus
  next hnew =>
  split at hstatus
  swap
  · cases hstatus
  next hroom => exact ⟨q.find_eq_none.mp hnew, hitems.trans (if_pos ⟨hnew, hroom⟩)⟩

theorem length_erase_lt (h : q.find packetId = some r) :
    (q.erase packetId).items.length < capacity := by
  refine lt_of_lt_of_le ?_ q.length_le
  obtain ⟨hmem, hid⟩ := q.find_eq_some.mp h
  exact List.length_filter_lt_length_iff_exists.mpr ⟨r, hmem, by simp [hid]⟩

theorem find_erase : (q.erase packetId).find packetId = none := by
  rw [find_eq_none]
  intro r hr
  simpa using (List.mem_filter.mp hr).2

end InFlight

/-! ## The array holds the queue -/

structure Holds {capacity : Nat} (records : List PubAckInfo) (q : InFlight capacity) : Prop where
  live_eq : live PubAckInfo.free records = q.items
  length_eq : records.length = capacity

variable {capacity : Nat} {records : List PubAckInfo} {q : InFlight capacity} {packetId : UInt16}
  {r : PubAckInfo}

theorem free_blank : PubAckInfo.free {} = true := rfl

theorem free_eq_false (h : r.packetId ≠ 0) : r.free = false := by
  simpa [PubAckInfo.free] using h

theorem holds_empty (capacity : Nat) :
    Holds (List.replicate capacity {}) (InFlight.empty capacity) := by
  refine ⟨live_of_free fun r hr => ?_, List.length_replicate⟩
  rw [List.eq_of_mem_replicate hr]
  exact free_blank

theorem Holds.mem_iff (h : Holds records q) (hid : r.packetId ≠ 0) :
    r ∈ records ↔ r ∈ q.items := by
  rw [← h.live_eq, live, List.mem_filter]
  simp [free_eq_false hid]

theorem take_succ_getD {index : Nat} (h : index < records.length) :
    records.take (index + 1) = records.take index ++ [records.getD index {}] := by
  rw [List.take_add_one, List.getD_eq_getElem?_getD, List.getElem?_eq_getElem h]
  rfl

theorem availableRecord_found (packetId : UInt16) {index : Nat} (hi : index ≤ records.length)
    (available : Nat) (hid : packetId ≠ 0) :
    availableRecord records packetId index available true =
      if packetId ∈ (records.take index).map PubAckInfo.packetId then
        (records.length, .stateCollision)
      else (available, .noMemory) := by
  induction index with
  | zero => simp [availableRecord]
  | succ index ih =>
    rw [take_succ_getD hi, List.map_append, availableRecord, ih (by omega)]
    generalize records.getD index {} = record
    by_cases hfree : record.packetId = 0
    · simp [hfree, hid, ih (Nat.le_of_succ_le hi)]
    · by_cases hsame : record.packetId = packetId
      · simp [hsame, hid]
      · simp [hfree, hsame, Ne.symm hsame]

theorem availableRecord_eq (packetId : UInt16) {index : Nat} (hi : index ≤ records.length)
    (hid : packetId ≠ 0) :
    availableRecord records packetId index index false =
      if packetId ∈ (records.take index).map PubAckInfo.packetId then
        (records.length, .stateCollision)
      else (next PubAckInfo.free (records.take index), .noMemory) := by
  induction index with
  | zero => simp [availableRecord, next]
  | succ index ih =>
    have htop : (records.take index).length = index := List.length_take_of_le (by omega)
    rw [take_succ_getD hi, List.map_append, availableRecord,
      availableRecord_found packetId (by omega) _ hid]
    generalize records.getD index {} = record
    by_cases hfree : record.packetId = 0
    · rw [next_append_free (by simp [PubAckInfo.free, hfree])]
      simp [hfree, hid, ih (Nat.le_of_succ_le hi)]
    · rw [next_concat (free_eq_false hfree), htop]
      by_cases hsame : record.packetId = packetId
      · simp [hsame, hid]
      · simp [hfree, hsame, Ne.symm hsame]

def openedRecords (records : List PubAckInfo) : List PubAckInfo :=
  if (records.getD (records.length - 1) {}).packetId ≠ 0 then compactRecords records else records

theorem holds_openedRecords (h : Holds records q) : Holds (openedRecords records) q := by
  unfold openedRecords
  split
  · exact ⟨(live_compact free_blank records).trans h.live_eq,
      (length_compact free_blank records).trans h.length_eq⟩
  · exact h

theorem next_openedRecords_lt (h : Holds records q) (hcap : 0 < capacity) :
    next PubAckInfo.free (openedRecords records) < capacity ↔ q.items.length < capacity := by
  have hne : records ≠ [] := List.ne_nil_of_length_pos (h.length_eq ▸ hcap)
  unfold openedRecords
  split
  · rw [compactRecords, next_compact free_blank, h.live_eq]
  · next hlast =>
    have hlt : next PubAckInfo.free records < capacity := by
      rw [← h.length_eq, next_lt_iff {} hne]
      simpa [PubAckInfo.free] using hlast
    have hle := length_live_le_next PubAckInfo.free records
    rw [h.live_eq] at hle
    exact iff_of_true hlt (by omega)

theorem mem_packetIds_iff (h : Holds records q) (hid : packetId ≠ 0) :
    packetId ∈ records.map PubAckInfo.packetId ↔ q.find packetId ≠ none := by
  rw [List.mem_map, Ne, q.find_eq_none]
  push Not
  refine exists_congr fun r => and_congr_left ?_
  rintro rfl
  exact h.mem_iff hid

theorem holds_addRecord (h : Holds records q) (hcap : 0 < capacity) (hr : r.packetId ≠ 0) :
    (addRecord records r.packetId r.qos r.publishState).1 = (q.add r hr).1 ∧
      Holds (addRecord records r.packetId r.qos r.publishState).2 (q.add r hr).2 := by
  have hopen := holds_openedRecords h
  have hnext := next_openedRecords_lt h hcap
  have hadd : addRecord records r.packetId r.qos r.publishState =
      let found := availableRecord (openedRecords records) r.packetId
        (openedRecords records).length (openedRecords records).length false
      if found.1 < (openedRecords records).length then
        (.success, (openedRecords records).set found.1 r)
      else (found.2, openedRecords records) := rfl
  rw [hadd, availableRecord_eq r.packetId le_rfl hr, List.take_length]
  simp only [mem_packetIds_iff hopen hr, hopen.length_eq]
  by_cases hnew : q.find r.packetId = none
  · simp only [hnew, ne_eq, not_true_eq_false, if_false, InFlight.add, dif_pos]
    by_cases hroom : q.items.length < capacity
    · rw [if_pos (hnext.mpr hroom), dif_pos hroom]
      refine ⟨rfl, ?_, ?_⟩
      · rw [live_set_next (hopen.length_eq ▸ hnext.mpr hroom) (free_eq_false hr), hopen.live_eq]
        rfl
      · rw [List.length_set, hopen.length_eq]
    · rw [if_neg (hnext.not.mpr hroom), dif_neg hroom]
      exact ⟨rfl, hopen⟩
  · simp only [hnew, ne_eq, not_false_eq_true, if_true, lt_irrefl, if_false, InFlight.add, dif_neg]
    exact ⟨trivial, hopen⟩

theorem findInRecord_eq_none (h : Holds records q) (hid : packetId ≠ 0)
    (hfind : q.find packetId = none) : findInRecord records packetId = none := by
  have hmem := (mem_packetIds_iff h hid).not_left.mpr hfind
  rw [findInRecord, List.findIdx?_eq_none_iff.mpr]
  · rfl
  · intro r hr
    rw [beq_eq_false_iff_ne]
    exact fun hr' => hmem (List.mem_map.mpr ⟨r, hr, hr'⟩)

theorem exists_findInRecord (h : Holds records q) (hid : packetId ≠ 0)
    (hfind : q.find packetId = some r) :
    ∃ pre post, records = pre ++ r :: post ∧
      findInRecord records packetId = some (pre.length, r.qos, r.publishState) := by
  obtain ⟨hmem, rfl⟩ := q.find_eq_some.mp hfind
  obtain ⟨index, hindex⟩ : ∃ i, records.findIdx? (fun x => x.packetId == r.packetId) = some i := by
    rw [← Option.isSome_iff_exists, List.findIdx?_isSome, List.any_eq_true]
    exact ⟨r, (h.mem_iff hid).mpr hmem, beq_self_eq_true _⟩
  obtain ⟨hlt, hbeq, -⟩ := List.findIdx?_eq_some_iff_getElem.mp hindex
  have hr : records.get ⟨index, hlt⟩ = r := by
    have hid' : (records.get ⟨index, hlt⟩).packetId = r.packetId := by simpa using hbeq
    have hlive := (h.mem_iff (hid'.trans_ne hid)).mp (List.get_mem records ⟨index, hlt⟩)
    exact List.inj_on_of_nodup_map q.nodup hlive hmem hid'
  refine ⟨records.take index, records.drop (index + 1), ?_, ?_⟩
  · rw [← hr]
    simp
  · rw [findInRecord, hindex, List.length_take_of_le hlt.le, ← hr]
    simp [hlt]

variable {pre post : List PubAckInfo}

theorem Holds.others (h : Holds (pre ++ r :: post) q) (hid : r.packetId ≠ 0) :
    q.items = live PubAckInfo.free pre ++ r :: live PubAckInfo.free post ∧
      (∀ x ∈ live PubAckInfo.free pre, x.packetId ≠ r.packetId) ∧
      ∀ x ∈ live PubAckInfo.free post, x.packetId ≠ r.packetId := by
  have hitems : q.items = live PubAckInfo.free pre ++ r :: live PubAckInfo.free post := by
    rw [← h.live_eq, live_append, live_cons, free_eq_false hid]
    rfl
  have hnodup := q.nodup
  rw [hitems, List.map_append, List.map_cons, List.nodup_middle, List.nodup_cons,
    List.mem_append, not_or] at hnodup
  refine ⟨hitems, fun x hx heq => hnodup.1.1 ?_, fun x hx heq => hnodup.1.2 ?_⟩
  · exact List.mem_map.mpr ⟨x, hx, heq⟩
  · exact List.mem_map.mpr ⟨x, hx, heq⟩

theorem holds_erase (h : Holds (pre ++ r :: post) q) (hid : r.packetId ≠ 0)
    (state : PublishState) :
    Holds (updateRecord (pre ++ r :: post) pre.length state true) (q.erase r.packetId) := by
  obtain ⟨hitems, hpre, hpost⟩ := h.others hid
  have hrecords : updateRecord (pre ++ r :: post) pre.length state true = pre ++ {} :: post := by
    simp [updateRecord, List.set_append_right]
  refine ⟨?_, ?_⟩
  · rw [hrecords, live_append, live_cons, if_pos free_blank, q.items_erase, hitems,
      List.filter_append, List.filter_cons_of_neg (by simp),
      List.filter_eq_self.mpr (by simpa using hpre), List.filter_eq_self.mpr (by simpa using hpost)]
  · rw [hrecords, ← h.length_eq]
    simp

theorem holds_setState (h : Holds (pre ++ r :: post) q) (hid : r.packetId ≠ 0)
    (state : PublishState) :
    Holds (updateRecord (pre ++ r :: post) pre.length state false)
      (q.setState r.packetId state) := by
  obtain ⟨hitems, hpre, hpost⟩ := h.others hid
  have hrecords : updateRecord (pre ++ r :: post) pre.length state false =
      pre ++ { r with publishState := state } :: post := by
    simp [updateRecord, List.set_append_right]
  have hsame : ∀ l : List PubAckInfo, (∀ x ∈ l, x.packetId ≠ r.packetId) →
      l.map (PubAckInfo.moved r.packetId state) = l :=
    fun l hl => (List.map_congr_left fun x hx => if_neg (hl x hx)).trans (List.map_id l)
  refine ⟨?_, ?_⟩
  · have hfree : PubAckInfo.free { r with publishState := state } = false := free_eq_false hid
    rw [hrecords, live_append, live_cons, hfree, q.items_setState, hitems, List.map_append,
      List.map_cons, hsame _ hpre, hsame _ hpost, PubAckInfo.moved, if_pos rfl]
    rfl
  · rw [hrecords, ← h.length_eq]
    simp

end CyThing.CoreMqtt
