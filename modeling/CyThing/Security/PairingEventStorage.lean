import CyThing.Security.PairedListStorage
import CyThing.Security.PairingEvents
import CyThing.Lib.BoundedQueue
import CyThing.Lib.Memory
import CyThing.Lib.TextLine

/-! The queue of pairing events as the bytes of `s_q` and of its blob in flash. Texts sit in
slots of 256 bytes, each ended by a NUL with whatever was there before behind it; the blob ends
with the last slot in use, and loading checks its length against the count it holds. -/

namespace CyThing
open CLib Layout Trace BoundedQueue

/-! ## The bytes -/

abbrev queueHead : Nat := 4

abbrev queueSize : Nat := queueHead + pairingEventsMax * pairingEventJsonMax

structure EventMem where
  ram : Block queueSize := .zero queueSize
  flash : Option Bytes := none

def queueCount (m : Bytes) : Nat := (m.getD 0 0).toNat

abbrev slotOffset (i : Nat) : Nat := queueHead + i * pairingEventJsonMax

def slotAt (m : Bytes) (i : Nat) : Bytes := slice m (slotOffset i) pairingEventJsonMax

def setQueueCount (b : Block queueSize) (n : Nat) : Option (Block queueSize) :=
  memcpy b 0 [UInt8.ofNat n]

def dropOldest (b : Block queueSize) : Option (Block queueSize) :=
  (memcpy b (slotOffset 0)
    (slice b.1 (slotOffset 1) ((pairingEventsMax - 1) * pairingEventJsonMax))).bind fun b' =>
      setQueueCount b' (queueCount b.1 - 1)

def queueBlob (b : Block queueSize) : Option Bytes :=
  if queueCount b.1 = 0 then none else some (b.1.take (slotOffset (queueCount b.1)))

def nvsLoadQueue (flash : Option Bytes) : Block queueSize :=
  let r := nvsGetBlob flash (List.replicate queueSize 0)
  if r.1 ≠ .ok ∨ pairingEventsMax < queueCount r.2.1 ∨ r.2.2 ≠ slotOffset (queueCount r.2.1) then
    .zero queueSize
  else .fit queueSize r.2.1

/-- `pairing_events_push` of a formatted text, which `snprintf` ends with a NUL; `none` when a
write leaves `s_q`. -/
def pushSlot (s : EventMem) (text : Bytes) : Option EventMem :=
  (if pairingEventsMax ≤ queueCount s.ram.1 then dropOldest s.ram else some s.ram).bind fun b =>
    (memcpy b (slotOffset (queueCount b.1)) (text ++ [0])).bind fun b' =>
      (setQueueCount b' (queueCount b.1 + 1)).map fun b => ⟨b, queueBlob b⟩

def popSlot (s : EventMem) : Option EventMem :=
  if 0 < queueCount s.ram.1 then
    (dropOldest s.ram).bind fun b =>
      (memcpy b (slotOffset (queueCount b.1)) (List.replicate pairingEventJsonMax 0)).map fun b =>
        ⟨b, queueBlob b⟩
  else some s

def peekSlot (s : EventMem) (outSize : Nat) : Option Bytes :=
  if 0 < queueCount s.ram.1 then some ((cstr (slotAt s.ram.1 0)).take (outSize - 1)) else none

def queueTexts (m : Bytes) : List Bytes :=
  (List.range (queueCount m)).map fun i => cstr (slotAt m i)

/-! ## What the bytes hold -/

structure HoldsTexts (m : Bytes) (texts : List Bytes) : Prop where
  count_eq : queueCount m = texts.length
  length_le : texts.length ≤ pairingEventsMax
  slot : ∀ i t, texts[i]? = some t → t ++ [0] <+: slotAt m i ∧ 0 ∉ t

section Bytes

variable {b b' : Block queueSize} {m : Bytes} {texts : List Bytes}

theorem HoldsTexts.texts_eq (h : HoldsTexts m texts) : queueTexts m = texts := by
  unfold queueTexts
  rw [h.count_eq]
  apply List.ext_getElem?
  intro i
  by_cases hi : i < texts.length
  · have ht : texts[i]? = some texts[i] := List.getElem?_eq_getElem hi
    obtain ⟨⟨rest, hrest⟩, hnul⟩ := h.slot i _ ht
    have hcstr : cstr (slotAt m i) = texts[i] := by
      rw [← hrest, List.append_assoc, List.singleton_append, cstr_append_zero, cstr_eq_self hnul]
    simp [hi, hcstr]
  · rw [List.getElem?_eq_none (by simpa using hi), List.getElem?_eq_none (by omega)]

theorem setQueueCount_eq (b : Block queueSize) {n : Nat} (hn : n ≤ pairingEventsMax) :
    ∃ b', setQueueCount b n = some b' ∧ queueCount b'.1 = n ∧
      ∀ i, slotAt b'.1 i = slotAt b.1 i := by
  have hroom : 0 + [UInt8.ofNat n].length ≤ queueSize := (by decide : 1 ≤ queueSize)
  obtain ⟨b', h⟩ := exists_memcpy b hroom
  refine ⟨b', h, ?_, fun i => slice_memcpy_of_disjoint h (Or.inr ?_)⟩
  · have hval := memcpy_val h
    have hn' : n < 256 := hn.trans_lt (by decide)
    rw [queueCount, hval]
    simpa using hn'
  · exact Nat.le_add_right_of_le (by decide : 1 ≤ queueHead)

theorem HoldsTexts.dropOldest (h : HoldsTexts b.1 texts) :
    ∃ b', CyThing.dropOldest b = some b' ∧ HoldsTexts b'.1 (texts.drop 1) := by
  have hmax : texts.length ≤ 8 := h.length_le
  have hdata : (slice b.1 260 1792).length = 1792 := length_slice (by rw [b.2]; decide)
  obtain ⟨b₁, h₁⟩ := exists_memcpy b (show 4 + (slice b.1 260 1792).length ≤ queueSize by
    rw [hdata]; decide)
  obtain ⟨b₂, h₂, hcount, hslot⟩ :=
    setQueueCount_eq b₁ (show queueCount b.1 - 1 ≤ 8 by rw [h.count_eq]; omega)
  have hdrop : CyThing.dropOldest b = some b₂ := by
    unfold CyThing.dropOldest
    exact (congrArg (Option.bind · _) h₁).trans h₂
  refine ⟨b₂, hdrop, ?_, ?_, fun i t ht => ?_⟩
  · rw [hcount, h.count_eq, List.length_drop]
  · rw [List.length_drop]
    exact (Nat.sub_le _ _).trans hmax
  · rw [List.getElem?_drop] at ht
    have hi : 1 + i < texts.length := (List.getElem?_eq_some_iff.mp ht).1
    have hin : i * 256 + 256 ≤ (slice b.1 260 1792).length := by
      rw [hdata]
      omega
    have hshift : slotAt b₂.1 i = slotAt b.1 (1 + i) := by
      rw [hslot]
      refine (slice_memcpy_within h₁ hin).trans ?_
      rw [slice_slice (by omega)]
      have hoff : 260 + i * 256 = 4 + (1 + i) * 256 := by omega
      rw [hoff]
      rfl
    rw [hshift]
    exact h.slot (1 + i) t ht

theorem HoldsTexts.append {text : Bytes} (h : HoldsTexts b.1 texts)
    (hroom : texts.length < pairingEventsMax) (htext : text.length < pairingEventJsonMax)
    (hnul : 0 ∉ text) :
    ∃ b₁ b₂, memcpy b (slotOffset (queueCount b.1)) (text ++ [0]) = some b₁ ∧
      setQueueCount b₁ (queueCount b.1 + 1) = some b₂ ∧ HoldsTexts b₂.1 (texts ++ [text]) := by
  have hroom' : texts.length < 8 := hroom
  have htext' : (text ++ [0]).length ≤ 256 := by
    rw [List.length_append, List.length_singleton]
    exact htext
  rw [h.count_eq]
  obtain ⟨b₁, h₁⟩ := exists_memcpy b
    (show 4 + texts.length * 256 + (text ++ [0]).length ≤ queueSize by
      have hsize : queueSize = 2052 := rfl
      omega)
  obtain ⟨b₂, h₂, hcount, hslot⟩ := setQueueCount_eq b₁ (show texts.length + 1 ≤ 8 by omega)
  refine ⟨b₁, b₂, h₁, h₂, ?_, ?_, fun i t ht => ?_⟩
  · rw [hcount, List.length_append, List.length_singleton]
  · rw [List.length_append, List.length_singleton]
    exact hroom
  · rw [hslot]
    rcases Nat.lt_trichotomy i texts.length with hi | rfl | hi
    · rw [List.getElem?_append_left hi] at ht
      have hkeep : slotAt b₁.1 i = slotAt b.1 i :=
        slice_memcpy_of_disjoint h₁ (Or.inl (show 4 + i * 256 + 256 ≤ 4 + texts.length * 256 by
          omega))
      rw [hkeep]
      exact h.slot i t ht
    · have hlast : t = text := by simpa using ht.symm
      subst hlast
      refine ⟨?_, hnul⟩
      have hwithin : slice b₁.1 (4 + texts.length * 256) (t ++ [0]).length = t ++ [0] := by
        refine (slice_memcpy_within h₁ (k := 0) (Nat.zero_add _).le).trans ?_
        simp [slice]
      rw [← hwithin]
      exact List.take_prefix_take_left htext'
    · rw [List.getElem?_eq_none (by simp; omega)] at ht
      cases ht

theorem HoldsTexts.congr {m' : Bytes} (h : HoldsTexts m texts)
    (htake : m'.take (slotOffset texts.length) = m.take (slotOffset texts.length)) :
    HoldsTexts m' texts := by
  have hpart : ∀ (x : Bytes) off len, off + len ≤ slotOffset texts.length →
      slice x off len = slice (x.take (slotOffset texts.length)) off len := by
    intro x off len hle
    rw [slice, slice, List.drop_take, List.take_take, Nat.min_eq_left (by omega)]
  have hhead : ∀ x : Bytes, queueCount x = queueCount (x.take (slotOffset texts.length)) := by
    intro x
    have hpos : 0 < slotOffset texts.length := Nat.add_pos_left (by decide) _
    simp only [queueCount, List.getD_eq_getElem?_getD, List.getElem?_take_of_lt hpos]
  refine ⟨?_, h.length_le, fun i t ht => ?_⟩
  · rw [hhead, htake, ← hhead, h.count_eq]
  · have hi : i < texts.length := (List.getElem?_eq_some_iff.mp ht).1
    have hend : slotOffset i + pairingEventJsonMax ≤ slotOffset texts.length := by
      show 4 + i * 256 + 256 ≤ 4 + texts.length * 256
      omega
    rw [slotAt, hpart m' _ _ hend, htake, ← hpart m _ _ hend]
    exact h.slot i t ht

theorem HoldsTexts.clear (h : HoldsTexts b.1 texts) (hroom : texts.length < pairingEventsMax) :
    ∃ b', memcpy b (slotOffset (queueCount b.1)) (List.replicate pairingEventJsonMax 0) =
        some b' ∧ HoldsTexts b'.1 texts := by
  have hroom' : texts.length < 8 := hroom
  rw [h.count_eq]
  obtain ⟨b', hcopy⟩ := exists_memcpy b (show 4 + texts.length * 256 +
      (List.replicate pairingEventJsonMax (0 : UInt8)).length ≤ queueSize by
    have hsize : queueSize = 2052 := rfl
    rw [List.length_replicate]
    show 4 + texts.length * 256 + 256 ≤ 2052
    omega)
  refine ⟨b', hcopy, h.congr ?_⟩
  exact take_memcpy_of_le hcopy (Nat.le_refl _)

/-! ## Flash -/

inductive FlashHolds : Option Bytes → List Bytes → Prop
  | erased : FlashHolds none []
  | blob {m : Bytes} {texts : List Bytes} (hne : texts ≠ []) (h : HoldsTexts m texts)
      (hlen : m.length = slotOffset texts.length) : FlashHolds (some m) texts

theorem HoldsTexts.queueBlob (h : HoldsTexts b.1 texts) :
    FlashHolds (CyThing.queueBlob b) texts := by
  unfold CyThing.queueBlob
  rw [h.count_eq]
  by_cases hne : texts = []
  · subst hne
    exact .erased
  · have hpos : texts.length ≠ 0 := fun h0 => hne (List.length_eq_zero_iff.mp h0)
    have hmax : texts.length ≤ 8 := h.length_le
    rw [if_neg hpos]
    refine .blob hne (h.congr ?_) ?_
    · rw [List.take_take, Nat.min_self]
    · rw [List.length_take, b.2]
      show min (4 + texts.length * 256) 2052 = 4 + texts.length * 256
      omega

theorem FlashHolds.load {flash : Option Bytes} (h : FlashHolds flash texts) :
    HoldsTexts (nvsLoadQueue flash).1 texts := by
  cases h with
  | erased => exact ⟨rfl, Nat.zero_le _, fun i t ht => by cases ht⟩
  | @blob m _ hne h hlen =>
    have hmax : texts.length ≤ 8 := h.length_le
    have hfits : m.length ≤ queueSize := by
      rw [hlen]
      show 4 + texts.length * 256 ≤ 2052
      omega
    have hread : nvsGetBlob (some m) (List.replicate queueSize 0) =
        (.ok, m ++ List.replicate (queueSize - m.length) 0, m.length) := by
      have hshort : ¬(List.replicate queueSize (0 : UInt8)).length < m.length := by
        rw [List.length_replicate]
        omega
      simp only [nvsGetBlob, if_neg hshort, List.drop_replicate]
    have hwhole : HoldsTexts (m ++ List.replicate (queueSize - m.length) 0) texts := by
      apply h.congr
      rw [← hlen, List.take_left, List.take_length]
    have hload : nvsLoadQueue (some m) =
        .fit queueSize (m ++ List.replicate (queueSize - m.length) 0) := by
      unfold nvsLoadQueue
      rw [hread]
      refine if_neg ?_
      dsimp only
      rw [hwhole.count_eq, not_or, not_or]
      exact ⟨not_not.mpr rfl, Nat.not_lt.mpr hmax, not_not.mpr hlen⟩
    rw [hload, Block.fit_val (by simp; omega)]
    apply hwhole.congr
    rw [List.take_append_of_le_length]
    rw [List.length_append, hlen]
    exact Nat.le_add_right _ _

end Bytes

/-! ## The operations -/

structure ShowsQueue (s : EventMem) (q : EventQueue) : Prop where
  ram : HoldsTexts s.ram.1 q.json
  flash : FlashHolds s.flash q.json
  nvs : q.nvs = if q.json = [] then none else some q.json

section Steps

variable {s : EventMem} {q : EventQueue}

theorem ShowsQueue.of_ram {b : Block queueSize} (h : HoldsTexts b.1 q.json) :
    ShowsQueue ⟨b, queueBlob b⟩ (q.store true) := by
  refine ⟨?_, ?_, ?_⟩
  · rw [EventQueue.store_json]
    exact h
  · rw [EventQueue.store_json]
    exact h.queueBlob
  · rw [EventQueue.store_json]
    rfl

theorem ShowsQueue.push (h : ShowsQueue s q) {unix : Nat} {event userSub role : Bytes}
    (hnul : 0 ∉ pairingEventJson event userSub role (unixOrZero unix)) :
    ∃ s', pushSlot s (pairingEventJson event userSub role (unixOrZero unix)) = some s' ∧
      ShowsQueue s' (pairingEventsPush q true unix event userSub role) := by
  have hlen : (pairingEventJson event userSub role (unixOrZero unix)).length <
      pairingEventJsonMax := Nat.lt_of_le_of_lt (List.length_take_le ..) (by decide)
  generalize htext : pairingEventJson event userSub role (unixOrZero unix) = text at hnul hlen
  have hpush : pairingEventsPush q true unix event userSub role =
      { q with json := offer pairingEventsMax q.json text }.store true := by
    rw [pairingEventsPush, htext]
    rfl
  rw [hpush]
  -- the queue that is left has room for one more
  obtain ⟨b, hb, hkept, hroom⟩ : ∃ b, (if pairingEventsMax ≤ queueCount s.ram.1 then
      dropOldest s.ram else some s.ram) = some b ∧ HoldsTexts b.1
        (if pairingEventsMax ≤ q.json.length then q.json.drop 1 else q.json) ∧
      (if pairingEventsMax ≤ q.json.length then q.json.drop 1 else q.json).length <
        pairingEventsMax := by
    rw [h.ram.count_eq]
    by_cases hfull : pairingEventsMax ≤ q.json.length
    · simp only [if_pos hfull]
      obtain ⟨b, hb, hkept⟩ := h.ram.dropOldest
      refine ⟨b, hb, hkept, ?_⟩
      have hmax := h.ram.length_le
      rw [List.length_drop]
      exact Nat.sub_lt_of_pos_le (by decide) (le_trans (by decide) hfull) |>.trans_le hmax
    · simp only [if_neg hfull]
      exact ⟨s.ram, rfl, h.ram, Nat.lt_of_not_le hfull⟩
  obtain ⟨b₁, b₂, h₁, h₂, hnew⟩ := hkept.append hroom hlen hnul
  refine ⟨⟨b₂, queueBlob b₂⟩, ?_, ShowsQueue.of_ram hnew⟩
  simp only [pushSlot, hb, h₁, h₂, Option.bind_some, Option.map_some]

theorem ShowsQueue.pop (h : ShowsQueue s q) :
    ∃ s', popSlot s = some s' ∧ ShowsQueue s' (pairingEventsPop q true) := by
  unfold popSlot pairingEventsPop
  rw [h.ram.count_eq]
  by_cases hne : q.json = []
  · rw [if_pos hne, if_neg (by rw [hne]; exact Nat.lt_irrefl 0)]
    exact ⟨s, rfl, h⟩
  · rw [if_neg hne, if_pos (List.length_pos_iff.mpr hne)]
    obtain ⟨b, hb, hkept⟩ := h.ram.dropOldest
    have hroom : (q.json.drop 1).length < pairingEventsMax := by
      rw [List.length_drop]
      exact (Nat.sub_lt (List.length_pos_iff.mpr hne) Nat.one_pos).trans_le h.ram.length_le
    obtain ⟨b', hb', hclear⟩ := hkept.clear hroom
    refine ⟨⟨b', queueBlob b'⟩, ?_, ShowsQueue.of_ram hclear⟩
    simp only [hb, hb', Option.bind_some, Option.map_some]

theorem ShowsQueue.init_eq (h : ShowsQueue s q) : pairingEventsInit q.nvs = q := by
  obtain ⟨json, nvs⟩ := q
  have hnvs : nvs = if json = [] then none else some json := h.nvs
  have hmax : json.length ≤ pairingEventsMax := h.ram.length_le
  by_cases hne : json = []
  · rw [if_pos hne] at hnvs
    subst hne hnvs
    rfl
  · rw [if_neg hne] at hnvs
    subst hnvs
    exact if_pos hmax

theorem ShowsQueue.reboot (h : ShowsQueue s q) :
    ShowsQueue ⟨nvsLoadQueue s.flash, s.flash⟩ (pairingEventsInit q.nvs) := by
  rw [h.init_eq]
  exact ⟨h.flash.load, h.flash, h.nvs⟩

end Steps

/-! ## Whole runs -/

inductive QueueOp
  | push (event userSub role : Bytes) (unix : Nat)
  | pop
  | peek (outSize : Nat)
  | reboot

def pushedText (event userSub role : Bytes) (unix : Nat) : Bytes :=
  pairingEventJson (cstr event) (cstr userSub) (cstr role) (unixOrZero unix)

def memStep (s : EventMem) : QueueOp → Option EventMem
  | .push event userSub role unix => pushSlot s (pushedText event userSub role unix)
  | .pop => popSlot s
  | .peek _ => some s
  | .reboot => some ⟨nvsLoadQueue s.flash, s.flash⟩

def queueStep (q : EventQueue) : QueueOp → EventQueue
  | .push event userSub role unix =>
    pairingEventsPush q true unix (cstr event) (cstr userSub) (cstr role)
  | .pop => pairingEventsPop q true
  | .peek _ => q
  | .reboot => pairingEventsInit q.nvs

theorem zero_notMem_cstr (b : Bytes) : 0 ∉ cstr b := by
  intro h
  have := List.mem_takeWhile_imp h
  simp at this

theorem zero_notMem_jsonEscapeFrom {text : Bytes} (h : 0 ∉ text) (size o : Nat) :
    0 ∉ jsonEscapeFrom size o text := by
  induction text generalizing o with
  | nil => exact List.not_mem_nil
  | cons c text ih =>
    rw [List.mem_cons, not_or] at h
    rw [jsonEscapeFrom]
    split_ifs
    · simp only [List.mem_cons, not_or]
      exact ⟨by decide, h.1, ih h.2 _⟩
    · simp only [List.mem_cons, not_or]
      exact ⟨h.1, ih h.2 _⟩
    · exact List.not_mem_nil

theorem zero_notMem_pushedText (event userSub role : Bytes) (unix : Nat) :
    0 ∉ pushedText event userSub role unix := by
  intro h
  have hall := List.mem_of_mem_take h
  have hescape : ∀ size (b : Bytes), 0 ∉ jsonEscape size (cstr b) := fun size b =>
    zero_notMem_jsonEscapeFrom (zero_notMem_cstr b) size 0
  have hdigits : 0 ∉ decimal (unixOrZero unix) := not_mem_decimal (by decide) _
  simp only [List.mem_append, hescape, hdigits, or_false] at hall
  revert hall
  decide

theorem ShowsQueue.step {s : EventMem} {q : EventQueue} (h : ShowsQueue s q) (op : QueueOp) :
    ∃ s', memStep s op = some s' ∧ ShowsQueue s' (queueStep q op) := by
  cases op with
  | push event userSub role unix => exact h.push (zero_notMem_pushedText event userSub role unix)
  | pop => exact h.pop
  | peek outSize => exact ⟨s, rfl, h⟩
  | reboot => exact ⟨_, rfl, h.reboot⟩

theorem showsQueue_fresh : ShowsQueue {} {} where
  ram := ⟨by decide +kernel, Nat.zero_le _, fun i t ht => by cases ht⟩
  flash := .erased
  nvs := rfl

theorem run_showsQueue (es : List QueueOp) :
    ∃ s, es.foldlM memStep {} = some s ∧ ShowsQueue s (run queueStep {} es) := by
  refine foldlM_induction (Q := fun es s => ShowsQueue s (run queueStep {} es))
    showsQueue_fresh ?_ es
  intro es u e _ hu
  obtain ⟨v, hv, hshows⟩ := hu.step e
  refine ⟨v, hv, ?_⟩
  rw [run_append]
  exact hshows

/-! ## The events of a run -/

def pushedTexts (es : List QueueOp) : List Bytes :=
  es.filterMap fun
    | .push event userSub role unix => some (pushedText event userSub role unix)
    | _ => none

def queuedAfter (n : Nat) : QueueOp → Nat
  | .push .. => min (n + 1) pairingEventsMax
  | .pop => n - 1
  | _ => n

def queued (es : List QueueOp) : Nat := es.foldl queuedAfter 0

/-- The events pushed and not yet popped, beside the queue that says which one a pop takes. -/
def unpoppedStep (x : EventQueue × List Bytes) (op : QueueOp) : EventQueue × List Bytes :=
  (queueStep x.1 op,
    match op with
    | .push event userSub role unix => x.2 ++ [pushedText event userSub role unix]
    | .pop => x.1.json.head?.elim x.2 x.2.erase
    | _ => x.2)

def unpopped (es : List QueueOp) : List Bytes := (es.foldl unpoppedStep ({}, [])).2

def NeverFull (es : List QueueOp) : Prop :=
  ∀ front event userSub role unix, front ++ [.push event userSub role unix] <+: es →
    queued front < pairingEventsMax

section Runs

variable {es : List QueueOp} {op : QueueOp}

theorem queued_concat (es : List QueueOp) (op : QueueOp) :
    queued (es ++ [op]) = queuedAfter (queued es) op := by
  simp [queued]

theorem pushedTexts_concat (es : List QueueOp) (op : QueueOp) :
    pushedTexts (es ++ [op]) = pushedTexts es ++ pushedTexts [op] :=
  List.filterMap_append ..

theorem queueStep_push_json (q : EventQueue) (event userSub role : Bytes) (unix : Nat) :
    (queueStep q (.push event userSub role unix)).json =
      offer pairingEventsMax q.json (pushedText event userSub role unix) :=
  pairingEventsPush_json q true unix (cstr event) (cstr userSub) (cstr role)

theorem queueStep_pop_json (q : EventQueue) : (queueStep q .pop).json = q.json.drop 1 :=
  pairingEventsPop_json q true

structure Recent (es : List QueueOp) (q : EventQueue) : Prop where
  suffix : q.json <:+ pushedTexts es
  length_eq : q.json.length = queued es
  length_le : q.json.length ≤ pairingEventsMax

theorem Recent.eq_drop {q : EventQueue} (h : Recent es q) :
    q.json = (pushedTexts es).drop ((pushedTexts es).length - queued es) := by
  rw [← h.length_eq]
  exact List.suffix_iff_eq_drop.mp h.suffix

theorem Recent.idle {q : EventQueue} (h : Recent es q) (hpushed : pushedTexts [op] = [])
    (hqueued : queuedAfter (queued es) op = queued es) : Recent (es ++ [op]) q where
  suffix := by
    rw [pushedTexts_concat, hpushed, List.append_nil]
    exact h.suffix
  length_eq := by
    rw [queued_concat, hqueued]
    exact h.length_eq
  length_le := h.length_le

theorem Recent.step {q : EventQueue} (h : Recent es q) (hinit : pairingEventsInit q.nvs = q)
    (op : QueueOp) : Recent (es ++ [op]) (queueStep q op) := by
  cases op with
  | push event userSub role unix =>
    have hlen := length_offer (by decide) h.length_le (pushedText event userSub role unix)
    refine ⟨?_, ?_, ?_⟩
    · rw [queueStep_push_json, pushedTexts_concat]
      exact offer_suffix h.suffix _ _
    · rw [queueStep_push_json, hlen, queued_concat, h.length_eq]
      rfl
    · rw [queueStep_push_json, hlen]
      exact Nat.min_le_right _ _
  | pop =>
    refine ⟨?_, ?_, ?_⟩
    · rw [queueStep_pop_json, pushedTexts_concat]
      show q.json.drop 1 <:+ pushedTexts es ++ []
      rw [List.append_nil]
      exact (List.drop_suffix 1 q.json).trans h.suffix
    · rw [queueStep_pop_json, List.length_drop, queued_concat, h.length_eq]
      rfl
    · rw [queueStep_pop_json, List.length_drop]
      exact (Nat.sub_le _ _).trans h.length_le
  | peek outSize => exact h.idle rfl rfl
  | reboot =>
    have hboot : queueStep q .reboot = q := hinit
    rw [hboot]
    exact h.idle rfl rfl

theorem recent_run (es : List QueueOp) : Recent es (run queueStep {} es) := by
  induction es using List.reverseRecOn with
  | nil => exact ⟨List.suffix_rfl, rfl, Nat.zero_le _⟩
  | append_singleton es op ih =>
    obtain ⟨s, -, hs⟩ := run_showsQueue es
    rw [run_append]
    exact ih.step hs.init_eq op

theorem unpopped_fst (es : List QueueOp) :
    (es.foldl unpoppedStep ({}, [])).1 = run queueStep {} es := by
  induction es using List.reverseRecOn with
  | nil => rfl
  | append_singleton es op ih =>
    rw [List.foldl_concat, run_append, ← ih]
    rfl

theorem unpopped_concat (es : List QueueOp) (op : QueueOp) :
    unpopped (es ++ [op]) = (unpoppedStep (run queueStep {} es, unpopped es) op).2 := by
  rw [← unpopped_fst, unpopped, List.foldl_concat]
  rfl

theorem unpopped_eq (h : NeverFull es) : (run queueStep {} es).json = unpopped es := by
  induction es using List.reverseRecOn with
  | nil => rfl
  | append_singleton es op ih =>
    have hes : NeverFull es := fun front event userSub role unix hfront =>
      h front event userSub role unix (hfront.trans (List.prefix_append ..))
    have hprev := ih hes
    obtain ⟨s, -, hs⟩ := run_showsQueue es
    have hrun : run queueStep {} (es ++ [op]) = queueStep (run queueStep {} es) op := by
      rw [run_append]
      rfl
    rw [unpopped_concat, hrun]
    cases op with
    | push event userSub role unix =>
      have hroom : (run queueStep {} es).json.length < pairingEventsMax := by
        rw [(recent_run es).length_eq]
        exact h es event userSub role unix List.prefix_rfl
      rw [queueStep_push_json, offer, if_neg (Nat.not_le.mpr hroom), hprev]
      rfl
    | pop =>
      rw [queueStep_pop_json]
      show (run queueStep {} es).json.drop 1 =
        (run queueStep {} es).json.head?.elim (unpopped es) (unpopped es).erase
      rw [hprev]
      -- the text a pop takes is the first of the list, so no equal one goes in its place
      cases unpopped es with
      | nil => rfl
      | cons t ts => exact (List.erase_cons_head t ts).symm
    | peek outSize => exact hprev
    | reboot => exact (congrArg EventQueue.json hs.init_eq).trans hprev

end Runs

theorem HoldsTexts.peek {s : EventMem} {texts : List Bytes} (h : HoldsTexts s.ram.1 texts)
    {outSize : Nat} (hsize : pairingEventJsonMax ≤ outSize) :
    peekSlot s outSize = texts.head? := by
  unfold peekSlot
  rw [h.count_eq]
  cases texts with
  | nil => rfl
  | cons t ts =>
    obtain ⟨hslot, hnul⟩ := h.slot 0 t rfl
    have hlen : t.length + 1 ≤ 256 := by
      have hle := hslot.length_le
      rw [List.length_append, List.length_singleton] at hle
      exact hle.trans (List.length_take_le ..)
    obtain ⟨rest, hrest⟩ := hslot
    rw [if_pos (List.length_pos_of_ne_nil (List.cons_ne_nil t ts)), ← hrest, List.append_assoc,
      List.singleton_append, cstr_append_zero, cstr_eq_self hnul]
    have hsize' : 256 ≤ outSize := hsize
    rw [List.take_of_length_le (by omega)]
    rfl

/-- In every run the bytes of `s_q` hold the most recent events pushed, in their order and as
many as wait; an event that a push into a full queue drops does not come back when a pop makes
room again. The oldest is what a peek reads, and loading the blob gives the same queue. -/
theorem event_queue_recent (es : List QueueOp) :
    ∃ s, es.foldlM memStep {} = some s ∧
      queueTexts s.ram.1 = (pushedTexts es).drop ((pushedTexts es).length - queued es) ∧
      queueCount s.ram.1 = queued es ∧ queued es ≤ pairingEventsMax ∧
      (NeverFull es → queueTexts s.ram.1 = unpopped es) ∧
      (∀ outSize, pairingEventJsonMax ≤ outSize →
        peekSlot s outSize = (queueTexts s.ram.1).head?) ∧
      ∃ s', memStep s .reboot = some s' ∧ queueTexts s'.ram.1 = queueTexts s.ram.1 := by
  obtain ⟨s, hs, hshows⟩ := run_showsQueue es
  have hrecent := recent_run es
  have htexts := hshows.ram.texts_eq
  refine ⟨s, hs, ?_, ?_, ?_, fun hfull => ?_, fun outSize hsize => ?_, ?_⟩
  · rw [htexts, ← hrecent.eq_drop]
  · rw [hshows.ram.count_eq, hrecent.length_eq]
  · rw [← hrecent.length_eq]
    exact hrecent.length_le
  · rw [htexts, unpopped_eq hfull]
  · rw [htexts, hshows.ram.peek hsize]
  · obtain ⟨s', hs', hshows'⟩ := hshows.step .reboot
    refine ⟨s', hs', ?_⟩
    rw [hshows'.ram.texts_eq, htexts]
    exact congrArg EventQueue.json hshows.init_eq

namespace Sample

def nineThenPop : List QueueOp :=
  (List.range 9).map (fun i => .push (ascii "paired") (ascii "sub") (ascii "user") (1700000000 + i))
    ++ [.pop]

/-- The first event was never popped, and of the last eight such events seven are queued. -/
theorem dropped_event_not_queued :
    ∃ s, nineThenPop.foldlM memStep {} = some s ∧ (unpopped nineThenPop).length = 8 ∧
      queueTexts s.ram.1 ≠
        (unpopped nineThenPop).drop ((unpopped nineThenPop).length - pairingEventsMax) := by
  obtain ⟨s, hs, hshows⟩ := run_showsQueue nineThenPop
  refine ⟨s, hs, by decide +kernel, fun heq => ?_⟩
  rw [hshows.ram.texts_eq] at heq
  have hlen := congrArg List.length heq
  revert hlen
  decide +kernel

end Sample

end CyThing
