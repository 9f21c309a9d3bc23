import CyThing.Security.PairingEvents
import CyThing.Lib.SlotTable
import CyThing.Lib.Trace

/-! The way of a pairing event to the broker: TCP tasks push, `aws_iot_task` peeks, publishes
and pops (`aws/aws_iot_handler`), and a publish waits in `outgoingPublishPackets` for its
PUBACK. -/

namespace CyThing
open CLib Trace SlotTable

/-! ## The table of outgoing publishes -/

abbrev maxOutgoingPublishes : Nat := 5

/-- The buffer a publish points to; a resend reads it again. -/
inductive PayloadRef
  | null
  | pairingEventBuf
  | other
  deriving DecidableEq

/-- `PublishPackets_t`; packet id 0 marks a free slot. `serial` is the event, if the publish
is of one. -/
structure OutgoingPublish where
  packetId : Nat := 0
  payload : PayloadRef := .null
  dup : Bool := false
  serial : Option Nat := none
  deriving DecidableEq

abbrev OutgoingPublishes := Fin maxOutgoingPublishes → OutgoingPublish

def cleanupOutgoingPublishes : OutgoingPublishes := fun _ => {}

def cleanupOutgoingPublishAt (t : OutgoingPublishes) (i : Fin maxOutgoingPublishes) :
    OutgoingPublishes := Function.update t i {}

def getNextFreeIndexForOutgoingPublishes (t : OutgoingPublishes) :
    Option (Fin maxOutgoingPublishes) := findSlot t fun o => o.packetId == 0

/-- `publishToTopic`: whether it succeeds, and the table. `packetId` is what
`MQTT_GetPacketId` gives; `MQTT_Publish` never accepts id 0 for QoS1. -/
def publishToTopic (t : OutgoingPublishes) (packetId : Nat) (accepted : Bool)
    (payload : PayloadRef) (serial : Option Nat) : Bool × OutgoingPublishes :=
  match getNextFreeIndexForOutgoingPublishes t with
  | none => (false, t)
  | some i =>
    let t := Function.update t i ⟨packetId, payload, false, serial⟩
    if accepted && packetId != 0 then (true, t) else (false, cleanupOutgoingPublishAt t i)

def handlePublishResend (t : OutgoingPublishes) : OutgoingPublishes :=
  fun i => if (t i).packetId = 0 then t i else { t i with dup := true }

/-! ## The system -/

inductive UplinkPoint
  | idle
  | peeked (serial : Nat)
  | published (serial : Nat)
  deriving DecidableEq

inductive Departure
  | overflow (serial : Nat) (json : Bytes)
  | popped (serial : Nat) (json : Bytes) (published : Nat) (payload : Bytes)
  deriving DecidableEq

/-- Events are numbered as they come, and `arrivals` lists them all. The first `gone` of them
have left the queue, so the number of its head is `gone`. -/
structure Uplink where
  queue : EventQueue
  buf : Bytes := []
  point : UplinkPoint := .idle
  table : OutgoingPublishes := cleanupOutgoingPublishes
  clientSessionPresent : Bool := false
  isConnectedToServer : Bool := false
  arrivals : List Bytes
  gone : Nat := 0
  departures : List Departure := []
  acked : List Nat := []

inductive UplinkEvent
  | push (storeOk : Bool) (unix : Nat) (event userSub role : Bytes)
  | peek
  | publish (packetId : Nat) (accepted : Bool)
  | pop (storeOk : Bool)
  /-- Any other publish of the task: responses, device information. -/
  | publishOther (packetId : Nat) (accepted : Bool)
  | puback (packetId : Nat)
  /-- The connection is lost and the outer loop of `aws_iot_task` starts over. -/
  | restart
  /-- The broker is reached; `session` is whether it still has a session to offer. -/
  | connect (session : Bool)
  deriving DecidableEq

def EventQueue.full (q : EventQueue) : Bool := decide (pairingEventsMax ≤ q.json.length)

def Uplink.push (u : Uplink) (storeOk : Bool) (unix : Nat) (event userSub role : Bytes) :
    Uplink :=
  let u' := { u with
    queue := pairingEventsPush u.queue storeOk unix event userSub role
    arrivals := u.arrivals ++ [pairingEventJson event userSub role (unixOrZero unix)] }
  if u.queue.full then
    { u' with
      gone := u.gone + 1
      departures := u.departures ++ [.overflow u.gone (u.queue.json.headD [])] }
  else u'

def Uplink.peek (u : Uplink) : Uplink :=
  if u.point = .idle ∧ u.isConnectedToServer = true then
    match pairingEventsPeek u.queue with
    | some text => { u with buf := text, point := .peeked u.gone }
    | none => u
  else u

def Uplink.publish (u : Uplink) (packetId : Nat) (accepted : Bool) : Uplink :=
  match u.point with
  | .peeked serial =>
    match publishToTopic u.table packetId accepted .pairingEventBuf (some serial) with
    | (true, t) => { u with table := t, point := .published serial }
    | (false, t) => { u with table := t, point := .idle }
  | _ => u

def Uplink.pop (u : Uplink) (storeOk : Bool) : Uplink :=
  match u.point with
  | .published serial =>
    match u.queue.json with
    | [] => { u with point := .idle }
    | j :: _ =>
      { u with
        queue := pairingEventsPop u.queue storeOk
        point := .idle
        gone := u.gone + 1
        departures := u.departures ++ [.popped u.gone j serial u.buf] }
  | _ => u

def Uplink.publishOther (u : Uplink) (packetId : Nat) (accepted : Bool) : Uplink :=
  if u.point = .idle ∧ u.isConnectedToServer = true then
    { u with table := (publishToTopic u.table packetId accepted .other none).2 }
  else u

def Uplink.puback (u : Uplink) (packetId : Nat) : Uplink :=
  if u.point = .idle then
    match findSlot u.table fun o => o.packetId == packetId with
    | some i =>
      { u with
        table := cleanupOutgoingPublishAt u.table i
        acked := u.acked ++ (u.table i).serial.toList }
    | none => u
  else u

def Uplink.restart (u : Uplink) : Uplink :=
  if u.point = .idle then
    { u with
      table := cleanupOutgoingPublishes
      clientSessionPresent := false
      isConnectedToServer := false }
  else u

def Uplink.connect (u : Uplink) (session : Bool) : Uplink :=
  if u.isConnectedToServer then u
  else
    let createCleanSession := !u.clientSessionPresent
    let brokerSessionPresent := session && !createCleanSession
    { u with
      clientSessionPresent := true
      isConnectedToServer := true
      table :=
        if brokerSessionPresent then handlePublishResend u.table else cleanupOutgoingPublishes }

def uplinkStep (u : Uplink) : UplinkEvent → Uplink
  | .push storeOk unix event userSub role => u.push storeOk unix event userSub role
  | .peek => u.peek
  | .publish packetId accepted => u.publish packetId accepted
  | .pop storeOk => u.pop storeOk
  | .publishOther packetId accepted => u.publishOther packetId accepted
  | .puback packetId => u.puback packetId
  | .restart => u.restart
  | .connect session => u.connect session

def Uplink.boot (q : EventQueue) : Uplink := { queue := q, arrivals := q.json }

/-! ## The event popped is the event published -/

def UplinkPoint.serial? : UplinkPoint → Option Nat
  | .idle => none
  | .peeked serial => some serial
  | .published serial => some serial

def Uplink.Heads (u : Uplink) (serial : Nat) : Prop :=
  serial = u.gone ∧ ∃ j, u.queue.json.head? = some j ∧ u.buf = peekText j

def Uplink.PopsPublished (u : Uplink) : Prop :=
  ∀ serial j published payload, .popped serial j published payload ∈ u.departures →
    published = serial ∧ payload = peekText j

structure Uplink.Accounted (u : Uplink) : Prop where
  queued : u.queue.json = u.arrivals.drop u.gone
  departed : ∀ k < u.gone, ∃ j, u.arrivals[k]? = some j ∧
    (.overflow k j ∈ u.departures ∨ .popped k j k (peekText j) ∈ u.departures)

structure Uplink.InStep (u : Uplink) : Prop extends u.Accounted where
  heads : ∀ serial, u.point.serial? = some serial → u.Heads serial
  pops : u.PopsPublished

def UplinkEvent.isPush : UplinkEvent → Bool
  | .push .. => true
  | _ => false

def HeadSpared (t : Step Uplink UplinkEvent) : Prop :=
  t.before.point ≠ .idle → t.before.queue.full = true → t.event.isPush = false

instance (t : Step Uplink UplinkEvent) : Decidable (HeadSpared t) :=
  inferInstanceAs (Decidable (_ → _ → _))

section InStep

variable {u u' : Uplink}

theorem Uplink.InStep.head (h : u.InStep) {j : Bytes} (hj : u.queue.json.head? = some j) :
    u.arrivals[u.gone]? = some j := by
  rwa [h.queued, List.head?_drop] at hj

theorem Uplink.InStep.gone_le (h : u.InStep) : u.gone ≤ u.arrivals.length := by
  rcases Nat.eq_zero_or_pos u.gone with h0 | hpos
  · omega
  · obtain ⟨j, hj, -⟩ := h.departed (u.gone - 1) (by omega)
    have := (List.getElem?_eq_some_iff.mp hj).1
    omega

theorem Uplink.InStep.keep (h : u.InStep) (hq : u'.queue = u.queue) (hb : u'.buf = u.buf)
    (ha : u'.arrivals = u.arrivals) (hg : u'.gone = u.gone) (hd : u'.departures = u.departures)
    (hp : ∀ serial, u'.point.serial? = some serial → u.point.serial? = some serial) :
    u'.InStep where
  queued := by rw [hq, ha, hg, h.queued]
  departed := by
    rw [ha, hg, hd]
    exact h.departed
  heads serial hs := by
    rw [Uplink.Heads, hq, hb, hg]
    exact h.heads serial (hp serial hs)
  pops := by
    rw [Uplink.PopsPublished, hd]
    exact h.pops

theorem Uplink.InStep.depart (h : u.InStep) {j : Bytes} (hj : u.queue.json.head? = some j)
    {d : Departure} (hd : d = .overflow u.gone j ∨ d = .popped u.gone j u.gone (peekText j)) :
    ∀ k < u.gone + 1, ∃ j, u.arrivals[k]? = some j ∧
      (.overflow k j ∈ u.departures ++ [d] ∨
        .popped k j k (peekText j) ∈ u.departures ++ [d]) := by
  intro k hk
  rcases Nat.lt_succ_iff_lt_or_eq.mp hk with hk | rfl
  · obtain ⟨j', hj', hm⟩ := h.departed k hk
    exact ⟨j', hj', hm.imp (List.mem_append_left _) (List.mem_append_left _)⟩
  · refine ⟨j, h.head hj, ?_⟩
    rcases hd with rfl | rfl
    · exact Or.inl (by simp)
    · exact Or.inr (by simp)

theorem Uplink.InStep.push (h : u.InStep) (storeOk : Bool) (unix : Nat)
    (event userSub role : Bytes) (hspared : u.point ≠ .idle → u.queue.full = false) :
    (u.push storeOk unix event userSub role).InStep := by
  have hjson := pairingEventsPush_json u.queue storeOk unix event userSub role
  -- what has departed does not depend on how many arrive later
  have hlonger (y : Bytes) {k : Nat} {j : Bytes} (hk : u.arrivals[k]? = some j) :
      (u.arrivals ++ [y])[k]? = some j := by
    rw [List.getElem?_append_left (List.getElem?_eq_some_iff.mp hk).1, hk]
  cases hfull : u.queue.full with
  | true =>
    have hidle : u.point = .idle := by
      by_contra hne
      rw [hspared hne] at hfull
      cases hfull
    have hroom : pairingEventsMax ≤ u.queue.json.length := of_decide_eq_true hfull
    obtain ⟨j, rest, hcons⟩ : ∃ j rest, u.queue.json = j :: rest :=
      List.exists_cons_of_length_pos (Nat.lt_of_lt_of_le (by decide) hroom)
    have hhead : u.queue.json.head? = some j := by rw [hcons]; rfl
    have hlt : u.gone < u.arrivals.length := (List.getElem?_eq_some_iff.mp (h.head hhead)).1
    simp only [Uplink.push, hfull, ite_true]
    constructor
    · constructor
      · rw [hjson, if_pos hroom, List.drop_append_of_le_length hlt, h.queued, List.drop_drop]
      · intro k hk
        obtain ⟨j', hj', hm⟩ := h.depart hhead (.inl rfl) k hk
        exact ⟨j', hlonger _ hj', by rwa [hcons]⟩
    · intro serial hs
      rw [hidle] at hs
      cases hs
    · intro serial j published payload hm
      rcases List.mem_append.mp hm with hm | hm
      · exact h.pops serial j published payload hm
      · cases List.mem_singleton.mp hm
  | false =>
    have hroom : ¬ pairingEventsMax ≤ u.queue.json.length := of_decide_eq_false hfull
    simp only [Uplink.push, hfull, Bool.false_eq_true, ite_false]
    constructor
    · constructor
      · rw [hjson, if_neg hroom, List.drop_append_of_le_length h.gone_le, h.queued]
      · intro k hk
        obtain ⟨j', hj', hm⟩ := h.departed k hk
        exact ⟨j', hlonger _ hj', hm⟩
    · intro serial hs
      obtain ⟨hgone, head, hhead, hbuf⟩ := h.heads serial hs
      refine ⟨hgone, head, ?_, hbuf⟩
      rw [hjson, if_neg hroom, List.head?_append, hhead]
      rfl
    · exact h.pops

theorem Uplink.InStep.peek (h : u.InStep) : u.peek.InStep := by
  unfold Uplink.peek
  split
  · cases hhead : u.queue.json.head? with
    | none => simpa only [pairingEventsPeek, hhead, Option.map_none] using h
    | some j =>
      simp only [pairingEventsPeek, hhead, Option.map_some]
      exact ⟨⟨h.queued, h.departed⟩, fun serial hs => ⟨(Option.some.inj hs).symm, j, hhead, rfl⟩,
        h.pops⟩
  · exact h

theorem Uplink.InStep.publish (h : u.InStep) (packetId : Nat) (accepted : Bool) :
    (u.publish packetId accepted).InStep := by
  unfold Uplink.publish
  split
  · next serial hpoint =>
    split
    · exact h.keep rfl rfl rfl rfl rfl fun s hs => by rw [hpoint]; exact hs
    · exact h.keep rfl rfl rfl rfl rfl fun s hs => by cases hs
  · exact h

theorem Uplink.InStep.pop (h : u.InStep) (storeOk : Bool) : (u.pop storeOk).InStep := by
  unfold Uplink.pop
  split
  · next serial hpoint =>
    obtain ⟨hgone, head, hhead, hbuf⟩ := h.heads serial (by rw [hpoint]; rfl)
    split
    · exact h.keep rfl rfl rfl rfl rfl fun s hs => by cases hs
    · next j rest hjson =>
      have hj : head = j := by
        rw [hjson] at hhead
        exact (Option.some.inj hhead).symm
      subst hj hgone
      rw [hbuf]
      constructor
      · constructor
        · simp only [pairingEventsPop_json, h.queued, List.drop_drop]
        · exact h.depart hhead (.inr rfl)
      · intro s hs
        cases hs
      · intro s j' published payload hm
        rcases List.mem_append.mp hm with hm | hm
        · exact h.pops s j' published payload hm
        · cases List.mem_singleton.mp hm
          exact ⟨rfl, rfl⟩
  · exact h

theorem uplinkStep_inStep {e : UplinkEvent} (h : u.InStep)
    (hspared : HeadSpared ⟨u, e, uplinkStep u e⟩) : (uplinkStep u e).InStep := by
  cases e with
  | push storeOk unix event userSub role =>
    refine h.push storeOk unix event userSub role fun hne => ?_
    cases hfull : u.queue.full with
    | false => rfl
    | true => cases hspared hne hfull
  | peek => exact h.peek
  | publish packetId accepted => exact h.publish packetId accepted
  | pop storeOk => exact h.pop storeOk
  | publishOther packetId accepted =>
    simp only [uplinkStep, Uplink.publishOther]
    split
    · exact h.keep rfl rfl rfl rfl rfl fun _ hs => hs
    · exact h
  | puback packetId =>
    simp only [uplinkStep, Uplink.puback]
    split
    · split
      · exact h.keep rfl rfl rfl rfl rfl fun _ hs => hs
      · exact h
    · exact h
  | restart =>
    simp only [uplinkStep, Uplink.restart]
    split
    · exact h.keep rfl rfl rfl rfl rfl fun _ hs => hs
    · exact h
  | connect session =>
    simp only [uplinkStep, Uplink.connect]
    split
    · exact h
    · exact h.keep rfl rfl rfl rfl rfl fun _ hs => hs

end InStep

theorem boot_inStep (q : EventQueue) : (Uplink.boot q).InStep where
  queued := rfl
  departed k hk := absurd hk (Nat.not_lt_zero k)
  heads _ hs := by cases hs
  pops _ _ _ _ hm := by cases hm

/-- From any queue, in every run in which no push meets a full queue between a peek and its
pop: each pop removes the very event that was peeked and published, and every event that is
not queued any more left by its own publish or by an overflow. -/
theorem pop_removes_published (q : EventQueue) (es : List UplinkEvent)
    (hspared : ∀ t ∈ trace uplinkStep (.boot q) es, HeadSpared t) :
    (run uplinkStep (.boot q) es).PopsPublished ∧ (run uplinkStep (.boot q) es).Accounted := by
  have h : (run uplinkStep (.boot q) es).InStep :=
    trace_induction (Q := fun _ u => Uplink.InStep u) (boot_inStep q)
      (fun _ _ _ h hok => uplinkStep_inStep h hok) es hspared
  exact ⟨h.pops, h.toAccounted⟩

def uplinkRun : List UplinkEvent :=
  [.connect false, .peek, .push true 0 (ascii "enroll") (ascii "u") (ascii "user"),
    .publish 1 true, .pop true]

theorem pop_removes_published_one :
    (run uplinkStep (.boot ⟨[ascii "first"], none⟩) uplinkRun).gone = 1 ∧
      (run uplinkStep (.boot ⟨[ascii "first"], none⟩) uplinkRun).PopsPublished ∧
      (run uplinkStep (.boot ⟨[ascii "first"], none⟩) uplinkRun).Accounted :=
  ⟨by decide +kernel, pop_removes_published ⟨[ascii "first"], none⟩ uplinkRun (by decide +kernel)⟩

def fullQueue : EventQueue := ⟨(List.range 8).map decimal, none⟩

/-- On a full queue the same push drops the head that was published, and the pop then removes
the next event, which never was. -/
theorem pop_removes_unpublished :
    .popped 1 (decimal 1) 0 (decimal 0) ∈
        (run uplinkStep (.boot fullQueue) uplinkRun).departures ∧
      ¬ (run uplinkStep (.boot fullQueue) uplinkRun).PopsPublished := by
  have hpop : .popped 1 (decimal 1) 0 (decimal 0) ∈
      (run uplinkStep (.boot fullQueue) uplinkRun).departures := by decide +kernel
  exact ⟨hpop, fun h => absurd (h 1 (decimal 1) 0 (decimal 0) hpop).1 (by decide)⟩

/-! ## A popped event is acknowledged or held for a resend -/

def Departure.popped? : Departure → Option Nat
  | .overflow .. => none
  | .popped serial .. => some serial

def Uplink.Settled (u : Uplink) : Prop :=
  ∀ d ∈ u.departures, ∀ serial ∈ d.popped?, serial ∈ u.acked

instance (u : Uplink) : Decidable u.Settled :=
  inferInstanceAs (Decidable (∀ d ∈ u.departures, ∀ serial ∈ d.popped?, serial ∈ u.acked))

def Uplink.Resendable (u : Uplink) (serial : Nat) (j : Bytes) : Prop :=
  ∃ i, (u.table i).packetId ≠ 0 ∧ (u.table i).serial = some serial ∧
    (u.table i).payload = .pairingEventBuf ∧ u.buf = peekText j

instance (u : Uplink) (serial : Nat) (j : Bytes) : Decidable (u.Resendable serial j) :=
  inferInstanceAs (Decidable (∃ i, (u.table i).packetId ≠ 0 ∧ (u.table i).serial = some serial ∧
    (u.table i).payload = .pairingEventBuf ∧ u.buf = peekText j))

def Uplink.LosesNone (u : Uplink) : Prop :=
  ∀ serial j published payload, .popped serial j published payload ∈ u.departures →
    serial ∈ u.acked ∨ u.Resendable serial j

/-- A peek that puts another text into the buffer and a new round of the outer loop wait for the
PUBACK of what was popped. -/
def AckAwaited (t : Step Uplink UplinkEvent) : Prop :=
  HeadSpared t ∧
    (t.event = .peek ∧ t.after.buf ≠ t.before.buf ∨ t.event = .restart → t.before.Settled)

instance (t : Step Uplink UplinkEvent) : Decidable (AckAwaited t) :=
  inferInstanceAs (Decidable (_ ∧ _))

structure Uplink.Kept (u : Uplink) : Prop where
  none_lost : u.LosesNone
  offline : u.isConnectedToServer = false → u.Settled
  online : u.point ≠ .idle → u.isConnectedToServer = true
  sent : ∀ serial, u.point = .published serial → ∃ i, (u.table i).packetId ≠ 0 ∧
    (u.table i).serial = some serial ∧ (u.table i).payload = .pairingEventBuf

section Table

variable {t : OutgoingPublishes} {packetId : Nat} {accepted : Bool} {payload : PayloadRef}
  {serial : Option Nat}

theorem publishToTopic_keeps {i : Fin maxOutgoingPublishes} (hi : (t i).packetId ≠ 0) :
    (publishToTopic t packetId accepted payload serial).2 i = t i := by
  -- a publish takes a free slot, and what waits for a PUBACK has an id
  unfold publishToTopic
  split
  · rfl
  · next k hk =>
    have hfree : (t k).packetId = 0 := by simpa using findSlot_spec hk
    have hne : i ≠ k := by
      rintro rfl
      exact hi hfree
    split
    · exact Function.update_of_ne hne _ _
    · simp only [cleanupOutgoingPublishAt, Function.update_of_ne hne]

theorem publishToTopic_accepted {t' : OutgoingPublishes}
    (h : publishToTopic t packetId accepted payload serial = (true, t')) :
    ∃ i, t' i = ⟨packetId, payload, false, serial⟩ ∧ packetId ≠ 0 := by
  unfold publishToTopic at h
  split at h
  · cases h
  · next k hk =>
    split at h
    · next hok =>
      cases h
      simp only [Bool.and_eq_true, bne_iff_ne] at hok
      exact ⟨k, Function.update_self _ _ _, hok.2⟩
    · cases h

end Table

section Kept

variable {u u' : Uplink}

def SamePops (u u' : Uplink) : Prop :=
  ∀ serial j published payload, .popped serial j published payload ∈ u'.departures →
    .popped serial j published payload ∈ u.departures

theorem Uplink.Settled.losesNone (h : u.Settled) : u.LosesNone :=
  fun serial _ _ _ hm => Or.inl (h _ hm serial rfl)

theorem Uplink.Settled.mono (h : u.Settled) (hd : SamePops u u')
    (hack : ∀ serial ∈ u.acked, serial ∈ u'.acked) : u'.Settled := by
  intro d hm serial hs
  cases d with
  | overflow => cases hs
  | popped s j published payload =>
    have hs : s = serial := Option.some.inj hs
    subst hs
    exact hack s (h _ (hd s j published payload hm) s rfl)

theorem Uplink.LosesNone.mono (h : u.LosesNone) (hd : SamePops u u')
    (hack : ∀ serial ∈ u.acked, serial ∈ u'.acked)
    (hres : ∀ serial j, u.Resendable serial j → serial ∈ u'.acked ∨ u'.Resendable serial j) :
    u'.LosesNone := by
  intro serial j published payload hm
  rcases h serial j published payload (hd serial j published payload hm) with ha | hr
  · exact Or.inl (hack serial ha)
  · exact hres serial j hr

theorem Uplink.Resendable.mono {serial : Nat} {j : Bytes} (h : u.Resendable serial j)
    (hbuf : u'.buf = u.buf) (ht : ∀ i, (u.table i).packetId ≠ 0 → u'.table i = u.table i) :
    u'.Resendable serial j := by
  obtain ⟨i, hid, hs, hp, hb⟩ := h
  refine ⟨i, ?_⟩
  rw [ht i hid, hbuf]
  exact ⟨hid, hs, hp, hb⟩

theorem Uplink.Kept.push (h : u.Kept) (storeOk : Bool) (unix : Nat)
    (event userSub role : Bytes) : (u.push storeOk unix event userSub role).Kept := by
  have hd : SamePops u (u.push storeOk unix event userSub role) := by
    intro serial j published payload hm
    unfold Uplink.push at hm
    split at hm
    · rcases List.mem_append.mp hm with hm | hm
      · exact hm
      · cases List.mem_singleton.mp hm
    · exact hm
  unfold Uplink.push at hd ⊢
  split at hd
  · next hfull =>
    simp only [hfull, ite_true]
    exact ⟨h.none_lost.mono hd (fun _ hs => hs) fun _ _ hr => Or.inr hr,
      fun ho => (h.offline ho).mono hd fun _ hs => hs, h.online, h.sent⟩
  · next hfull =>
    simp only [hfull, Bool.false_eq_true, ite_false]
    exact ⟨h.none_lost.mono hd (fun _ hs => hs) fun _ _ hr => Or.inr hr,
      fun ho => (h.offline ho).mono hd fun _ hs => hs, h.online, h.sent⟩

theorem Uplink.Kept.peek (h : u.Kept) (hset : u.peek.buf ≠ u.buf → u.Settled) :
    u.peek.Kept := by
  unfold Uplink.peek at hset ⊢
  split
  · next hidle =>
    rw [if_pos hidle] at hset
    split
    · next text htext =>
      simp only [htext] at hset
      refine ⟨?_, fun ho => ?_, fun _ => hidle.2, fun _ hs => (by cases hs)⟩
      · by_cases hbuf : text = u.buf
        · exact h.none_lost.mono (fun _ _ _ _ hm => hm) (fun _ hs => hs) fun _ _ hr =>
            Or.inr (hr.mono hbuf fun _ _ => rfl)
        · exact Uplink.Settled.losesNone (hset hbuf)
      · exact absurd (hidle.2.symm.trans ho) (by simp)
    · exact h
  · exact h

theorem Uplink.Kept.publish (h : u.Kept) (packetId : Nat) (accepted : Bool) :
    (u.publish packetId accepted).Kept := by
  unfold Uplink.publish
  split
  · next serial hpoint =>
    have hkeeps : ∀ i, (u.table i).packetId ≠ 0 →
        (publishToTopic u.table packetId accepted .pairingEventBuf (some serial)).2 i =
          u.table i := fun i hi => publishToTopic_keeps hi
    have honline : u.isConnectedToServer = true := h.online (by rw [hpoint]; rintro ⟨⟩)
    split
    · next t ht =>
      rw [ht] at hkeeps
      refine ⟨h.none_lost.mono (fun _ _ _ _ hm => hm) (fun _ hs => hs) fun s j hr =>
        Or.inr (hr.mono rfl hkeeps), fun ho => h.offline ho, fun _ => honline, fun s hs => ?_⟩
      obtain ⟨i, hi, hid⟩ := publishToTopic_accepted ht
      cases hs
      refine ⟨i, ?_⟩
      simp only [hi]
      exact ⟨hid, trivial, trivial⟩
    · next t ht =>
      rw [ht] at hkeeps
      exact ⟨h.none_lost.mono (fun _ _ _ _ hm => hm) (fun _ hs => hs) fun s j hr =>
        Or.inr (hr.mono rfl hkeeps), fun ho => h.offline ho, fun hne => absurd rfl hne,
        fun s hs => (by cases hs)⟩
  · exact h

theorem Uplink.Kept.pop (h : u.Kept) (hin : u.InStep) (storeOk : Bool) :
    (u.pop storeOk).Kept := by
  -- what is popped was published from the buffer before, so the table holds it
  unfold Uplink.pop
  split
  · next serial hpoint =>
    obtain ⟨hgone, head, hhead, hbuf⟩ := hin.heads serial (by rw [hpoint]; rfl)
    have honline : u.isConnectedToServer = true := h.online (by rw [hpoint]; rintro ⟨⟩)
    split
    · exact ⟨h.none_lost, h.offline, fun hne => absurd rfl hne, fun s hs => (by cases hs)⟩
    · next j rest hjson =>
      have hj : head = j := by
        rw [hjson] at hhead
        exact (Option.some.inj hhead).symm
      obtain ⟨i, hid, hser, hpay⟩ := h.sent serial hpoint
      refine ⟨fun s j' published payload hm => ?_, fun ho => ?_, fun hne => absurd rfl hne,
        fun s hs => (by cases hs)⟩
      · rcases List.mem_append.mp hm with hm | hm
        · exact h.none_lost s j' published payload hm
        · cases List.mem_singleton.mp hm
          exact Or.inr ⟨i, hid, hgone ▸ hser, hpay, hj ▸ hbuf⟩
      · rw [honline] at ho
        cases ho
  · exact h

theorem Uplink.Kept.publishOther (h : u.Kept) (packetId : Nat) (accepted : Bool) :
    (u.publishOther packetId accepted).Kept := by
  unfold Uplink.publishOther
  split
  · next hidle =>
    refine ⟨h.none_lost.mono (fun _ _ _ _ hm => hm) (fun _ hs => hs) fun s j hr =>
      Or.inr (hr.mono rfl fun i hi => publishToTopic_keeps hi), h.offline, h.online,
      fun s hs => ?_⟩
    rw [hidle.1] at hs
    cases hs
  · exact h

theorem Uplink.Kept.puback (h : u.Kept) (packetId : Nat) : (u.puback packetId).Kept := by
  unfold Uplink.puback
  split
  · next hidle =>
    split
    · next k hk =>
      have hack : ∀ s ∈ u.acked, s ∈ u.acked ++ (u.table k).serial.toList :=
        fun s hs => List.mem_append_left _ hs
      refine ⟨h.none_lost.mono (fun _ _ _ _ hm => hm) hack fun s j hr => ?_,
        fun ho => (h.offline ho).mono (fun _ _ _ _ hm => hm) hack, h.online, fun s hs => ?_⟩
      · obtain ⟨i, hid, hser, hpay, hbuf⟩ := hr
        by_cases hik : i = k
        · subst hik
          exact Or.inl (List.mem_append_right _ (by simp [hser]))
        · refine Or.inr ⟨i, ?_⟩
          simp only [cleanupOutgoingPublishAt, Function.update_of_ne hik]
          exact ⟨hid, hser, hpay, hbuf⟩
      · rw [hidle] at hs
        cases hs
    · exact h
  · exact h

theorem Uplink.Kept.restart (h : u.Kept) (hset : u.Settled) : u.restart.Kept := by
  unfold Uplink.restart
  split
  · next hidle =>
    refine ⟨Uplink.Settled.losesNone hset, fun _ => hset, fun hne => absurd hidle hne,
      fun s hs => ?_⟩
    rw [hidle] at hs
    cases hs
  · exact h

theorem Uplink.Kept.connect (h : u.Kept) (session : Bool) : (u.connect session).Kept := by
  unfold Uplink.connect
  split
  · exact h
  · next hoff =>
    have hoff : u.isConnectedToServer = false := by simpa using hoff
    have hset := h.offline hoff
    refine ⟨Uplink.Settled.losesNone hset, fun _ => hset, fun _ => rfl, fun s hs => ?_⟩
    have hne : u.point ≠ .idle := by
      intro hidle
      rw [hidle] at hs
      cases hs
    rw [h.online hne] at hoff
    cases hoff

theorem uplinkStep_kept {e : UplinkEvent} (h : u.Kept) (hin : u.InStep)
    (hok : AckAwaited ⟨u, e, uplinkStep u e⟩) : (uplinkStep u e).Kept := by
  cases e with
  | push storeOk unix event userSub role => exact h.push storeOk unix event userSub role
  | peek => exact h.peek fun hbuf => hok.2 (.inl ⟨rfl, hbuf⟩)
  | publish packetId accepted => exact h.publish packetId accepted
  | pop storeOk => exact h.pop hin storeOk
  | publishOther packetId accepted => exact h.publishOther packetId accepted
  | puback packetId => exact h.puback packetId
  | restart => exact h.restart (hok.2 (.inr rfl))
  | connect session => exact h.connect session

end Kept

theorem boot_kept (q : EventQueue) : (Uplink.boot q).Kept where
  none_lost _ _ _ _ hm := by cases hm
  offline _ _ hm := by cases hm
  online hne := absurd rfl hne
  sent _ hs := by cases hs

/-- In every run in which the task waits for the PUBACK of what it popped before it peeks at
another event and before its outer loop starts over, and no push meets a full queue between a
peek and its pop: an event whose publish coreMQTT accepted is still queued until it is popped,
and then acknowledged or held for a resend with its own text. -/
theorem accepted_event_never_lost (q : EventQueue) (es : List UplinkEvent)
    (hok : ∀ t ∈ trace uplinkStep (.boot q) es, AckAwaited t) :
    (run uplinkStep (.boot q) es).LosesNone ∧
      ∀ serial, (run uplinkStep (.boot q) es).point = .published serial →
        (run uplinkStep (.boot q) es).Heads serial := by
  have h : (run uplinkStep (.boot q) es).InStep ∧ (run uplinkStep (.boot q) es).Kept :=
    trace_induction (Q := fun _ u => Uplink.InStep u ∧ Uplink.Kept u)
      ⟨boot_inStep q, boot_kept q⟩
      (fun _ _ _ h hok => ⟨uplinkStep_inStep h.1 hok.1, uplinkStep_kept h.2 h.1 hok⟩) es hok
  exact ⟨h.2.none_lost, fun serial hs => h.1.heads serial (by rw [hs]; rfl)⟩

def twoQueued : EventQueue := ⟨[ascii "first", ascii "second"], none⟩

def patientRun : List UplinkEvent :=
  [.connect false, .peek, .publish 1 true, .pop true, .puback 1, .peek, .publish 2 true,
    .pop true, .peek]

theorem accepted_event_never_lost_two :
    (run uplinkStep (.boot twoQueued) patientRun).gone = 2 ∧
      (run uplinkStep (.boot twoQueued) patientRun).LosesNone :=
  ⟨by decide +kernel, (accepted_event_never_lost twoQueued patientRun (by decide +kernel)).1⟩

/-- The link drops between the pop and the PUBACK: the loop clears the table before it
connects, so the event is in neither place. With a second peek instead, its publish is left
pointing at the text of the next event. -/
theorem popped_event_lost :
    ¬ (run uplinkStep (.boot twoQueued)
        [.connect false, .peek, .publish 1 true, .pop true, .restart, .connect true]).LosesNone ∧
      ¬ (run uplinkStep (.boot twoQueued)
        [.connect false, .peek, .publish 1 true, .pop true, .peek]).LosesNone := by
  have hlost {u : Uplink} (hm : .popped 0 (ascii "first") 0 (ascii "first") ∈ u.departures)
      (hacked : u.acked = []) (hres : ¬ u.Resendable 0 (ascii "first")) : ¬ u.LosesNone := by
    intro h
    rcases h _ _ _ _ hm with ha | hr
    · rw [hacked] at ha
      cases ha
    · exact hres hr
  exact ⟨hlost (by decide +kernel) (by decide +kernel) (by decide +kernel),
    hlost (by decide +kernel) (by decide +kernel) (by decide +kernel)⟩

end CyThing
