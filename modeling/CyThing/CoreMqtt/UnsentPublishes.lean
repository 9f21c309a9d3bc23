import Mathlib.Data.List.Perm.Subperm
import CyThing.CoreMqtt.Delivery

/-! A publish that could not be sent keeps its record: within a session every failed send leaves
room for one publish less. -/

namespace CyThing.CoreMqtt
open CLib OrderedSlots Trace Simulation

/-! ## Records that wait to be sent -/

section Stuck

variable {m n : Nat} {x : Exchanges m n} {r : PubAckInfo}

def PubAckInfo.unsent (r : PubAckInfo) : Bool := r.publishState = .publishSend

theorem awaits_unsent (h : r.unsent) : r.awaits = .publish r.packetId .send r.qos := by
  rw [PubAckInfo.awaits, of_decide_eq_true h]

theorem unsent_stays (hpath : ∀ side : Side, side.OnPath (x.on side)) (hr : r ∈ x.on .sender)
    (hunsent : r.unsent) (calls : List EngineCall) (hclear : .clear ∉ calls)
    (hsent : .publish r.packetId .send r.qos ∉ calls) :
    r ∈ (run (advance Exchanges.step) x calls).on .sender := by
  induction calls generalizing x with
  | nil => exact hr
  | cons call calls ih =>
    rw [List.mem_cons, not_or] at hclear hsent
    refine ih (fun side => (step_keeps hpath call side).on_path) ?_ hclear.2 hsent.2
    rcases (step_keeps hpath call .sender).goes_on r hr with hstays | hend | ⟨hsend, -⟩
    · exact hstays
    · exact absurd hend.symm hclear.1
    · exact absurd (hsend.trans (awaits_unsent hunsent)).symm hsent.1

theorem nodup_on (x : Exchanges m n) (side : Side) : (x.on side).Nodup := by
  cases side with
  | sender => exact x.outgoing.nodup.of_map _
  | receiver => exact x.incoming.nodup.of_map _

def Exchanges.unsent (x : Exchanges m n) : Nat := (x.on .sender).countP PubAckInfo.unsent

theorem unsent_le {x' : Exchanges m n}
    (h : ∀ r ∈ x.on .sender, r.unsent → r ∈ x'.on .sender) : x.unsent ≤ x'.unsent := by
  rw [Exchanges.unsent, Exchanges.unsent, List.countP_eq_length_filter,
    List.countP_eq_length_filter]
  refine (List.Nodup.subperm ((nodup_on x .sender).filter _) fun r hr => ?_).length_le
  obtain ⟨hmem, hunsent⟩ := List.mem_filter.mp hr
  exact List.mem_filter.mpr ⟨h r hmem hunsent, hunsent⟩

end Stuck

/-! ## Events -/

section Events

variable {m n : Nat} {v v' : View} {x : Exchanges m n}

structure Stands (v : View) (x : Exchanges m n) : Prop where
  refines : Refines v.records x
  on_path : ∀ side : Side, side.OnPath (x.on side)

theorem Stands.event (hm : 0 < m) (hn : 0 < n) (h : Stands v x) (e : Event) :
    Stands (v.step m n e) (run (advance Exchanges.step) x e.engineCalls) :=
  ⟨((engineStep_simulates hm hn).run h.refines e.engineCalls).2, onPath_run h.on_path _⟩

def LogEntry.isUnsent : LogEntry → Bool
  | .unsent _ _ => true
  | _ => false

theorem unsent_event (hm : 0 < m) (hn : 0 < n) (h : Stands v x) {e : Event}
    (hallowed : e.Allowed m n ⟨False, False⟩ v) :
    x.unsent + e.entry.toList.countP LogEntry.isUnsent ≤
      (run (advance Exchanges.step) x e.engineCalls).unsent := by
  -- a publish that is sent has a packet id of its own, so it moves no unsent record; one that is
  -- not sent leaves a record more
  have hstays (hclear : .clear ∉ e.engineCalls)
      (hsent : ∀ r ∈ x.on .sender, .publish r.packetId .send r.qos ∉ e.engineCalls) :
      x.unsent ≤ (run (advance Exchanges.step) x e.engineCalls).unsent :=
    unsent_le fun r hr hunsent => unsent_stays h.on_path hr hunsent _ hclear (hsent r hr)
  cases e with
  | cleared => exact hallowed.elim
  | unsent packetId qos bytes =>
    have hafter := (View.Reserves.fresh hm hn h.refines hallowed id).2
    show _ ≤ Exchanges.unsent (x.step (.reserve packetId qos)).2
    rw [Exchanges.unsent, Exchanges.unsent, hafter, List.countP_append]
    exact Nat.le_refl _
  | published packetId qos bytes =>
    have hfresh := (View.Reserves.fresh hm hn h.refines hallowed id).1
    exact hstays (by simp [Event.engineCalls])
      fun r hr => by simp [Event.engineCalls, hfresh r hr]
  | _ => exact hstays (by simp [Event.engineCalls]) fun r _ => by simp [Event.engineCalls]

def UnsentKept (m n : Nat) (v : View) : Prop :=
  ∃ x : Exchanges m n, Stands v x ∧ v.log.countP LogEntry.isUnsent ≤ x.unsent

theorem Explained.unsentKept (hm : 0 < m) (hn : 0 < n) {events : List Event}
    (h : Explained m n ⟨False, False⟩ v events v') (hv : UnsentKept m n v) :
    UnsentKept m n v' := by
  refine h.keeps hv ?_
  rintro u e ⟨x, hstands, hcount⟩ hallowed
  refine ⟨_, hstands.event hm hn e, ?_⟩
  rw [View.step, List.countP_append]
  exact (Nat.add_le_add_right hcount _).trans (unsent_event hm hn hstands hallowed)

end Events

/-! ## Calls -/

def failedPublish (app : AppCall → List PublishInfo) (t : Step Context ClientCall) : Bool :=
  match t.event with
  | .request (.publish publishInfo _) =>
    decide (publishInfo.qos ≠ .qos0 ∧ (clientStep app t.before t.event).1 = .sendFailed)
  | _ => false

section Calls

variable {app : AppCall → List PublishInfo} {m n : Nat}

theorem clientStep_without_resends
    (happ : ∀ call, ∀ publishInfo ∈ app call, publishInfo.dup = false) (c : Context)
    {call : ClientCall} (hcall : call.dup = false) :
    ∃ events, Explained m n ⟨False, False⟩ c.view events (clientStep app c call).2.view := by
  refine clientStep_explained (fun call publishInfo hmem hdup => ?_) c call fun hdup => ?_
  · rw [happ call publishInfo hmem] at hdup
    cases hdup
  · rw [hcall] at hdup
    cases hdup

theorem unsent_logged {c : Context} {call : ClientCall} {events : List Event} {scope : Scope}
    (h : Explained m n scope c.view events (clientStep app c call).2.view) :
    c.log.countP LogEntry.isUnsent +
        [Step.mk c call (clientStep app c call).2].countP (failedPublish app) ≤
      (clientStep app c call).2.log.countP LogEntry.isUnsent := by
  rw [List.countP_singleton]
  split
  next hfailed =>
    cases call with
    | request request =>
      cases request with
      | publish publishInfo packetId =>
        obtain ⟨hqos, hstatus⟩ := of_decide_eq_true hfailed
        have hlog : (clientStep app c (.request (.publish publishInfo packetId))).2.log = _ :=
          (log_mqttPublish c hqos packetId).2 hstatus
        rw [hlog, List.countP_append]
        exact Nat.le_refl _
      | _ => cases hfailed
    | _ => cases hfailed
  next =>
    have hlog : (clientStep app c call).2.log = c.log ++ _ := h.log_eq
    rw [hlog, List.countP_append]
    omega

/-- Within a session, and without publishes sent again under their packet id: the publishes whose
sending failed and those that await an acknowledgement share the outgoing records. After as many
failed sends as there are records no publish of QoS 1 or 2 is sent any more. -/
theorem failed_sends_use_up_records (app : AppCall → List PublishInfo)
    (happ : ∀ call, ∀ publishInfo ∈ app call, publishInfo.dup = false) {m n : Nat}
    (hm : 0 < m) (hn : 0 < n) {c : Context} (hfresh : c.Fresh m n)
    (calls : List ClientCall) (hcalls : ∀ call ∈ calls, call.dup = false) :
    let c' := run (advance (clientStep app)) c calls
    (trace (advance (clientStep app)) c calls).countP (failedPublish app) ≤
        c'.log.countP LogEntry.isUnsent ∧
      c'.log.countP LogEntry.isUnsent +
        (live PubAckInfo.free c'.publishRecords.outgoing).countP (fun r => !r.unsent) ≤ m := by
  have hdup : ∀ t ∈ trace (advance (clientStep app)) c calls, t.event.dup = false := by
    intro t ht
    obtain ⟨pre, post, rfl, -⟩ := mem_trace ht
    exact hcalls _ (by simp)
  obtain ⟨⟨x, hstands, hkept⟩, hlogged⟩ :
      UnsentKept m n (run (advance (clientStep app)) c calls).view ∧
      (trace (advance (clientStep app)) c calls).countP (failedPublish app) ≤
        (run (advance (clientStep app)) c calls).log.countP LogEntry.isUnsent := by
    refine trace_induction (Q := fun tr c' => UnsentKept m n c'.view ∧
      tr.countP (failedPublish app) ≤ c'.log.countP LogEntry.isUnsent)
      ⟨⟨Exchanges.none m n, ⟨?_, onPath_none m n⟩, ?_⟩, Nat.zero_le _⟩ ?_ calls hdup
    · show Refines c.publishRecords _
      rw [hfresh.records]
      exact clearRecords_refines m n
    · show c.log.countP _ ≤ _
      rw [hfresh.log]
      exact Nat.zero_le _
    · rintro tr c' call ⟨hkept, hlogged⟩ hcall
      obtain ⟨events, hevents⟩ := clientStep_without_resends happ c' hcall
      refine ⟨hevents.unsentKept hm hn hkept, ?_⟩
      rw [List.countP_append]
      exact (Nat.add_le_add_right hlogged _).trans (unsent_logged hevents)
  refine ⟨hlogged, ?_⟩
  have hlive := hstands.refines.live_records .sender
  have hlength := List.length_eq_countP_add_countP PubAckInfo.unsent (l := x.on .sender)
  have hroom : (x.on .sender).length ≤ m := x.outgoing.length_le
  show List.countP _ (run (advance (clientStep app)) c calls).view.log +
    (live PubAckInfo.free (Side.sender.records
      (run (advance (clientStep app)) c calls).view.records)).countP _ ≤ m
  rw [hlive]
  rw [Exchanges.unsent] at hkept
  simp only [Bool.not_eq_true, Bool.decide_eq_false] at hlength
  omega

end Calls

theorem failed_sends_use_up_records_sample :
    let c := { sampleContext [] with writes := [-1, 20, 20, 20, 20] }
    let publish (packetId : UInt16) : ClientCall :=
      .request (.publish ⟨.qos1, false, false, ⟨[97], length_sampleTopic⟩, []⟩ packetId)
    let calls := [publish 1, publish 2, publish 3]
    let c' := run (advance (clientStep fun _ => [])) c calls
    (trace (advance (clientStep fun _ => [])) c calls).countP (failedPublish fun _ => []) = 1 ∧
      1 ≤ c'.log.countP LogEntry.isUnsent ∧ c'.log = [.unsent 1 .qos1, .published 2 .qos1] ∧
      c'.log.countP LogEntry.isUnsent +
        (live PubAckInfo.free c'.publishRecords.outgoing).countP (fun r => !r.unsent) ≤ 2 := by
  intro c publish calls
  have hdup : ∀ call ∈ calls, call.dup = false := by
    intro call hcall
    simp only [calls, List.mem_cons, List.not_mem_nil, or_false] at hcall
    rcases hcall with rfl | rfl | rfl <;> rfl
  have hfresh : c.Fresh 2 2 := ⟨rfl, rfl, rfl⟩
  have hrun := failed_sends_use_up_records (fun _ => []) (fun _ _ h => absurd h List.not_mem_nil)
    (by decide) (by decide) hfresh calls hdup
  have hfailed : (trace (advance (clientStep fun _ => [])) c calls).countP
      (failedPublish fun _ => []) = 1 := by decide +kernel
  exact ⟨hfailed, hfailed.symm.trans_le hrun.1, by decide +kernel, hrun.2⟩

end CyThing.CoreMqtt
