import CyThing.SendTask
import CyThing.TcpServer.Delivery

/-! The replies of the device take the path of `Delivery`: every run of the link, with whole
lines and the single steps of the send task, is a run of the delivery model with the same client
list, the same buffers and the same line in hand. -/

namespace CyThing
open CLib Trace

def Link.inHand (l : Link) : Option (Nat × Bytes) :=
  match l.world.broadcast, l.point with
  | none, .routed dst payload _ => some (dst, payload)
  | none, .locking _ dst payload _ => some (dst, payload)
  | _, _ => none

structure Mirrors (l : Link) (s : Delivery) : Prop where
  accounts : s.accounts = l.world.accounts
  fifo : s.fifo = l.world.tcpFifo
  staging : s.staging = l.world.staging
  broadcast : s.broadcast = l.world.broadcast
  hand : s.hand = l.inHand

def World.queues (w : World) : List Nat × Bytes × Bytes × Option Broadcast :=
  (w.accounts, w.tcpFifo, w.staging, w.broadcast)

/-! ## What leaves the queues alone -/

section Queues

variable {P : Platform} {T : Set Slot} {w w' : World}

theorem queues_encFrameSeal (i : Slot) (sock : Nat) (plain : Bytes) :
    (encFrameSeal P w i sock plain).queues = w.queues := by
  simp only [encFrameSeal]
  split <;> rfl

theorem queues_encFrameSend (sock : Nat) (payload : Bytes) :
    (encFrameSend P w sock payload).queues = w.queues := by
  simp only [encFrameSend]
  split
  · rfl
  split_ifs
  · rfl
  · rfl
  · exact queues_encFrameSeal ..

theorem Edits.queues (h : Edits P T w w') : w'.queues = w.queues := by
  induction h with
  | refl => rfl
  | sessions h hp ih => exact ih
  | setPw h ih | setList h ih | pushEvent h ih | discoveryMode h ih | send h ih => exact ih
  | frame h ih => exact (queues_encFrameSend ..).trans ih

theorem Handled.queues (h : Handled P T w w') : w'.queues = w.queues := by
  cases h with
  | edits h => exact h.queues
  | settled h => exact h.queues

theorem queues_encFrameUnwrap (sock : Nat) (bytes : Bytes) :
    (encFrameUnwrap P w sock bytes).2.queues = w.queues := by
  have hu := encFrameUnwrap_unwrapped P w sock bytes
  generalize encFrameUnwrap P w sock bytes = r at hu
  cases hu with
  | stray | plain | refused | opened => rfl

end Queues

/-! ## Steps -/

section Steps

variable {P : Platform} {w w' : World} {point : SendPoint} {s : Delivery}

theorem Mirrors.of_queues (h : Mirrors ⟨w, point⟩ s) (hq : w'.queues = w.queues) :
    Mirrors ⟨w', point⟩ s := by
  obtain ⟨haccounts, hfifo, hstaging, hbroadcast⟩ : w'.accounts = w.accounts ∧
      w'.tcpFifo = w.tcpFifo ∧ w'.staging = w.staging ∧ w'.broadcast = w.broadcast := by
    simpa only [World.queues, Prod.mk.injEq] using hq
  refine ⟨?_, ?_, ?_, ?_, ?_⟩
  · exact h.accounts.trans haccounts.symm
  · exact h.fifo.trans hfifo.symm
  · exact h.staging.trans hstaging.symm
  · exact h.broadcast.trans hbroadcast.symm
  · rw [h.hand, Link.inHand, Link.inHand, hbroadcast]

theorem Mirrors.push (h : Mirrors ⟨w, point⟩ s) (sock : Int) (line text : Bytes) :
    Mirrors ⟨{ w with tcpFifo := responseFifoPush w.tcpFifo line }, point⟩
      (s.push sock line text) := by
  refine ⟨h.accounts, ?_, h.staging, h.broadcast, h.hand⟩
  rw [Delivery.push, h.fifo]

def replyEvent (w : World) : AppReply → DeliveryEvent
  | .data sock data => .data sock (updateResponseId w.responseId) data
  | .raw sock text => .raw sock text

theorem Mirrors.reply (h : Mirrors ⟨w, point⟩ s) (r : AppReply) :
    Mirrors ⟨w.appReply r, point⟩ (deliveryStep s (replyEvent w r)) := by
  cases r with
  | data sock data =>
    have hpush := h.push sock (dataLine sock (updateResponseId w.responseId) data)
      (decimal (updateResponseId w.responseId) ++ ascii ":" ++ responseData data)
    refine hpush.of_queues ?_
    simp only [World.appReply, World.sendData]
    split_ifs
    · split <;> rfl
    · rfl
  | raw sock text => exact h.push sock (rawLine sock text) text

theorem Mirrors.outer {sock : Nat} {line : Bytes} (h : Mirrors ⟨w, point⟩ s)
    (ho : Outer sock line w w') : ∃ es, Mirrors ⟨w', point⟩ (run deliveryStep s es) := by
  induction ho with
  | refl => exact ⟨[], h⟩
  | enter ho ih | prov ho ih | pairing ho ih | ota ho ih | send ho ih =>
    obtain ⟨es, hes⟩ := ih
    exact ⟨es, hes.of_queues rfl⟩
  | @reply x r ho ih =>
    obtain ⟨es, hes⟩ := ih
    refine ⟨es ++ [replyEvent x r], ?_⟩
    rw [run_append]
    exact hes.reply r

theorem Mirrors.line (h : Mirrors ⟨w, point⟩ s) (sock : Nat) (bytes : Bytes) (env : Env) :
    ∃ es, Mirrors ⟨handleLine P env w sock bytes, point⟩ (run deliveryStep s es) := by
  have hunwrap : (encFrameUnwrap P w sock bytes).2.queues = w.queues :=
    queues_encFrameUnwrap sock bytes
  rw [handleLine]
  rcases hu : encFrameUnwrap P w sock bytes with ⟨_ | line, x⟩
  · rw [hu] at hunwrap
    exact ⟨[], h.of_queues hunwrap⟩
  · rw [hu] at hunwrap
    have hx : Mirrors ⟨x, point⟩ s := h.of_queues hunwrap
    have hcases := tcpDispatchLine_cases P env x sock line
    simp only
    generalize tcpDispatchLine P env x sock line = w' at hcases
    cases hcases with
    | refused => exact ⟨[], hx.of_queues rfl⟩
    | outer => exact hx.outer (outer_dispatchBehindPolicy P env x sock line)
    | noSession => exact ⟨[], hx.of_queues (Edits.refl (T := ∅)).err.queues⟩
    | @handled i =>
      exact ⟨[], hx.of_queues (handled_handleKind P env x i sock line (lineKind line)).queues⟩

theorem Mirrors.accept (h : Mirrors ⟨w, point⟩ s) (sock : Nat) (peerIp : UInt32)
    (taskOk : Bool) :
    ∃ es, Mirrors ⟨acceptConnection w sock peerIp taskOk, point⟩ (run deliveryStep s es) := by
  simp only [acceptConnection]
  by_cases hheld : (localSessionFind w.pool sock).isSome = true
  · rw [if_pos hheld]
    exact ⟨[], h⟩
  rw [if_neg hheld]
  by_cases hfull : tcpClientMax ≤ localSessionCount w.pool ∧
      localSessionShutdownPeer w.pool peerIp = 0
  · rw [if_pos hfull]
    exact ⟨[], h⟩
  rw [if_neg hfull]
  rcases ha : addAccount w.accounts sock with _ | accounts
  · exact ⟨[], h⟩
  have hopen : Mirrors ⟨w, point⟩ (deliveryStep s (.accept sock)) := by
    rw [deliveryStep]
    split_ifs
    · exact h
    · exact ⟨h.accounts, h.fifo, h.staging, h.broadcast, h.hand⟩
  have hadd : Mirrors ⟨{ w with accounts := accounts }, point⟩
      (run deliveryStep s [.accept sock, .addAccount sock]) := by
    refine ⟨?_, hopen.fifo, hopen.staging, hopen.broadcast, hopen.hand⟩
    change (addAccount (deliveryStep s (.accept sock)).accounts sock).getD
      (deliveryStep s (.accept sock)).accounts = accounts
    rw [hopen.accounts, ha]
    rfl
  have hundone : Mirrors ⟨{ w with accounts := removeAccount accounts sock }, point⟩
      (run deliveryStep s [.accept sock, .addAccount sock, .removeAccount sock, .close sock]) :=
    ⟨congrArg (removeAccount · sock) hadd.accounts, hadd.fifo, hadd.staging, hadd.broadcast,
      hadd.hand⟩
  rcases localSessionAcquire w.pool sock peerIp with ⟨_ | i, pool⟩
  · exact ⟨_, hundone⟩
  · cases taskOk with
    | true => exact ⟨_, hadd.of_queues rfl⟩
    | false => exact ⟨_, hundone.of_queues rfl⟩

theorem Mirrors.close (h : Mirrors ⟨w, point⟩ s) (sock : Nat) :
    Mirrors ⟨closeConnection w sock, point⟩
      (run deliveryStep s [.removeAccount sock, .close sock]) :=
  ⟨congrArg (removeAccount · sock) h.accounts, h.fifo, h.staging, h.broadcast, h.hand⟩

theorem inHand_idle (w : World) : Link.inHand ⟨w, .idle⟩ = none := by
  rcases hb : w.broadcast with _ | b <;> simp only [Link.inHand, hb]

theorem Mirrors.sendRoute (h : Mirrors ⟨w, .idle⟩ s) :
    Mirrors ⟨(sendRoute w).1, (sendRoute w).2⟩ (deliveryStep s .send) := by
  obtain ⟨accounts, fifo, staging, broadcast, hand, holder, conns, accepted, delivered⟩ := s
  obtain ⟨rfl, rfl, rfl, rfl, rfl⟩ := h
  simp only [deliveryStep, inHand_idle]
  rcases hb : w.broadcast with _ | b
  · by_cases hempty : w.staging = []
    · simp only [CyThing.sendRoute, Delivery.route, hb, if_pos hempty]
      exact ⟨rfl, rfl, rfl, rfl, rfl⟩
    · simp only [CyThing.sendRoute, Delivery.route, hb, if_neg hempty]
      rcases routeOf (nextLine w.staging).1 with _ | ⟨target, payload⟩
      · exact ⟨rfl, rfl, rfl, rfl, rfl⟩
      · simp only
        split_ifs
        · exact ⟨rfl, rfl, rfl, rfl, rfl⟩
        · exact ⟨rfl, rfl, rfl, rfl, rfl⟩
        · exact ⟨rfl, rfl, rfl, rfl, rfl⟩
  · rcases ha : w.accounts[b.next]? with _ | dst
    · have hend : ¬b.next < w.accounts.length := by simpa using ha
      simp only [CyThing.sendRoute, Delivery.route, hb, ha, if_neg hend]
      exact ⟨rfl, rfl, rfl, rfl, rfl⟩
    · have hin : b.next < w.accounts.length := (List.getElem?_eq_some_iff.mp ha).1
      simp only [CyThing.sendRoute, Delivery.route, hb, ha, if_pos hin]
      split_ifs
      · exact ⟨rfl, rfl, rfl, rfl, rfl⟩
      · exact ⟨rfl, rfl, rfl, rfl, rfl⟩

theorem queues_sendLookup (w : World) (dst : Nat) (payload : Bytes) (toAll : Bool) :
    (sendLookup w dst payload toAll).1.queues = w.queues := by
  unfold sendLookup
  repeat' split
  all_goals rfl

theorem queues_sendLocked (w : World) (i : Slot) (dst : Nat) (payload : Bytes) :
    (sendLocked P w i dst payload).queues = w.queues := by
  unfold sendLocked
  split_ifs
  · exact queues_encFrameSeal ..
  · rfl

theorem sendStep_client (hpoint : point ≠ .idle) :
    (sendStep P w point).1.queues = w.queues ∧
      ((sendStep P w point).2 = .idle ∨
        ∀ x : World, Link.inHand ⟨x, (sendStep P w point).2⟩ = Link.inHand ⟨x, point⟩) := by
  cases point with
  | idle => exact absurd rfl hpoint
  | routed dst payload toAll =>
    refine ⟨queues_sendLookup w dst payload toAll, ?_⟩
    simp only [sendStep]
    unfold sendLookup
    repeat' split
    · exact Or.inl rfl
    · exact Or.inl rfl
    · exact Or.inl rfl
    · refine Or.inr fun x => ?_
      rcases hb : x.broadcast with _ | b <;> simp only [Link.inHand, hb]
  | locking i dst payload toAll => exact ⟨queues_sendLocked w i dst payload, Or.inl rfl⟩

/-- The step of the send task in the delivery model: with a line for one client in hand it
counts as sent when bytes leave. -/
def sendEvents (P : Platform) (l : Link) : List DeliveryEvent :=
  let l' := linkStep P l .send
  if l.point = .idle then [.send]
  else if l.inHand = none ∨ l'.point ≠ .idle then []
  else if l'.world.out = l.world.out then [.giveUp] else [.send]

theorem Mirrors.send {l : Link} (h : Mirrors l s) :
    Mirrors (linkStep P l .send) (run deliveryStep s (sendEvents P l)) := by
  obtain ⟨w, point⟩ := l
  by_cases hpoint : point = .idle
  · subst hpoint
    exact h.sendRoute
  obtain ⟨hq, hnext⟩ : (sendStep P w point).1.queues = w.queues ∧ _ := sendStep_client hpoint
  have hkept : Mirrors ⟨(sendStep P w point).1, point⟩ s := h.of_queues hq
  by_cases hstay : (linkStep P ⟨w, point⟩ .send).point = .idle
  · -- the client is done with
    have hidle : (linkStep P ⟨w, point⟩ .send).inHand = none := by
      have hlink : linkStep P ⟨w, point⟩ .send = ⟨(sendStep P w point).1, .idle⟩ := by
        rw [← hstay]
        rfl
      rw [hlink, inHand_idle]
    rcases hhand : Link.inHand ⟨w, point⟩ with _ | ⟨dst, payload⟩
    · have hevents : sendEvents P ⟨w, point⟩ = [] := by
        simp only [sendEvents, if_neg hpoint, if_pos (Or.inl hhand)]
      rw [hevents]
      exact ⟨hkept.accounts, hkept.fifo, hkept.staging, hkept.broadcast,
        (h.hand.trans hhand).trans hidle.symm⟩
    have hs : s.hand = some (dst, payload) := h.hand.trans hhand
    have hbusy : ¬(Link.inHand ⟨w, point⟩ = none ∨
        (linkStep P ⟨w, point⟩ .send).point ≠ .idle) := by
      rw [hhand, hstay]
      simp
    simp only [sendEvents, if_neg hpoint, if_neg hbusy]
    split_ifs
    · exact ⟨hkept.accounts, hkept.fifo, hkept.staging, hkept.broadcast, hidle.symm⟩
    · simp only [run_cons, run_nil, deliveryStep, hs]
      rcases s.holder dst with _ | c
      · exact ⟨hkept.accounts, hkept.fifo, hkept.staging, hkept.broadcast, hidle.symm⟩
      · exact ⟨hkept.accounts, hkept.fifo, hkept.staging, hkept.broadcast, hidle.symm⟩
  · have hevents : sendEvents P ⟨w, point⟩ = [] := by
      simp only [sendEvents, if_neg hpoint, if_pos (Or.inr hstay)]
    rw [hevents]
    exact ⟨hkept.accounts, hkept.fifo, hkept.staging, hkept.broadcast,
      hkept.hand.trans (hnext.resolve_left hstay _).symm⟩

theorem sent_inHand {l : Link} {dst : Nat} {payload : Bytes}
    (hhand : l.inHand = some (dst, payload)) :
    (linkStep P l .send).world.out = l.world.out ∨
      ∃ x, (linkStep P l .send).world.out = l.world.out ++ [x] ∧ x.sock = dst ∧
        (x.bytes = payload ∨ ∃ i nonce ct, (l.world.pool i).keyed = true ∧
          (l.world.pool i).sock = some dst ∧
          P.aeadEncrypt (l.world.pool i).key nonce (stripCrLf payload) = some ct ∧
          x.bytes = encLine P nonce ct) := by
  obtain ⟨w, point⟩ := l
  have hline : (∃ toAll, point = .routed dst payload toAll) ∨
      ∃ i toAll, point = .locking i dst payload toAll := by
    rcases hb : w.broadcast with _ | b
    · cases point with
      | idle => simp only [Link.inHand, hb, reduceCtorEq] at hhand
      | routed dst' payload' toAll =>
        simp only [Link.inHand, hb, Option.some.injEq, Prod.mk.injEq] at hhand
        exact Or.inl ⟨toAll, by rw [hhand.1, hhand.2]⟩
      | locking i dst' payload' toAll =>
        simp only [Link.inHand, hb, Option.some.injEq, Prod.mk.injEq] at hhand
        exact Or.inr ⟨i, toAll, by rw [hhand.1, hhand.2]⟩
    · simp only [Link.inHand, hb, reduceCtorEq] at hhand
  rcases hline with ⟨toAll, rfl⟩ | ⟨i, toAll, rfl⟩
  · simp only [linkStep, sendStep]
    unfold sendLookup
    repeat' split
    · exact Or.inr ⟨_, rfl, rfl, Or.inl rfl⟩
    · exact Or.inr ⟨_, rfl, rfl, Or.inl rfl⟩
    · exact Or.inl rfl
    · exact Or.inl rfl
  · simp only [linkStep, sendStep, sendLocked]
    split_ifs with hstill
    · simp only [encFrameSeal]
      split
      · next ct hct => exact Or.inr ⟨_, rfl, rfl, Or.inr ⟨i, _, ct, hstill.1, hstill.2, hct, rfl⟩⟩
      · exact Or.inl rfl
    · exact Or.inl rfl

end Steps

theorem mirrors_linkStep {P : Platform} {l : Link} {s : Delivery} (h : Mirrors l s)
    (e : LinkEvent) : ∃ es, Mirrors (linkStep P l e) (run deliveryStep s es) := by
  obtain ⟨w, point⟩ := l
  cases e with
  | send => exact ⟨_, h.send⟩
  | other e =>
    cases e with
    | accept sock peerIp taskOk => exact h.accept sock peerIp taskOk
    | line sock bytes env => exact h.line sock bytes env
    | close sock => exact ⟨_, h.close sock⟩
    | queue reply => exact ⟨[replyEvent w reply], h.reply reply⟩
    | send => exact ⟨[], h⟩
    | tick us => exact ⟨[], h.of_queues rfl⟩
    | pairingTimeout => exact ⟨[], h.of_queues rfl⟩
    | reboot factory env =>
      refine ⟨[.reboot], ?_⟩
      cases factory <;> exact ⟨rfl, rfl, rfl, rfl, rfl⟩

/-- Every run of the link is one of the delivery model. -/
theorem mirrors_run (P : Platform) (ls : List LinkEvent) :
    ∃ es, Mirrors (run (linkStep P) {} ls) (run deliveryStep {} es) := by
  refine history_induction (Q := fun _ l => ∃ es, Mirrors l (run deliveryStep {} es))
    ⟨[], rfl, rfl, rfl, rfl, rfl⟩ ?_ ls
  rintro tr l e ⟨es, hes⟩
  obtain ⟨es', hes'⟩ := mirrors_linkStep (P := P) hes e
  refine ⟨es ++ es', ?_⟩
  rw [run_append]
  exact hes'

end CyThing
