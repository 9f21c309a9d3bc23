import CyThing.HandlerActions

/-! Every event of the device is one of the moves of `Move`. -/

namespace CyThing
open CLib

section Events

variable (P : Platform) (w : World)

theorem encFrameUnwrap_rxEncrypted {sock : Nat} {bytes line : Bytes} {w' : World} {i : Slot}
    (h : encFrameUnwrap P w sock bytes = (some line, w'))
    (hi : localSessionFind w'.pool sock = some i) :
    (w'.pool i).rxEncrypted = isEncLine bytes := by
  have hcore := core_encFrameUnwrap P w sock bytes
  rw [h] at hcore
  have hf : localSessionFind w.pool sock = some i := by
    rw [← w.localSessionFind_core, ← hcore]
    exact hi
  have hu := encFrameUnwrap_unwrapped P w sock bytes
  rw [h] at hu
  cases hu with
  | stray henc hnone => cases hf.symm.trans hnone
  | plain henc hj | opened henc hj hk hopen =>
    cases hf.symm.trans hj
    rw [henc, World.setSession_self]

theorem stepMark_line {P : Platform} {w w' : World} {sock : Nat} {bytes line : Bytes}
    {env : Env} (hl : dispatched P w sock bytes = some line) :
    stepMark P ⟨w, .line sock bytes env, w'⟩ =
      markOf P env (isEncLine bytes) w.core sock line := by
  simp only [stepMark, hl, Option.bind_some]

theorem stepMark_refused {P : Platform} {w w' : World} {sock : Nat} {bytes : Bytes}
    {env : Env} (hl : dispatched P w sock bytes = none) :
    stepMark P ⟨w, .line sock bytes env, w'⟩ = none := by
  simp only [stepMark, hl, Option.bind_none]

theorem markOf_ne_setsPassword {P : Platform} {env : Env} {enc : Bool} {c : Core} {sock : Nat}
    {line : Bytes} (hk : lineKind line ≠ .owner .pwset) (i : Slot) :
    markOf P env enc c sock line ≠ some (.setsPassword i) := by
  intro h
  obtain ⟨j, -, hj⟩ := Option.bind_eq_some_iff.mp h
  unfold markAt at hj
  split at hj
  · cases hj
  · cases hj
  · obtain ⟨sub, -, hsub⟩ := Option.map_eq_some_iff.mp hj
    cases hsub
  · next hp => exact hk hp
  · split_ifs at hj
    cases hj
  · cases hj

theorem RevokeRun.pw {env : Env} {c c' : Core} (h : RevokeRun env c c') :
    c'.pw = c.pw ∧ c'.clock = c.clock := by
  induction h with
  | done c => exact ⟨rfl, rfl⟩
  | removed hr hrole hrem hrest ih => exact ih
  | failed hr hrole hrem hrest ih => exact ih

theorem step_dispatched {sock : Nat} {bytes line : Bytes}
    (h : dispatched P w sock bytes = some line) :
    ∃ x, encFrameUnwrap P w sock bytes = (some line, x) ∧ x.core = w.core ∧
      ∀ env, step P w (.line sock bytes env) = tcpDispatchLine P env x sock line := by
  have hcore := core_encFrameUnwrap P w sock bytes
  rw [dispatched] at h
  rcases hu : encFrameUnwrap P w sock bytes with ⟨o, x⟩
  rw [hu] at h hcore
  obtain rfl : o = some line := h
  exact ⟨x, rfl, hcore, fun env => by simp only [step, handleLine, hu]⟩

theorem handleLine_move (sock : Nat) (bytes : Bytes) (env : Env) :
    Move P w (.line sock bytes env) (handleLine P env w sock bytes).core := by
  have hcore := core_encFrameUnwrap P w sock bytes
  rw [handleLine]
  rcases hu : encFrameUnwrap P w sock bytes with ⟨_ | line, w'⟩
  · rw [hu] at hcore
    simp only [hcore]
    exact Move.refused (congrArg Prod.fst hu)
  · rw [hu] at hcore
    refine Move.line (congrArg Prod.fst hu) ?_
    rw [← hcore]
    exact tcpDispatchLine_action fun i hi => encFrameUnwrap_rxEncrypted P w hu hi

theorem acceptConnection_move (sock : Nat) (peerIp : UInt32) (taskOk : Bool) :
    Move P w (.accept sock peerIp taskOk) (acceptConnection w sock peerIp taskOk).core := by
  simp only [acceptConnection]
  by_cases hnew : (localSessionFind w.pool sock).isSome = true
  · rw [if_pos hnew]
    exact Move.turnedAway
  rw [if_neg hnew]
  have hnew : localSessionFind w.pool sock = none := by simpa using hnew
  by_cases hcap : tcpClientMax ≤ localSessionCount w.pool ∧
      localSessionShutdownPeer w.pool peerIp = 0
  · rw [if_pos hcap]
    exact Move.turnedAway
  rw [if_neg hcap]
  split
  · exact Move.turnedAway
  rcases hf : SlotTable.findSlot w.pool fun s => s.sock == none with _ | i
  · simp only [localSessionAcquire, hf]
    exact Move.turnedAway
  have hfree : (w.pool i).sock = none := by simpa using SlotTable.findSlot_spec hf
  simp only [localSessionAcquire, hf]
  split_ifs
  · have ha : Move P w (.accept sock peerIp taskOk) _ := Move.opened hfree hnew
    exact World.core_setSession w i _ ▸ ha
  · have hfind : localSessionFind (Function.update w.pool i
        { (w.pool i).wipe with sock := some sock, peerIp := peerIp }) sock = some i := by
      refine SlotTable.findSlot_of_unique (by simp) fun j hj => ?_
      by_contra hne
      rw [Function.update_of_ne hne] at hj
      rw [localSessionFind, SlotTable.findSlot_eq_none] at hnew
      rw [hnew j] at hj
      cases hj
    have ha : Move P w (.accept sock peerIp taskOk) _ := Move.undone hfree
    simp only [localSessionRelease, hfind, Function.update_self, Function.update_idem]
    exact World.core_setSession w i _ ▸ ha

theorem closeConnection_move (sock : Nat) :
    Move P w (.close sock) (closeConnection w sock).core := by
  rcases hf : localSessionFind w.pool sock with _ | i
  · simp only [closeConnection, localSessionRelease, hf]
    exact Move.notOpen hf
  · simp only [closeConnection, localSessionRelease, hf]
    have ha := Move.closed (P := P) (w := w) hf
    exact World.core_setSession w i _ ▸ ha

@[simp] theorem core_sendTaskStep : (sendTaskStep P w).core = w.core := by
  have hs := sendTaskStep_sends P w
  generalize sendTaskStep P w = w' at hs
  cases hs with
  | moved => rfl
  | sent => exact core_encFrameSend ..

/-- Every event is one of the moves. -/
theorem step_move (e : Event) : Move P w e (step P w e).core := by
  cases e with
  | accept sock peerIp taskOk => exact acceptConnection_move P w sock peerIp taskOk
  | line sock bytes env => exact handleLine_move P w sock bytes env
  | close sock => exact closeConnection_move P w sock
  | queue reply =>
    rw [step, World.core_appReply]
    exact Move.queue
  | send =>
    rw [step, core_sendTaskStep]
    exact Move.send
  | tick us => exact Move.tick
  | pairingTimeout => exact Move.pairingTimeout
  | reboot factory env =>
    cases factory with
    | false => exact Move.reboot
    | true => exact Move.factory

end Events

end CyThing
