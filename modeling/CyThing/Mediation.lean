import CyThing.Moves
import CyThing.Edits

/-! Complete mediation: what reaches the handlers behind the access policy, and who the
management commands obey. The frame counter of a keyed session is only moved by the frames
it accepts, so an accepted frame is newer than all the session has accepted under its key. -/

namespace CyThing
open CLib Trace

/-! ## What the handlers leave alone -/

structure Tame (w w' : World) : Prop where
  calls : w'.calls = w.calls
  rx : ∀ j, (w'.pool j).keyed = false ∨
    ((w.pool j).keyed = true ∧ (w'.pool j).rxCtr = (w.pool j).rxCtr)

section Tame

variable {P : Platform} {env : Env} {w w' w'' : World} {i : Slot} {sock : Nat} {line : Bytes}

theorem Tame.of_pool (hc : w'.calls = w.calls) (hp : w'.pool = w.pool) : Tame w w' := by
  refine ⟨hc, fun j => ?_⟩
  rw [hp]
  cases (w.pool j).keyed with
  | false => exact Or.inl rfl
  | true => exact Or.inr ⟨rfl, rfl⟩

theorem Tame.refl (w : World) : Tame w w := Tame.of_pool rfl rfl

theorem Tame.trans (h₁ : Tame w w') (h₂ : Tame w' w'') : Tame w w'' := by
  refine ⟨h₂.calls.trans h₁.calls, fun j => ?_⟩
  rcases h₂.rx j with h | ⟨hk', hr'⟩
  · exact Or.inl h
  rcases h₁.rx j with h | ⟨hk, hr⟩
  · rw [hk'] at h
    cases h
  · exact Or.inr ⟨hk, hr'.trans hr⟩

theorem Tame.of_sessions (hc : w'.calls = w.calls)
    (h : ∀ j, (w'.pool j).keyed = false ∨
      ((w'.pool j).state = (w.pool j).state ∧ (w'.pool j).rxCtr = (w.pool j).rxCtr)) :
    Tame w w' := by
  refine ⟨hc, fun j => ?_⟩
  rcases h j with h | ⟨hs, hr⟩
  · exact Or.inl h
  · have hkeyed : (w'.pool j).keyed = (w.pool j).keyed := by simp only [LocalSession.keyed, hs]
    cases hk : (w.pool j).keyed with
    | false => exact Or.inl (hkeyed.trans hk)
    | true => exact Or.inr ⟨rfl, hr⟩

theorem tame_encFrameSeal {plain : Bytes} : Tame w (encFrameSeal P w i sock plain) := by
  have hbump : ∀ n, Tame w (w.setSession i { w.pool i with txCtr := n }) := by
    refine fun n => Tame.of_sessions rfl fun j => Or.inr ?_
    by_cases hj : j = i
    · rw [hj, World.setSession_self]
      exact ⟨rfl, rfl⟩
    · have hsame : (w.setSession i { w.pool i with txCtr := n }).pool j = w.pool j :=
        Function.update_of_ne hj ..
      rw [hsame]
      exact ⟨rfl, rfl⟩
  simp only [encFrameSeal]
  split <;> exact (hbump _).trans (Tame.of_pool rfl rfl)

theorem Tame.encFrameSend {payload : Bytes} (h : Tame w w') :
    Tame w (encFrameSend P w' sock payload) := by
  refine h.trans ?_
  simp only [CyThing.encFrameSend]
  split
  · exact Tame.of_pool rfl rfl
  split_ifs
  · exact Tame.of_pool rfl rfl
  · exact Tame.refl w'
  · exact tame_encFrameSeal

theorem Edits.tame {T : Set Slot} (h : Edits P T w w') : Tame w w' := by
  induction h with
  | refl => exact Tame.refl w
  | sessions h hp ih =>
    refine ih.trans (Tame.of_sessions rfl fun j => ?_)
    rcases (hp j).keyed with hk | ⟨hs, -, -, hr⟩
    · exact Or.inl hk
    · exact Or.inr ⟨hs, hr⟩
  | setPw h ih | setList h ih | pushEvent h ih | discoveryMode h ih | send h ih =>
    exact ih.trans (Tame.of_pool rfl rfl)
  | frame h ih => exact ih.encFrameSend

/-! ## The lines -/

def KeepsRxCtr (w w' : World) : Prop :=
  ∀ j, (w.pool j).keyed = true → (w'.pool j).keyed = true →
    (w'.pool j).rxCtr = (w.pool j).rxCtr

theorem Tame.keepsRxCtr (h : Tame w w') : KeepsRxCtr w w' := by
  intro j _ hk'
  rcases h.rx j with hno | ⟨-, hr⟩
  · rw [hno] at hk'
    cases hk'
  · exact hr

theorem Tame.settle {s : LocalSession} (h : Tame w w') (hi : (w.pool i).keyed = false) :
    KeepsRxCtr w (w'.setSession i s) := by
  intro j hk hk'
  have hj : j ≠ i := by
    rintro rfl
    rw [hi] at hk
    cases hk
  have hsame : (w'.setSession i s).pool j = w'.pool j := Function.update_of_ne hj ..
  rw [hsame] at hk' ⊢
  exact h.keepsRxCtr j hk hk'

def Mild (w w' : World) : Prop := w'.calls = w.calls ∧ KeepsRxCtr w w'

theorem Tame.mild (h : Tame w w') : Mild w w' := ⟨h.calls, h.keepsRxCtr⟩

theorem Handled.mild {T : Set Slot} (h : Handled P T w w') : Mild w w' := by
  cases h with
  | edits h => exact h.tame.mild
  | settled h _ hk => exact ⟨h.tame.calls, h.tame.settle hk⟩

/-! ## Behind the policy -/

def Enters (w w' : World) (sock : Nat) (line : Bytes) : Prop :=
  ∃ new, w'.calls = w.calls ++ new ∧ ∀ c ∈ new, c.sock = sock ∧ c.line = line

theorem Enters.of_calls (h : w'.calls = w.calls) : Enters w w' sock line :=
  ⟨[], by rw [h, List.append_nil], fun _ hc => absurd hc List.not_mem_nil⟩

theorem Enters.enter (hd : Handler) (h : Enters w w' sock line) :
    Enters w (w'.enter hd sock line) sock line := by
  obtain ⟨new, hn, hall⟩ := h
  refine ⟨new ++ [⟨hd, sock, line⟩], ?_, fun c hc => ?_⟩
  · change w'.calls ++ _ = _
    rw [hn, List.append_assoc]
  · rcases List.mem_append.mp hc with hc | hc
    · exact hall c hc
    · rw [List.mem_singleton.mp hc]
      exact ⟨rfl, rfl⟩

theorem Outer.enters (h : Outer sock line w w') : Enters w w' sock line := by
  induction h with
  | refl => exact Enters.of_calls rfl
  | enter h ih => exact ih.enter _
  | prov h ih | pairing h ih | ota h ih | send h ih => exact ih
  | @reply x r h ih =>
    obtain ⟨id, tcp, mqtt, heq⟩ := appReply_eq x r
    rw [heq]
    exact ih

theorem accessPolicyAllow_passes (h : (accessPolicyAllow P w sock line).1 = true)
    (hshake : isHandshake line = false) (hpub : isPublic P w.pw line = false) :
    ∃ i, localSessionFind w.pool sock = some i ∧ (w.pool i).authenticated = true ∧
      (w.pool i).rxEncrypted = true := by
  simp only [accessPolicyAllow, accessPolicySockAuthenticated, hshake, hpub, Bool.or_self,
    Bool.false_eq_true, if_false] at h
  rcases hf : localSessionFind w.pool sock with _ | i
  · simp [hf] at h
  · simp only [hf] at h
    by_cases hok : ((w.pool i).authenticated && (w.pool i).rxEncrypted) = true
    · exact ⟨i, rfl, (Bool.and_eq_true _ _ ▸ hok).1, (Bool.and_eq_true _ _ ▸ hok).2⟩
    · rw [if_neg hok] at h
      split_ifs at h

theorem tcpDispatchLine_mediated (P : Platform) (env : Env) (w : World) (sock : Nat)
    (line : Bytes) :
    KeepsRxCtr w (tcpDispatchLine P env w sock line) ∧
    ((tcpDispatchLine P env w sock line).calls = w.calls ∨
      ((accessPolicyAllow P w sock line).1 = true ∧
        Enters w (tcpDispatchLine P env w sock line) sock line)) := by
  have hcases := tcpDispatchLine_cases P env w sock line
  generalize tcpDispatchLine P env w sock line = w' at hcases
  cases hcases with
  | refused => exact ⟨fun _ _ _ => rfl, Or.inl rfl⟩
  | outer hallow =>
    have houter := outer_dispatchBehindPolicy P env w sock line
    refine ⟨fun j _ _ => ?_, Or.inr ⟨hallow, houter.enters⟩⟩
    rw [houter.link.1]
  | noSession =>
    have herr : Tame w (sendErr P w sock (ascii "NOSESSION")) :=
      (Edits.refl (T := ∅)).err.tame
    exact ⟨herr.keepsRxCtr, Or.inl herr.calls⟩
  | @handled i =>
    obtain ⟨hcalls, hrx⟩ := (handled_handleKind P env w i sock line (lineKind line)).mild
    exact ⟨hrx, Or.inl hcalls⟩

end Tame

/-! ## Frames -/

def acceptedCounter (P : Platform) (i : Slot) (s : Step World Event) : Option Nat :=
  match s.event with
  | .line sock bytes _ =>
    if localSessionFind s.before.pool sock = some i ∧ isEncLine bytes = true ∧
        (s.before.pool i).keyed = true then
      (openFrame P (s.before.pool i) bytes).map (·.1)
    else none
  | _ => none

def acceptedCounters (P : Platform) (i : Slot) (tr : List (Step World Event)) : List Nat :=
  tr.foldl (fun acc s =>
    if (s.after.pool i).keyed then acc ++ (acceptedCounter P i s).toList else []) []

theorem openFrame_newer {P : Platform} {s : LocalSession} {bytes plain : Bytes} {ctr : Nat}
    (h : openFrame P s bytes = some (ctr, plain)) : s.rxCtr < ctr := by
  unfold openFrame at h
  split at h
  · cases h
  split at h
  · cases h
  split_ifs at h
  split at h
  · cases h
  simp only at h
  split_ifs at h with hshort hold
  split at h
  · cases h
  split_ifs at h
  cases h
  exact Nat.lt_of_not_le fun hle => hold (Or.inr hle)

theorem encFrameUnwrap_some {P : Platform} {w w' : World} {sock : Nat} {bytes line : Bytes}
    (h : encFrameUnwrap P w sock bytes = (some line, w')) :
    w' = { w with pool := w'.pool } ∧
    ((isEncLine bytes = false ∧ ∀ j, (w'.pool j).rxCtr = (w.pool j).rxCtr) ∨
      ∃ i ctr, isEncLine bytes = true ∧ localSessionFind w.pool sock = some i ∧
        (w.pool i).keyed = true ∧ openFrame P (w.pool i) bytes = some (ctr, line) ∧
        (w'.pool i).rxCtr = ctr ∧ ∀ j ≠ i, (w'.pool j).rxCtr = (w.pool j).rxCtr) := by
  have hset : ∀ (i : Slot) (s : LocalSession) (j : Slot), j ≠ i →
      (w.setSession i s).pool j = w.pool j := fun i s j hj => Function.update_of_ne hj ..
  have hu := encFrameUnwrap_unwrapped P w sock bytes
  rw [h] at hu
  cases hu with
  | stray henc hf => exact ⟨rfl, Or.inl ⟨henc, fun _ => rfl⟩⟩
  | @plain i henc hf =>
    refine ⟨rfl, Or.inl ⟨henc, fun j => ?_⟩⟩
    by_cases hj : j = i
    · rw [hj, World.setSession_self]
    · rw [hset _ _ j hj]
  | @opened i ctr _ henc hf hk hopen =>
    refine ⟨rfl, Or.inr ⟨i, ctr, henc, hf, hk, hopen, ?_, fun j hj => by rw [hset _ _ j hj]⟩⟩
    rw [World.setSession_self]

def FreshFrame (P : Platform) (tr : List (Step World Event)) (w : World) (e : Event) (i : Slot)
    (sock : Nat) (line : Bytes) : Prop :=
  ∃ bytes env ctr, e = .line sock bytes env ∧ localSessionFind w.pool sock = some i ∧
    isEncLine bytes = true ∧ (w.pool i).keyed = true ∧
    openFrame P (w.pool i) bytes = some (ctr, line) ∧ ∀ k ∈ acceptedCounters P i tr, k < ctr

theorem encFrameUnwrap_none {P : Platform} {w w' : World} {sock : Nat} {bytes : Bytes}
    (h : encFrameUnwrap P w sock bytes = (none, w')) :
    w' = w.send sock (ascii "ERR:ENC\n") ∧ ∀ i, localSessionFind w.pool sock = some i →
      (w.pool i).keyed = true → openFrame P (w.pool i) bytes = none := by
  have hu := encFrameUnwrap_unwrapped P w sock bytes
  rw [h] at hu
  cases hu with
  | refused henc hopen => exact ⟨rfl, hopen⟩

/-! ## Steps and runs -/

section Steps

variable {P : Platform} {w : World}

theorem keyed_update {pool : Pool} {i j : Slot} {s : LocalSession} (hs : s.keyed = false)
    (h : (Function.update pool i s j).keyed = true) : Function.update pool i s j = pool j := by
  by_cases hj : j = i
  · rw [hj, Function.update_self, hs] at h
    cases h
  · rw [Function.update_of_ne hj]

theorem keyed_acquire {pool : Pool} {sock : Nat} {peerIp : UInt32} {j : Slot}
    (h : ((localSessionAcquire pool sock peerIp).2 j).keyed = true) :
    (localSessionAcquire pool sock peerIp).2 j = pool j := by
  rcases hf : SlotTable.findSlot pool fun s => s.sock == none with _ | i
  · simp only [localSessionAcquire, hf]
  · simp only [localSessionAcquire, hf] at h ⊢
    exact keyed_update rfl h

theorem keyed_release {pool : Pool} {sock : Nat} {j : Slot}
    (h : (localSessionRelease pool sock j).keyed = true) :
    localSessionRelease pool sock j = pool j := by
  rcases hf : localSessionFind pool sock with _ | i
  · simp only [localSessionRelease, hf]
  · simp only [localSessionRelease, hf] at h ⊢
    exact keyed_update rfl h

theorem keyed_accept {sock : Nat} {peerIp : UInt32} {taskOk : Bool} {j : Slot}
    (hk : ((acceptConnection w sock peerIp taskOk).pool j).keyed = true) :
    (acceptConnection w sock peerIp taskOk).pool j = w.pool j := by
  have ha := acceptConnection_accepts w sock peerIp taskOk
  generalize acceptConnection w sock peerIp taskOk = w' at ha hk
  cases ha with
  | turnedAway => rfl
  | opened => exact keyed_acquire hk
  | undone =>
    have hrel := keyed_release hk
    exact hrel.trans (keyed_acquire (hrel ▸ hk))

theorem keyed_step {e : Event} (hline : ∀ sock bytes env, e ≠ .line sock bytes env)
    (hsend : e ≠ .send) {j : Slot} (hk : ((step P w e).pool j).keyed = true) :
    (step P w e).pool j = w.pool j := by
  cases e with
  | line sock bytes env => exact absurd rfl (hline sock bytes env)
  | send => exact absurd rfl hsend
  | accept sock peerIp taskOk => exact keyed_accept hk
  | close sock => exact keyed_release hk
  | queue reply =>
    obtain ⟨id, tcp, mqtt, heq⟩ := appReply_eq w reply
    simp only [step, heq]
  | tick us => rfl
  | pairingTimeout => rfl
  | reboot factory env =>
    -- every session of a booted device is new
    cases factory <;> cases hk

theorem tame_sendTaskStep : Tame w (sendTaskStep P w) := by
  have hs := sendTaskStep_sends P w
  generalize sendTaskStep P w = w' at hs
  cases hs with
  | moved => exact Tame.of_pool rfl rfl
  | sent => exact .encFrameSend (Tame.of_pool rfl rfl)

theorem mild_step {e : Event} (he : ∀ sock bytes env, e ≠ .line sock bytes env) :
    Mild w (step P w e) := by
  by_cases hsend : e = .send
  · subst hsend
    exact tame_sendTaskStep.mild
  refine ⟨?_, fun j _ hk => congrArg LocalSession.rxCtr (keyed_step he hsend hk)⟩
  by_cases hboot : ∃ factory env, e = .reboot factory env
  · obtain ⟨factory, env, rfl⟩ := hboot
    cases factory <;> rfl
  · push Not at hboot
    obtain ⟨core, accounts, pairing, id, tcp, mqtt, heq⟩ := step_quiet (P := P) he hsend hboot
    rw [heq]

theorem keyed_encFrameUnwrap (sock : Nat) (bytes : Bytes) (j : Slot) :
    ((encFrameUnwrap P w sock bytes).2.pool j).keyed = (w.pool j).keyed := by
  have hcore : ((encFrameUnwrap P w sock bytes).2.core.pool j).keyed =
      (w.core.pool j).keyed := by
    rw [core_encFrameUnwrap]
  exact hcore

theorem step_rxCtr {e : Event} {i : Slot} (hk : (w.pool i).keyed = true)
    (hk' : ((step P w e).pool i).keyed = true) :
    ((step P w e).pool i).rxCtr =
      (acceptedCounter P i ⟨w, e, step P w e⟩).getD (w.pool i).rxCtr := by
  by_cases he : ∃ sock bytes env, e = .line sock bytes env
  · obtain ⟨sock, bytes, env, rfl⟩ := he
    have hkeyed := keyed_encFrameUnwrap (P := P) (w := w) sock bytes i
    simp only [step, handleLine, acceptedCounter] at hk' ⊢
    rcases hu : encFrameUnwrap P w sock bytes with ⟨_ | line, x⟩
    · obtain ⟨rfl, hopen⟩ := encFrameUnwrap_none hu
      change (w.pool i).rxCtr = _
      split_ifs with hacc
      · rw [hopen i hacc.1 hacc.2.2]
        rfl
      · rfl
    · rw [hu] at hk' hkeyed
      have hrx := (tcpDispatchLine_mediated P env x sock line).1 i (hkeyed.trans hk) hk'
      refine hrx.trans ?_
      rcases (encFrameUnwrap_some hu).2 with
        ⟨hplain, hsame⟩ | ⟨i₀, ctr, henc, hf, hk₀, hopen, hself, hothers⟩
      · have hno : ¬(localSessionFind w.pool sock = some i ∧ isEncLine bytes = true ∧
            (w.pool i).keyed = true) := fun hacc =>
          Bool.false_ne_true (hplain.symm.trans hacc.2.1)
        rw [if_neg hno, hsame i]
        rfl
      · by_cases hi : i = i₀
        · rw [hi, if_pos ⟨hf, henc, hk₀⟩, hopen, hself]
          rfl
        · rw [if_neg fun hacc => hi (Option.some.inj (hacc.1.symm.trans hf)), hothers i hi]
          rfl
  · have hline : ∀ sock bytes env, e ≠ .line sock bytes env := fun sock bytes env h =>
      he ⟨sock, bytes, env, h⟩
    have hnone : acceptedCounter P i ⟨w, e, step P w e⟩ = none := by
      cases e with
      | line sock bytes env => exact absurd rfl (hline sock bytes env)
      | _ => rfl
    rw [hnone]
    exact (mild_step hline).2 i hk hk'

theorem acceptedCounter_some {s : Step World Event} {i : Slot} {ctr : Nat}
    (h : acceptedCounter P i s = some ctr) :
    (s.before.pool i).keyed = true ∧ (s.before.pool i).rxCtr < ctr := by
  unfold acceptedCounter at h
  split at h
  · split_ifs at h with hacc
    obtain ⟨⟨c, plain⟩, hopen, hc⟩ := Option.map_eq_some_iff.mp h
    cases hc
    exact ⟨hacc.2.2, openFrame_newer hopen⟩
  · cases h

structure CountersBounded (P : Platform) (tr : List (Step World Event)) (w : World) : Prop where
  empty : ∀ i, (w.pool i).keyed = false → acceptedCounters P i tr = []
  bound : ∀ i, ∀ k ∈ acceptedCounters P i tr, k ≤ (w.pool i).rxCtr

theorem acceptedCounters_concat (i : Slot) (tr : List (Step World Event)) (s : Step World Event) :
    acceptedCounters P i (tr ++ [s]) =
      if (s.after.pool i).keyed then acceptedCounters P i tr ++ (acceptedCounter P i s).toList
      else [] := by
  simp only [acceptedCounters, List.foldl_append, List.foldl_cons, List.foldl_nil]

theorem CountersBounded.step {tr : List (Step World Event)} (e : Event)
    (h : CountersBounded P tr w) :
    CountersBounded P (tr ++ [⟨w, e, step P w e⟩]) (step P w e) := by
  refine ⟨fun i hk => ?_, fun i k hmem => ?_⟩
  · rw [acceptedCounters_concat, hk]
    rfl
  rw [acceptedCounters_concat] at hmem
  by_cases hk' : ((CyThing.step P w e).pool i).keyed = true
  · rw [if_pos hk'] at hmem
    rcases hk : (w.pool i).keyed with _ | _
    · -- keyed by this very step: nothing was accepted under the key yet
      rw [h.empty i hk, List.nil_append, Option.mem_toList] at hmem
      have := (acceptedCounter_some hmem).1
      change (w.pool i).keyed = true at this
      rw [hk] at this
      cases this
    · rw [step_rxCtr hk hk']
      rcases hacc : acceptedCounter P i ⟨w, e, CyThing.step P w e⟩ with _ | ctr
      · rw [hacc, Option.toList_none, List.append_nil] at hmem
        exact h.bound i k hmem
      · have hnew : (w.pool i).rxCtr < ctr := (acceptedCounter_some hacc).2
        rw [hacc, List.mem_append] at hmem
        change k ≤ ctr
        rcases hmem with hold | hnow
        · exact (h.bound i k hold).trans hnew.le
        · rw [Option.mem_toList] at hnow
          cases hnow
          exact le_rfl
  · rw [if_neg hk'] at hmem
    cases hmem

theorem countersBounded_run (P : Platform) (es : List Event) :
    CountersBounded P (trace (CyThing.step P) World.fresh es)
      (run (CyThing.step P) World.fresh es) :=
  history_induction (Q := CountersBounded P)
    ⟨fun _ _ => rfl, fun _ _ hk => absurd hk List.not_mem_nil⟩
    (fun _ _ e h => h.step e) es

theorem CountersBounded.freshFrame {tr : List (Step World Event)} (h : CountersBounded P tr w)
    {sock : Nat} {bytes line : Bytes} {env : Env} {i : Slot} {ctr : Nat}
    (hf : localSessionFind w.pool sock = some i) (henc : isEncLine bytes = true)
    (hk : (w.pool i).keyed = true) (hopen : openFrame P (w.pool i) bytes = some (ctr, line)) :
    FreshFrame P tr w (.line sock bytes env) i sock line :=
  ⟨bytes, env, ctr, rfl, hf, henc, hk, hopen, fun k hmem =>
    lt_of_le_of_lt (h.bound i k hmem) (openFrame_newer hopen)⟩

/-! ## The management commands -/

def OwnerCommand.word : OwnerCommand → Bytes
  | .unpair => ascii "UNPAIR"
  | .list => ascii "LIST"
  | .revoke => ascii "REVOKE:"
  | .pwset => ascii "PWSET:"
  | .pwclear => ascii "PWCLEAR"
  | .discoverymode => ascii "DISCOVERYMODE:"
  | .discoverymodeGet => ascii "DISCOVERYMODE?"
  | .reset => ascii "RESET"

theorem hasPrefix_word {line : Bytes} {c : OwnerCommand} (h : ownerCommand line = some c) :
    hasPrefix line c.word = true := by
  have hself {word : Bytes} (hw : line = word) : hasPrefix line word = true :=
    hasPrefix_iff.mpr (hw ▸ List.prefix_refl line)
  unfold ownerCommand at h
  split_ifs at h with h1 h2 h3 h4 h5 h6 h7 h8 <;> cases h
  · exact hself h1
  · exact hself h2
  · exact h3
  · exact h4
  · exact hself h5
  · exact h6
  · exact hself h7
  · exact hself h8

theorem lineKind_of_ownerCommand {line : Bytes} {c : OwnerCommand}
    (h : ownerCommand line = some c) : lineKind line = .owner c := by
  have hclash : ∀ q ∈ [pake1Prefix, pake3Prefix, enrollPrefix, auth1Prefix, auth3Prefix],
      hasPrefix q c.word = false ∧ hasPrefix c.word q = false := by
    cases c <;> decide +kernel
  have hno := fun q hq => not_hasPrefix_of_hasPrefix (hclash q hq) (hasPrefix_word h)
  simp only [List.forall_mem_cons, List.not_mem_nil, false_implies, implies_true,
    and_true] at hno
  obtain ⟨h1, h3, he, ha1, ha3⟩ := hno
  simp only [lineKind, h1, h3, he, ha1, ha3, Bool.false_eq_true, if_false, h]

/-- Nothing happened but one of four fixed refusals on `sock`: the core is as it was, and
only the frame bookkeeping of sessions may differ elsewhere. -/
def Refused (P : Platform) (w : World) (sock : Nat) (w' : World) : Prop :=
  ∃ x : World, x.core = w.core ∧ x = { w with pool := x.pool } ∧
    (w' = x.send sock (ascii "ERR:AUTH\n") ∨ w' = x.send sock (ascii "ERR:ENC\n") ∨
      w' = sendErr P x sock (ascii "AUTH") ∨ w' = sendErr P x sock (ascii "NOSESSION"))

theorem ownerCommand_cases {env : Env} {line : Bytes} {c : OwnerCommand} (sock : Nat)
    (hc : ownerCommand line = some c) (hne : c ≠ .unpair) :
    (∃ i, localSessionFind w.pool sock = some i ∧ (w.pool i).isOwner = true) ∨
      tcpDispatchLine P env w sock line = w.send sock (ascii "ERR:AUTH\n") ∨
      tcpDispatchLine P env w sock line = w.send sock (ascii "ERR:ENC\n") ∨
      tcpDispatchLine P env w sock line = sendErr P w sock (ascii "AUTH") ∨
      tcpDispatchLine P env w sock line = sendErr P w sock (ascii "NOSESSION") := by
  have hk := lineKind_of_ownerCommand hc
  have hcases := tcpDispatchLine_cases P env w sock line
  generalize tcpDispatchLine P env w sock line = w' at hcases
  cases hcases with
  | refused _ _ hanswer =>
    rcases hanswer with rfl | rfl
    · exact Or.inr (Or.inl rfl)
    · exact Or.inr (Or.inr (Or.inl rfl))
  | outer _ hother => cases hk.symm.trans hother
  | noSession => exact Or.inr (Or.inr (Or.inr (Or.inr rfl)))
  | @handled i _ hf =>
    simp only [hk, handleKind, LocalSession.mayRun, if_neg hne]
    by_cases hown : (w.pool i).isOwner = true
    · exact Or.inl ⟨i, hf, hown⟩
    · rw [if_neg hown]
      exact Or.inr (Or.inr (Or.inr (Or.inl rfl)))

end Steps

theorem frame_of_rxEncrypted {P : Platform} {w x : World} {sock : Nat} {bytes line : Bytes}
    {i : Slot} (hu : encFrameUnwrap P w sock bytes = (some line, x))
    (hf : localSessionFind x.pool sock = some i) (henc : (x.pool i).rxEncrypted = true) :
    ∃ ctr, isEncLine bytes = true ∧ localSessionFind w.pool sock = some i ∧
      (w.pool i).keyed = true ∧ openFrame P (w.pool i) bytes = some (ctr, line) := by
  have hcore : x.core = w.core := by
    have := core_encFrameUnwrap P w sock bytes
    rw [hu] at this
    exact this
  have hfind : localSessionFind w.pool sock = some i := by
    rw [← w.localSessionFind_core, ← hcore]
    exact hf
  have hline : isEncLine bytes = true := (encFrameUnwrap_rxEncrypted P w hu hf).symm.trans henc
  rcases (encFrameUnwrap_some hu).2 with ⟨hplain, -⟩ | ⟨i₀, ctr, -, hf₀, hk, hopen, -, -⟩
  · rw [hplain] at hline
    cases hline
  · cases hfind.symm.trans hf₀
    exact ⟨ctr, hline, hfind, hk, hopen⟩

section Mediated

variable {P : Platform} {w : World} {tr : List (Step World Event)}

theorem CountersBounded.line_calls (h : CountersBounded P tr w) {sock : Nat} {bytes line : Bytes}
    (hl : dispatched P w sock bytes = some line) (env : Env) :
    ∃ new, (CyThing.step P w (.line sock bytes env)).calls = w.calls ++ new ∧ ∀ c ∈ new,
      isHandshake c.line = false → isPublic P w.pw c.line = false →
        ∃ i, (w.pool i).authenticated = true ∧
          FreshFrame P tr w (.line sock bytes env) i c.sock c.line := by
  obtain ⟨x, hu, hcore, hstep⟩ := step_dispatched P w hl
  have hx := (encFrameUnwrap_some hu).1
  have hcalls : x.calls = w.calls := by rw [hx]
  rw [hstep]
  rcases (tcpDispatchLine_mediated P env x sock line).2 with hsame | ⟨hallow, new, hn, hall⟩
  · exact ⟨[], by rw [List.append_nil]; exact hsame.trans hcalls,
      fun _ hc => absurd hc List.not_mem_nil⟩
  refine ⟨new, by rw [hn, hcalls], fun c hc hshake hpub => ?_⟩
  obtain ⟨hsock, hline⟩ := hall c hc
  rw [hline] at hshake hpub
  have hpw : x.pw = w.pw := by rw [hx]
  obtain ⟨i, hf, hauth, henc⟩ := accessPolicyAllow_passes hallow hshake (hpw ▸ hpub)
  obtain ⟨ctr, hisEnc, hfw, hk, hopen⟩ := frame_of_rxEncrypted hu hf henc
  have hsame : (w.core.pool i).authenticated = (x.core.pool i).authenticated := by rw [hcore]
  refine ⟨i, hsame.trans hauth, ?_⟩
  rw [hsock, hline]
  exact h.freshFrame hfw hisEnc hk hopen

theorem CountersBounded.calls (h : CountersBounded P tr w) (e : Event) :
    ∃ new, (CyThing.step P w e).calls = w.calls ++ new ∧ ∀ c ∈ new,
      isHandshake c.line = false → isPublic P w.pw c.line = false →
        ∃ i, (w.pool i).authenticated = true ∧ FreshFrame P tr w e i c.sock c.line := by
  by_cases he : ∃ sock bytes env, e = .line sock bytes env
  · obtain ⟨sock, bytes, env, rfl⟩ := he
    rcases hu : encFrameUnwrap P w sock bytes with ⟨_ | line, x⟩
    · obtain ⟨rfl, -⟩ := encFrameUnwrap_none hu
      simp only [CyThing.step, handleLine, hu]
      exact ⟨[], (List.append_nil _).symm, fun _ hc => absurd hc List.not_mem_nil⟩
    · exact h.line_calls (congrArg Prod.fst hu) env
  · have hmild : Mild w (CyThing.step P w e) := mild_step fun sock bytes env h =>
      he ⟨sock, bytes, env, h⟩
    exact ⟨[], by rw [List.append_nil]; exact hmild.1, fun _ hc => absurd hc List.not_mem_nil⟩

theorem CountersBounded.obeys (h : CountersBounded P tr w) {sock : Nat} {bytes line : Bytes}
    {c : OwnerCommand} (hl : dispatched P w sock bytes = some line)
    (hcmd : ownerCommand line = some c) (hne : c ≠ .unpair) (env : Env) :
    (∃ i, (w.pool i).authenticated = true ∧ (w.pool i).role = .owner ∧
      FreshFrame P tr w (.line sock bytes env) i sock line) ∨
    Refused P w sock (CyThing.step P w (.line sock bytes env)) := by
  obtain ⟨x, hu, hcore, hstep⟩ := step_dispatched P w hl
  rcases ownerCommand_cases (P := P) (w := x) sock hcmd hne with ⟨i, hf, hown⟩ | hrefused
  · simp only [LocalSession.isOwner, Bool.and_eq_true, beq_iff_eq] at hown
    obtain ⟨⟨henc, hrole⟩, hauth⟩ := hown
    obtain ⟨ctr, hisEnc, hfw, hk, hopen⟩ := frame_of_rxEncrypted hu hf henc
    have hsame : (w.core.pool i).authenticated = (x.core.pool i).authenticated := by rw [hcore]
    have hsameRole : (w.core.pool i).role = (x.core.pool i).role := by rw [hcore]
    exact Or.inl ⟨i, hsame.trans hauth, hsameRole.trans hrole,
      h.freshFrame hfw hisEnc hk hopen⟩
  · rw [hstep]
    exact Or.inr ⟨x, hcore, (encFrameUnwrap_some hu).1, hrefused⟩

end Mediated

/-- Complete mediation. A handler behind the policy is entered, while a password is set,
with a line that is neither a handshake line nor public only for an authenticated session
and from a fresh frame; the management commands of the owner are obeyed only for the
authenticated owner and from a fresh frame, and else answered by a refusal alone. -/
theorem complete_mediation (P : Platform) (es : List Event) (e : Event) :
    let w := run (step P) World.fresh es
    let tr := trace (step P) World.fresh es
    (∃ new, (step P w e).calls = w.calls ++ new ∧ ∀ c ∈ new,
      devicePasswordIsSet w.pw = true → isHandshake c.line = false →
      isPublic P w.pw c.line = false →
        ∃ i, (w.pool i).authenticated = true ∧ FreshFrame P tr w e i c.sock c.line) ∧
    ∀ sock bytes env line c, e = .line sock bytes env →
      dispatched P w sock bytes = some line → ownerCommand line = some c → c ≠ .unpair →
        (∃ i, (w.pool i).authenticated = true ∧ (w.pool i).role = .owner ∧
          FreshFrame P tr w e i sock line) ∨ Refused P w sock (step P w e) := by
  intro w tr
  have hcount : CountersBounded P tr w := countersBounded_run P es
  obtain ⟨new, hcalls, hnew⟩ := hcount.calls e
  refine ⟨⟨new, hcalls, fun c hc _ hshake hpub => hnew c hc hshake hpub⟩, ?_⟩
  rintro sock bytes env line c rfl hl hcmd hne
  exact hcount.obeys hl hcmd hne env

end CyThing
