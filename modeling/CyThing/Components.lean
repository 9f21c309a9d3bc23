import CyThing.Mediation
import CyThing.Aws.PairingUplink
import CyThing.Aws.ProvisioningRun

/-! Parts of the device that have runs of their own. In a run of the whole device provisioning
moves by its lines and by restarts, and between restarts the queue of pairing events moves by
pushes. -/

namespace CyThing
open CLib Trace

def World.parts (w : World) : Provisioning × EventQueue := (w.prov, w.events)

def Pushed (q q' : EventQueue) : Prop :=
  ∃ es : List UplinkEvent, (∀ x ∈ es, x.isPush = true) ∧
    ∀ u : Uplink, u.queue = q → (run uplinkStep u es).queue = q'

def ProvEvent.From (P : Platform) (w : World) (e : Event) : ProvEvent → Prop
  | .line text provEnv => ∃ sock bytes env x, e = .line sock bytes env ∧ provEnv = env.prov ∧
      encFrameUnwrap P w sock bytes = (some text, x) ∧ (accessPolicyAllow P x sock text).1 = true
  | .reboot => ∃ factory env, e = .reboot factory env

section Parts

variable {P : Platform} {T : Set Slot} {env : Env} {w w' : World} {sock : Nat} {line : Bytes}

/-! ## What touches neither -/

theorem parts_encFrameSend (payload : Bytes) :
    (encFrameSend P w sock payload).parts = w.parts := by
  simp only [encFrameSend, encFrameSeal]
  repeat' split
  all_goals rfl

theorem parts_encFrameUnwrap (bytes : Bytes) :
    (encFrameUnwrap P w sock bytes).2.parts = w.parts := by
  have hu := encFrameUnwrap_unwrapped P w sock bytes
  generalize encFrameUnwrap P w sock bytes = r at hu
  cases hu with
  | stray | plain | refused | opened => rfl

theorem parts_sendTaskStep (P : Platform) (w : World) : (sendTaskStep P w).parts = w.parts := by
  have hs := sendTaskStep_sends P w
  generalize sendTaskStep P w = w' at hs
  cases hs with
  | moved => rfl
  | sent => exact parts_encFrameSend _

theorem parts_step {e : Event} (hline : ∀ sock bytes env, e ≠ .line sock bytes env)
    (hboot : ∀ factory env, e ≠ .reboot factory env) : (step P w e).parts = w.parts := by
  by_cases hsend : e = .send
  · subst hsend
    exact parts_sendTaskStep P w
  obtain ⟨core, accounts, pairing, id, tcp, mqtt, heq⟩ := step_quiet (P := P) hline hsend hboot
  rw [heq]
  rfl

/-! ## Provisioning -/

theorem Edits.prov (h : Edits P T w w') : w'.prov = w.prov := by
  induction h with
  | refl => rfl
  | sessions h hp ih => exact ih
  | setPw h ih | setList h ih | pushEvent h ih | discoveryMode h ih | send h ih => exact ih
  | frame h ih => exact (congrArg Prod.fst (parts_encFrameSend _)).trans ih

theorem Handled.prov (h : Handled P T w w') : w'.prov = w.prov := by
  cases h with
  | edits h => exact h.prov
  | settled h => exact h.prov

theorem prov_dispatchBehindPolicy (P : Platform) (env : Env) (w : World) (sock : Nat)
    (line : Bytes) :
    (dispatchBehindPolicy P env w sock line).prov = provStep P w.prov (.line line env.prov) := by
  have hprov : (w.enter .provisioning sock line).prov = w.prov := rfl
  rw [provStep, ← hprov]
  rcases later_dispatchBehindPolicy P env w sock line with hp | ⟨hp, hlater⟩
  · unfold provisioningLine at hp
    split at hp
    · cases hp
    · next heq =>
      rw [heq, ← Option.some.inj hp]
      split_ifs <;> rfl
  · unfold provisioningLine at hp
    split at hp
    · next heq => rw [heq, hlater.out_prov.2]
    · cases hp

theorem prov_line (P : Platform) (w : World) (sock : Nat) (bytes : Bytes) (env : Env) :
    ∃ es, (step P w (.line sock bytes env)).prov = run (provStep P) w.prov es ∧
      ∀ x ∈ es, ProvEvent.From P w (.line sock bytes env) x := by
  have hunwrap : (encFrameUnwrap P w sock bytes).2.prov = w.prov :=
    congrArg Prod.fst (parts_encFrameUnwrap bytes)
  have hkept {w' : World} (h : w'.prov = w.prov) : ∃ es, w'.prov = run (provStep P) w.prov es ∧
      ∀ x ∈ es, ProvEvent.From P w (.line sock bytes env) x :=
    ⟨[], h, fun x hx => absurd hx List.not_mem_nil⟩
  rw [step, handleLine]
  rcases hu : encFrameUnwrap P w sock bytes with ⟨_ | line, x⟩
  · rw [hu] at hunwrap
    exact hkept hunwrap
  · rw [hu] at hunwrap
    have hcases := tcpDispatchLine_cases P env x sock line
    simp only
    generalize tcpDispatchLine P env x sock line = w' at hcases
    cases hcases with
    | refused => exact hkept hunwrap
    | outer hallow =>
      refine ⟨[.line line env.prov], ?_, fun y hy => ?_⟩
      · rw [prov_dispatchBehindPolicy, hunwrap]
        rfl
      · obtain rfl := List.mem_singleton.mp hy
        exact ⟨sock, bytes, env, x, rfl, rfl, hu, hallow⟩
    | noSession => exact hkept ((Edits.refl (T := ∅)).err.prov.trans hunwrap)
    | @handled i =>
      exact hkept ((handled_handleKind P env x i sock line (lineKind line)).prov.trans hunwrap)

theorem prov_step (P : Platform) (w : World) (e : Event) :
    ∃ es, (step P w e).prov = run (provStep P) w.prov es ∧
      ∀ x ∈ es, ProvEvent.From P w e x := by
  by_cases hline : ∃ sock bytes env, e = .line sock bytes env
  · obtain ⟨sock, bytes, env, rfl⟩ := hline
    exact prov_line P w sock bytes env
  by_cases hboot : ∃ factory env, e = .reboot factory env
  · obtain ⟨factory, env, rfl⟩ := hboot
    cases factory with
    | false => exact ⟨[.reboot], rfl, fun x hx => (List.mem_singleton.mp hx) ▸ ⟨false, env, rfl⟩⟩
    | true =>
      refine ⟨[.reboot, .reboot], rfl, fun x hx => ?_⟩
      rcases List.mem_pair.mp hx with rfl | rfl <;> exact ⟨true, env, rfl⟩
  · push Not at hline hboot
    exact ⟨[], congrArg Prod.fst (parts_step hline hboot), fun x hx => absurd hx List.not_mem_nil⟩

/-- In every run of the device provisioning makes a run of its own, from boot with nothing in
flash. -/
theorem prov_run (P : Platform) (es : List Event) :
    ∃ ps, (run (step P) World.fresh es).prov = provRun P {} ps ∧
      ∀ x ∈ ps, ∃ t ∈ trace (step P) World.fresh es, ProvEvent.From P t.before t.event x := by
  refine history_induction (s := World.fresh) (Q := fun tr w => ∃ ps, w.prov = provRun P {} ps ∧
    ∀ x ∈ ps, ∃ t ∈ tr, ProvEvent.From P t.before t.event x)
    ⟨[], rfl, fun x hx => absurd hx List.not_mem_nil⟩ ?_ es
  rintro tr w e ⟨ps, hps, hfrom⟩
  obtain ⟨new, hnew, hfromNew⟩ := prov_step P w e
  refine ⟨ps ++ new, ?_, fun x hx => ?_⟩
  · rw [hnew, hps, provRun, provRun, run_append]
  · rcases List.mem_append.mp hx with hx | hx
    · obtain ⟨t, ht, hxt⟩ := hfrom x hx
      exact ⟨t, List.mem_append_left _ ht, hxt⟩
    · exact ⟨_, List.mem_append_right _ (List.mem_singleton_self _), hfromNew x hx⟩

/-! ## Pairing events -/

theorem Pushed.refl (q : EventQueue) : Pushed q q :=
  ⟨[], fun _ hx => absurd hx List.not_mem_nil, fun _ hu => hu⟩

theorem Pushed.push {q q' : EventQueue} (h : Pushed q q') (storeOk : Bool) (unix : Nat)
    (event userSub role : Bytes) :
    Pushed q (pairingEventsPush q' storeOk unix event userSub role) := by
  obtain ⟨es, hes, hq⟩ := h
  refine ⟨es ++ [.push storeOk unix event userSub role], fun x hx => ?_, fun u hu => ?_⟩
  · rcases List.mem_append.mp hx with hx | hx
    · exact hes x hx
    · exact List.mem_singleton.mp hx ▸ rfl
  · rw [run_append, ← hq u hu]
    simp only [run_cons, run_nil, uplinkStep, Uplink.push]
    split_ifs <;> rfl

theorem Pushed.trans {q q' q'' : EventQueue} (h : Pushed q q') (h' : Pushed q' q'') :
    Pushed q q'' := by
  obtain ⟨es, hes, hq⟩ := h
  obtain ⟨es', hes', hq'⟩ := h'
  refine ⟨es ++ es', fun x hx => (List.mem_append.mp hx).elim (hes x) (hes' x), fun u hu => ?_⟩
  rw [run_append]
  exact hq' _ (hq u hu)

theorem Edits.pushed (h : Edits P T w w') : Pushed w.events w'.events := by
  induction h with
  | refl => exact .refl _
  | sessions h hp ih => exact ih
  | setPw h ih | setList h ih | discoveryMode h ih | send h ih => exact ih
  | pushEvent h ih => exact ih.push ..
  | @frame x sock payload h ih =>
    have hsame : (encFrameSend P x sock payload).events = x.events :=
      congrArg Prod.snd (parts_encFrameSend payload)
    rw [hsame]
    exact ih

theorem Handled.pushed (h : Handled P T w w') : Pushed w.events w'.events := by
  cases h with
  | edits h => exact h.pushed
  | settled h => exact h.pushed

theorem Outer.events (h : Outer sock line w w') : w'.events = w.events := by
  induction h with
  | refl => rfl
  | enter h ih | prov h ih | pairing h ih | ota h ih | send h ih => exact ih
  | @reply x r h ih =>
    obtain ⟨id, tcp, mqtt, heq⟩ := appReply_eq x r
    rw [heq]
    exact ih

theorem pushed_step {e : Event} (hboot : ∀ factory env, e ≠ .reboot factory env) :
    Pushed w.events (step P w e).events := by
  by_cases hline : ∃ sock bytes env, e = .line sock bytes env
  · obtain ⟨sock, bytes, env, rfl⟩ := hline
    have hunwrap : (encFrameUnwrap P w sock bytes).2.events = w.events :=
      congrArg Prod.snd (parts_encFrameUnwrap bytes)
    rw [step, handleLine]
    rcases hu : encFrameUnwrap P w sock bytes with ⟨_ | line, x⟩
    · rw [hu] at hunwrap
      exact hunwrap ▸ .refl _
    · rw [hu] at hunwrap
      rw [← hunwrap]
      have hcases := tcpDispatchLine_cases P env x sock line
      simp only
      generalize tcpDispatchLine P env x sock line = w' at hcases
      cases hcases with
      | refused => exact .refl _
      | outer =>
        rw [(outer_dispatchBehindPolicy P env x sock line).events]
        exact .refl _
      | noSession => exact (Edits.refl (T := ∅)).err.pushed
      | @handled i => exact (handled_handleKind P env x i sock line (lineKind line)).pushed
  · push Not at hline
    have hsame : (step P w e).events = w.events := congrArg Prod.snd (parts_step hline hboot)
    rw [hsame]
    exact .refl _

theorem pushed_run (P : Platform) (w : World) (es : List Event)
    (hboot : ∀ e ∈ es, ∀ factory env, e ≠ .reboot factory env) :
    Pushed w.events (run (step P) w es).events := by
  induction es generalizing w with
  | nil => exact .refl _
  | cons e es ih =>
    have hone : Pushed w.events (step P w e).events := pushed_step (hboot e List.mem_cons_self)
    exact hone.trans (ih _ fun x hx => hboot x (List.mem_cons_of_mem e hx))

end Parts

end CyThing
