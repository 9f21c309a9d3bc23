import CyThing.SendTask
import CyThing.Replay

/-! Nonces: no encryption of the device repeats a nonce under its key, uses a key that no
handshake ended in, or uses a nonce that the device would accept. The send counter of a session
is a meter that starts over only with a new key. -/

namespace CyThing
open CLib Trace KeyedCounter

/-! ## The send counters as meters -/

def sealOf (x : Block 32 × Nat) : Block 32 × Bytes :=
  (x.1, encNonce encFrameDirToApp (x.2 % 2 ^ 64))

structure Metered (w : World) (m : Meters Slot (Block 32)) : Prop where
  cell : ∀ i, (w.pool i).keyed = true →
    ∃ c, m.cell i = some ((w.pool i).key, c) ∧ (w.pool i).txCtr = c % 2 ^ 64
  log : w.seals.map (fun x => (x.key, x.nonce)) = m.log.map sealOf

def ByOne (ops : List (Op Slot (Block 32))) : Prop := ∀ i d, Op.advance i d ∈ ops → d = 0

def SealsUnder (w w' : World) : Prop :=
  ∃ new, w'.seals = w.seals ++ new ∧
    ∀ x ∈ new, (w.pool x.slot).keyed = true ∧ (w.pool x.slot).key = x.key

structure Meter (w w' : World) (ks : List (Block 32)) : Prop where
  under : SealsUnder w w'
  meters : ∀ m, Metered w m →
    ∃ ops, keys ops = ks ∧ ByOne ops ∧ Metered w' (run Meters.apply m ops)

section Meter

variable {P : Platform} {T : Set Slot} {w w' w'' : World} {i : Slot} {sock : Nat}

theorem SealsUnder.of_seals (h : w'.seals = w.seals) : SealsUnder w w' :=
  ⟨[], by rw [h, List.append_nil], fun _ hx => absurd hx List.not_mem_nil⟩

theorem Meter.of_sessions (hseals : w'.seals = w.seals)
    (h : ∀ j, (w'.pool j).keyed = true → (w.pool j).keyed = true ∧
      (w'.pool j).key = (w.pool j).key ∧ (w'.pool j).txCtr = (w.pool j).txCtr) :
    Meter w w' [] := by
  refine ⟨.of_seals hseals, fun m hm => ⟨[], rfl, fun _ _ hmem => (by cases hmem), ?_, ?_⟩⟩
  · intro j hk'
    obtain ⟨hk, hkey, htx⟩ := h j hk'
    rw [hkey, htx]
    exact hm.cell j hk
  · rw [hseals]
    exact hm.log

theorem Meter.of_pool (hseals : w'.seals = w.seals) (hpool : w'.pool = w.pool) :
    Meter w w' [] := by
  refine .of_sessions hseals fun j hk => ?_
  rw [hpool] at hk ⊢
  exact ⟨hk, rfl, rfl⟩

theorem ByOne.append {ops ops' : List (Op Slot (Block 32))} (h : ByOne ops) (h' : ByOne ops') :
    ByOne (ops ++ ops') := fun i d hmem =>
  (List.mem_append.mp hmem).elim (h i d) (h' i d)

theorem Meter.trans {ks : List (Block 32)} (h : Meter w w' []) (hkeeps : ∀ j, KeepsKey w w' j)
    (h' : Meter w' w'' ks) : Meter w w'' ks := by
  constructor
  · obtain ⟨new, hnew, hunder⟩ := h.under
    obtain ⟨new', hnew', hunder'⟩ := h'.under
    refine ⟨new ++ new', by rw [hnew', hnew, List.append_assoc], fun x hx => ?_⟩
    rcases List.mem_append.mp hx with hx | hx
    · exact hunder x hx
    · obtain ⟨hk, hkey⟩ := hunder' x hx
      obtain ⟨hk, hsame⟩ := hkeeps x.slot hk
      exact ⟨hk, hsame.symm.trans hkey⟩
  · intro m hm
    obtain ⟨ops, hkeys, hone, hm'⟩ := h.meters m hm
    obtain ⟨ops', hkeys', hone', hm''⟩ := h'.meters _ hm'
    refine ⟨ops ++ ops', ?_, hone.append hone', by rwa [run_append]⟩
    rw [keys_append, hkeys, hkeys', List.nil_append]

theorem meter_encFrameSeal (P : Platform) (sock : Nat) (plain : Bytes)
    (hk : (w.pool i).keyed = true) : Meter w (encFrameSeal P w i sock plain) [] := by
  -- whether the cipher answers makes no difference to counter and log
  have hseal : ∃ x : World, encFrameSeal P w i sock plain = x ∧
      x.pool = Function.update w.pool i
        { w.pool i with txCtr := ((w.pool i).txCtr + 1) % 2 ^ 64 } ∧
      x.seals = w.seals ++ [⟨i, (w.pool i).key,
        encNonce encFrameDirToApp (((w.pool i).txCtr + 1) % 2 ^ 64)⟩] := by
    refine ⟨_, rfl, ?_⟩
    simp only [encFrameSeal]
    split <;> exact ⟨rfl, rfl⟩
  obtain ⟨x, hx, hpool, hseals⟩ := hseal
  rw [hx]
  refine ⟨⟨_, hseals, fun y hy => ?_⟩, fun m hm => ?_⟩
  · rw [List.mem_singleton.mp hy]
    exact ⟨hk, rfl⟩
  obtain ⟨c, hc, htx⟩ := hm.cell i hk
  have hnext : ((w.pool i).txCtr + 1) % 2 ^ 64 = (c + 0 + 1) % 2 ^ 64 := by
    rw [htx]
    omega
  refine ⟨[.advance i 0], rfl, fun j d hmem => ?_, fun j hkj => ?_, ?_⟩
  · cases List.mem_singleton.mp hmem
    rfl
  · rw [run_cons, run_nil, Meters.apply_advance 0 hc]
    rw [hpool] at hkj ⊢
    by_cases hj : j = i
    · subst hj
      rw [Function.update_self]
      exact ⟨c + 0 + 1, Function.update_self .., hnext⟩
    · rw [Function.update_of_ne hj] at hkj ⊢
      obtain ⟨d, hd, htxj⟩ := hm.cell j hkj
      exact ⟨d, (Function.update_of_ne hj ..).trans hd, htxj⟩
  · rw [run_cons, run_nil, Meters.apply_advance 0 hc, hseals, List.map_append, hm.log,
      List.map_append]
    simp only [List.map_cons, List.map_nil, sealOf, hnext]

theorem meter_encFrameSend (P : Platform) (w : World) (sock : Nat) (payload : Bytes) :
    Meter w (encFrameSend P w sock payload) [] := by
  rw [encFrameSend]
  split
  · exact .of_pool rfl rfl
  next i _ =>
  by_cases hk : (w.pool i).keyed = true
  · simp only [hk, Bool.not_true, Bool.false_eq_true, if_false]
    split_ifs
    · exact .of_pool rfl rfl
    · exact meter_encFrameSeal P sock _ hk
  · rw [Bool.not_eq_true] at hk
    simp only [hk, Bool.not_false, if_true]
    exact .of_pool rfl rfl

theorem Edits.meter (h : Edits P T w w') : Meter w w' [] := by
  induction h with
  | refl => exact .of_pool rfl rfl
  | sessions h hp ih =>
    refine ih.trans h.keepsKey (.of_sessions rfl fun j hk => ?_)
    rcases (hp j).keyed with hno | ⟨hs, hkey, htx, -⟩
    · rw [hno] at hk
      cases hk
    · refine ⟨?_, hkey, htx⟩
      rwa [LocalSession.keyed, hs] at hk
  | setPw h ih | setList h ih | pushEvent h ih | discoveryMode h ih | send h ih =>
    exact ih.trans h.keepsKey (.of_pool rfl rfl)
  | frame h ih => exact ih.trans h.keepsKey (meter_encFrameSend ..)

theorem Handled.meter (h : Handled P T w w') : Meter w w' (completed w w') := by
  cases h with
  | edits h =>
    rw [completed_kept h.keepsKey]
    exact h.meter
  | @settled x i st h hi hk hst =>
    have hkeyed : ((x.setSession i
        { x.pool i with txCtr := 0, rxCtr := 0, state := st }).pool i).keyed = true := by
      rw [World.setSession_self, LocalSession.keyed_iff]
      exact hst
    have hother (j : Slot) (hj : j ≠ i) :
        (x.setSession i { x.pool i with txCtr := 0, rxCtr := 0, state := st }).pool j =
          x.pool j := Function.update_of_ne hj ..
    rw [completed_settled hk hkeyed fun j hj => by rw [KeepsKey, hother j hj]; exact h.keepsKey j]
    refine ⟨h.meter.under, fun m hm => ?_⟩
    obtain ⟨ops, hkeys, hone, hm'⟩ := h.meter.meters m hm
    refine ⟨ops ++ [.rekey i (x.pool i).key], ?_, hone.append fun j d hmem => ?_, fun j hkj => ?_,
      by rw [run_append]; exact hm'.log⟩
    · rw [keys_concat, hkeys, World.setSession_self]
      rfl
    · cases List.mem_singleton.mp hmem
    · rw [run_append]
      by_cases hj : j = i
      · subst hj
        rw [World.setSession_self]
        exact ⟨0, Function.update_self .., rfl⟩
      · rw [hother j hj] at hkj ⊢
        obtain ⟨c, hc, htx⟩ := hm'.cell j hkj
        exact ⟨c, (Function.update_of_ne hj ..).trans hc, htx⟩

end Meter

/-! ## Steps and runs -/

section Steps

variable {P : Platform} {w : World}

theorem meter_encFrameUnwrap (P : Platform) (w : World) (sock : Nat) (bytes : Bytes) :
    Meter w (encFrameUnwrap P w sock bytes).2 [] := by
  have hset (i : Slot) (ctr : Nat) (enc : Bool) :
      Meter w (w.setSession i { w.pool i with rxCtr := ctr, rxEncrypted := enc }) [] := by
    refine .of_sessions rfl fun j hk => ?_
    by_cases hj : j = i
    · subst hj
      rw [World.setSession_self] at hk ⊢
      exact ⟨hk, rfl, rfl⟩
    · have hsame : (w.setSession i { w.pool i with rxCtr := ctr, rxEncrypted := enc }).pool j =
          w.pool j := Function.update_of_ne hj ..
      rw [hsame] at hk ⊢
      exact ⟨hk, rfl, rfl⟩
  have hu := encFrameUnwrap_unwrapped P w sock bytes
  generalize encFrameUnwrap P w sock bytes = x at hu
  cases hu with
  | stray | refused => exact .of_pool rfl rfl
  | plain => exact hset _ _ _
  | opened => exact hset _ _ _

theorem meter_tcpDispatchLine (P : Platform) (env : Env) (w : World) (sock : Nat)
    (line : Bytes) :
    Meter w (tcpDispatchLine P env w sock line)
      (completed w (tcpDispatchLine P env w sock line)) := by
  have hkept {w' : World} (hpool : w'.pool = w.pool) (hseals : w'.seals = w.seals) :
      Meter w w' (completed w w') := by
    have hkeeps (j : Slot) : KeepsKey w w' j := by
      rw [KeepsKey, hpool]
      exact fun hk => ⟨hk, rfl⟩
    rw [completed_kept hkeeps]
    exact .of_pool hseals hpool
  have hcases := tcpDispatchLine_cases P env w sock line
  generalize tcpDispatchLine P env w sock line = w' at hcases
  cases hcases with
  | refused => exact hkept rfl rfl
  | outer =>
    obtain ⟨hpool, hseals⟩ := (outer_dispatchBehindPolicy P env w sock line).link
    exact hkept hpool hseals
  | noSession => exact (Handled.edits (Edits.refl (T := ∅)).err).meter
  | @handled i => exact (handled_handleKind P env w i sock line (lineKind line)).meter

theorem meter_step (P : Platform) (w : World) {e : Event} (hsend : e ≠ .send) :
    Meter w (step P w e) (completed w (step P w e)) := by
  by_cases he : ∃ sock bytes env, e = .line sock bytes env
  · obtain ⟨sock, bytes, env, rfl⟩ := he
    have hcore := core_encFrameUnwrap P w sock bytes
    have hunwrap := meter_encFrameUnwrap P w sock bytes
    simp only [step, handleLine]
    rcases hu : encFrameUnwrap P w sock bytes with ⟨_ | line, x⟩
    · rw [hu] at hcore hunwrap
      rw [completed_kept fun j => .of_core_eq hcore j]
      exact hunwrap
    · rw [hu] at hcore hunwrap
      have hkeyed (j : Slot) : (x.pool j).keyed = (w.pool j).keyed := by
        have hj : (x.core.pool j).keyed = (w.core.pool j).keyed := by rw [hcore]
        exact hj
      have hsame : completed w (tcpDispatchLine P env x sock line) =
          completed x (tcpDispatchLine P env x sock line) := by
        simp only [completed, hkeyed]
      rw [hsame]
      exact hunwrap.trans (fun j => .of_core_eq hcore j) (meter_tcpDispatchLine P env x sock line)
  · have hline : ∀ sock bytes env, e ≠ .line sock bytes env := fun sock bytes env h =>
      he ⟨sock, bytes, env, h⟩
    rw [completed_kept (keepsKey_step hline)]
    refine .of_sessions ?_ fun j hk => ?_
    · by_cases hboot : ∃ factory env, e = .reboot factory env
      · obtain ⟨factory, env, rfl⟩ := hboot
        cases factory <;> rfl
      · push Not at hboot
        obtain ⟨core, accounts, pairing, id, tcp, mqtt, heq⟩ :=
          step_quiet (P := P) (w := w) hline hsend hboot
        rw [heq]
    · have hsame := keyed_step hline hsend hk
      rw [hsame] at hk ⊢
      exact ⟨hk, rfl, rfl⟩

theorem sendRoute_link (w : World) :
    (sendRoute w).1.pool = w.pool ∧ (sendRoute w).1.seals = w.seals := by
  unfold sendRoute
  dsimp only
  repeat' split
  all_goals exact ⟨rfl, rfl⟩

theorem sendLookup_link (w : World) (dst : Nat) (payload : Bytes) (toAll : Bool) :
    (sendLookup w dst payload toAll).1.pool = w.pool ∧
      (sendLookup w dst payload toAll).1.seals = w.seals := by
  unfold sendLookup
  repeat' split
  all_goals exact ⟨rfl, rfl⟩

theorem meter_sendStep (P : Platform) (w : World) (point : SendPoint) :
    Meter w (sendStep P w point).1 [] ∧ ∀ j, KeepsKey w (sendStep P w point).1 j := by
  have hpool {w' : World} (h : w'.pool = w.pool ∧ w'.seals = w.seals) :
      Meter w w' [] ∧ ∀ j, KeepsKey w w' j := by
    refine ⟨.of_pool h.2 h.1, fun j => ?_⟩
    rw [KeepsKey, h.1]
    exact fun hk => ⟨hk, rfl⟩
  cases point with
  | idle => exact hpool (sendRoute_link w)
  | routed dst payload toAll => exact hpool (sendLookup_link w dst payload toAll)
  | locking i dst payload toAll =>
    simp only [sendStep, sendLocked]
    split_ifs with hstill
    · exact ⟨meter_encFrameSeal P dst _ hstill.1,
        fun j => .of_core_eq (core_encFrameSeal P w i dst _) j⟩
    · exact hpool ⟨rfl, rfl⟩

theorem meter_linkStep (P : Platform) (l : Link) (e : LinkEvent) :
    Meter l.world (linkStep P l e).world (completed l.world (linkStep P l e).world) := by
  cases e with
  | send =>
    obtain ⟨hmeter, hkeeps⟩ := meter_sendStep P l.world l.point
    rw [linkStep, completed_kept hkeeps]
    exact hmeter
  | other e =>
    by_cases hsend : e = .send
    · rw [hsend, linkStep, completed_kept fun j hk => ⟨hk, rfl⟩]
      exact .of_pool rfl rfl
    · rw [linkStep_other P l hsend]
      exact meter_step P l.world hsend

end Steps

def linkKeys (tr : List (Step Link LinkEvent)) : List (Block 32) :=
  tr.flatMap fun t => completed t.before.world t.after.world

theorem metered_run (P : Platform) (ls : List LinkEvent) :
    ∃ ops, keys ops = linkKeys (trace (linkStep P) {} ls) ∧ ByOne ops ∧
      Metered (run (linkStep P) {} ls).world (run Meters.apply {} ops) := by
  refine history_induction (Q := fun tr l => ∃ ops, keys ops = linkKeys tr ∧ ByOne ops ∧
    Metered l.world (run Meters.apply {} ops))
    ⟨[], rfl, fun _ _ hmem => (by cases hmem), fun _ hk => (by cases hk), rfl⟩ ?_ ls
  rintro tr l e ⟨ops, hkeys, hone, hm⟩
  obtain ⟨new, hnew, hone', hm'⟩ := (meter_linkStep P l e).meters _ hm
  refine ⟨ops ++ new, ?_, hone.append hone', by rwa [run_append]⟩
  rw [keys_append, hkeys, hnew, linkKeys, linkKeys, List.flatMap_append, List.flatMap_singleton]

/-! ## Nonces -/

def frameNonce (P : Platform) (line : Bytes) : Option Bytes :=
  (splitFirst 44 (line.drop encPrefix.length)).bind fun p =>
    P.decodeInto (encFrameNonceLen + 1) p.1

def acceptedNonce (P : Platform) (t : Step Link LinkEvent) : Option Bytes :=
  match t.event with
  | .other (.line sock bytes _) =>
    if isEncLine bytes = true ∧ (dispatched P t.before.world sock bytes).isSome = true then
      frameNonce P bytes
    else none
  | _ => none

theorem sealOf_injOn {x y : Block 32 × Nat} (hx : x.2 < 2 ^ 64) (hy : y.2 < 2 ^ 64)
    (h : sealOf x = sealOf y) : x = y := by
  obtain ⟨hkey, hnonce⟩ := Prod.mk.inj h
  rw [Nat.mod_eq_of_lt hx, Nat.mod_eq_of_lt hy] at hnonce
  refine Prod.ext hkey ?_
  rw [← (getBe_encNonce encFrameDirToApp x.2 (by decide) hx).2, hnonce,
    (getBe_encNonce encFrameDirToApp y.2 (by decide) hy).2]

theorem Acceptable.dir {P : Platform} {s : LocalSession} {line plain nonce : Bytes} {ctr : Nat}
    (h : Acceptable P s line ctr plain) (hn : frameNonce P line = some nonce) :
    getBe (nonce.take 4) = encFrameDirToDev := by
  obtain ⟨n64, c64, nonce', ct, rfl, hcomma, hdecode, -, -, -, hdir, -⟩ := h
  have hsplit : splitFirst 44 ((encPrefix ++ (n64 ++ 44 :: c64)).drop encPrefix.length) =
      some (n64, c64) := by
    rw [List.drop_left]
    exact splitFirst_eq_some.mpr ⟨rfl, hcomma⟩
  rw [frameNonce, hsplit, Option.bind_some, decodeInto_eq_some, hdecode] at hn
  cases hn.1
  exact hdir

theorem acceptedNonce_dir {P : Platform} {t : Step Link LinkEvent} {nonce : Bytes}
    (h : acceptedNonce P t = some nonce) : getBe (nonce.take 4) = encFrameDirToDev := by
  unfold acceptedNonce at h
  split at h
  · split_ifs at h with hacc
    obtain ⟨line, hline⟩ := Option.isSome_iff_exists.mp hacc.2
    obtain ⟨i, ctr, -, -, hframe⟩ := (dispatched_frame_iff hacc.1).mp hline
    exact hframe.dir h
  · cases h

/-- Over every run in which no two handshakes end in the same key and no key is used for 2^64
encryptions: no two encryptions use the same nonce under the same key; every encryption is
under the key of a handshake that was completed, held by a keyed session when the step began;
and no nonce is one of a frame that the device accepts. -/
theorem nonces_never_repeat (P : Platform) (ls : List LinkEvent)
    (hkeys : (linkKeys (trace (linkStep P) {} ls)).Nodup)
    (hfew : ∀ k, ((run (linkStep P) {} ls).world.seals.filter fun x => x.key = k).length <
      2 ^ 64) :
    let tr := trace (linkStep P) {} ls
    let seals := (run (linkStep P) {} ls).world.seals
    (seals.map fun x => (x.key, x.nonce)).Nodup ∧
      (∀ x ∈ seals, x.key ∈ linkKeys tr) ∧
      (∀ t ∈ tr, SealsUnder t.before.world t.after.world) ∧
      ∀ x ∈ seals, ∀ t ∈ tr, acceptedNonce P t ≠ some x.nonce := by
  intro tr seals
  obtain ⟨ops, hops, hone, hm⟩ := metered_run P ls
  rw [← hops] at hkeys
  have hsound := sound_run ops hkeys
  have hsteady := steady_run ops hkeys hone
  -- a number in the log is at most the count of encryptions under its key
  have hlt : ∀ x ∈ (run Meters.apply {} ops).log, x.2 < 2 ^ 64 := by
    rintro ⟨k, n⟩ hx
    have hcount : (logged k (run Meters.apply {} ops).log).length =
        ((run (linkStep P) {} ls).world.seals.filter fun x => x.key = k).length := by
      have hlog := congrArg (fun l => (l.filter fun p => p.1 = k).length) hm.log
      simp only [List.filter_map, List.length_map] at hlog
      rw [logged, List.length_map]
      exact hlog.symm
    exact Nat.lt_of_le_of_lt (hsteady.bound k n hx) (hcount ▸ hfew k)
  have hfrom : ∀ x ∈ seals, ∃ y ∈ (run Meters.apply {} ops).log, sealOf y = (x.key, x.nonce) := by
    intro x hx
    have hmem := List.mem_map_of_mem (f := fun x : Seal => (x.key, x.nonce)) hx
    rw [hm.log] at hmem
    exact List.mem_map.mp hmem
  refine ⟨?_, fun x hx => ?_, fun t ht => ?_, fun x hx t ht hnonce => ?_⟩
  · rw [hm.log]
    exact hsound.log_nodup.map_on fun x hx y hy => sealOf_injOn (hlt x hx) (hlt y hy)
  · obtain ⟨y, hy, hxy⟩ := hfrom x hx
    rw [← hops, ← (Prod.mk.inj hxy).1]
    exact hsound.log y.1 y.2 hy
  · obtain ⟨-, -, -, -, ha⟩ := mem_trace ht
    rw [ha]
    exact (meter_linkStep P t.before t.event).under
  · obtain ⟨y, hy, hxy⟩ := hfrom x hx
    have hdir := acceptedNonce_dir hnonce
    rw [← (Prod.mk.inj hxy).2,
      (getBe_encNonce encFrameDirToApp _ (by decide) (Nat.mod_lt _ (by decide))).1] at hdir
    cases hdir

namespace Sample

def phoneNonce : Block localAuthNonceLen := .fit localAuthNonceLen (ascii "phone")

def ownerReturns : List Event :=
  [.accept 5 1 true,
    .line 5 (ascii "AUTH1:" ++ b64 "owner" ++ ascii "," ++ Base64.encode phoneNonce.1) {},
    .line 5 (ascii "AUTH3:" ++ Base64.encode
      (proof platform (.zero 32) phnLabel zeroNonce phoneNonce).1) {}]

def respond (text : String) : List LinkEvent :=
  .other (.queue (.raw 5 (ascii text))) :: List.replicate 4 .send

def twoHandshakes : List LinkEvent :=
  ownerJoins.map .other ++ respond "one" ++ (.other (.close 5) :: ownerReturns.map .other) ++
    respond "two"

theorem two_handshakes_seal_apart :
    let seals := (run (linkStep platform) {} twoHandshakes).world.seals
    seals.map (·.nonce) = [encNonce 2 1, encNonce 2 2, encNonce 2 1] ∧
      (seals.map fun x => (x.key, x.nonce)).Nodup := by
  have hlen : (run (linkStep platform) {} twoHandshakes).world.seals.length < 2 ^ 64 := by
    decide +kernel
  exact ⟨by decide +kernel, (nonces_never_repeat platform twoHandshakes (by decide +kernel)
    fun k => Nat.lt_of_le_of_lt (List.length_filter_le _ _) hlen).1⟩

end Sample

end CyThing
