import CyThing.Keying
import CyThing.Lib.KeyedCounter
import CyThing.Sample

/-! Replay and reflection: which frames a session accepts, and that the counters of the frames
accepted under one key go strictly up over every run. -/

namespace CyThing
open CLib Trace KeyedCounter

/-! ## Which frames are accepted -/

/-- `line` is `ENC:<b64 of 12 bytes>,<b64 of at least 16 bytes>` with the direction to the
device and the counter `ctr`, newer than the last one, and decrypts to `plain`. -/
def Acceptable (P : Platform) (s : LocalSession) (line : Bytes) (ctr : Nat) (plain : Bytes) :
    Prop :=
  ∃ n64 c64 nonce ct,
    line = encPrefix ++ (n64 ++ 44 :: c64) ∧ (44 : UInt8) ∉ n64 ∧
    P.base64Decode n64 = some nonce ∧ nonce.length = encFrameNonceLen ∧
    P.base64Decode c64 = some ct ∧ encFrameTagLen ≤ ct.length ∧
    getBe (nonce.take 4) = encFrameDirToDev ∧ getBe (nonce.drop 4) = ctr ∧ s.rxCtr < ctr ∧
    ct.length - encFrameTagLen ≤ encFramePlainMax ∧
    P.aeadDecrypt s.key nonce ct = some plain ∧ plain.length = ct.length - encFrameTagLen

section Open

variable {P : Platform} {s : LocalSession} {line plain : Bytes} {ctr : Nat}

theorem eq_append_of_isEncLine (h : isEncLine line = true) :
    line = encPrefix ++ line.drop encPrefix.length := by
  simp only [isEncLine, Bool.and_eq_true, hasPrefix_iff] at h
  exact (List.prefix_iff_eq_append.mp h.2).symm

theorem acceptable_of_openFrame (henc : isEncLine line = true)
    (h : openFrame P s line = some (ctr, plain)) : Acceptable P s line ctr plain := by
  unfold openFrame at h
  split at h
  · cases h
  next n64 c64 hsplit =>
  obtain ⟨hline, hcomma⟩ := splitFirst_eq_some.mp hsplit
  split at h
  · cases h
  next nonce hnonce =>
  split_ifs at h with hlen
  split at h
  · cases h
  next ct hct =>
  simp only at h
  split_ifs at h with hshort hold hlong
  split at h
  · cases h
  next p hplain =>
  split_ifs at h with hgot
  cases h
  simp only [not_or, not_not, Nat.not_le] at hold
  refine ⟨n64, c64, nonce, ct, ?_, hcomma, (decodeInto_eq_some.mp hnonce).1, not_not.mp hlen,
    (decodeInto_eq_some.mp hct).1, Nat.le_of_not_lt hshort, hold.1, rfl, hold.2,
    Nat.le_of_not_lt hlong, hplain, not_not.mp hgot⟩
  rw [← hline]
  exact eq_append_of_isEncLine henc

theorem openFrame_of_acceptable (h : Acceptable P s line ctr plain) :
    openFrame P s line = some (ctr, plain) := by
  obtain ⟨n64, c64, nonce, ct, rfl, hcomma, hnonce, hlen, hct, hshort, hdir, rfl, hnew, hlong,
    hplain, hgot⟩ := h
  have hsplit : splitFirst 44 ((encPrefix ++ (n64 ++ 44 :: c64)).drop encPrefix.length) =
      some (n64, c64) := by
    rw [List.drop_left]
    exact splitFirst_eq_some.mpr ⟨rfl, hcomma⟩
  have hnonce' : P.decodeInto (encFrameNonceLen + 1) n64 = some nonce :=
    decodeInto_eq_some.mpr ⟨hnonce, hlen.trans_le (Nat.le_succ _)⟩
  have hfit : ct.length ≤ tcpReceiveDataLength := by
    have hle : ct.length - 16 ≤ 768 := hlong
    change ct.length ≤ 5120
    omega
  have hct' : P.decodeInto tcpReceiveDataLength c64 = some ct :=
    decodeInto_eq_some.mpr ⟨hct, hfit⟩
  have hgo : ¬(getBe (nonce.take 4) ≠ encFrameDirToDev ∨ getBe (nonce.drop 4) ≤ s.rxCtr) := by
    rw [not_or, not_not]
    exact ⟨hdir, Nat.not_le.mpr hnew⟩
  simp only [openFrame, hsplit, hnonce', hct', hplain, if_neg (not_not.mpr hlen),
    if_neg (Nat.not_lt.mpr hshort), if_neg hgo, if_neg (Nat.not_lt.mpr hlong),
    if_neg (not_not.mpr hgot)]

theorem dispatched_frame_iff {w : World} {sock : Nat} (henc : isEncLine line = true) :
    dispatched P w sock line = some plain ↔
      ∃ i ctr, localSessionFind w.pool sock = some i ∧ (w.pool i).keyed = true ∧
        Acceptable P (w.pool i) line ctr plain := by
  have hu := encFrameUnwrap_unwrapped P w sock line
  rw [dispatched]
  generalize encFrameUnwrap P w sock line = x at hu
  cases hu with
  | stray hplain | plain hplain =>
    rw [henc] at hplain
    cases hplain
  | refused _ hopen =>
    refine ⟨fun h => (by cases h), ?_⟩
    rintro ⟨i, ctr, hf, hk, hacc⟩
    cases (hopen i hf hk).symm.trans (openFrame_of_acceptable hacc)
  | opened _ hf hk hopen =>
    constructor
    · rintro ⟨⟩
      exact ⟨_, _, hf, hk, acceptable_of_openFrame henc hopen⟩
    · rintro ⟨j, ctr', hj, -, hacc⟩
      obtain rfl := Option.some.inj (hf.symm.trans hj)
      cases hopen.symm.trans (openFrame_of_acceptable hacc)
      rfl

theorem step_refused {w : World} {sock : Nat} {bytes : Bytes}
    (h : dispatched P w sock bytes = none) (env : Env) :
    step P w (.line sock bytes env) = w.send sock (ascii "ERR:ENC\n") := by
  rw [dispatched] at h
  rcases hu : encFrameUnwrap P w sock bytes with ⟨_ | line, x⟩
  · obtain ⟨rfl, -⟩ := encFrameUnwrap_none hu
    simp only [step, handleLine, hu]
  · rw [hu] at h
    cases h

end Open

/-! ## Counters of one session -/

section Session

variable {P : Platform} {tr : List (Step World Event)} {w : World}

theorem acceptedCounters_increasing (P : Platform) (es : List Event) (i : Slot) :
    (acceptedCounters P i (trace (step P) World.fresh es)).Pairwise (· < ·) := by
  refine (history_induction (Q := fun tr w => CountersBounded P tr w ∧
    (acceptedCounters P i tr).Pairwise (· < ·)) ?_ ?_ es).2
  · exact ⟨⟨fun _ _ => rfl, fun _ _ hk => absurd hk List.not_mem_nil⟩, List.Pairwise.nil⟩
  rintro tr w e ⟨hb, hinc⟩
  refine ⟨hb.step e, ?_⟩
  rw [acceptedCounters_concat]
  split_ifs
  · refine List.pairwise_append.mpr ⟨hinc, ?_, fun a ha c hc => ?_⟩
    · cases acceptedCounter P i ⟨w, e, step P w e⟩ with
      | none => exact List.Pairwise.nil
      | some c => exact List.pairwise_singleton _ c
    · have hnew := (acceptedCounter_some (Option.mem_toList.mp hc)).2
      exact Nat.lt_of_le_of_lt (hb.bound i a ha) hnew
  · exact List.Pairwise.nil

end Session

/-! ## Counters of one key -/

def acceptedFrame (P : Platform) (t : Step World Event) : Option (Block 32 × Nat) :=
  match t.event with
  | .line sock _ _ =>
    (localSessionFind t.before.pool sock).bind fun i =>
      (acceptedCounter P i t).map fun ctr => ((t.before.pool i).key, ctr)
  | _ => none

def acceptedFrames (P : Platform) (tr : List (Step World Event)) : List (Block 32 × Nat) :=
  tr.filterMap (acceptedFrame P)

def completedKeys (tr : List (Step World Event)) : List (Block 32) :=
  tr.flatMap fun t => completed t.before t.after

section Key

variable {P : Platform} {tr : List (Step World Event)} {w : World} {e : Event}
  {m : Meters Slot (Block 32)}

theorem acceptedFrame_cases (P : Platform) (t : Step World Event) :
    (acceptedFrame P t = none ∧ ∀ i, acceptedCounter P i t = none) ∨
      ∃ i ctr, acceptedFrame P t = some ((t.before.pool i).key, ctr) ∧
        acceptedCounter P i t = some ctr ∧ ∀ j, j ≠ i → acceptedCounter P j t = none := by
  obtain ⟨w, e, w'⟩ := t
  cases e with
  | line sock bytes env =>
    have hother (i : Slot) (h : localSessionFind w.pool sock ≠ some i) :
        acceptedCounter P i ⟨w, .line sock bytes env, w'⟩ = none := if_neg fun hacc => h hacc.1
    rcases hf : localSessionFind w.pool sock with _ | i
    · exact .inl ⟨by simp only [acceptedFrame, hf, Option.bind_none],
        fun i => hother i (by rw [hf]; exact (Option.some_ne_none i).symm)⟩
    · have hne (j : Slot) (hj : j ≠ i) := hother j (by rw [hf]; exact fun h => hj (by cases h; rfl))
      have hframe : acceptedFrame P ⟨w, .line sock bytes env, w'⟩ =
          (acceptedCounter P i ⟨w, .line sock bytes env, w'⟩).map fun ctr =>
            ((w.pool i).key, ctr) := by
        simp only [acceptedFrame, hf, Option.bind_some]
      rcases hc : acceptedCounter P i ⟨w, .line sock bytes env, w'⟩ with _ | ctr
      · refine .inl ⟨by rw [hframe, hc, Option.map_none], fun j => ?_⟩
        by_cases hj : j = i
        · rw [hj, hc]
        · exact hne j hj
      · exact .inr ⟨i, ctr, by rw [hframe, hc, Option.map_some], hc, hne⟩
  | _ => exact .inl ⟨rfl, fun _ => rfl⟩

structure Received (P : Platform) (tr : List (Step World Event)) (w : World)
    (m : Meters Slot (Block 32)) : Prop where
  cell : ∀ i, (w.pool i).keyed = true → m.cell i = some ((w.pool i).key, (w.pool i).rxCtr)
  log : m.log = acceptedFrames P tr

theorem Received.frame (h : Received P tr w m) (e : Event) (w' : World) :
    ∃ ops, keys ops = [] ∧
      (run Meters.apply m ops).log = acceptedFrames P (tr ++ [⟨w, e, w'⟩]) ∧
      ∀ i, (w.pool i).keyed = true → (run Meters.apply m ops).cell i =
        some ((w.pool i).key, (acceptedCounter P i ⟨w, e, w'⟩).getD (w.pool i).rxCtr) := by
  have hlog : acceptedFrames P (tr ++ [⟨w, e, w'⟩]) =
      acceptedFrames P tr ++ (acceptedFrame P ⟨w, e, w'⟩).toList := by
    cases hf : acceptedFrame P ⟨w, e, w'⟩ <;> simp [acceptedFrames, List.filterMap_append, hf]
  rcases acceptedFrame_cases P ⟨w, e, w'⟩ with ⟨hnone, hno⟩ | ⟨i, ctr, hsome, hi, hother⟩
  · refine ⟨[], rfl, ?_, fun i hk => ?_⟩
    · rw [hlog, hnone, run_nil, h.log, Option.toList_none, List.append_nil]
    · rw [hno i]
      exact h.cell i hk
  · obtain ⟨hk, hnew⟩ := acceptedCounter_some hi
    have hd : (w.pool i).rxCtr + (ctr - (w.pool i).rxCtr - 1) + 1 = ctr := by
      have : (w.pool i).rxCtr < ctr := hnew
      omega
    have happly := Meters.apply_advance (ctr - (w.pool i).rxCtr - 1) (h.cell i hk)
    rw [hd] at happly
    refine ⟨[.advance i (ctr - (w.pool i).rxCtr - 1)], rfl, ?_, fun j hkj => ?_⟩
    · rw [hlog, hsome, run_cons, run_nil, happly, h.log]
      rfl
    · rw [run_cons, run_nil, happly]
      by_cases hj : j = i
      · subst hj
        rw [hi]
        exact Function.update_self ..
      · rw [hother j hj]
        exact (Function.update_of_ne hj ..).trans (h.cell j hkj)

theorem Received.step (h : Received P tr w m) (e : Event) :
    ∃ ops, keys ops = completed w (CyThing.step P w e) ∧
      Received P (tr ++ [⟨w, e, CyThing.step P w e⟩]) (CyThing.step P w e)
        (run Meters.apply m ops) := by
  obtain ⟨ops, hkeys, hlog, hcell⟩ := h.frame e (CyThing.step P w e)
  have hkept (j : Slot) (hj : KeepsKey w (CyThing.step P w e) j)
      (hk' : ((CyThing.step P w e).pool j).keyed = true) :
      (run Meters.apply m ops).cell j =
        some (((CyThing.step P w e).pool j).key, ((CyThing.step P w e).pool j).rxCtr) := by
    obtain ⟨hk, hkey⟩ := hj hk'
    rw [hcell j hk, hkey, step_rxCtr hk hk']
  rcases step_keying P w e with hall | ⟨hi, hi', hrx, hall⟩
  · exact ⟨ops, by rw [hkeys, completed_kept hall], ⟨fun j hk' => hkept j (hall j) hk', hlog⟩⟩
  · rename_i i
    refine ⟨ops ++ [.rekey i ((CyThing.step P w e).pool i).key], ?_, fun j hk' => ?_, ?_⟩
    · rw [keys_concat, hkeys, completed_settled hi hi' hall]
      rfl
    · rw [run_append]
      by_cases hj : j = i
      · subst hj
        rw [hrx]
        exact Function.update_self ..
      · exact (Function.update_of_ne hj ..).trans (hkept j (hall j hj) hk')
    · rw [run_append]
      exact hlog

theorem received_run (P : Platform) (es : List Event) :
    ∃ ops, keys ops = completedKeys (trace (step P) World.fresh es) ∧
      Received P (trace (step P) World.fresh es) (run (step P) World.fresh es)
        (run Meters.apply {} ops) := by
  refine history_induction (Q := fun tr w => ∃ ops, keys ops = completedKeys tr ∧
    Received P tr w (run Meters.apply {} ops)) ⟨[], rfl, fun _ hk => (by cases hk), rfl⟩ ?_ es
  rintro tr w e ⟨ops, hkeys, h⟩
  obtain ⟨new, hnew, h'⟩ := h.step e
  refine ⟨ops ++ new, ?_, by rwa [run_append]⟩
  rw [keys_append, hkeys, hnew, completedKeys, completedKeys, List.flatMap_append,
    List.flatMap_singleton]

end Key

/-- Over every run: a line longer than `ENC:` that starts with it is passed on exactly when it
is an acceptable frame of the socket's keyed session, and else leaves nothing behind but the
refusal. What a session accepts since it was keyed has strictly rising counters, and so has what
is accepted under any one key if no two handshakes ended in the same key. -/
theorem frames_accepted_in_order (P : Platform) (es : List Event) :
    let w := run (step P) World.fresh es
    let tr := trace (step P) World.fresh es
    (∀ sock bytes, isEncLine bytes = true →
      (∀ line, dispatched P w sock bytes = some line ↔
        ∃ i ctr, localSessionFind w.pool sock = some i ∧ (w.pool i).keyed = true ∧
          Acceptable P (w.pool i) bytes ctr line) ∧
      (dispatched P w sock bytes = none → ∀ env,
        step P w (.line sock bytes env) = w.send sock (ascii "ERR:ENC\n"))) ∧
    (∀ i, (acceptedCounters P i tr).Pairwise (· < ·)) ∧
    ((completedKeys tr).Nodup → ∀ k, (logged k (acceptedFrames P tr)).Pairwise (· < ·)) := by
  refine ⟨fun sock bytes henc => ⟨fun line => dispatched_frame_iff henc, step_refused⟩,
    acceptedCounters_increasing P es, fun hkeys k => ?_⟩
  obtain ⟨ops, hops, hreceived⟩ := received_run P es
  rw [← hreceived.log]
  exact (sound_run ops (hops ▸ hkeys)).increasing k

namespace Sample

def twoFrames : List Event := ownerJoins ++ [ownerSends 2 "DISCOVERYMODE?" {}]

theorem two_frames_in_order :
    let tr := trace (step platform) World.fresh twoFrames
    (completedKeys tr).Nodup ∧
      acceptedFrames platform tr =
        [(pakeKey (ascii "initial0"), 1), (pakeKey (ascii "initial0"), 2)] ∧
      (logged (pakeKey (ascii "initial0")) (acceptedFrames platform tr)).Pairwise (· < ·) :=
  have hkeys : (completedKeys (trace (step platform) World.fresh twoFrames)).Nodup := by
    decide +kernel
  ⟨hkeys, by decide +kernel,
    (frames_accepted_in_order platform twoFrames).2.2 hkeys (pakeKey (ascii "initial0"))⟩

/-- The four bytes `ENC:` alone are no frame to the device, and it passes them on as a plain
line. And on this platform two phones that pair with the same secrets get the same key, under
which counter 1 is then accepted twice. -/
theorem bare_prefix_passes :
    let w := run (step platform) World.fresh ownerJoins
    dispatched platform w 5 (ascii "ENC:") = some (ascii "ENC:") ∧
      (∀ s ctr line, ¬ Acceptable platform s (ascii "ENC:") ctr line) ∧
      logged (pakeKey (ascii "initial0"))
        (acceptedFrames platform (trace (step platform) World.fresh twoPhones)) = [1, 1] := by
  refine ⟨by decide +kernel, ?_, by decide +kernel⟩
  rintro s ctr line ⟨n64, c64, nonce, ct, hline, -⟩
  have hlen := congrArg List.length hline
  simp [encPrefix, ascii] at hlen

end Sample

end CyThing
