import CyThing.Handshake
import CyThing.Sample

/-! What a `PWSET` does to the sessions that were there before it. It removes every account
but the owner's, and the sessions of those accounts with them; sessions that are on no
account, or on the owner's, stay as they are. -/

namespace CyThing
open CLib Trace

/-! ## The sessions a `PWSET` ends -/

def Revocable (l : PairedBlob) (s : LocalSession) : Prop :=
  s.state = .new ∨
    (s.sock ≠ none ∧ ∃ r, s.pairedIndex = some r ∧ r < l.count ∧ (l.entries r).role ≠ .owner)

def revocable (l : PairedBlob) (s : LocalSession) : Bool :=
  s.state == .new || (s.sock.isSome &&
    match s.pairedIndex with
    | some r => decide (r < l.count) && (l.entries r).role != .owner
    | none => false)

def othersRevocable (w : World) (i : Slot) : Bool :=
  (List.finRange localSessionMax).all fun j => j == i || revocable w.list (w.pool j)

section Revocation

variable {P : Platform} {env : Env} {enc : Bool} {c c' : Core} {sock : Nat} {line : Bytes}
  {i j : Slot} {l : PairedBlob} {s : LocalSession}

theorem revocable_iff : revocable l s = true ↔ Revocable l s := by
  unfold revocable Revocable
  rcases s.pairedIndex with _ | r <;> simp [Option.isSome_iff_ne_none]

theorem Revocable.removed {r : Nat} (h : Revocable l s) (hr : r < l.count) :
    Revocable (l.dropRow r) (s.onPairedRemoved r) := by
  rcases h with h | ⟨hsock, k, hk, hlt, hrole⟩
  · left
    rcases onPairedRemoved_kept s r with hn | he
    · exact hn
    · rw [he]
      exact h
  rcases s.onPairedRemoved_cases r with ⟨-, -, he⟩ | ⟨k', -, hk', hlow, he⟩ | ⟨hkeep, he⟩
  · rw [he]
    exact Or.inl rfl
  · rw [hk] at hk'
    cases hk'
    rw [he]
    refine Or.inr ⟨hsock, k - 1, rfl, ?_, ?_⟩
    · rw [dropRow_count]
      omega
    · rw [dropRow_entries_ge hr (by omega) (by omega), Nat.sub_add_cancel (by omega)]
      exact hrole
  · have hlow : k < r := hkeep.elim (absurd · hsock) fun hlow => hlow k hk
    rw [he]
    refine Or.inr ⟨hsock, k, hk, ?_, ?_⟩
    · rw [dropRow_count]
      omega
    · rw [dropRow_entries_lt hr hlow]
      exact hrole

theorem RevokeRun.revocable (hrun : RevokeRun env c c') (hok : ∀ k, env.listFate k = .ok)
    (h : Revocable c.list (c.pool j)) : Revocable c'.list (c'.pool j) := by
  induction hrun with
  | done c => exact h
  | removed hr hrole hrem hrest ih =>
    obtain rfl := pairedListRemove_list hr hrem
    exact ih (h.removed hr)
  | failed hr hrole hrem hrest ih =>
    rw [hok, pairedListRemove_ok hr] at hrem
    cases hrem

theorem Action.of_setsPassword (hm : markOf P env enc c sock line = some (.setsPassword i))
    (ha : Action P env enc sock line c c') :
    ∃ password pw c₁ ok l nvs,
      devicePasswordSet P env.pairFate env.setRand c.pw password = (true, pw) ∧
      RevokeRun env (c.setPw pw) c₁ ∧
      ((∀ k, env.listFate k = .ok) →
        ∀ r < c₁.list.count, (c₁.list.entries r).role = .owner) ∧
      pairedListRotateOwnerKey env.rotateFate c₁.list c₁.nvsList
        (.fit pairedKeyLen env.ownerKey) = (ok, l, nvs) ∧ c' = c₁.setList l nvs := by
  have hkind : ∀ {k}, lineKind line = k → k = .owner .pwset := fun hk => by
    by_contra hne
    exact markOf_ne_setsPassword (hk ▸ hne) i hm
  cases ha with
  | pwset _ _ _ hset hrun hend hrot => exact ⟨_, _, _, _, _, _, hset, hrun, hend, hrot, rfl⟩
  | idle hm' => cases hm.symm.trans hm'
  | voided _ hm' => cases hm.symm.trans hm'
  | pake1 _ hk => cases hkind hk
  | pake3Abort _ hm' => cases hm.symm.trans hm'
  | pake3Bad _ hk => cases hkind hk
  | pake3Ok _ hk => cases hkind hk
  | enroll _ hm' => cases hm.symm.trans hm'
  | enrollFail _ hm' => cases hm.symm.trans hm'
  | auth1 _ hk => cases hkind hk
  | auth3Bad _ hm' => cases hm.symm.trans hm'
  | auth3Ok _ hk => cases hkind hk
  | remove _ hm' => cases hm.symm.trans hm'
  | removeFail _ hm' => cases hm.symm.trans hm'
  | pwsetFail hm' => cases hm.symm.trans hm'
  | pwclear hm' => cases hm.symm.trans hm'
  | reset _ hm' => cases hm.symm.trans hm'

theorem devicePasswordSet_pair {fate : PairFate} {rand password : Bytes} {d d' : DevicePassword}
    (h : devicePasswordSet P fate rand d password = (true, d')) : d'.pair.isSome = true := by
  simp only [devicePasswordSet] at h
  split_ifs at h
  · cases h
  split at h
  · cases h
  split_ifs at h
  · cases h
  · cases h
    rfl
  · cases h

structure AfterPwset (w w' : World) : Prop where
  onlyOwner : ∀ r < w'.list.count, (w'.list.entries r).role = .owner
  pair : w'.pw.pair.isSome = true
  ended : ∀ j, Revocable w.list (w.pool j) → (w'.pool j).state = .new

theorem step_setsPassword {w : World} {bytes : Bytes}
    (hm : stepMark P ⟨w, .line sock bytes env, step P w (.line sock bytes env)⟩ =
      some (.setsPassword i)) (hok : ∀ k, env.listFate k = .ok) :
    AfterPwset w (step P w (.line sock bytes env)) := by
  have hmove := step_move P w (.line sock bytes env)
  generalize step P w (.line sock bytes env) = w' at hm hmove
  generalize hc : w'.core = c at hmove
  cases hmove with
  | refused hl => cases hm.symm.trans (stepMark_refused hl)
  | line hl ha =>
    obtain ⟨password, pw, c₁, ok, l, nvs, hset, hrun, hend, hrot, rfl⟩ :=
      ha.of_setsPassword ((stepMark_line hl).symm.trans hm)
    have hlist : w'.list = l := (congrArg Core.list hc :)
    have hpw : w'.pw = pw := (congrArg Core.pw hc :).trans hrun.pw.1
    have hrows : SameRows c₁.list l ∧ l.count = c₁.list.count := by
      rcases pairedListRotateOwnerKey_cases hrot with ⟨rfl, -⟩ | ⟨r, -, -, rfl, -⟩
      · exact ⟨SameRows.refl _, rfl⟩
      · exact ⟨rekeyed_rows _ _ _, rfl⟩
    refine ⟨fun r hr => ?_, ?_, fun j hj => ?_⟩
    · rw [hlist] at hr ⊢
      rw [hrows.2] at hr
      exact (hrows.1.2 r hr).2.trans (hend hok r hr)
    · rw [hpw]
      exact devicePasswordSet_pair hset
    · have hpool : w'.core.pool j = c₁.pool j := by rw [hc]; rfl
      have hstate : (w'.core.pool j).state = .new := by
        rw [hpool]
        rcases hrun.revocable hok (j := j) hj with hn | ⟨-, r, -, hr, hrole⟩
        · exact hn
        · exact absurd (hend hok r hr) hrole
      exact hstate

end Revocation

/-! ## Coming in after it -/

def Reopened (j : Slot) (tr : List (Step World Event)) : Prop :=
  ∃ t ∈ tr, (t.after.pool j).sock ≠ (t.before.pool j).sock

/-- In the steps `tr` from `w` on the session of slot `j` went through a handshake: `AUTH1`
and `AUTH3` with a key of the list at the time, or a PAKE against the verifier in force at
the time, which is that of `w` as long as no step changed it. -/
def ReenteredSince (P : Platform) (j : Slot) (w : World) (tr : List (Step World Event)) :
    Prop :=
  (∃ key np nd, SinceThen (Auth1At P j key np nd) (Undisturbed P j) (Auth3At P j key np nd)
    (Undisturbed P j) tr) ∨
  ∃ hd, SinceThen (Pake1At P j hd) (Undisturbed P j) (Pake3At P j hd) (Undisturbed P j) tr ∧
    ((∀ t ∈ tr, t.after.pw.pair = t.before.pw.pair) →
      w.pw.pair = some (hd.salt, hd.verifier))

section Reentry

variable {P : Platform} {w : World} {j : Slot} {tr : List (Step World Event)}

theorem pair_constant {es : List Event} {t : Step World Event}
    (hsame : ∀ t ∈ trace (step P) w es, t.after.pw.pair = t.before.pw.pair)
    (ht : t ∈ trace (step P) w es) : t.before.pw.pair = w.pw.pair := by
  induction es generalizing w with
  | nil => cases ht
  | cons e es ih =>
    rcases List.mem_cons.mp ht with rfl | ht
    · rfl
    · exact (ih (fun t ht => hsame t (List.mem_cons_of_mem _ ht)) ht).trans
        (hsame _ List.mem_cons_self)

theorem Pake1At.pair {hd : SrpHandle} {t : Step World Event} (h : Pake1At P j hd t)
    (hset : t.before.pw.pair.isSome = true) :
    t.before.pw.pair = some (hd.salt, hd.verifier) := by
  obtain ⟨env, line, bytesA, -, -, hget, -⟩ := h
  rw [devicePasswordGet, devicePasswordIsSet, hset, if_pos rfl] at hget
  exact hget

theorem reenteredSince_of_new (hset : w.pw.pair.isSome = true) {pre post : List Event}
    (hnew : ((run (step P) w pre).pool j).state = .new)
    (hkeyed : ((run (step P) w (pre ++ post)).pool j).keyed = true) :
    ReenteredSince P j w (trace (step P) w (pre ++ post)) := by
  have hprov := provenance_run P j hnew post
  rw [← run_append] at hprov
  rw [trace_append]
  rcases LocalSession.keyed_iff.mp hkeyed with hs | hs
  · simp only [Provenance, hs] at hprov
    obtain ⟨hd, hsince⟩ := hprov
    refine Or.inr ⟨hd, hsince.append_left _, fun hsame => ?_⟩
    rw [← trace_append] at hsame
    obtain ⟨t, ht, hpake⟩ := hsince.exists_first
    have hmem : t ∈ trace (step P) w (pre ++ post) := by
      rw [trace_append]
      exact List.mem_append_right _ ht
    have hpair := pair_constant hsame hmem
    rw [← hpair]
    exact hpake.pair (hpair ▸ hset)
  · simp only [Provenance, hs] at hprov
    obtain ⟨key, np, nd, hsince⟩ := hprov
    exact Or.inl ⟨key, np, nd, hsince.append_left _⟩

theorem new_of_reopened {es : List Event} (h : Reopened j (trace (step P) w es)) :
    ∃ pre post, es = pre ++ post ∧ ((run (step P) w pre).pool j).state = .new := by
  obtain ⟨⟨u, e, u'⟩, ht, hsock⟩ := h
  obtain ⟨pre, post, hes, hb, ha⟩ := mem_trace ht
  obtain rfl : u' = step P u e := ha
  refine ⟨pre ++ [e], post, by simp [hes], ?_⟩
  rw [run_append, ← (hb : u = _)]
  change ((step P u e).pool j).state = .new
  cases session_move P u e j with
  | ended hn => exact hn
  | kept hstate hs => exact absurd hs hsock
  | pake1 hd h hstate hsrp hs => exact absurd hs hsock
  | pake3 hd hbefore hsrp h hstate hs => exact absurd hs hsock
  | auth1 h hstate hs => exact absurd hs hsock
  | auth3 hbefore h hstate hs => exact absurd hs hsock

theorem keyed_of_enrolls {e : Event} {w' : World} {sub : Bytes}
    (h : stepMark P ⟨w, e, w'⟩ = some (.enrolls j sub)) : (w.pool j).keyed = true := by
  cases e with
  | line sock bytes env =>
    obtain ⟨line, -, hline⟩ := Option.bind_eq_some_iff.mp h
    obtain ⟨k, -, hk⟩ := Option.bind_eq_some_iff.mp hline
    unfold markAt at hk
    split at hk
    · cases hk
    · cases hk
    · obtain ⟨sub', hsub, he⟩ := Option.map_eq_some_iff.mp hk
      cases he
      unfold enrolledAs at hsub
      split_ifs at hsub with hs
      exact LocalSession.keyed_iff.mpr (Or.inl hs.1)
    · split_ifs at hk
      cases hk
    · split_ifs at hk
      cases hk
    · cases hk
  | reboot factory env => cases factory <;> cases h
  | accept sock peerIp taskOk => cases h
  | close sock => cases h
  | queue reply => cases h
  | send => cases h
  | tick us => cases h
  | pairingTimeout => cases h

end Reentry

/-- After a `PWSET` that was answered `ACK`, with every other session one that it ends: only
the owner's account is left, and whoever but the sender is authenticated, or is handed a key
by `ENROLL`, has come in since. -/
theorem pwset_locks_out (P : Platform) (pre post : List Event) {sock : Nat} {bytes : Bytes}
    {env : Env} {i : Slot}
    (hset : stepMark P ⟨run (step P) World.fresh pre, .line sock bytes env,
      run (step P) World.fresh (pre ++ [.line sock bytes env])⟩ = some (.setsPassword i))
    (hstores : ∀ k, env.listFate k = .ok)
    (hothers : othersRevocable (run (step P) World.fresh pre) i = true) :
    let w := run (step P) World.fresh (pre ++ [.line sock bytes env])
    let tr := trace (step P) w post
    let w' := run (step P) w post
    (∀ r < w.list.count, (w.list.entries r).role = .owner) ∧
    ∀ j, j ≠ i ∨ Reopened j tr →
      ((w'.pool j).authenticated = true ∨
        ∃ e sub, stepMark P ⟨w', e, step P w' e⟩ = some (.enrolls j sub)) →
      ReenteredSince P j w tr := by
  intro w tr w'
  have hw : w = step P (run (step P) World.fresh pre) (.line sock bytes env) := by
    simp only [w, run_append, run_cons, run_nil]
  have hafter : AfterPwset (run (step P) World.fresh pre) w := by
    rw [hw]
    refine step_setsPassword (i := i) ?_ hstores
    rw [← hw]
    exact hset
  refine ⟨hafter.onlyOwner, fun j hj hin => ?_⟩
  have hkeyed : (w'.pool j).keyed = true := by
    rcases hin with hauth | ⟨e, sub, henroll⟩
    · exact LocalSession.keyed_of_authenticated hauth
    · exact keyed_of_enrolls henroll
  -- the session has been new at some time since: at once, or when its slot was reopened
  obtain ⟨pre', post', hpost, hnew⟩ :
      ∃ pre' post', post = pre' ++ post' ∧ ((run (step P) w pre').pool j).state = .new := by
    rcases hj with hj | hj
    · have hrev := List.all_eq_true.mp hothers j (List.mem_finRange j)
      rw [Bool.or_eq_true, beq_iff_eq] at hrev
      exact ⟨[], post, rfl, hafter.ended j (revocable_iff.mp (hrev.resolve_left hj))⟩
    · exact new_of_reopened hj
  have hkeyed' : ((run (step P) w (pre' ++ post')).pool j).keyed = true := hpost ▸ hkeyed
  change ReenteredSince P j w (trace (step P) w post)
  rw [hpost]
  exact reenteredSince_of_new hafter.pair hnew hkeyed'

def pwsetLine : Bytes :=
  Sample.sealed (Sample.pakeKey (ascii "initial0")) 2 (ascii "PWSET:" ++ Sample.b64 "secret00")

def pwsetEnv : Env := { ownerKey := ascii "fresh" }

def rejoin : List Event := [Sample.pake1 6 {}, Sample.pake3 6 (ascii "secret00"),
  Sample.enroll 6 (ascii "secret00") 1 "user" "u@x" {}]

theorem pwset_locks_out_two_phones :
    let w := run (step Sample.platform) World.fresh
      (Sample.twoPhones ++ [.line 5 pwsetLine pwsetEnv])
    othersRevocable (run (step Sample.platform) World.fresh Sample.twoPhones) 0 = true ∧
    ((run (step Sample.platform) w rejoin).pool 1).authenticated = true ∧
    ReenteredSince Sample.platform 1 w (trace (step Sample.platform) w rejoin) := by
  have hset : stepMark Sample.platform ⟨run (step Sample.platform) World.fresh Sample.twoPhones,
      .line 5 pwsetLine pwsetEnv, run (step Sample.platform) World.fresh
        (Sample.twoPhones ++ [.line 5 pwsetLine pwsetEnv])⟩ = some (.setsPassword 0) := by
    decide +kernel
  have hothers :
      othersRevocable (run (step Sample.platform) World.fresh Sample.twoPhones) 0 = true := by
    decide +kernel
  have hauth : ((run (step Sample.platform) (run (step Sample.platform) World.fresh
      (Sample.twoPhones ++ [.line 5 pwsetLine pwsetEnv])) rejoin).pool 1).authenticated =
        true := by
    decide +kernel
  exact ⟨hothers, hauth, (pwset_locks_out Sample.platform Sample.twoPhones rejoin hset
    (fun _ => rfl) hothers).2 1 (Or.inl (by decide)) (Or.inl hauth)⟩

def ownerAuth1 : Event :=
  .line 7 (ascii "AUTH1:" ++ Sample.b64 "owner" ++ ascii "," ++ Sample.b64 "nnnnnnnnnnnnnnnn") {}

def ownerAuth3 : Event :=
  .line 7 (ascii "AUTH3:" ++ Base64.encode (proof Sample.platform (.zero 32) phnLabel
    (.zero 16) (.fit 16 (ascii "nnnnnnnnnnnnnnnn"))).1) {}

def lingering : List Event :=
  Sample.ownerJoins ++ [.accept 6 2 true, Sample.pake1 6 {}, Sample.pake3 6 (ascii "initial0"),
    .accept 7 1 true, ownerAuth1]

theorem not_reenteredSince_of_short {P : Platform} {j : Slot} {w : World}
    {tr : List (Step World Event)} (h : tr.length < 2) : ¬ReenteredSince P j w tr := by
  rintro (⟨key, np, nd, hs⟩ | ⟨hd, hs, -⟩)
  · exact absurd hs.two_le_length (by omega)
  · exact absurd hs.two_le_length (by omega)

/-- After the `PWSET` the phone on socket 6 is handed a key by `ENROLL`, the phone on
socket 7 gets in with the key that is no longer in the list, and had it got in before it
would have stayed in. -/
theorem pwset_leaves_sessions :
    let w := run (step Sample.platform) World.fresh (lingering ++ [.line 5 pwsetLine pwsetEnv])
    let u := run (step Sample.platform) World.fresh
      (lingering ++ [ownerAuth3] ++ [.line 5 pwsetLine pwsetEnv])
    stepMark Sample.platform ⟨run (step Sample.platform) World.fresh lingering,
        .line 5 pwsetLine pwsetEnv, w⟩ = some (.setsPassword 0) ∧
      (stepMark Sample.platform ⟨w, Sample.enroll 6 (ascii "initial0") 1 "guest" "g@x" {},
          step Sample.platform w (Sample.enroll 6 (ascii "initial0") 1 "guest" "g@x" {})⟩ =
        some (.enrolls 1 (ascii "guest")) ∧ ¬ReenteredSince Sample.platform 1 w []) ∧
      (((run (step Sample.platform) w [ownerAuth3]).pool 2).ownerRights = true ∧
        (∀ r < w.list.count, (w.list.entries r).key ≠ .zero 32) ∧
        ¬ReenteredSince Sample.platform 2 w (trace (step Sample.platform) w [ownerAuth3])) ∧
      stepMark Sample.platform ⟨run (step Sample.platform) World.fresh
          (lingering ++ [ownerAuth3]), .line 5 pwsetLine pwsetEnv, u⟩ = some (.setsPassword 0) ∧
      ((u.pool 2).ownerRights = true ∧ ¬ReenteredSince Sample.platform 2 u []) := by
  intro w u
  obtain ⟨hset, henrolls, hrights, hkeys⟩ :
      stepMark Sample.platform ⟨run (step Sample.platform) World.fresh lingering,
        .line 5 pwsetLine pwsetEnv, w⟩ = some (.setsPassword 0) ∧
      stepMark Sample.platform ⟨w, Sample.enroll 6 (ascii "initial0") 1 "guest" "g@x" {},
          step Sample.platform w (Sample.enroll 6 (ascii "initial0") 1 "guest" "g@x" {})⟩ =
        some (.enrolls 1 (ascii "guest")) ∧
      ((run (step Sample.platform) w [ownerAuth3]).pool 2).ownerRights = true ∧
      ∀ r < w.list.count, (w.list.entries r).key ≠ .zero 32 := by decide +kernel
  obtain ⟨hsetLater, hrightsLater⟩ :
      stepMark Sample.platform ⟨run (step Sample.platform) World.fresh
          (lingering ++ [ownerAuth3]), .line 5 pwsetLine pwsetEnv, u⟩ = some (.setsPassword 0) ∧
      (u.pool 2).ownerRights = true := by decide +kernel
  exact ⟨hset, ⟨henrolls, not_reenteredSince_of_short (by decide)⟩,
    ⟨hrights, hkeys, not_reenteredSince_of_short (by decide)⟩,
    hsetLater, hrightsLater, not_reenteredSince_of_short (by decide)⟩

end CyThing
