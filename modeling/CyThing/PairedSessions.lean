import CyThing.Moves
import CyThing.Security.EnrollGrammar

/-! Sessions and the list they point into. As long as every store succeeds the list stays
well formed, flash holds what RAM holds, and the index of every session is a row of its
role. -/

namespace CyThing
open CLib Trace

/-! ## Account names on the wire -/

theorem toCstr_sub {b t : Bytes} (h : toCstr b (pairedSubMax + 1) = some t) :
    t ≠ [] ∧ t.length ≤ pairedSubMax := by
  obtain ⟨rfl, hclean⟩ := toCstr_eq_some.mp h
  exact ⟨hclean.ne_nil, hclean.length_le⟩

theorem parseEnroll_sub {P : Platform} {line sub email : Bytes}
    (h : parseEnroll P line = some (sub, email)) : sub ≠ [] ∧ sub.length ≤ pairedSubMax := by
  simp only [parseEnroll] at h
  split_ifs at h
  split at h
  · split at h
    · next hs _ =>
      cases h
      exact toCstr_sub hs
    · cases h
  · cases h

theorem parseAuth1_sub {P : Platform} {line sub : Bytes} {np : Block localAuthNonceLen}
    (h : parseAuth1 P line = some (sub, np)) : sub ≠ [] ∧ sub.length ≤ pairedSubMax := by
  simp only [parseAuth1] at h
  split_ifs at h with hn h3
  all_goals
    split at h
    · split at h
      · next hs _ =>
        split_ifs at h
        cases h
        exact toCstr_sub hs
      · cases h
    · cases h

/-! ## A session and the list -/

structure SessionFits (l : PairedBlob) (s : LocalSession) : Prop where
  index_lt : ∀ r, s.pairedIndex = some r → r < l.count
  index_auth : s.state = .authOk ∨ s.state = .authWaitProof → s.pairedIndex ≠ none
  index_none : s.state = .new ∨ s.state = .pakeWaitProof → s.pairedIndex = none
  role_iff : s.authenticated = true → ∀ r, s.pairedIndex = some r →
    (s.role = .owner ↔ (l.entries r).role = .owner)
  free : s.sock = none → s.pairedIndex = none

namespace SessionFits

variable {l l' : PairedBlob} {s : LocalSession} {r : Nat}

theorem of_no_index (hi : s.pairedIndex = none)
    (hs : s.state ≠ .authOk ∧ s.state ≠ .authWaitProof) : SessionFits l s where
  index_lt := fun r hr => by rw [hi] at hr; cases hr
  index_auth := fun h => by
    rcases h with h | h
    · exact absurd h hs.1
    · exact absurd h hs.2
  index_none := fun _ => hi
  role_iff := fun _ r hr => by rw [hi] at hr; cases hr
  free := fun _ => hi

theorem of_new (hi : s.pairedIndex = none) (hs : s.state = .new) : SessionFits l s :=
  of_no_index hi (by rw [hs]; exact ⟨nofun, nofun⟩)

theorem of_index (hi : s.pairedIndex = some r) (hr : r < l.count)
    (hs : s.state ≠ .new ∧ s.state ≠ .pakeWaitProof) (hf : s.sock ≠ none)
    (hrole : s.authenticated = true → (s.role = .owner ↔ (l.entries r).role = .owner)) :
    SessionFits l s where
  index_lt := fun k hk => by
    rw [hi] at hk
    cases hk
    exact hr
  index_auth := fun _ => by rw [hi]; exact Option.some_ne_none r
  index_none := fun h => by
    rcases h with h | h
    · exact absurd h hs.1
    · exact absurd h hs.2
  role_iff := fun ha k hk => by
    rw [hi] at hk
    cases hk
    exact hrole ha
  free := fun h => absurd h hf

theorem mono (h : SessionFits l s) (hrows : SameRows l l') : SessionFits l' s where
  index_lt := fun r hr => lt_of_lt_of_le (h.index_lt r hr) hrows.1
  index_auth := h.index_auth
  index_none := h.index_none
  role_iff := fun ha r hr => by
    rw [(hrows.2 r (h.index_lt r hr)).2]
    exact h.role_iff ha r hr
  free := h.free

theorem index_of_authenticated (h : SessionFits l s) (ha : s.authenticated = true) :
    ∃ r, s.pairedIndex = some r := by
  rcases LocalSession.authenticated_iff.mp ha with hs | ⟨-, hs⟩
  · exact Option.ne_none_iff_exists'.mp (h.index_auth (Or.inl hs))
  · exact Option.isSome_iff_exists.mp hs

theorem onPairedRemoved (h : SessionFits l s) (hr : r < l.count) :
    SessionFits (l.dropRow r) (s.onPairedRemoved r) := by
  rcases s.onPairedRemoved_cases r with ⟨-, -, he⟩ | ⟨k, hs, hk, hlt, he⟩ | ⟨hkeep, he⟩
  · rw [he]
    exact of_new rfl rfl
  · rw [he]
    have hkc := h.index_lt k hk
    have hrow : (l.dropRow r).entries (k - 1) = l.entries k := by
      rw [dropRow_entries_ge hr (by omega) (by omega), Nat.sub_add_cancel (by omega)]
    refine
      { index_lt := fun j hj => ?_
        index_auth := fun _ => nofun
        index_none := fun hst => ?_
        role_iff := fun ha j hj => ?_
        free := fun hf => absurd hf hs }
    · cases hj
      rw [dropRow_count]
      omega
    · have := h.index_none hst
      rw [hk] at this
      cases this
    · cases hj
      rw [hrow]
      refine h.role_iff ?_ k hk
      simpa [LocalSession.authenticated, hk] using ha
  · rw [he]
    have hlow : ∀ k, s.pairedIndex = some k → k < r := fun k hk => by
      rcases hkeep with hf | hlow
      · have := h.free hf
        rw [hk] at this
        cases this
      · exact hlow k hk
    exact
      { index_lt := fun k hk => by
          have := hlow k hk
          rw [dropRow_count]
          omega
        index_auth := h.index_auth
        index_none := h.index_none
        role_iff := fun ha k hk => by
          rw [dropRow_entries_lt hr (hlow k hk)]
          exact h.role_iff ha k hk
        free := h.free }

end SessionFits

theorem sessionRole_owner (r : PairedRole) : sessionRole r = .owner ↔ r = .owner := by
  cases r <;> simp [sessionRole]

/-! ## The core -/

def Env.ListStoresOk (env : Env) : Prop :=
  (∀ k, env.listFate k = .ok) ∧ env.rotateFate = .ok

structure Core.Consistent (c : Core) : Prop where
  wf : c.list.WellFormed
  synced : c.nvsList = c.list.stored
  fits : ∀ i, SessionFits c.list (c.pool i)

namespace Core.Consistent

variable {c c' : Core} {P : Platform} {env : Env} {enc : Bool} {sock : Nat} {line : Bytes}
  {i : Slot} {r : Nat}

theorem setSession (h : c.Consistent) {s : LocalSession} (hs : SessionFits c.list s) :
    (c.setSession i s).Consistent where
  wf := h.wf
  synced := h.synced
  fits := fun j => by
    by_cases hj : j = i
    · subst hj
      rw [Core.setSession_self]
      exact hs
    · rw [Core.setSession_of_ne _ _ _ hj]
      exact h.fits j

theorem setPw (h : c.Consistent) (pw : DevicePassword) : (c.setPw pw).Consistent :=
  ⟨h.wf, h.synced, h.fits⟩

theorem setList (h : c.Consistent) {l : PairedBlob} (hl : l.WellFormed)
    (hrows : SameRows c.list l) : (c.setList l l.stored).Consistent :=
  ⟨hl, rfl, fun i => (h.fits i).mono hrows⟩

theorem ne_zero_of_mayRemove (h : c.Consistent) (hr : r < c.list.count)
    (hby : MayRemove c i r) : r ≠ 0 := by
  rintro rfl
  rcases hby with ⟨ho, hne⟩ | ⟨-, hrole⟩
  · simp only [LocalSession.ownerRights, Bool.and_eq_true, beq_iff_eq] at ho
    obtain ⟨k, hk⟩ := (h.fits i).index_of_authenticated ho.2
    have hrole := ((h.fits i).role_iff ho.2 k hk).mp ho.1
    rw [h.wf.owner_row ((h.fits i).index_lt k hk)] at hrole
    rw [hrole] at hk
    exact hne hk
  · exact hrole ((h.wf.owner_row hr).mpr rfl)

theorem removed (h : c.Consistent) {l : PairedBlob} {nvs : Option StoredList} {fate : NvsFate}
    (hr : r < c.list.count) (h0 : r ≠ 0)
    (hrem : pairedListRemove fate c.list c.nvsList r = (true, l, nvs)) :
    (c.removed l nvs r).Consistent := by
  have hl := pairedListRemove_list hr hrem
  refine ⟨?_, pairedListRemove_stored hr hrem, fun i => ?_⟩
  · exact hl ▸ h.wf.dropRow hr h0
  · exact hl ▸ (h.fits i).onPairedRemoved hr

theorem revokeRun (hok : env.ListStoresOk) (hrun : RevokeRun env c c') (h : c.Consistent) :
    c'.Consistent := by
  induction hrun with
  | done c => exact h
  | removed hr hrole hrem hrest ih =>
    exact ih (h.removed hr (fun h0 => hrole ((h.wf.owner_row hr).mpr h0)) hrem)
  | failed hr hrole hrem hrest ih =>
    rw [hok.1, pairedListRemove_ok hr] at hrem
    cases hrem

theorem rotated (h : c.Consistent) (hok : env.ListStoresOk) {key : Block pairedKeyLen}
    {ok : Bool} {l : PairedBlob} {nvs : Option StoredList}
    (hrot : pairedListRotateOwnerKey env.rotateFate c.list c.nvsList key = (ok, l, nvs)) :
    (c.setList l nvs).Consistent ∧ SameRows c.list l ∧ l.count = c.list.count ∧
      l.ownerSub = c.list.ownerSub := by
  rcases pairedListRotateOwnerKey_cases hrot with ⟨rfl, hn⟩ | ⟨r, hr, -, rfl, rfl⟩
  · rcases hn with rfl | hn
    · exact ⟨⟨h.wf, h.synced, h.fits⟩, SameRows.refl _, rfl, rfl⟩
    · exact absurd hok.2 hn
  · exact ⟨h.setList (h.wf.rekeyed hr key) (rekeyed_rows _ _ _), rekeyed_rows _ _ _, rfl, rfl⟩

theorem enrolled (h : c.Consistent) {sub email : Bytes} {e : Enrolled}
    (hsub : sub ≠ [] ∧ sub.length ≤ pairedSubMax)
    (he : (enrollAdd env c sub email).enrolled = some e) :
    (c.setList (enrollAdd env c sub email).list (enrollAdd env c sub email).nvs).Consistent ∧
      SameRows c.list (enrollAdd env c sub email).list ∧
      e.index < (enrollAdd env c sub email).list.count ∧
      ((enrollAdd env c sub email).list.entries e.index).userSub = sub ∧
      ((enrollAdd env c sub email).list.entries e.index).role = e.role ∧
      (enrollAdd env c sub email).list.ownerSub = ownerAfter c.list sub := by
  obtain ⟨ha, hn⟩ := h.wf.added hsub he
  rw [enrollAdd, hn]
  exact ⟨h.setList ha.wf ha.rows, ha.rows, ha.index_lt, ha.sub_eq, ha.role_eq, ha.owner⟩

theorem enrollFailed (h : c.Consistent) (hok : env.ListStoresOk) {sub email : Bytes}
    (he : (enrollAdd env c sub email).enrolled = none) :
    (enrollAdd env c sub email).list = c.list ∧ (enrollAdd env c sub email).nvs = c.nvsList := by
  rcases pairedListAdd_cases (env.listFate 0) c.nvsList sub email (.fit pairedKeyLen env.kAccount)
    (unixOrZero env.unix) h.wf.clear with ⟨-, hl, hn⟩ | ⟨r, -, hf, ha⟩ | ⟨-, hf, hfull, ha⟩
  · exact ⟨hl, hn (hok.1 0)⟩
  · rw [enrollAdd, ha] at he
    cases he
  · rw [enrollAdd, ha] at he
    cases he

theorem action (h : c.Consistent) (hok : env.ListStoresOk)
    (ha : Action P env enc sock line c c') : c'.Consistent := by
  cases ha with
  | idle hm => exact h
  | voided hi hm hpw => exact (h.setPw _).setSession (SessionFits.of_new rfl rfl)
  | pake1 hi hk hlock hA hget hhd =>
    exact (h.setPw _).setSession (SessionFits.of_no_index rfl ⟨nofun, nofun⟩)
  | pake3Abort hi hm hs =>
    exact h.setSession (SessionFits.of_new ((h.fits _).index_none (Or.inr hs)) rfl)
  | pake3Bad hi hk hs hhd hm1 hbad =>
    exact (h.setPw _).setSession (SessionFits.of_new ((h.fits _).index_none (Or.inr hs)) rfl)
  | pake3Ok hi hk hs hhd hm1 hgood =>
    exact (h.setPw _).setSession (SessionFits.of_no_index ((h.fits _).index_none (Or.inr hs))
      ⟨nofun, nofun⟩)
  | @enroll i sub email e hi hm hs hp he =>
    obtain ⟨hcons, -, hlt, -, hrole, -⟩ := h.enrolled (parseEnroll_sub hp) he
    refine hcons.setSession (SessionFits.of_index rfl hlt ?_ ?_ fun _ => ?_)
    · rw [hs]
      exact ⟨nofun, nofun⟩
    · rw [localSessionFind_sock hi]
      exact Option.some_ne_none sock
    · rw [sessionRole_owner]
      exact hrole ▸ Iff.rfl
  | enrollFail hi hm hp he =>
    obtain ⟨hl, hn⟩ := h.enrollFailed hok he
    rw [hl, hn]
    exact ⟨h.wf, h.synced, h.fits⟩
  | auth1 hi hk hp hf hr =>
    refine h.setSession (SessionFits.of_index rfl hr ⟨nofun, nofun⟩ ?_ nofun)
    rw [LocalSession.resetHandshake, localSessionFind_sock hi]
    exact Option.some_ne_none sock
  | auth3Bad hi hm hs => exact h.setSession (SessionFits.of_new rfl rfl)
  | @auth3Ok i hi hk hs hp =>
    obtain ⟨r, hr⟩ := Option.ne_none_iff_exists'.mp ((h.fits i).index_auth (Or.inr hs))
    have hlt := (h.fits i).index_lt r hr
    refine h.setSession (SessionFits.of_index hr hlt ⟨nofun, nofun⟩ ?_ fun _ => ?_)
    · rw [localSessionFind_sock hi]
      exact Option.some_ne_none sock
    · simp only [hr, pairedListGet, if_pos hlt, authRole, sessionRole_owner]
  | remove hi hm hr hby hrem => exact h.removed hr (h.ne_zero_of_mayRemove hr hby) hrem
  | removeFail hi hm hr hrem =>
    rw [hok.1, pairedListRemove_ok hr] at hrem
    cases hrem
  | pwset hi hm ho hset hrun hend hrot =>
    exact ((revokeRun hok hrun (h.setPw _)).rotated hok hrot).1
  | pwsetFail hm hset => exact h.setPw _
  | pwclear hm => exact h.setPw _
  | reset hi hm ho =>
    refine ⟨PairedBlob.WellFormed.empty, by rw [hok.1]; rfl, fun i => ?_⟩
    simp only [localSessionDropAllAuth]
    split_ifs with hf
    · have hi := (h.fits i).free hf
      exact SessionFits.of_no_index hi
        ⟨fun hs => (h.fits i).index_auth (Or.inl hs) hi,
          fun hs => (h.fits i).index_auth (Or.inr hs) hi⟩
    · exact SessionFits.of_new rfl rfl

end Core.Consistent

def Event.ListStoresOk : Event → Prop
  | .line _ _ env => env.ListStoresOk
  | .reboot _ env => env.ListStoresOk
  | _ => True

theorem Core.Consistent.boot {c : Core} (h : c.Consistent) (env : Env) :
    (c.boot env).Consistent ∧ (c.boot env).list = c.list := by
  have hload := pairedListInit_stored h.wf (env.listFate 0)
  rw [← h.synced] at hload
  have hlist : (c.boot env).list = c.list := congrArg Prod.fst hload
  have hnvs : (c.boot env).nvsList = c.nvsList := congrArg Prod.snd hload
  refine ⟨⟨hlist ▸ h.wf, ?_, fun i => SessionFits.of_new rfl rfl⟩, hlist⟩
  rw [hnvs, hlist, h.synced]

theorem Core.boot_factoryReset_consistent (c : Core) {env : Env} (hok : env.ListStoresOk) :
    ((c.boot env).factoryReset env).Consistent := by
  refine ⟨PairedBlob.WellFormed.empty, ?_, fun i => SessionFits.of_new rfl rfl⟩
  rw [Core.factoryReset, hok.1]
  rfl

theorem Core.Consistent.move {P : Platform} {w : World} {e : Event} {c : Core}
    (h : w.core.Consistent) (hok : e.ListStoresOk) (hm : Move P w e c) : c.Consistent := by
  have hblank : ∀ {l : PairedBlob} {s : LocalSession}, SessionFits l s.wipe :=
    SessionFits.of_new rfl rfl
  cases hm with
  | line hl ha => exact h.action hok ha
  | refused hl => exact h
  | opened hi hnew => exact h.setSession (SessionFits.of_new rfl rfl)
  | undone hi => exact h.setSession hblank
  | turnedAway => exact h
  | closed hi => exact h.setSession hblank
  | notOpen hi => exact h
  | queue => exact h
  | send => exact h
  | tick => exact ⟨h.wf, h.synced, h.fits⟩
  | pairingTimeout => exact h
  | reboot => exact (h.boot _).1
  | factory => exact ((w.core.boot_factoryReset_consistent hok).boot _).1

end CyThing
