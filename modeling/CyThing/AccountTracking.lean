import CyThing.PairedSessions
import CyThing.Sample

/-! Which account a session is on and which account owns the device, told from the past of
a run. -/

namespace CyThing
open CLib Trace

/-! ## Which account a session is on -/

/-- The account a step names for the session of slot `i`: in a well-formed `AUTH1`, or in an
`ENROLL` that was answered `ENROLLED`. -/
def namedBy (m : Option Mark) (i : Slot) : Option Bytes :=
  match m with
  | some (.begins j sub) => if j = i then sub else none
  | some (.enrolls j sub) => if j = i then some sub else none
  | _ => none

def lastNamed (P : Platform) (i : Slot) (tr : List (Step World Event)) : Option Bytes :=
  tr.foldl (fun a s => (namedBy (stepMark P s) i).or a) none

theorem lastNamed_concat (P : Platform) (i : Slot) (tr : List (Step World Event))
    (s : Step World Event) :
    lastNamed P i (tr ++ [s]) = (namedBy (stepMark P s) i).or (lastNamed P i tr) := by
  simp only [lastNamed, List.foldl_append, List.foldl_cons, List.foldl_nil]

theorem SessionFits.onPairedRemoved_row {l : PairedBlob} {s : LocalSession} {r k' : Nat}
    (h : SessionFits l s) (hr : r < l.count)
    (hk' : (s.onPairedRemoved r).pairedIndex = some k') :
    ∃ k, s.pairedIndex = some k ∧ (l.dropRow r).entries k' = l.entries k := by
  rcases s.onPairedRemoved_cases r with ⟨-, -, he⟩ | ⟨k, -, hk, hlt, he⟩ | ⟨hkeep, he⟩
  · rw [he] at hk'
    cases hk'
  · rw [he] at hk'
    cases hk'
    have hkc := h.index_lt k hk
    refine ⟨k, hk, ?_⟩
    rw [dropRow_entries_ge hr (by omega) (by omega), Nat.sub_add_cancel (by omega)]
  · rw [he] at hk'
    refine ⟨k', hk', dropRow_entries_lt hr ?_⟩
    rcases hkeep with hf | hlow
    · have := h.free hf
      rw [hk'] at this
      cases this
    · exact hlow k' hk'

def Tracks (c c' : Core) (named : Option Bytes) (j : Slot) : Prop :=
  ∀ r', (c'.pool j).pairedIndex = some r' →
    named = some (c'.list.entries r').userSub ∨
    (named = none ∧ ∃ r, (c.pool j).pairedIndex = some r ∧
      (c'.list.entries r').userSub = (c.list.entries r).userSub)

theorem Tracks.of_pool_eq {c c' : Core} {named : Option Bytes} {j : Slot}
    (hc : c.Consistent) (hpool : (c'.pool j).pairedIndex = (c.pool j).pairedIndex)
    (hrows : SameRows c.list c'.list) (hn : named = none) : Tracks c c' named j := fun r' hr' => by
  rw [hpool] at hr'
  exact Or.inr ⟨hn, r', hr', (hrows.2 r' ((hc.fits j).index_lt r' hr')).1⟩

theorem Tracks.of_set {c x : Core} {named : Option Bytes} {i j : Slot} {s : LocalSession}
    (hc : c.Consistent) (hpool : x.pool = c.pool) (hrows : SameRows c.list x.list)
    (hn : i ≠ j → named = none)
    (hi : ∀ r', s.pairedIndex = some r' → i = j →
      named = some (x.list.entries r').userSub ∨
      (named = none ∧ (c.pool i).pairedIndex = some r')) : Tracks c (x.setSession i s) named j := by
  intro r' hr'
  by_cases hj : j = i
  · subst hj
    rw [Core.setSession_self] at hr'
    rcases hi r' hr' rfl with h | ⟨h, hr⟩
    · exact Or.inl h
    · exact Or.inr ⟨h, r', hr, (hrows.2 r' ((hc.fits j).index_lt r' hr)).1⟩
  · rw [Core.setSession_of_ne _ _ _ hj, hpool] at hr'
    exact Or.inr ⟨hn (Ne.symm hj), r', hr', (hrows.2 r' ((hc.fits j).index_lt r' hr')).1⟩

theorem Tracks.of_set_none {c x : Core} {named : Option Bytes} {i j : Slot} {s : LocalSession}
    (hc : c.Consistent) (hpool : x.pool = c.pool) (hrows : SameRows c.list x.list)
    (hn : i ≠ j → named = none) (hs : s.pairedIndex = none) :
    Tracks c (x.setSession i s) named j := by
  refine .of_set hc hpool hrows hn fun r' hr' _ => ?_
  rw [hs] at hr'
  cases hr'

theorem Tracks.of_set_keep {c x : Core} {i j : Slot} {s : LocalSession}
    (hc : c.Consistent) (hpool : x.pool = c.pool) (hrows : SameRows c.list x.list)
    (hs : s.pairedIndex = (c.pool i).pairedIndex) : Tracks c (x.setSession i s) none j :=
  .of_set hc hpool hrows (fun _ => rfl) fun _ hr' _ => Or.inr ⟨rfl, hs ▸ hr'⟩

theorem RevokeRun.tracks {env : Env} {c c' : Core} (hok : env.ListStoresOk)
    (hrun : RevokeRun env c c') (h : c.Consistent) (j : Slot) {r' : Nat}
    (hr' : (c'.pool j).pairedIndex = some r') :
    ∃ r, (c.pool j).pairedIndex = some r ∧ c'.list.entries r' = c.list.entries r := by
  induction hrun with
  | done c => exact ⟨r', hr', rfl⟩
  | @removed c c' r k l nvs hr hrole hrem hrest ih =>
    have h' := h.removed hr (fun h0 => hrole ((h.wf.owner_row hr).mpr h0)) hrem
    obtain ⟨r₁, hr₁, he₁⟩ := ih h' hr'
    obtain rfl := pairedListRemove_list hr hrem
    obtain ⟨r₀, hr₀, he₀⟩ := (h.fits j).onPairedRemoved_row hr hr₁
    exact ⟨r₀, hr₀, he₁.trans he₀⟩
  | failed hr hrole hrem hrest ih =>
    rw [hok.1, pairedListRemove_ok hr] at hrem
    cases hrem

section Tracking

variable {P : Platform} {env : Env} {enc : Bool} {sock : Nat} {line : Bytes} {c c' : Core}

theorem Action.tracks (h : c.Consistent) (hok : env.ListStoresOk)
    (ha : Action P env enc sock line c c') (j : Slot) :
    Tracks c c' (namedBy (markOf P env enc c sock line) j) j := by
  have hrefl := SameRows.refl c.list
  have hkind : ∀ {i}, localSessionFind c.pool sock = some i →
      markOf P env enc c sock line = markAt P env enc c i line := fun hi => by
    rw [markOf, hi, Option.bind_some]
  cases ha with
  | idle hm => exact .of_pool_eq h rfl hrefl (by rw [hm]; rfl)
  | voided hi hm hpw =>
    rw [hm]
    exact .of_set_none h rfl hrefl (fun hj => if_neg hj) rfl
  | pake1 hi hk hlock hA hget hhd =>
    rw [hkind hi, markAt, hk]
    exact .of_set_none h rfl hrefl (fun hj => if_neg hj) rfl
  | pake3Abort hi hm hs =>
    rw [hm]
    exact .of_set_keep h rfl hrefl rfl
  | pake3Bad hi hk hs hhd hm1 hbad =>
    rw [hkind hi, markAt, hk]
    exact .of_set_keep h rfl hrefl rfl
  | pake3Ok hi hk hs hhd hm1 hgood =>
    rw [hkind hi, markAt, hk]
    exact .of_set_keep h rfl hrefl rfl
  | enroll hi hm hs hp he =>
    obtain ⟨-, hrows, -, hsub, -, -⟩ := h.enrolled (parseEnroll_sub hp) he
    rw [hm]
    refine .of_set h rfl hrows (fun hj => if_neg hj) fun r' hr' hj => Or.inl ?_
    cases hr'
    rw [namedBy, if_pos hj]
    exact congrArg some hsub.symm
  | enrollFail hi hm hp he =>
    obtain ⟨hl, -⟩ := h.enrollFailed hok he
    rw [hl, hm]
    exact .of_pool_eq h rfl hrefl rfl
  | @auth1 i sub np r hi hk hp hf hr =>
    rw [hkind hi, markAt, hk, hp]
    refine .of_set h rfl hrefl (fun hj => if_neg hj) fun r' hr' hj => Or.inl ?_
    cases hr'
    rw [namedBy, if_pos hj, h.wf.findLocked_userSub (parseAuth1_sub hp).2 hf]
    rfl
  | auth3Bad hi hm hs =>
    rw [hm]
    exact .of_set_none h rfl hrefl (fun _ => rfl) rfl
  | auth3Ok hi hk hs hp =>
    rw [hkind hi, markAt, hk]
    exact .of_set_keep h rfl hrefl rfl
  | remove hi hm hr hby hrem =>
    intro r' hr'
    obtain rfl := pairedListRemove_list hr hrem
    obtain ⟨k, hk, he⟩ := (h.fits j).onPairedRemoved_row hr hr'
    exact Or.inr ⟨by rw [hm]; rfl, k, hk, congrArg PairedEntry.userSub he⟩
  | removeFail hi hm hr hrem =>
    rw [hok.1, pairedListRemove_ok hr] at hrem
    cases hrem
  | pwset hi hm ho hset hrun hend hrot =>
    intro r' hr'
    have hcons := Core.Consistent.revokeRun hok hrun (h.setPw _)
    obtain ⟨k, hk, he⟩ := hrun.tracks hok (h.setPw _) j hr'
    obtain ⟨-, hrows, -, -⟩ := hcons.rotated hok hrot
    refine Or.inr ⟨by rw [hm]; rfl, k, hk, ?_⟩
    exact ((hrows.2 r' ((hcons.fits j).index_lt r' hr')).1).trans
      (congrArg PairedEntry.userSub he)
  | pwsetFail hm hset => exact .of_pool_eq h rfl hrefl (by rw [hm]; rfl)
  | pwclear hm => exact .of_pool_eq h rfl hrefl (by rw [hm]; rfl)
  | reset hi hm ho =>
    intro r' hr'
    simp only [localSessionDropAllAuth] at hr'
    split_ifs at hr' with hf
    · have := (h.fits j).free hf
      rw [hr'] at this
      cases this
    · cases hr'

theorem RevokeRun.ownerSub {c c' : Core} (hrun : RevokeRun env c c') :
    c'.list.ownerSub = c.list.ownerSub := by
  induction hrun with
  | done c => rfl
  | removed hr hrole hrem hrest ih =>
    rw [ih]
    exact pairedListRemove_ownerSub hr hrem
  | failed hr hrole hrem hrest ih =>
    rw [ih]
    exact pairedListRemove_ownerSub hr hrem

def foundedBy (owner : Bytes) (m : Option Mark) : Bytes :=
  match m with
  | some .resets => []
  | some (.enrolls _ sub) => if owner = [] then sub else owner
  | _ => owner

theorem Action.ownerSub (h : c.Consistent) (hok : env.ListStoresOk)
    (ha : Action P env enc sock line c c') :
    c'.list.ownerSub = foundedBy c.list.ownerSub (markOf P env enc c sock line) := by
  have hkind : ∀ {i}, localSessionFind c.pool sock = some i →
      markOf P env enc c sock line = markAt P env enc c i line := fun hi => by
    rw [markOf, hi, Option.bind_some]
  cases ha with
  | idle hm => rw [hm]; rfl
  | voided hi hm hpw => rw [hm]; rfl
  | pake1 hi hk hlock hA hget hhd => rw [hkind hi, markAt, hk]; rfl
  | pake3Abort hi hm hs => rw [hm]; rfl
  | pake3Bad hi hk hs hhd hm1 hbad => rw [hkind hi, markAt, hk]; rfl
  | pake3Ok hi hk hs hhd hm1 hgood => rw [hkind hi, markAt, hk]; rfl
  | enroll hi hm hs hp he =>
    obtain ⟨hne, hlen⟩ := parseEnroll_sub hp
    obtain ⟨-, -, -, -, -, hown⟩ := h.enrolled ⟨hne, hlen⟩ he
    rw [hm, foundedBy]
    refine hown.trans ?_
    simp only [ownerAfter, beq_iff_eq, copyField]
    rw [show pairedSubMax + 1 - 1 = pairedSubMax from rfl, take_eq_of_length_le hlen]
  | enrollFail hi hm hp he =>
    obtain ⟨hl, -⟩ := h.enrollFailed hok he
    rw [hm, hl]
    rfl
  | auth1 hi hk hp hf hr => rw [hkind hi, markAt, hk]; rfl
  | auth3Bad hi hm hs => rw [hm]; rfl
  | auth3Ok hi hk hs hp => rw [hkind hi, markAt, hk]; rfl
  | remove hi hm hr hby hrem =>
    rw [hm]
    exact pairedListRemove_ownerSub hr hrem
  | removeFail hi hm hr hrem =>
    rw [hm]
    exact pairedListRemove_ownerSub hr hrem
  | pwset hi hm ho hset hrun hend hrot =>
    obtain ⟨-, -, -, hown⟩ := (Core.Consistent.revokeRun hok hrun (h.setPw _)).rotated hok hrot
    rw [hm]
    exact hown.trans hrun.ownerSub
  | pwsetFail hm hset => rw [hm]; rfl
  | pwclear hm => rw [hm]; rfl
  | reset hi hm ho => rw [hm]; rfl

end Tracking

section Runs

variable {P : Platform} {w w' : World} {e : Event} {c : Core}

theorem Move.tracks (h : w.core.Consistent) (hok : e.ListStoresOk) (hm : Move P w e c)
    (j : Slot) : Tracks w.core c (namedBy (stepMark P ⟨w, e, w'⟩) j) j := by
  have hrefl := SameRows.refl w.core.list
  cases hm with
  | line hl ha =>
    rw [stepMark_line hl]
    exact ha.tracks h hok j
  | refused hl => exact .of_pool_eq h rfl hrefl (by rw [stepMark_refused hl]; rfl)
  | opened hi hnew => exact .of_set_none h rfl hrefl (fun _ => rfl) rfl
  | undone hi => exact .of_set_none h rfl hrefl (fun _ => rfl) rfl
  | closed hi => exact .of_set_none h rfl hrefl (fun _ => rfl) rfl
  | turnedAway => exact .of_pool_eq h rfl hrefl rfl
  | notOpen hi => exact .of_pool_eq h rfl hrefl rfl
  | queue => exact .of_pool_eq h rfl hrefl rfl
  | send => exact .of_pool_eq h rfl hrefl rfl
  | tick => exact .of_pool_eq h rfl hrefl rfl
  | pairingTimeout => exact .of_pool_eq h rfl hrefl rfl
  | reboot => exact fun _ hr' => (Option.some_ne_none _ hr'.symm).elim
  | factory => exact fun _ hr' => (Option.some_ne_none _ hr'.symm).elim

theorem Move.ownerSub (h : w.core.Consistent) (hok : e.ListStoresOk) (hm : Move P w e c) :
    c.list.ownerSub = foundedBy w.core.list.ownerSub (stepMark P ⟨w, e, w'⟩) := by
  cases hm with
  | line hl ha =>
    rw [stepMark_line hl]
    exact ha.ownerSub h hok
  | refused hl => rw [stepMark_refused hl]; rfl
  | reboot => exact congrArg PairedBlob.ownerSub (h.boot _).2
  | factory =>
    exact congrArg PairedBlob.ownerSub ((w.core.boot_factoryReset_consistent hok).boot _).2
  | opened hi hnew => rfl
  | undone hi => rfl
  | closed hi => rfl
  | turnedAway => rfl
  | notOpen hi => rfl
  | queue => rfl
  | send => rfl
  | tick => rfl
  | pairingTimeout => rfl

def founder (P : Platform) (tr : List (Step World Event)) : Bytes :=
  tr.foldl (fun owner s => foundedBy owner (stepMark P s)) []

theorem founder_concat (P : Platform) (tr : List (Step World Event)) (s : Step World Event) :
    founder P (tr ++ [s]) = foundedBy (founder P tr) (stepMark P s) := by
  simp only [founder, List.foldl_append, List.foldl_cons, List.foldl_nil]

structure Followed (P : Platform) (tr : List (Step World Event)) (w : World) : Prop where
  consistent : w.core.Consistent
  named : ∀ i r, (w.pool i).pairedIndex = some r →
    lastNamed P i tr = some (w.list.entries r).userSub
  owner : w.list.ownerSub = founder P tr

theorem Followed.step {tr : List (Step World Event)} (h : Followed P tr w)
    (hok : e.ListStoresOk) : Followed P (tr ++ [⟨w, e, step P w e⟩]) (step P w e) := by
  have hm := step_move P w e
  refine ⟨h.consistent.move hok hm, fun i r hr => ?_, ?_⟩
  · rw [lastNamed_concat]
    have htracks : Tracks w.core _ (namedBy (stepMark P ⟨w, e, CyThing.step P w e⟩) i) i :=
      hm.tracks h.consistent hok i
    rcases htracks r hr with hn | ⟨hn, k, hk, he⟩
    · rw [hn]
      rfl
    · rw [hn, Option.none_or, h.named i k hk]
      exact congrArg some he.symm
  · rw [founder_concat, ← h.owner]
    have howner : _ = foundedBy _ (stepMark P ⟨w, e, CyThing.step P w e⟩) :=
      hm.ownerSub h.consistent hok
    exact howner

theorem World.fresh_consistent : World.fresh.core.Consistent :=
  ⟨PairedBlob.WellFormed.empty, rfl, fun _ => SessionFits.of_new rfl rfl⟩

theorem followed_run (P : Platform) (es : List Event) (hok : ∀ e ∈ es, e.ListStoresOk) :
    Followed P (trace (CyThing.step P) World.fresh es) (run (CyThing.step P) World.fresh es) := by
  have hsteps : ∀ s ∈ trace (CyThing.step P) World.fresh es, s.event.ListStoresOk := by
    intro s hs
    obtain ⟨pre, post, hes, -, -⟩ := mem_trace hs
    exact hok s.event (by rw [hes]; simp)
  refine trace_induction (Q := Followed P) ?_ (fun tr u e h hs => h.step hs) es hsteps
  exact ⟨World.fresh_consistent, (fun i r hr => nomatch hr), rfl⟩

end Runs

/-- Ownership never moves and the list stays well formed, over every run of lines,
connections and restarts in which the stores of the list succeed. -/
theorem ownership_never_moves (P : Platform) (es : List Event)
    (hok : ∀ e ∈ es, e.ListStoresOk) :
    let l := (run (step P) World.fresh es).list
    l.count ≤ pairedListMax ∧
    (∀ r < l.count, (l.entries r).userSub ≠ []) ∧
    (∀ r < l.count, ∀ k < l.count,
      (l.entries r).userSub.take pairedSubMax = (l.entries k).userSub.take pairedSubMax →
        r = k) ∧
    (∀ r, l.count ≤ r → l.entries r = {}) ∧
    (∀ r < l.count, (l.entries r).role = .owner ↔ (l.entries r).userSub = l.ownerSub) ∧
    (l.ownerSub = [] ↔ l.count = 0) ∧
    (0 < l.count → ∃! r, r < l.count ∧ (l.entries r).role = .owner) ∧
    l.ownerSub = founder P (trace (step P) World.fresh es) ∧
    ∀ s ∈ trace (step P) World.fresh es, s.before.list.ownerSub ≠ [] →
      stepMark P s ≠ some .resets → s.after.list.ownerSub = s.before.list.ownerSub := by
  have hrun := followed_run P es hok
  have hwf := hrun.consistent.wf
  refine ⟨hwf.count_le, hwf.sub_ne, hwf.distinct, hwf.clear, fun r hr => hwf.owner_iff hr,
    hwf.owner_empty, fun hpos => ⟨0, ⟨hpos, (hwf.owner_row hpos).mpr rfl⟩, fun r hr =>
      (hwf.owner_row hr.1).mp hr.2⟩, hrun.owner, fun s hs hne hreset => ?_⟩
  obtain ⟨pre, post, hes, hb, ha⟩ := mem_trace hs
  obtain ⟨w, e, w'⟩ := s
  obtain rfl : w' = step P w e := ha
  have hpre : Followed P _ w := hb ▸ followed_run P pre fun e he => hok e (by rw [hes]; simp [he])
  have hown : _ = foundedBy _ (stepMark P ⟨w, e, step P w e⟩) :=
    (step_move P w e).ownerSub hpre.consistent (hok e (by rw [hes]; simp))
  refine hown.trans ?_
  unfold foundedBy
  split
  · next h => exact absurd h hreset
  · exact if_neg hne
  · rfl

theorem twoPhones_storesOk : ∀ e ∈ Sample.twoPhones, e.ListStoresOk := by
  simp [Sample.twoPhones, Sample.ownerJoins, Sample.userJoins, Sample.join, Sample.pake1,
    Sample.pake3, Sample.enroll, Event.ListStoresOk, Env.ListStoresOk]

theorem ownership_of_two_phones :
    (∀ e ∈ Sample.twoPhones, e.ListStoresOk) ∧
    (run (step Sample.platform) World.fresh Sample.twoPhones).list.count = 2 ∧
    (run (step Sample.platform) World.fresh Sample.twoPhones).list.ownerSub =
      founder Sample.platform (trace (step Sample.platform) World.fresh Sample.twoPhones) := by
  obtain ⟨-, -, -, -, -, -, -, hfounder, -⟩ :=
    ownership_never_moves Sample.platform _ twoPhones_storesOk
  exact ⟨twoPhones_storesOk, by decide +kernel, hfounder⟩

end CyThing
