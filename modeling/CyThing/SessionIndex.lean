import CyThing.AccountTracking

/-! What the removal of accounts does to the sessions: those on a removed account are back
in `LS_NEW`, the others keep their state. -/

namespace CyThing
open CLib Trace

def Listed (l : PairedBlob) (sub : Bytes) : Prop := ∃ r < l.count, (l.entries r).userSub = sub

theorem Listed.of_sameRows {l l' : PairedBlob} {sub : Bytes} (h : SameRows l l')
    (hl : Listed l sub) : Listed l' sub := by
  obtain ⟨r, hr, hs⟩ := hl
  exact ⟨r, lt_of_lt_of_le hr h.1, (h.2 r hr).1.trans hs⟩

theorem Listed.of_dropRow {l : PairedBlob} {sub : Bytes} {r : Nat} (hr : r < l.count)
    (hl : Listed (l.dropRow r) sub) : Listed l sub := by
  obtain ⟨k, hk, hs⟩ := hl
  exact ⟨rowBefore r k, rowBefore_lt hk, by rw [← dropRow_row hr hk]; exact hs⟩

structure Dropped (s : LocalSession) : Prop where
  state_new : s.state = .new
  key_zero : s.key = zeroKey
  role_none : s.role = .none
  index_none : s.pairedIndex = none

theorem LocalSession.dropped_dropAuth (s : LocalSession) : Dropped s.dropAuth :=
  ⟨rfl, rfl, rfl, rfl⟩

def FollowsRemoval (c c' : Core) (j : Slot) : Prop :=
  ((c.pool j).pairedIndex = none → c'.pool j = c.pool j) ∧
  ∀ r, (c.pool j).pairedIndex = some r →
    (∃ r' < c'.list.count, (c'.pool j).pairedIndex = some r' ∧
      (c'.list.entries r').userSub = (c.list.entries r).userSub ∧
      (c'.pool j).state = (c.pool j).state) ∨
    (¬Listed c'.list (c.list.entries r).userSub ∧ Dropped (c'.pool j))

section Removal

variable {c c' : Core} {env : Env} {r : Nat} {l : PairedBlob} {nvs : Option StoredList}

theorem PairedBlob.WellFormed.not_listed_dropRow {l : PairedBlob} (h : l.WellFormed)
    (hr : r < l.count) : ¬Listed (l.dropRow r) (l.entries r).userSub := by
  rintro ⟨k, hk, hs⟩
  rw [dropRow_row hr hk] at hs
  exact rowBefore_ne r k (h.sub_inj (rowBefore_lt hk) hr hs)

theorem removed_follows (h : c.Consistent) (hr : r < c.list.count) (j : Slot) :
    FollowsRemoval c (c.removed (c.list.dropRow r) nvs r) j := by
  have hpool : (c.removed (c.list.dropRow r) nvs r).pool j = (c.pool j).onPairedRemoved r := rfl
  rcases (c.pool j).onPairedRemoved_cases r with
    ⟨-, hk, he⟩ | ⟨k, -, hk, hlt, he⟩ | ⟨hkeep, he⟩
  · refine ⟨(fun hn => by rw [hk] at hn; cases hn), fun k hk' => Or.inr ?_⟩
    rw [hk] at hk'
    cases hk'
    rw [hpool, he]
    exact ⟨h.wf.not_listed_dropRow hr, LocalSession.dropped_dropAuth _⟩
  · refine ⟨(fun hn => by rw [hk] at hn; cases hn), fun k' hk' => Or.inl ?_⟩
    rw [hk] at hk'
    cases hk'
    rw [hpool, he]
    have hkc := (h.fits j).index_lt k hk
    refine ⟨k - 1, ?_, rfl, ?_, rfl⟩
    · change k - 1 < c.list.count - 1
      omega
    · change ((c.list.dropRow r).entries (k - 1)).userSub = _
      rw [dropRow_entries_ge hr (by omega) (by omega), Nat.sub_add_cancel (by omega)]
  · refine ⟨fun _ => by rw [hpool, he], fun k hk => Or.inl ?_⟩
    have hlow : k < r := by
      rcases hkeep with hf | hlow
      · have := (h.fits j).free hf
        rw [hk] at this
        cases this
      · exact hlow k hk
    rw [hpool, he]
    have hrc : r < c.list.count := hr
    refine ⟨k, ?_, hk, ?_, rfl⟩
    · change k < c.list.count - 1
      omega
    · change ((c.list.dropRow r).entries k).userSub = _
      rw [dropRow_entries_lt hr hlow]

theorem RevokeRun.listed (hrun : RevokeRun env c c') {sub : Bytes} (hl : Listed c'.list sub) :
    Listed c.list sub := by
  induction hrun with
  | done c => exact hl
  | removed hr hrole hrem hrest ih =>
    have := ih hl
    exact (pairedListRemove_list hr hrem ▸ this : Listed (PairedBlob.dropRow _ _) sub).of_dropRow hr
  | failed hr hrole hrem hrest ih =>
    have := ih hl
    exact (pairedListRemove_list hr hrem ▸ this : Listed (PairedBlob.dropRow _ _) sub).of_dropRow hr

theorem RevokeRun.follows (hok : env.ListStoresOk) (hrun : RevokeRun env c c')
    (h : c.Consistent) (j : Slot) : FollowsRemoval c c' j := by
  induction hrun with
  | done c =>
    exact ⟨fun _ => rfl, fun r hr => Or.inl ⟨r, (h.fits j).index_lt r hr, hr, rfl, rfl⟩⟩
  | @removed c c' r k l nvs hr hrole hrem hrest ih =>
    have h' := h.removed hr (fun h0 => hrole ((h.wf.owner_row hr).mpr h0)) hrem
    obtain rfl := pairedListRemove_list hr hrem
    obtain ⟨hn₁, hs₁⟩ : FollowsRemoval c (c.removed (c.list.dropRow r) nvs r) j :=
      removed_follows h hr j
    obtain ⟨hn₂, hs₂⟩ := ih h'
    refine ⟨fun hn => ?_, fun k₀ hk₀ => ?_⟩
    · rw [hn₂ (by rw [hn₁ hn]; exact hn), hn₁ hn]
    · rcases hs₁ k₀ hk₀ with ⟨k₁, -, hk₁, hsub, hst⟩ | ⟨hgone, hdrop⟩
      · rw [← hsub, ← hst]
        exact hs₂ k₁ hk₁
      · refine Or.inr ⟨fun hl => hgone (hrest.listed hl), ?_⟩
        rw [hn₂ hdrop.index_none]
        exact hdrop
  | failed hr hrole hrem hrest ih =>
    rw [hok.1, pairedListRemove_ok hr] at hrem
    cases hrem

theorem Action.removal {P : Platform} {enc : Bool} {sock : Nat} {line : Bytes}
    (h : c.Consistent) (hok : env.ListStoresOk) (ha : Action P env enc sock line c c') :
    SameRows c.list c'.list ∨ (∀ j, FollowsRemoval c c' j) ∨
      (markOf P env enc c sock line = some .resets ∧
        ∀ j r, (c.pool j).pairedIndex = some r → Dropped (c'.pool j)) := by
  have hrefl := SameRows.refl c.list
  cases ha with
  | idle hm => exact Or.inl hrefl
  | voided hi hm hpw => exact Or.inl hrefl
  | pake1 hi hk hlock hA hget hhd => exact Or.inl hrefl
  | pake3Abort hi hm hs => exact Or.inl hrefl
  | pake3Bad hi hk hs hhd hm1 hbad => exact Or.inl hrefl
  | pake3Ok hi hk hs hhd hm1 hgood => exact Or.inl hrefl
  | enroll hi hm hs hp he => exact Or.inl (h.enrolled (parseEnroll_sub hp) he).2.1
  | enrollFail hi hm hp he =>
    rw [(h.enrollFailed hok he).1]
    exact Or.inl hrefl
  | auth1 hi hk hp hf hr => exact Or.inl hrefl
  | auth3Bad hi hm hs => exact Or.inl hrefl
  | auth3Ok hi hk hs hp => exact Or.inl hrefl
  | remove hi hm hr hby hrem =>
    obtain rfl := pairedListRemove_list hr hrem
    exact Or.inr (Or.inl (removed_follows h hr))
  | removeFail hi hm hr hrem =>
    rw [hok.1, pairedListRemove_ok hr] at hrem
    cases hrem
  | @pwset i password pw c₁ ok l nvs hi hm ho hset hrun hend hrot =>
    have hcons := Core.Consistent.revokeRun hok hrun (h.setPw _)
    obtain ⟨-, hrows, hcount, -⟩ := hcons.rotated hok hrot
    refine Or.inr (Or.inl fun j => ?_)
    obtain ⟨hn, hs⟩ := hrun.follows hok (h.setPw _) j
    refine ⟨hn, fun r hr => ?_⟩
    rcases hs r hr with ⟨r', hr', hidx, hsub, hst⟩ | ⟨hgone, hdrop⟩
    · exact Or.inl ⟨r', hcount ▸ hr', hidx, (hrows.2 r' hr').1.trans hsub, hst⟩
    · refine Or.inr ⟨fun ⟨k, hk, hsub⟩ => hgone ?_, hdrop⟩
      have hk : k < c₁.list.count := hcount ▸ hk
      exact ⟨k, hk, (hrows.2 k hk).1.symm.trans hsub⟩
  | pwsetFail hm hset => exact Or.inl hrefl
  | pwclear hm => exact Or.inl hrefl
  | reset hi hm ho =>
    refine Or.inr (Or.inr ⟨hm, fun j r hr => ?_⟩)
    have hsock : (c.pool j).sock ≠ none := fun hf => by
      have := (h.fits j).free hf
      rw [hr] at this
      cases this
    simp only [localSessionDropAllAuth, if_neg hsock]
    exact LocalSession.dropped_dropAuth _

theorem Action.resets {P : Platform} {enc : Bool} {sock : Nat} {line : Bytes}
    (ha : Action P env enc sock line c c')
    (hmark : markOf P env enc c sock line = some .resets) {j : Slot}
    (hsock : (c.pool j).sock ≠ none) : Dropped (c'.pool j) := by
  have hkind : ∀ {i : Slot}, localSessionFind c.pool sock = some i →
      markAt P env enc c i line = some .resets := fun hi => by
    simpa only [markOf, hi, Option.bind_some] using hmark
  cases ha with
  | reset hi hm ho =>
    simp only [localSessionDropAllAuth, if_neg hsock]
    exact LocalSession.dropped_dropAuth _
  | pake1 hi hk | pake3Bad hi hk | pake3Ok hi hk | auth1 hi hk | auth3Ok hi hk =>
    have hcontra := hkind hi
    rw [markAt, hk] at hcontra
    cases hcontra
  | idle hm | pwsetFail hm | pwclear hm => rw [hm] at hmark; cases hmark
  | voided hi hm | pake3Abort hi hm | enroll hi hm | enrollFail hi hm | auth3Bad hi hm
  | remove hi hm | removeFail hi hm | pwset hi hm => rw [hm] at hmark; cases hmark

end Removal

def RemovesAccount (s : Step World Event) : Prop :=
  ∃ sub, Listed s.before.list sub ∧ ¬Listed s.after.list sub

def DropsRemoved (s : Step World Event) : Prop :=
  ∀ j r, (s.before.pool j).pairedIndex = some r →
    ¬Listed s.after.list (s.before.list.entries r).userSub → Dropped (s.after.pool j)

def KeepsOthers (s : Step World Event) : Prop :=
  ∀ j, (∀ r, (s.before.pool j).pairedIndex = some r →
    Listed s.after.list (s.before.list.entries r).userSub) →
    (s.after.pool j).state = (s.before.pool j).state

def DropsAll (s : Step World Event) : Prop :=
  ∀ j, (s.before.pool j).sock ≠ none → Dropped (s.after.pool j)

theorem Dropped.of_core {w : World} {j : Slot} (h : Dropped (w.core.pool j)) :
    Dropped (w.pool j) := ⟨h.state_new, h.key_zero, h.role_none, h.index_none⟩

theorem step_removal {P : Platform} {w : World} {e : Event} (h : w.core.Consistent)
    (hok : e.ListStoresOk) (hrem : RemovesAccount ⟨w, e, step P w e⟩) :
    DropsRemoved ⟨w, e, step P w e⟩ ∧
      (stepMark P ⟨w, e, step P w e⟩ ≠ some .resets → KeepsOthers ⟨w, e, step P w e⟩) := by
  obtain ⟨sub, hin, hout⟩ := hrem
  have hm := step_move P w e
  generalize step P w e = w' at hm hout ⊢
  generalize hc : w'.core = c at hm
  have hlist : w'.core.list = c.list := by rw [hc]
  change w'.list = c.list at hlist
  have hpool : ∀ j, w'.core.pool j = c.pool j := fun j => by rw [hc]
  have hsame : ¬SameRows w.list c.list := fun hrows => hout (hlist ▸ hin.of_sameRows hrows)
  have hself := SameRows.refl w.list
  cases hm with
  | line hl ha =>
    rw [stepMark_line hl]
    rcases ha.removal h hok with hrows | hfol | ⟨hmark, hall⟩
    · exact absurd hrows hsame
    · refine ⟨fun j r hr hgone => ?_, fun _ j hstill => ?_⟩
      · rcases (hfol j).2 r hr with ⟨r', hr', -, hsub, -⟩ | ⟨-, hdrop⟩
        · exact absurd ⟨r', hlist ▸ hr', hlist ▸ hsub⟩ hgone
        · exact Dropped.of_core (hpool j ▸ hdrop)
      · change (w'.core.pool j).state = (w.core.pool j).state
        rw [hpool]
        rcases hidx : (w.core.pool j).pairedIndex with _ | r
        · rw [(hfol j).1 hidx]
        · rcases (hfol j).2 r hidx with ⟨-, -, -, -, hst⟩ | ⟨hgone, -⟩
          · exact hst
          · exact absurd (hlist ▸ hstill r hidx) hgone
    · exact ⟨fun j r hr _ => Dropped.of_core (hpool j ▸ hall j r hr), fun hne => absurd hmark hne⟩
  | factory =>
    exact ⟨fun j r hr _ => Dropped.of_core (hpool j ▸ ⟨rfl, rfl, rfl, rfl⟩),
      fun hne => absurd rfl hne⟩
  | reboot => exact absurd ((h.boot _).2 ▸ hself) hsame
  | refused hl => exact absurd hself hsame
  | opened hi hnew => exact absurd hself hsame
  | undone hi => exact absurd hself hsame
  | closed hi => exact absurd hself hsame
  | turnedAway => exact absurd hself hsame
  | notOpen hi => exact absurd hself hsame
  | queue => exact absurd hself hsame
  | send => exact absurd hself hsame
  | tick => exact absurd hself hsame
  | pairingTimeout => exact absurd hself hsame

theorem step_resets {P : Platform} {w : World} {e : Event}
    (hmark : stepMark P ⟨w, e, step P w e⟩ = some .resets) : DropsAll ⟨w, e, step P w e⟩ := by
  intro j hsock
  have hm := step_move P w e
  refine Dropped.of_core ?_
  generalize (step P w e).core = c at hm ⊢
  cases hm with
  | line hl ha =>
    rw [stepMark_line hl] at hmark
    exact ha.resets hmark hsock
  | refused hl =>
    simp only [stepMark, hl, Option.bind_none] at hmark
    cases hmark
  | factory => exact ⟨rfl, rfl, rfl, rfl⟩
  | reboot | opened | undone | closed | turnedAway | notOpen | queue | send | tick
  | pairingTimeout => cases hmark

/-- Sessions follow the compacting list, over every run in which the stores of the list
succeed. A reset alone also ends the exchanges that are on no account. -/
theorem sessions_follow_list (P : Platform) (es : List Event)
    (hok : ∀ e ∈ es, e.ListStoresOk) :
    let w := run (step P) World.fresh es
    (∀ i r, (w.pool i).pairedIndex = some r → r < w.list.count ∧
      lastNamed P i (trace (step P) World.fresh es) = some (w.list.entries r).userSub) ∧
    (∀ i, (w.pool i).authenticated = true → ∃ r, (w.pool i).pairedIndex = some r ∧
      ((w.pool i).role = .owner ↔ (w.list.entries r).role = .owner)) ∧
    ∀ s ∈ trace (step P) World.fresh es,
      (RemovesAccount s → DropsRemoved s ∧ (stepMark P s ≠ some .resets → KeepsOthers s)) ∧
      (stepMark P s = some .resets → DropsAll s) := by
  have hrun := followed_run P es hok
  have hfits := hrun.consistent.fits
  refine ⟨fun i r hr => ⟨(hfits i).index_lt r hr, hrun.named i r hr⟩, fun i ha => ?_,
    fun s hs => ?_⟩
  · obtain ⟨r, hr⟩ := (hfits i).index_of_authenticated ha
    exact ⟨r, hr, (hfits i).role_iff ha r hr⟩
  · obtain ⟨pre, post, hes, hb, ha⟩ := mem_trace hs
    obtain ⟨w, e, w'⟩ := s
    obtain rfl : w' = step P w e := ha
    have hpre : Followed P _ w :=
      hb ▸ followed_run P pre fun e he => hok e (by rw [hes]; simp [he])
    exact ⟨step_removal hpre.consistent (hok e (by rw [hes]; simp)), step_resets⟩

theorem sessions_follow_two_phones :
    (∀ e ∈ Sample.twoPhones, e.ListStoresOk) ∧
    ((run (step Sample.platform) World.fresh Sample.twoPhones).pool 1).pairedIndex = some 1 ∧
    lastNamed Sample.platform 1 (trace (step Sample.platform) World.fresh Sample.twoPhones) =
      some ((run (step Sample.platform) World.fresh Sample.twoPhones).list.entries 1).userSub := by
  have hidx : ((run (step Sample.platform) World.fresh Sample.twoPhones).pool 1).pairedIndex =
      some 1 := by decide +kernel
  obtain ⟨hindex, -, -⟩ := sessions_follow_list Sample.platform _ twoPhones_storesOk
  exact ⟨twoPhones_storesOk, hidx, (hindex 1 1 hidx).2⟩

def resetSetting : List Event := Sample.ownerJoins ++ [.accept 6 2 true, Sample.pake1 6 {}]

def resetStep : Step World Event :=
  let w := run (step Sample.platform) World.fresh resetSetting
  let e := Sample.ownerSends 2 "RESET" {}
  ⟨w, e, step Sample.platform w e⟩

/-- `RESET` also ends the exchange of a phone that was on no account. -/
theorem reset_ends_open_exchange :
    ∃ es : List Event, (∀ e ∈ es, e.ListStoresOk) ∧
      ∃ s ∈ trace (step Sample.platform) World.fresh es, RemovesAccount s ∧ ¬KeepsOthers s := by
  have hcount : 0 < resetStep.before.list.count := by decide +kernel
  have hsub : (resetStep.before.list.entries 0).userSub = ascii "owner" := by decide +kernel
  have hempty : resetStep.after.list.count = 0 := by decide +kernel
  have hnone : (resetStep.before.pool 1).pairedIndex = none := by decide +kernel
  have hstate : (resetStep.after.pool 1).state ≠ (resetStep.before.pool 1).state := by
    decide +kernel
  refine ⟨resetSetting ++ [Sample.ownerSends 2 "RESET" {}], ?_, resetStep, ?_, ?_, ?_⟩
  · simp [resetSetting, Sample.ownerJoins, Sample.ownerSends, Sample.command, Sample.join,
      Sample.pake1, Sample.pake3, Sample.enroll, Event.ListStoresOk, Env.ListStoresOk]
  · rw [trace_concat]
    exact List.mem_append_right _ (List.mem_singleton_self _)
  · refine ⟨ascii "owner", ⟨0, hcount, hsub⟩, ?_⟩
    rintro ⟨r, hr, -⟩
    rw [hempty] at hr
    exact absurd hr (Nat.not_lt_zero r)
  · intro hkeep
    refine hstate (hkeep 1 fun r hr => ?_)
    rw [hnone] at hr
    cases hr

end CyThing
