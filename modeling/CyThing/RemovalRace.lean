import CyThing.SessionIndex
import CyThing.StoreFailure
import CyThing.Tasks

/-! Removals of accounts by tasks that run side by side. A handler looks a row up in one call
and removes it by its index in a later one, and the sessions learn of the removal in a third,
so that a removal in between makes an index in hand mean another account. -/

namespace CyThing
open CLib Trace

/-! ## What a removal should do -/

def HasKey (l : PairedBlob) (sub : Bytes) (key : Block pairedKeyLen) : Prop :=
  ∃ r < l.count, (l.entries r).userSub = sub ∧ (l.entries r).key = key

structure Removes (l l' : PairedBlob) (sub : Bytes) : Prop where
  had : Listed l sub
  gone : ¬Listed l' sub
  others : ∀ other ≠ sub, ∀ key, HasKey l' other key ↔ HasKey l other key

def Point.holds : Point → Option Nat
  | .revokeGet _ index | .revokeRemove _ index _ | .revokeFix _ index _ => some index
  | .unpairRemove _ index | .unpairFix _ index => some index
  | .pwsetRemove row _ _ | .pwsetFix row _ _ => some row
  | .enrollAssign _ e => some e.index
  | _ => none

def Point.fixing : Point → Option Nat
  | .revokeFix _ index _ | .unpairFix _ index => some index
  | .pwsetFix row _ _ => some row
  | _ => none

/-- No row is removed while another task has an index in hand, and between a removal and its
`local_session_on_paired_removed` no other task takes the index of its session or sets it. -/
def undisturbed (s : Step Config Sched) : Bool :=
  match s.event with
  | .line _ _ _ => true
  | .call i =>
    let others (p : Point → Bool) :=
      (List.finRange localSessionMax).all fun j => j == i || p (s.before.task j).point
    match (s.before.task i).point with
    | .revokeRemove _ _ _ | .unpairRemove _ _ | .pwsetRemove _ _ _ => others (·.holds.isNone)
    | .unpairRead _ | .enrollAssign _ _ => others (·.fixing.isNone)
    | _ => true

def accountAfter (account : Slot → Option Bytes) (s : Step Config Sched) : Slot → Option Bytes :=
  match s.event with
  | .line _ _ _ => account
  | .call i =>
    match (s.before.task i).point with
    | .enrollAssign sub _ => Function.update account i (some sub.1)
    | _ => account

def accountOf (w₀ : World) (tr : List (Step Config Sched)) : Slot → Option Bytes :=
  tr.foldl accountAfter fun i => (w₀.pool i).pairedIndex.map fun r => (w₀.list.entries r).userSub

def ListStep (account : Slot → Option Bytes) (s : Step Config Sched) : Prop :=
  let l := s.before.world.list
  let l' := s.after.world.list
  match s.event with
  | .line _ _ _ => l' = l
  | .call i =>
    match (s.before.task i).point with
    | .revokeRemove sub _ _ => Removes l l' sub
    | .unpairRemove _ _ => ∃ sub, account i = some sub ∧ Removes l l' sub
    | .pwsetRemove _ _ _ => ∃ sub ≠ l.ownerSub, Removes l l' sub
    | .pwsetRotate => (∀ sub, Listed l' sub ↔ Listed l sub) ∧
        ∀ sub ≠ l.ownerSub, ∀ key, HasKey l' sub key ↔ HasKey l sub key
    | _ => ∀ sub key, HasKey l sub key → HasKey l' sub key

section Lists

variable {l l' : PairedBlob} {r : Nat}

theorem PairedBlob.WellFormed.removes (h : l.WellFormed) (hr : r < l.count) :
    Removes l (l.dropRow r) (l.entries r).userSub := by
  refine ⟨⟨r, hr, rfl⟩, h.not_listed_dropRow hr, fun other hne key => ⟨?_, ?_⟩⟩
  · rintro ⟨k, hk, hsub, hkey⟩
    rw [dropRow_row hr hk] at hsub hkey
    exact ⟨rowBefore r k, rowBefore_lt hk, hsub, hkey⟩
  · rintro ⟨k, hk, hsub, hkey⟩
    have hkr : k ≠ r := fun h => hne (by rw [← hsub, h])
    rcases Nat.lt_or_gt_of_ne hkr with hlt | hgt
    · refine ⟨k, show k < l.count - 1 by omega, ?_⟩
      rw [dropRow_entries_lt hr hlt]
      exact ⟨hsub, hkey⟩
    · refine ⟨k - 1, show k - 1 < l.count - 1 by omega, ?_⟩
      rw [dropRow_entries_ge hr (by omega) (by omega), Nat.sub_add_cancel (by omega)]
      exact ⟨hsub, hkey⟩

theorem pairedListAdd_keeps (h : l.WellFormed) {fate : NvsFate} {nvs : Option StoredList}
    {sub email : Bytes} {key k : Block pairedKeyLen} {pairedAt : Nat} {other : Bytes}
    (hk : HasKey l other k) :
    HasKey (pairedListAdd fate l nvs sub email key pairedAt).list other k := by
  obtain ⟨q, hq, hentry⟩ := hk
  rcases pairedListAdd_cases fate nvs sub email key pairedAt h.clear with
    ⟨-, hl, -⟩ | ⟨r, -, -, ha⟩ | ⟨-, -, -, ha⟩
  · rw [hl]
    exact ⟨q, hq, hentry⟩
  · rw [ha]
    refine ⟨q, hq, ?_⟩
    by_cases hqr : q = r
    · subst hqr
      simp only [PairedBlob.refreshed, Function.update_self, PairedEntry.touch]
      exact hentry
    · simp only [PairedBlob.refreshed, Function.update_of_ne hqr]
      exact hentry
  · rw [ha]
    refine ⟨q, Nat.lt_succ_of_lt hq, ?_⟩
    simp only [PairedBlob.appended, Function.update_of_ne (Nat.ne_of_lt hq)]
    exact hentry

theorem pairedListAdd_failed (h : l.WellFormed) {fate : NvsFate} {nvs : Option StoredList}
    {sub email : Bytes} {key : Block pairedKeyLen} {pairedAt : Nat}
    (he : (pairedListAdd fate l nvs sub email key pairedAt).enrolled = none) :
    (pairedListAdd fate l nvs sub email key pairedAt).list = l := by
  rcases pairedListAdd_cases fate nvs sub email key pairedAt h.clear with
    ⟨-, hl, -⟩ | ⟨r, -, -, ha⟩ | ⟨-, -, -, ha⟩
  · exact hl
  · rw [ha] at he
    cases he
  · rw [ha] at he
    cases he

theorem rotate_keeps (h : l.WellFormed) {fate : NvsFate} {nvs nvs' : Option StoredList}
    {key : Block pairedKeyLen} {ok : Bool}
    (hrot : pairedListRotateOwnerKey fate l nvs key = (ok, l', nvs')) :
    l'.WellFormed ∧ SameRows l l' ∧ (∀ sub, Listed l' sub ↔ Listed l sub) ∧
      ∀ sub ≠ l.ownerSub, ∀ k, HasKey l' sub k ↔ HasKey l sub k := by
  rcases pairedListRotateOwnerKey_cases hrot with ⟨rfl, -⟩ | ⟨r, hr, hrole, rfl, -⟩
  · exact ⟨h, SameRows.refl _, fun _ => Iff.rfl, fun _ _ _ => Iff.rfl⟩
  have hrows := rekeyed_rows l r key
  refine ⟨h.rekeyed hr key, hrows, fun sub => ?_, fun sub hne k => ?_⟩
  · refine exists_congr fun q => and_congr_right fun hq => ?_
    rw [(hrows.2 q hq).1]
  · refine exists_congr fun q => and_congr_right fun hq => ?_
    by_cases hqr : q = r
    · subst hqr
      have hsub : (l.entries q).userSub ≠ sub := fun hs => hne (hs ▸ (h.owner_iff hr).mp hrole)
      rw [(hrows.2 q hq).1]
      exact ⟨fun he => absurd he.1 hsub, fun he => absurd he.1 hsub⟩
    · simp only [PairedBlob.rekeyed, Function.update_of_ne hqr]

end Lists

/-! ## Sessions and tasks -/

structure OnRow (l : PairedBlob) (account : Option Bytes) (s : LocalSession) : Prop where
  row : ∀ r, s.pairedIndex = some r → r < l.count ∧ account = some (l.entries r).userSub
  free : s.sock = none → s.pairedIndex = none

def Held (l : PairedBlob) (account : Option Bytes) (s : LocalSession) : Point → Prop
  | .revokeFind _ => s.pairedIndex = some 0
  | .revokeGet sub r => s.pairedIndex = some 0 ∧ r < l.count ∧ (l.entries r).userSub = sub
  | .revokeRemove sub r _ => r ≠ 0 ∧ r < l.count ∧ (l.entries r).userSub = sub
  | .unpairRead _ => s.pairedIndex ≠ some 0
  | .unpairRemove _ r => r ≠ 0 ∧ r < l.count ∧ account = some (l.entries r).userSub
  | .pwsetRemove r _ _ => r ≠ 0 ∧ r < l.count
  | .revokeFix _ r _ | .unpairFix _ r | .pwsetFix r _ _ => r ≠ 0
  | .enrollAdd _ _ => s.sock ≠ none
  | .enrollAssign sub e => s.sock ≠ none ∧ e.index < l.count ∧
      (l.entries e.index).userSub = sub.1 ∧ (l.entries e.index).role = e.role
  | _ => True

section Sessions

variable {l l' : PairedBlob} {account : Option Bytes} {s : LocalSession} {p : Point} {r : Nat}

theorem OnRow.mono (h : OnRow l account s) (hrows : SameRows l l') : OnRow l' account s where
  row := fun r hr => by
    obtain ⟨hlt, ha⟩ := h.row r hr
    exact ⟨lt_of_lt_of_le hlt hrows.1, by rw [ha, (hrows.2 r hlt).1]⟩
  free := h.free

theorem OnRow.removed (h : OnRow l account s) (hr : r < l.count) :
    OnRow (l.dropRow r) account (s.onPairedRemoved r) := by
  rcases s.onPairedRemoved_cases r with ⟨-, -, he⟩ | ⟨k, hs, hk, hlt, he⟩ | ⟨hkeep, he⟩
  · rw [he]
    exact ⟨nofun, fun _ => rfl⟩
  · have hkc := (h.row k hk).1
    rw [he]
    refine ⟨fun j hj => ?_, fun hf => absurd hf hs⟩
    cases hj
    rw [dropRow_entries_ge hr (by omega) (by omega), Nat.sub_add_cancel (by omega), dropRow_count]
    exact ⟨by omega, (h.row k hk).2⟩
  · rw [he]
    refine ⟨fun k hk => ?_, h.free⟩
    have hlow : k < r := by
      rcases hkeep with hf | hlow
      · rw [h.free hf] at hk
        cases hk
      · exact hlow k hk
    rw [dropRow_entries_lt hr hlow, dropRow_count]
    exact ⟨by omega, (h.row k hk).2⟩

def OwnerFirst (s : LocalSession) : Prop := s.ownerRights = true → s.pairedIndex = some 0

theorem OwnerFirst.of_fits (hwf : l.WellFormed) (h : SessionFits l s) : OwnerFirst s := by
  intro ho
  simp only [LocalSession.ownerRights, Bool.and_eq_true, beq_iff_eq] at ho
  obtain ⟨k, hk⟩ := h.index_of_authenticated ho.2
  have hrole := (h.role_iff ho.2 k hk).mp ho.1
  rw [hwf.owner_row (h.index_lt k hk)] at hrole
  rw [hk, hrole]

theorem OwnerFirst.fixed (h : OwnerFirst s) : OwnerFirst (s.onPairedRemoved r) := by
  intro ho
  rcases s.onPairedRemoved_cases r with ⟨-, -, he⟩ | ⟨k, -, hk, hlt, he⟩ | ⟨-, he⟩
  · rw [he] at ho
    cases ho
  · rw [he] at ho
    have hs : s.ownerRights = true := by
      simpa [LocalSession.ownerRights, LocalSession.authenticated, hk] using ho
    have := h hs
    rw [hk, Option.some.injEq] at this
    omega
  · rw [he] at ho ⊢
    exact h ho

theorem LocalSession.onPairedRemoved_sock (s : LocalSession) (r : Nat) :
    (s.onPairedRemoved r).sock = s.sock := by
  rcases s.onPairedRemoved_cases r with ⟨-, -, he⟩ | ⟨k, -, -, -, he⟩ | ⟨-, he⟩ <;> rw [he]
  rfl

theorem onPairedRemoved_zero (hr : r ≠ 0) :
    (s.onPairedRemoved r).pairedIndex = some 0 ↔ s.pairedIndex = some 0 := by
  rcases s.onPairedRemoved_cases r with ⟨-, hk, he⟩ | ⟨k, -, hk, hlt, he⟩ | ⟨-, he⟩
  · rw [he, hk, Option.some.injEq]
    exact ⟨nofun, fun h => absurd h hr⟩
  · rw [he, hk]
    simp only [Option.some.injEq]
    omega
  · rw [he]

theorem Held.mono (h : Held l account s p) (hrows : SameRows l l') : Held l' account s p := by
  have hrow : ∀ {r}, r < l.count → r < l'.count ∧ _ := fun hr =>
    ⟨lt_of_lt_of_le hr hrows.1, hrows.2 _ hr⟩
  cases p with
  | revokeGet sub r =>
    obtain ⟨h0, hr, hs⟩ := h
    exact ⟨h0, (hrow hr).1, (hrow hr).2.1.trans hs⟩
  | revokeRemove sub r role =>
    obtain ⟨h0, hr, hs⟩ := h
    exact ⟨h0, (hrow hr).1, (hrow hr).2.1.trans hs⟩
  | unpairRemove sub r =>
    obtain ⟨h0, hr, hs⟩ := h
    exact ⟨h0, (hrow hr).1, hs.trans (congrArg some (hrow hr).2.1.symm)⟩
  | pwsetRemove r k sub => exact ⟨h.1, (hrow h.2).1⟩
  | enrollAssign sub e =>
    obtain ⟨hsock, hr, hs, hrole⟩ := h
    exact ⟨hsock, (hrow hr).1, (hrow hr).2.1.trans hs, (hrow hr).2.2.trans hrole⟩
  | _ => exact h

theorem Held.of_holds_none (h : Held l account s p) (hp : p.holds = none) :
    Held l' account s p := by
  cases p <;> first | exact h | cases hp

theorem Held.fixed (h : Held l account s p) (hr : r ≠ 0) :
    Held l account (s.onPairedRemoved r) p := by
  cases p with
  | revokeFind sub => exact (onPairedRemoved_zero hr).mpr h
  | revokeGet sub k => exact ⟨(onPairedRemoved_zero hr).mpr h.1, h.2⟩
  | unpairRead sub => exact fun h' => h ((onPairedRemoved_zero hr).mp h')
  | enrollAdd sub email => exact fun h' => h ((s.onPairedRemoved_sock r).symm.trans h')
  | enrollAssign sub e => exact ⟨fun h' => h.1 ((s.onPairedRemoved_sock r).symm.trans h'), h.2⟩
  | _ => exact h

theorem fixing_none_of_holds_none (h : p.holds = none) : p.fixing = none := by
  cases p <;> first | rfl | cases h

end Sessions

/-! ## What every interleaving keeps -/

structure Orderly (account : Slot → Option Bytes) (cfg : Config) : Prop where
  wf : cfg.world.list.WellFormed
  settled : (∀ i, (cfg.task i).point.fixing = none) →
    ∀ j, OnRow cfg.world.list (account j) (cfg.world.core.pool j)
  pending : ∀ i r, (cfg.task i).point.fixing = some r →
    ∀ j, OnRow cfg.world.list (account j) ((cfg.world.core.pool j).onPairedRemoved r)
  owners : ∀ j, OwnerFirst (cfg.world.core.pool j)
  once : ∀ i j, (cfg.task i).point.fixing ≠ none → (cfg.task j).point.fixing ≠ none → i = j
  held : ∀ i, Held cfg.world.list (account i) (cfg.world.core.pool i) (cfg.task i).point
  stores : ∀ i, (cfg.task i).env.ListStoresOk

def Config.moved (cfg : Config) (i : Slot) (w : World) (t : Task) : Config :=
  { cfg with world := w }.setTask i t

section Moved

variable {account : Slot → Option Bytes} {cfg : Config} {i j : Slot} {w : World} {t : Task}
  {r : Nat}

theorem Config.moved_forall {Q : Slot → Task → Prop} (hi : Q i t)
    (hj : ∀ j, j ≠ i → Q j (cfg.task j)) (j : Slot) : Q j ((cfg.moved i w t).task j) := by
  by_cases h : j = i
  · subst h
    simp only [Config.moved, Config.setTask, Function.update_self]
    exact hi
  · simp only [Config.moved, Config.setTask, Function.update_of_ne h]
    exact hj j h

theorem Orderly.moved_stores (h : Orderly account cfg) (ht : t.env.ListStoresOk) (j : Slot) :
    ((cfg.moved i w t).task j).env.ListStoresOk :=
  Config.moved_forall (Q := fun _ t => t.env.ListStoresOk) ht (fun j _ => h.stores j) j

theorem Orderly.extend (h : Orderly account cfg) (hwf : w.list.WellFormed)
    (hrows : SameRows cfg.world.list w.list) (hpool : w.core.pool = cfg.world.core.pool)
    (hfix : (cfg.task i).point.fixing = none) (hfix' : t.point.fixing = none)
    (hheld : Held w.list (account i) (w.core.pool i) t.point) (ht : t.env.ListStoresOk) :
    Orderly account (cfg.moved i w t) := by
  have hsame : ∀ j, ((cfg.moved i w t).task j).point.fixing = (cfg.task j).point.fixing :=
    Config.moved_forall (Q := fun j t => t.point.fixing = (cfg.task j).point.fixing)
      (hfix'.trans hfix.symm) fun _ _ => rfl
  refine ⟨hwf, fun hall j => ?_, fun k r hk j => ?_, fun j => ?_, fun k j hk hj => ?_, ?_,
    h.moved_stores ht⟩
  · change OnRow w.list _ (w.core.pool j)
    rw [hpool]
    exact (h.settled (fun k => (hsame k).symm.trans (hall k)) j).mono hrows
  · change OnRow w.list _ ((w.core.pool j).onPairedRemoved r)
    rw [hpool]
    exact (h.pending k r ((hsame k).symm.trans hk) j).mono hrows
  · change OwnerFirst (w.core.pool j)
    exact hpool ▸ h.owners j
  · rw [hsame] at hk hj
    exact h.once k j hk hj
  · refine Config.moved_forall
      (Q := fun j t => Held w.list (account j) (w.core.pool j) t.point) hheld fun j _ => ?_
    rw [hpool]
    exact (h.held j).mono hrows

theorem Orderly.remove (h : Orderly account cfg) (hr : r < cfg.world.list.count) (h0 : r ≠ 0)
    (hlist : w.list = cfg.world.list.dropRow r) (hpool : w.core.pool = cfg.world.core.pool)
    (hothers : ∀ j, j ≠ i → (cfg.task j).point.holds = none)
    (hfix : (cfg.task i).point.fixing = none) (hfix' : t.point.fixing = some r)
    (hheld : Held w.list (account i) (w.core.pool i) t.point) (ht : t.env.ListStoresOk) :
    Orderly account (cfg.moved i w t) := by
  have hnone : ∀ j, j ≠ i → (cfg.task j).point.fixing = none := fun j hj =>
    fixing_none_of_holds_none (hothers j hj)
  have hsettled := h.settled fun j => by
    by_cases hj : j = i
    · rw [hj, hfix]
    · exact hnone j hj
  have hfixing : ∀ j, ((cfg.moved i w t).task j).point.fixing = if j = i then some r else none :=
    Config.moved_forall (Q := fun j t => t.point.fixing = if j = i then some r else none)
      (by rw [if_pos rfl, hfix']) fun j hj => by rw [if_neg hj, hnone j hj]
  refine ⟨?_, fun hall => ?_, fun k q hk j => ?_, fun j => ?_, fun k j hk hj => ?_, ?_,
    h.moved_stores ht⟩
  · change w.list.WellFormed
    rw [hlist]
    exact h.wf.dropRow hr h0
  · have := hall i
    rw [hfixing, if_pos rfl] at this
    cases this
  · change OnRow w.list _ ((w.core.pool j).onPairedRemoved q)
    rw [hfixing] at hk
    split_ifs at hk
    cases hk
    rw [hlist, hpool]
    exact (hsettled j).removed hr
  · change OwnerFirst (w.core.pool j)
    exact hpool ▸ h.owners j
  · rw [hfixing] at hk hj
    split_ifs at hk hj with hki hji
    · rw [hki, hji]
    · exact absurd rfl hj
    · exact absurd rfl hk
    · exact absurd rfl hk
  · refine Config.moved_forall
      (Q := fun j t => Held w.list (account j) (w.core.pool j) t.point) hheld fun j hj => ?_
    rw [hpool]
    exact (h.held j).of_holds_none (hothers j hj)

theorem Orderly.fix (h : Orderly account cfg) (hfix : (cfg.task i).point.fixing = some r)
    (h0 : r ≠ 0) (hlist : w.list = cfg.world.list)
    (hpool : ∀ j, w.core.pool j = (cfg.world.core.pool j).onPairedRemoved r)
    (hfix' : t.point.fixing = none) (hheld : ∀ l a s, Held l a s t.point)
    (ht : t.env.ListStoresOk) : Orderly account (cfg.moved i w t) := by
  have hnone : ∀ j, ((cfg.moved i w t).task j).point.fixing = none :=
    Config.moved_forall (Q := fun _ t => t.point.fixing = none) hfix' fun j hj => by
      by_contra hne
      exact hj (h.once j i hne (by rw [hfix]; exact nofun))
  refine ⟨hlist ▸ h.wf, fun _ j => ?_, fun k q hk => ?_, fun j => ?_, fun k j hk => ?_, ?_,
    h.moved_stores ht⟩
  · change OnRow w.list _ (w.core.pool j)
    rw [hlist, hpool]
    exact h.pending i r hfix j
  · rw [hnone] at hk
    cases hk
  · change OwnerFirst (w.core.pool j)
    rw [hpool]
    exact (h.owners j).fixed
  · exact absurd (hnone k) hk
  · refine Config.moved_forall
      (Q := fun j t => Held w.list (account j) (w.core.pool j) t.point) (hheld _ _ _)
      fun j _ => ?_
    rw [hlist, hpool]
    exact (h.held j).fixed h0

theorem Orderly.assign (h : Orderly account cfg) {sub : Bytes} {s : LocalSession}
    (hall : ∀ j, (cfg.task j).point.fixing = none) (hlist : w.list = cfg.world.list)
    (hpool : w.core.pool = Function.update cfg.world.core.pool i s)
    (hs : OnRow cfg.world.list (some sub) s) (howner : OwnerFirst s) (hidle : t.point = .idle)
    (ht : t.env.ListStoresOk) :
    Orderly (Function.update account i (some sub)) (cfg.moved i w t) := by
  have hnone : ∀ j, ((cfg.moved i w t).task j).point.fixing = none :=
    Config.moved_forall (Q := fun _ t => t.point.fixing = none) (by rw [hidle]; rfl)
      fun j _ => hall j
  refine ⟨hlist ▸ h.wf, fun _ j => ?_, fun k q hk => ?_, fun j => ?_, fun k j hk => ?_, ?_,
    h.moved_stores ht⟩
  · change OnRow w.list _ (w.core.pool j)
    rw [hlist, hpool]
    by_cases hj : j = i
    · subst hj
      rw [Function.update_self, Function.update_self]
      exact hs
    · rw [Function.update_of_ne hj, Function.update_of_ne hj]
      exact h.settled hall j
  · rw [hnone] at hk
    cases hk
  · change OwnerFirst (w.core.pool j)
    rw [hpool]
    by_cases hj : j = i
    · subst hj
      rw [Function.update_self]
      exact howner
    · rw [Function.update_of_ne hj]
      exact h.owners j
  · exact absurd (hnone k) hk
  · refine Config.moved_forall (Q := fun j t => Held w.list
      (Function.update account i (some sub) j) (w.core.pool j) t.point) ?_ fun j hj => ?_
    · rw [hidle]
      trivial
    · rw [hlist, hpool, Function.update_of_ne hj, Function.update_of_ne hj]
      exact h.held j

end Moved

/-! ## The calls one by one -/

structure Served (account : Slot → Option Bytes) (cfg : Config) (i : Slot) (x : World × Point) :
    Prop where
  orderly : Orderly (accountAfter account
      ⟨cfg, .call i, cfg.moved i x.1 { cfg.task i with point := x.2 }⟩)
    (cfg.moved i x.1 { cfg.task i with point := x.2 })
  list : ListStep account ⟨cfg, .call i, cfg.moved i x.1 { cfg.task i with point := x.2 }⟩

def Point.plain : Point → Bool
  | .revokeRemove _ _ _ | .revokeFix _ _ _ | .unpairRemove _ _ | .unpairFix _ _ => false
  | .pwsetRemove _ _ _ | .pwsetFix _ _ _ | .pwsetRotate | .enrollAssign _ _ => false
  | _ => true

section Calls

variable {P : Platform} {account : Slot → Option Bytes} {cfg : Config} {i : Slot} {w : World}
  {p q : Point} {r : Nat}

theorem Served.extend (h : Orderly account cfg) (hp : (cfg.task i).point = q)
    (hq : q.plain = true) (hwf : w.list.WellFormed) (hrows : SameRows cfg.world.list w.list)
    (hkeys : ∀ sub key, HasKey cfg.world.list sub key → HasKey w.list sub key)
    (hpool : w.core.pool = cfg.world.core.pool) (hfix' : p.fixing = none)
    (hheld : Held w.list (account i) (w.core.pool i) p) : Served account cfg i (w, p) := by
  have hfix : (cfg.task i).point.fixing = none := by
    rw [hp]
    cases q <;> first | rfl | cases hq
  have horder := h.extend (t := { cfg.task i with point := p }) hwf hrows hpool hfix hfix' hheld
    (h.stores i)
  cases q <;> first | exact ⟨by simp only [accountAfter, hp]; exact horder,
    by simp only [ListStep, hp]; exact hkeys⟩ | cases hq

theorem Served.setList (h : Orderly account cfg) (hp : (cfg.task i).point = q)
    (hq : q.plain = true) {l : PairedBlob} {nvs : Option StoredList}
    (hcore : w.core = (cfg.world.setList l nvs).core) (hwf : l.WellFormed)
    (hrows : SameRows cfg.world.list l)
    (hkeys : ∀ sub key, HasKey cfg.world.list sub key → HasKey l sub key)
    (hfix' : p.fixing = none) (hheld : Held l (account i) (cfg.world.core.pool i) p) :
    Served account cfg i (w, p) := by
  obtain rfl : w.list = l := (congrArg Core.list hcore :)
  have hpool : w.core.pool = cfg.world.core.pool := (congrArg Core.pool hcore :)
  exact .extend h hp hq hwf hrows hkeys hpool hfix' (hpool ▸ hheld)

theorem Served.look (h : Orderly account cfg) (hp : (cfg.task i).point = q)
    (hq : q.plain = true) (hcore : w.core = cfg.world.core) (hfix' : p.fixing = none)
    (hheld : Held cfg.world.list (account i) (cfg.world.core.pool i) p) :
    Served account cfg i (w, p) := by
  have hlist : w.list = cfg.world.list := (congrArg Core.list hcore :)
  have hpool : w.core.pool = cfg.world.core.pool := congrArg Core.pool hcore
  refine .extend h hp hq (hlist ▸ h.wf) (hlist ▸ SameRows.refl _) (fun _ _ hk => hlist ▸ hk)
    hpool hfix' ?_
  rw [hlist, hpool]
  exact hheld

theorem Served.fix (h : Orderly account cfg) (hp : (cfg.task i).point = q)
    (hq : q.fixing = some r) (h0 : r ≠ 0)
    (hcore : w.core = cfg.world.core.removed cfg.world.list cfg.world.nvsList r)
    (hfix' : p.fixing = none) (hheld : ∀ l a s, Held l a s p) :
    Served account cfg i (w, p) := by
  have hlist : w.list = cfg.world.list := (congrArg Core.list hcore :)
  have horder := h.fix (i := i) (t := { cfg.task i with point := p }) (hp ▸ hq) h0 hlist
    (congrFun (congrArg Core.pool hcore)) hfix' hheld (h.stores i)
  cases q <;> first | exact ⟨by simp only [accountAfter, hp]; exact horder,
    by simp only [ListStep, hp]; exact fun _ _ hk => hlist ▸ hk⟩ | cases hq

theorem of_others {b : Point → Bool}
    (h : (List.finRange localSessionMax).all
      (fun j => j == i || b (cfg.task j).point) = true) (j : Slot) (hj : j ≠ i) :
    b (cfg.task j).point = true := by
  have := List.all_eq_true.mp h j (List.mem_finRange j)
  rw [Bool.or_eq_true, beq_iff_eq] at this
  exact this.resolve_left hj

theorem none_fixing (hi : (cfg.task i).point.fixing = none)
    (h : (List.finRange localSessionMax).all
      (fun j => j == i || (cfg.task j).point.fixing.isNone) = true) (j : Slot) :
    (cfg.task j).point.fixing = none := by
  by_cases hj : j = i
  · exact hj ▸ hi
  · exact Option.isNone_iff_eq_none.mp (of_others (b := (·.fixing.isNone)) h j hj)

theorem Orderly.remove_call (h : Orderly account cfg) {k : Nat}
    (hothers : (List.finRange localSessionMax).all
      (fun j => j == i || (cfg.task j).point.holds.isNone) = true)
    (hr : r < cfg.world.list.count) (h0 : r ≠ 0) (hfix : (cfg.task i).point.fixing = none)
    (hfix' : p.fixing = some r) (hheld : ∀ l a s, Held l a s p) :
    pairedListRemove ((cfg.task i).env.listFate k) cfg.world.list cfg.world.nvsList r =
        (true, cfg.world.list.dropRow r, (cfg.world.list.dropRow r).stored) ∧
      Orderly account (cfg.moved i (cfg.world.setList (cfg.world.list.dropRow r)
        (cfg.world.list.dropRow r).stored) { cfg.task i with point := p }) := by
  refine ⟨?_, ?_⟩
  · rw [(h.stores i).1, pairedListRemove_ok hr]
  · have hnone : ∀ j, j ≠ i → (cfg.task j).point.holds = none := fun j hj =>
      Option.isNone_iff_eq_none.mp (of_others (b := (·.holds.isNone)) hothers j hj)
    exact h.remove hr h0 rfl rfl hnone hfix hfix' (hheld _ _ _) (h.stores i)

variable (h : Orderly account cfg)
include h

theorem served_revokeFind {sub : Account} (hp : (cfg.task i).point = .revokeFind sub) :
    Served account cfg i (advance P i (cfg.task i) cfg.world) := by
  have hheld := h.held i
  rw [hp] at hheld
  simp only [advance, hp]
  rcases hf : pairedListFind cfg.world.list sub with _ | r
  · exact .look h hp rfl (core_sendErr ..) rfl trivial
  · exact .look h hp rfl rfl rfl
      ⟨hheld, findLocked_lt hf, h.wf.findLocked_userSub sub.2.2 hf⟩

theorem served_revokeGet {sub : Account} (hp : (cfg.task i).point = .revokeGet sub r) :
    Served account cfg i (advance P i (cfg.task i) cfg.world) := by
  have hheld := h.held i
  rw [hp] at hheld
  obtain ⟨hown, hr, hsub⟩ := hheld
  have hown' : (cfg.world.pool i).pairedIndex = some 0 := hown
  simp only [advance, hp, pairedListGet, if_pos hr, hown']
  split_ifs with h0
  · exact .look h hp rfl (core_sendErr ..) rfl trivial
  · exact .look h hp rfl rfl rfl ⟨fun hr0 => h0 (by rw [hr0]), hr, hsub⟩

theorem served_revokeRemove {sub : Account} {role : PairedRole}
    (hp : (cfg.task i).point = .revokeRemove sub r role)
    (hok : undisturbed ⟨cfg, .call i, interleave P cfg (.call i)⟩ = true) :
    Served account cfg i (advance P i (cfg.task i) cfg.world) := by
  have hheld := h.held i
  rw [hp] at hheld
  obtain ⟨h0, hr, hsub⟩ := hheld
  simp only [undisturbed, hp] at hok
  obtain ⟨hrem, horder⟩ := h.remove_call (k := 0) (p := .revokeFix sub r role) hok hr h0
    (by rw [hp]; rfl) rfl fun _ _ _ => h0
  simp only [advance, hp, hrem, Bool.not_true, Bool.false_eq_true, if_false]
  refine ⟨by simp only [accountAfter, hp]; exact horder, ?_⟩
  simp only [ListStep, hp]
  exact hsub ▸ h.wf.removes hr

theorem served_revokeFix {sub : Account} {role : PairedRole}
    (hp : (cfg.task i).point = .revokeFix sub r role) :
    Served account cfg i (advance P i (cfg.task i) cfg.world) := by
  have hheld := h.held i
  rw [hp] at hheld
  simp only [advance, hp]
  refine .fix h hp rfl hheld ?_ rfl fun _ _ _ => trivial
  rw [core_securitySendLine, World.core_pushEvent, World.core_onPairedRemoved]

theorem served_unpairGet (hp : (cfg.task i).point = .unpairGet) :
    Served account cfg i (advance P i (cfg.task i) cfg.world) := by
  simp only [advance, hp]
  rcases hk : (cfg.world.pool i).pairedIndex with _ | k
  · exact .look h hp rfl (core_sendErr ..) rfl trivial
  simp only [pairedListGet]
  split_ifs with hlt
  · by_cases hrole : (cfg.world.list.entries k).role = .owner
    · simp only [if_pos hrole]
      exact .look h hp rfl (core_sendErr ..) rfl trivial
    · simp only [if_neg hrole]
      refine .look h hp rfl (core_securitySendLine ..) rfl fun hzero => hrole ?_
      have hk0 : some k = some 0 := hk.symm.trans hzero
      rw [h.wf.owner_row hlt]
      exact Option.some.inj hk0
  · exact .look h hp rfl (core_sendErr ..) rfl trivial

theorem served_unpairRead {sub : Bytes} (hp : (cfg.task i).point = .unpairRead sub)
    (hok : undisturbed ⟨cfg, .call i, interleave P cfg (.call i)⟩ = true) :
    Served account cfg i (advance P i (cfg.task i) cfg.world) := by
  have hheld := h.held i
  rw [hp] at hheld
  simp only [undisturbed, hp] at hok
  have hsettled := h.settled (none_fixing (by rw [hp]; rfl) hok)
  simp only [advance, hp]
  rcases hk : (cfg.world.pool i).pairedIndex with _ | k
  · exact .look h hp rfl rfl rfl trivial
  · obtain ⟨hlt, ha⟩ := (hsettled i).row k hk
    exact .look h hp rfl rfl rfl ⟨fun h0 => hheld (h0 ▸ hk), hlt, ha⟩

theorem served_unpairRemove {sub : Bytes} (hp : (cfg.task i).point = .unpairRemove sub r)
    (hok : undisturbed ⟨cfg, .call i, interleave P cfg (.call i)⟩ = true) :
    Served account cfg i (advance P i (cfg.task i) cfg.world) := by
  have hheld := h.held i
  rw [hp] at hheld
  obtain ⟨h0, hr, ha⟩ := hheld
  simp only [undisturbed, hp] at hok
  obtain ⟨hrem, horder⟩ := h.remove_call (k := 0) (p := .unpairFix sub r) hok hr h0
    (by rw [hp]; rfl) rfl fun _ _ _ => h0
  simp only [advance, hp, hrem, Bool.not_true, Bool.false_eq_true, if_false]
  refine ⟨by simp only [accountAfter, hp]; exact horder, ?_⟩
  simp only [ListStep, hp]
  exact ⟨_, ha, h.wf.removes hr⟩

theorem served_unpairFix {sub : Bytes} (hp : (cfg.task i).point = .unpairFix sub r) :
    Served account cfg i (advance P i (cfg.task i) cfg.world) := by
  have hheld := h.held i
  rw [hp] at hheld
  simp only [advance, hp]
  refine .fix h hp rfl hheld ?_ rfl fun _ _ _ => trivial
  rw [World.core_pushEvent, World.core_onPairedRemoved]

theorem served_pwsetStore {password : Bytes} (hp : (cfg.task i).point = .pwsetStore password) :
    Served account cfg i (advance P i (cfg.task i) cfg.world) := by
  simp only [advance, hp]
  rcases devicePasswordSet P (cfg.task i).env.pairFate (cfg.task i).env.setRand cfg.world.pw
    password with ⟨ok, pw⟩
  have hkeep : ∀ {w : World} {p : Point}, w.core = (cfg.world.setPw pw).core →
      p.fixing = none → (∀ l a s, Held l a s p) → Served account cfg i (w, p) := by
    intro w p hcore hfix hheld
    have hlist : w.list = cfg.world.list := (congrArg Core.list hcore :)
    exact .extend h hp rfl (hlist ▸ h.wf) (hlist ▸ SameRows.refl _) (fun _ _ hk => hlist ▸ hk)
      (congrArg Core.pool hcore :) hfix (hheld _ _ _)
  cases ok with
  | false => exact hkeep (core_sendErr ..) rfl fun _ _ _ => trivial
  | true => exact hkeep rfl rfl fun _ _ _ => trivial

theorem served_pwsetCount {row k : Nat} (hp : (cfg.task i).point = .pwsetCount row k) :
    Served account cfg i (advance P i (cfg.task i) cfg.world) := by
  simp only [advance, hp]
  split_ifs
  · exact .look h hp rfl rfl rfl trivial
  · exact .look h hp rfl rfl rfl trivial

theorem served_pwsetGet {row k : Nat} (hp : (cfg.task i).point = .pwsetGet row k) :
    Served account cfg i (advance P i (cfg.task i) cfg.world) := by
  simp only [advance, hp, pairedListGet]
  by_cases hr : row < cfg.world.list.count
  swap
  · simp only [if_neg hr]
    exact .look h hp rfl rfl rfl trivial
  simp only [if_pos hr]
  by_cases hrole : (cfg.world.list.entries row).role = .owner
  · simp only [hrole, ne_eq, not_true_eq_false, if_false]
    exact .look h hp rfl rfl rfl trivial
  · simp only [hrole, ne_eq, not_false_eq_true, if_true]
    exact .look h hp rfl rfl rfl ⟨fun h0 => hrole ((h.wf.owner_row hr).mpr h0), hr⟩

theorem served_pwsetRemove {row k : Nat} {sub : Bytes}
    (hp : (cfg.task i).point = .pwsetRemove row k sub)
    (hok : undisturbed ⟨cfg, .call i, interleave P cfg (.call i)⟩ = true) :
    Served account cfg i (advance P i (cfg.task i) cfg.world) := by
  have hheld := h.held i
  rw [hp] at hheld
  obtain ⟨h0, hr⟩ := hheld
  simp only [undisturbed, hp] at hok
  obtain ⟨hrem, horder⟩ := h.remove_call (k := k) (p := .pwsetFix row k sub) hok hr h0
    (by rw [hp]; rfl) rfl fun _ _ _ => h0
  simp only [advance, hp, hrem, if_true]
  refine ⟨by simp only [accountAfter, hp]; exact horder, ?_⟩
  simp only [ListStep, hp]
  refine ⟨_, fun hown => h0 ?_, h.wf.removes hr⟩
  exact (h.wf.owner_row hr).mp ((h.wf.owner_iff hr).mpr hown)

theorem served_pwsetFix {row k : Nat} {sub : Bytes}
    (hp : (cfg.task i).point = .pwsetFix row k sub) :
    Served account cfg i (advance P i (cfg.task i) cfg.world) := by
  have hheld := h.held i
  rw [hp] at hheld
  simp only [advance, hp]
  refine .fix h hp rfl hheld ?_ rfl fun _ _ _ => trivial
  rw [World.core_pushEvent, World.core_onPairedRemoved]

theorem served_pwsetRotate (hp : (cfg.task i).point = .pwsetRotate) :
    Served account cfg i (advance P i (cfg.task i) cfg.world) := by
  simp only [advance, hp]
  rcases hrot : pairedListRotateOwnerKey (cfg.task i).env.rotateFate cfg.world.list
    cfg.world.nvsList (.fit pairedKeyLen (cfg.task i).env.ownerKey) with ⟨ok, l, nvs⟩
  obtain ⟨hwf, hrows, hlisted, hkeys⟩ := rotate_keeps h.wf hrot
  have hcore := core_securitySendLine P (cfg.world.setList l nvs) (cfg.task i).sock (ascii "ACK")
  generalize securitySendLine P (cfg.world.setList l nvs) (cfg.task i).sock (ascii "ACK") = w
    at hcore ⊢
  obtain rfl : w.list = l := (congrArg Core.list hcore :)
  have horder := h.extend (t := { cfg.task i with point := .idle }) hwf hrows
    (congrArg Core.pool hcore :) (by rw [hp]; rfl) rfl trivial (h.stores i)
  refine ⟨by simp only [accountAfter, hp]; exact horder, ?_⟩
  simp only [ListStep, hp]
  exact ⟨hlisted, hkeys⟩

theorem served_enrollAdd {sub : Account} {email : Bytes}
    (hp : (cfg.task i).point = .enrollAdd sub email) :
    Served account cfg i (advance P i (cfg.task i) cfg.world) := by
  have hheld := h.held i
  rw [hp] at hheld
  simp only [advance, hp]
  generalize hr : pairedListAdd _ _ _ _ _ _ _ = r
  have hkeys : ∀ other k, HasKey cfg.world.list other k → HasKey r.list other k :=
    fun _ _ hk => hr ▸ pairedListAdd_keeps h.wf hk
  rcases he : r.enrolled with _ | e
  · have hlist : r.list = cfg.world.list := by
      rw [← hr] at he ⊢
      exact pairedListAdd_failed h.wf he
    exact .setList h hp rfl (core_sendErr ..) (hlist ▸ h.wf) (hlist ▸ SameRows.refl _) hkeys rfl
      trivial
  · have hadd : Added cfg.world.list sub e r.list := by
      rw [← hr] at he ⊢
      exact (h.wf.added sub.2 he).1
    exact .setList h hp rfl rfl hadd.wf hadd.rows hkeys rfl
      ⟨hheld, hadd.index_lt, hadd.sub_eq, hadd.role_eq⟩

theorem served_enrollAssign {sub : Account} {e : Enrolled}
    (hp : (cfg.task i).point = .enrollAssign sub e)
    (hok : undisturbed ⟨cfg, .call i, interleave P cfg (.call i)⟩ = true) :
    Served account cfg i (advance P i (cfg.task i) cfg.world) := by
  have hheld := h.held i
  rw [hp] at hheld
  obtain ⟨hsock, hlt, hsub, hrole⟩ := hheld
  simp only [undisturbed, hp] at hok
  have hall := none_fixing (by rw [hp]; rfl) hok
  simp only [advance, hp]
  have hs : OnRow cfg.world.list (some sub.1) { cfg.world.core.pool i with
      pairedIndex := some e.index, role := sessionRole e.role } := by
    refine ⟨fun r hr => ?_, fun hf => absurd hf hsock⟩
    cases hr
    exact ⟨hlt, by rw [hsub]⟩
  have howner : OwnerFirst { cfg.world.core.pool i with
      pairedIndex := some e.index, role := sessionRole e.role } := by
    intro ho
    simp only [LocalSession.ownerRights, Bool.and_eq_true, beq_iff_eq, sessionRole_owner] at ho
    rw [← hrole, h.wf.owner_row hlt] at ho
    exact congrArg some ho.1
  generalize hw : World.pushEvent _ _ _ _ _ = w
  have hcore : w.core = cfg.world.core.setSession i { cfg.world.core.pool i with
      pairedIndex := some e.index, role := sessionRole e.role } := by
    rw [← hw, World.core_pushEvent, core_securitySendLine, World.core_setSession]
    rfl
  have horder := h.assign (t := { cfg.task i with point := .idle }) hall
    (congrArg Core.list hcore :) (congrArg Core.pool hcore :) hs howner rfl (h.stores i)
  refine ⟨by simp only [accountAfter, hp]; exact horder, ?_⟩
  simp only [ListStep, hp]
  exact fun _ _ hk => (congrArg Core.list hcore :) ▸ hk

theorem Orderly.call (hok : undisturbed ⟨cfg, .call i, interleave P cfg (.call i)⟩ = true) :
    Served account cfg i (advance P i (cfg.task i) cfg.world) := by
  cases hp : (cfg.task i).point with
  | idle =>
    simp only [advance, hp]
    exact .look h hp rfl rfl rfl trivial
  | revokeFind sub => exact served_revokeFind h hp
  | revokeGet sub r => exact served_revokeGet h hp
  | revokeRemove sub r role => exact served_revokeRemove h hp hok
  | revokeFix sub r role => exact served_revokeFix h hp
  | unpairGet => exact served_unpairGet h hp
  | unpairRead sub => exact served_unpairRead h hp hok
  | unpairRemove sub r => exact served_unpairRemove h hp hok
  | unpairFix sub r => exact served_unpairFix h hp
  | pwsetStore password => exact served_pwsetStore h hp
  | pwsetCount row k => exact served_pwsetCount h hp
  | pwsetGet row k => exact served_pwsetGet h hp
  | pwsetRemove row k sub => exact served_pwsetRemove h hp hok
  | pwsetFix row k sub => exact served_pwsetFix h hp
  | pwsetRotate => exact served_pwsetRotate h hp
  | enrollAdd sub email => exact served_enrollAdd h hp
  | enrollAssign sub e => exact served_enrollAssign h hp hok

omit h in
theorem ownerRights_of_isOwner {s : LocalSession} (hs : s.isOwner = true) :
    s.unframed.ownerRights = true := by
  simp only [LocalSession.isOwner, Bool.and_eq_true] at hs
  simp only [LocalSession.ownerRights, Bool.and_eq_true]
  exact ⟨hs.1.2, hs.2⟩

theorem Orderly.line {env : Env} {job : Job} (henv : env.ListStoresOk) :
    Orderly account (interleave P cfg (.line i env job)) ∧
      (interleave P cfg (.line i env job)).world.list = cfg.world.list := by
  simp only [interleave]
  split
  swap
  · exact ⟨h, rfl⟩
  next sock hsock hp =>
  have hfix : (cfg.task i).point.fixing = none := by rw [hp]; rfl
  have hcore : (cfg.world.setSession i { cfg.world.pool i with rxEncrypted := true }).core =
      cfg.world.core := by
    rw [World.core_setSession]
    exact Core.setSession_pool i cfg.world.core
  split_ifs with hmay
  · refine ⟨h.extend h.wf (SameRows.refl _) (congrArg Core.pool hcore) hfix ?_ ?_ henv, rfl⟩
    · cases job <;> rfl
    rw [hcore]
    change Held cfg.world.list _ (cfg.world.core.pool i) job.first
    rw [World.setSession_self] at hmay
    cases job with
    | revoke sub =>
      exact h.owners i (ownerRights_of_isOwner
        (s := { cfg.world.pool i with rxEncrypted := true }) hmay)
    | unpair => trivial
    | pwset password => trivial
    | enroll sub email => exact fun hf => (Option.some_ne_none _ (hsock.symm.trans hf)).elim
  · have hsame := (core_sendErr P (cfg.world.setSession i
      { cfg.world.pool i with rxEncrypted := true }) sock job.refusal).trans hcore
    generalize sendErr P _ sock job.refusal = w at hsame
    have hlist : w.list = cfg.world.list := (congrArg Core.list hsame :)
    have hmoved : { cfg with world := w } = cfg.moved i w (cfg.task i) := by
      simp only [Config.moved, Config.setTask, Function.update_eq_self]
    refine ⟨?_, hlist⟩
    rw [hmoved]
    refine h.extend (hlist ▸ h.wf) (hlist ▸ SameRows.refl _) (congrArg Core.pool hsame) hfix hfix
      ?_ (h.stores i)
    rw [hlist, hsame]
    exact h.held i

end Calls

/-! ## Whole interleavings -/

def Sched.ListStoresOk : Sched → Prop
  | .line _ env _ => env.ListStoresOk
  | .call _ => True

def RemovedAt (i : Slot) (sub : Bytes) (s : Step Config Sched) : Prop :=
  s.event = .call i ∧ Removes s.before.world.list s.after.world.list sub

def NotCalled (i : Slot) (s : Step Config Sched) : Prop := s.event ≠ .call i

structure InOrder (w₀ : World) (tr : List (Step Config Sched)) (cfg : Config) : Prop where
  orderly : Orderly (accountOf w₀ tr) cfg
  acked : ∀ i sub r role, (cfg.task i).point = .revokeFix sub r role →
    Since (RemovedAt i sub) (NotCalled i) tr

section Runs

variable {P : Platform} {w₀ : World} {tr : List (Step Config Sched)} {cfg : Config} {e : Sched}

theorem accountOf_concat (s : Step Config Sched) :
    accountOf w₀ (tr ++ [s]) = accountAfter (accountOf w₀ tr) s := by
  simp only [accountOf, List.foldl_append, List.foldl_cons, List.foldl_nil]

theorem InOrder.listStep (h : InOrder w₀ tr cfg) (hs : e.ListStoresOk)
    (hok : undisturbed ⟨cfg, e, interleave P cfg e⟩ = true) :
    Orderly (accountAfter (accountOf w₀ tr) ⟨cfg, e, interleave P cfg e⟩) (interleave P cfg e) ∧
      ListStep (accountOf w₀ tr) ⟨cfg, e, interleave P cfg e⟩ := by
  cases e with
  | line i env job =>
    exact h.orderly.line hs
  | call i =>
    have hserved := h.orderly.call hok
    exact ⟨hserved.orderly, hserved.list⟩

theorem advance_revokeFix {i : Slot} {t : Task} {w : World} {sub : Account} {r : Nat}
    {role : PairedRole} (h : (advance P i t w).2 = .revokeFix sub r role) :
    t.point = .revokeRemove sub r role := by
  obtain ⟨sock, env, p⟩ := t
  cases p with
  | revokeRemove sub' r' role' =>
    simp only [advance] at h
    split_ifs at h
    cases h
    rfl
  | _ =>
    simp only [advance] at h
    repeat' split at h
    all_goals cases h

theorem line_revokeFix {i j : Slot} {env : Env} {job : Job} {sub : Account} {r : Nat}
    {role : PairedRole}
    (h : ((interleave P cfg (.line i env job)).task j).point = .revokeFix sub r role) :
    (cfg.task j).point = .revokeFix sub r role := by
  simp only [interleave] at h
  split at h
  · split_ifs at h
    · by_cases hj : j = i
      · subst hj
        simp only [Config.setTask, Function.update_self] at h
        cases job <;> cases h
      · simpa only [Config.setTask, Function.update_of_ne hj] using h
    · exact h
  · exact h

theorem InOrder.step (h : InOrder w₀ tr cfg) (hs : e.ListStoresOk)
    (hok : undisturbed ⟨cfg, e, interleave P cfg e⟩ = true) :
    InOrder w₀ (tr ++ [⟨cfg, e, interleave P cfg e⟩]) (interleave P cfg e) := by
  obtain ⟨horder, hlist⟩ := h.listStep hs hok
  refine ⟨by rw [accountOf_concat]; exact horder, fun j sub r role hj => ?_⟩
  cases e with
  | line i env job => exact (h.acked j sub r role (line_revokeFix hj)).concat nofun
  | call i =>
    simp only [interleave, Config.setTask] at hj
    by_cases hji : j = i
    · subst hji
      rw [Function.update_self] at hj
      have hp : (cfg.task j).point = .revokeRemove sub r role := advance_revokeFix hj
      simp only [ListStep, hp] at hlist
      exact Since.now ⟨rfl, hlist⟩
    · rw [Function.update_of_ne hji] at hj
      refine (h.acked j sub r role hj).concat fun he => hji ?_
      cases he
      rfl

theorem inOrder_start (h₀ : w₀.core.Consistent) : InOrder w₀ [] { world := w₀ } where
  orderly :=
    { wf := h₀.wf
      settled := fun _ j => by
        refine ⟨fun r hr => ⟨(h₀.fits j).index_lt r hr, ?_⟩, (h₀.fits j).free⟩
        have hr : (w₀.pool j).pairedIndex = some r := hr
        simp only [accountOf, List.foldl_nil, hr, Option.map_some]
      pending := fun _ _ => nofun
      owners := fun j => .of_fits h₀.wf (h₀.fits j)
      once := fun _ _ h => absurd rfl h
      held := fun _ => trivial
      stores := fun _ => ⟨fun _ => rfl, rfl⟩ }
  acked := fun _ _ _ _ => nofun

end Runs

/-- Every removal hits its account, over every interleaving of `REVOKE`, `UNPAIR`, `PWSET` and
`ENROLL` from a consistent state in which the stores succeed and no call disturbs an index
that another task has in hand; behind every `REVOKE` answered `ACK` stands its removal. -/
theorem removal_hits_its_account (P : Platform) {w₀ : World} (h₀ : w₀.core.Consistent)
    (es : List Sched) (hstores : ∀ e ∈ es, e.ListStoresOk)
    (hok : ∀ s ∈ trace (interleave P) { world := w₀ } es, undisturbed s = true) :
    ∀ pre e post, es = pre ++ e :: post →
      let cfg := run (interleave P) { world := w₀ } pre
      let tr := trace (interleave P) { world := w₀ } pre
      ListStep (accountOf w₀ tr) ⟨cfg, e, interleave P cfg e⟩ ∧
        ∀ i sub r role, e = .call i → (cfg.task i).point = .revokeFix sub r role →
          Since (RemovedAt i sub) (NotCalled i) tr := by
  intro pre e post hes cfg tr
  have hsteps : ∀ s ∈ trace (interleave P) { world := w₀ } pre,
      s.event.ListStoresOk ∧ undisturbed s = true := fun s hs => by
    obtain ⟨pre', post', hpre, -, -⟩ := mem_trace hs
    refine ⟨hstores _ ?_, hok s ?_⟩
    · rw [hes, hpre]
      simp
    · rw [hes, trace_append]
      exact List.mem_append_left _ hs
  have hin : InOrder w₀ tr cfg := trace_induction (s := { world := w₀ }) (Q := InOrder w₀)
    (inOrder_start h₀) (fun _ _ _ h hs => h.step hs.1 hs.2) pre hsteps
  have hlast : undisturbed ⟨cfg, e, interleave P cfg e⟩ = true := by
    refine hok _ ?_
    rw [hes, trace_append]
    exact List.mem_append_right _ List.mem_cons_self
  have he : e.ListStoresOk := hstores e (by rw [hes]; simp)
  exact ⟨(hin.listStep he hlast).2, fun i sub r role _ hp => hin.acked i sub r role hp⟩

theorem threePhones_storesOk : ∀ e ∈ threePhones, e.ListStoresOk := by
  simp [threePhones, Sample.twoPhones, Sample.ownerJoins, Sample.userJoins, Sample.join,
    Sample.pake1, Sample.pake3, Sample.enroll, Event.ListStoresOk, Env.ListStoresOk]

@[irreducible] def threePaired : World := run (step Sample.platform) World.fresh threePhones

theorem threePaired_consistent : threePaired.core.Consistent := by
  have hrun := followed_run Sample.platform threePhones threePhones_storesOk
  unfold threePaired
  exact hrun.consistent

def userAccount : Account := ⟨ascii "user", by decide⟩

def thirdAccount : Account := ⟨ascii "third", by decide⟩

def ownerTask : Slot := ⟨0, by decide⟩

def userTask : Slot := ⟨1, by decide⟩

def thirdTask : Slot := ⟨2, by decide⟩

def sideBySide : List Sched :=
  [.line ownerTask {} (.revoke userAccount), .call ownerTask,
    .line thirdTask {} (.enroll thirdAccount (ascii "t@x")), .call thirdTask, .call ownerTask,
    .call thirdTask]

def afterwards : List Sched :=
  [.call ownerTask, .line thirdTask {} .unpair, .call thirdTask, .call thirdTask,
    .call thirdTask, .call thirdTask]

def revoking : Config := run (interleave Sample.platform) { world := threePaired } sideBySide

theorem removal_hits_its_account_side_by_side :
    (trace (interleave Sample.platform) { world := threePaired }
      (sideBySide ++ .call 0 :: afterwards)).all undisturbed = true ∧
    Removes revoking.world.list (interleave Sample.platform revoking (.call 0)).world.list
      userAccount := by
  have hok : (trace (interleave Sample.platform) { world := threePaired }
      (sideBySide ++ .call 0 :: afterwards)).all undisturbed = true := by decide +kernel
  have hstores : ∀ e ∈ sideBySide ++ .call 0 :: afterwards, e.ListStoresOk := by
    simp [sideBySide, afterwards, Sched.ListStoresOk, Env.ListStoresOk]
  have hpoint : (revoking.task 0).point = .revokeRemove userAccount 1 .user := by
    decide +kernel
  have hstep : ListStep (accountOf threePaired
      (trace (interleave Sample.platform) { world := threePaired } sideBySide))
      ⟨revoking, .call 0, interleave Sample.platform revoking (.call 0)⟩ :=
    (removal_hits_its_account Sample.platform threePaired_consistent _ hstores
      (List.all_eq_true.mp hok) sideBySide (.call 0) afterwards rfl).1
  simp only [ListStep, hpoint] at hstep
  exact ⟨hok, hstep⟩

def crossing : List Sched :=
  [.line ownerTask {} (.revoke userAccount), .call ownerTask, .call ownerTask,
    .line userTask {} .unpair, .call userTask, .call userTask, .call userTask, .call userTask]

def crossed : Config := run (interleave Sample.platform) { world := threePaired } crossing

/-- The `REVOKE` of the second phone then removes the third, and goes on to its `ACK`. -/
theorem revoke_removes_another :
    threePaired.core.Consistent ∧ (∀ e ∈ crossing, e.ListStoresOk) ∧
      (crossed.task 0).point = .revokeRemove userAccount 1 .user ∧
      ((interleave Sample.platform crossed (.call 0)).task 0).point =
        .revokeFix userAccount 1 .user ∧
      Listed crossed.world.list (ascii "third") ∧
      ¬Listed (interleave Sample.platform crossed (.call 0)).world.list (ascii "third") ∧
      ¬ListStep (accountOf threePaired
        (trace (interleave Sample.platform) { world := threePaired } crossing))
        ⟨crossed, .call 0, interleave Sample.platform crossed (.call 0)⟩ := by
  -- one evaluation of the run for everything that is read off it
  obtain ⟨hpoint, huser, hfix, hlisted, hafter⟩ :
      (crossed.task 0).point = .revokeRemove userAccount 1 .user ∧
      (¬∃ r < crossed.world.list.count,
        (crossed.world.list.entries r).userSub = ascii "user") ∧
      ((interleave Sample.platform crossed (.call 0)).task 0).point =
        .revokeFix userAccount 1 .user ∧
      (∃ r < crossed.world.list.count,
        (crossed.world.list.entries r).userSub = ascii "third") ∧
      ¬∃ r < (interleave Sample.platform crossed (.call 0)).world.list.count,
        ((interleave Sample.platform crossed (.call 0)).world.list.entries r).userSub =
          ascii "third" := by decide +kernel
  refine ⟨threePaired_consistent, ?_, hpoint, hfix, hlisted, hafter, fun hstep => ?_⟩
  · simp [crossing, Sched.ListStoresOk, Env.ListStoresOk]
  · simp only [ListStep, hpoint] at hstep
    exact huser hstep.had

end CyThing
