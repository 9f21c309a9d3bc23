import CyThing.SessionIndex
import CyThing.Components
import CyThing.Sample

/-! `revoke_all_non_owner`, the loop that a `PWSET` runs over the paired list. It deletes from
the array it walks: a row that was removed makes room for the next one at the same index, and
the loop goes on from there, unless the store failed. -/

namespace CyThing
open CLib Trace

/-! ## The loop ends -/

section Loop

variable {env : Env} {n i k : Nat} {w : World}

theorem revokeFrom_enough (env : Env) (hn : w.list.count ≤ i + n) (m : Nat) :
    revokeFrom env (n + m) i k w = revokeFrom env n i k w := by
  -- every round brings the cursor and the end of the list together, whatever the stores return
  induction n generalizing i k w with
  | zero =>
    cases m with
    | zero => rfl
    | succ m => exact if_neg (by omega)
  | succ n ih =>
    rw [show n + 1 + m = (n + m) + 1 by omega, revokeFrom, revokeFrom]
    by_cases hi : i < w.list.count
    · rw [if_pos hi, if_pos hi]
      by_cases hrole : (w.list.entries i).role = .owner
      · simp only [hrole, ne_eq, not_true_eq_false, if_false]
        exact ih (by omega)
      · simp only [ne_eq, hrole, not_false_eq_true, if_true]
        rcases hrem : pairedListRemove (env.listFate k) w.list w.nvsList i with ⟨ok, l, nvs⟩
        have hcount : l.count = w.list.count - 1 := by rw [pairedListRemove_list hi hrem]; rfl
        cases ok with
        | true =>
          refine ih ?_
          change l.count ≤ i + n
          omega
        | false =>
          refine ih ?_
          change l.count ≤ i + 1 + n
          omega
    · rw [if_neg hi, if_neg hi]

end Loop

/-! ## The stores it makes -/

theorem drop_accounts_dropRow {l : PairedBlob} {r : Nat} (hr : r < l.count) :
    (l.dropRow r).accounts.drop r = l.accounts.drop (r + 1) := by
  have hlen : (l.accounts.take r).length = r := by
    rw [List.length_take, length_accounts, Nat.min_eq_left hr.le]
  rw [accounts_dropRow hr, List.eraseIdx_eq_take_drop_succ, List.drop_left' hlen]

theorem drop_accounts_eq_nil {l : PairedBlob} {r : Nat} (hr : l.count ≤ r) :
    l.accounts.drop r = [] := by
  apply List.drop_eq_nil_of_le
  rw [length_accounts]
  exact hr

def toRevoke (l : PairedBlob) (i : Nat) : List PairedEntry :=
  (l.accounts.drop i).filter fun e => e.role ≠ .owner

def revokedAccounts (l : PairedBlob) : List PairedEntry := toRevoke l 0

section Stores

variable {env : Env} {l : PairedBlob} {n i k r : Nat} {w : World} {j : Slot}

theorem toRevoke_of_count_le (hi : l.count ≤ i) : toRevoke l i = [] := by
  rw [toRevoke, drop_accounts_eq_nil hi, List.filter_nil]

theorem toRevoke_of_owner (hi : i < l.count) (hrole : (l.entries i).role = .owner) :
    toRevoke l i = toRevoke l (i + 1) := by
  have hcons : l.accounts.drop i = l.entries i :: l.accounts.drop (i + 1) := Dense.drop_toList hi
  rw [toRevoke, hcons, List.filter_cons, if_neg (by simp [hrole]), toRevoke]

theorem toRevoke_of_ne_owner (hi : i < l.count) (hrole : (l.entries i).role ≠ .owner) :
    toRevoke l i = l.entries i :: toRevoke (l.dropRow i) i := by
  have hcons : l.accounts.drop i = l.entries i :: l.accounts.drop (i + 1) := Dense.drop_toList hi
  rw [toRevoke, hcons, List.filter_cons, if_pos (by simp [hrole]), toRevoke,
    drop_accounts_dropRow hi]

theorem revokeFrom_of_stored (n : Nat) (w : World)
    (hok : ∀ m < (toRevoke w.list i).length, env.listFate (k + m) = .ok) :
    revokeFrom env n i k w = revokeFrom { env with listFate := fun _ => .ok } n i k w := by
  -- as long as the stores succeed, the loop reads one fate for each row it removes
  induction n generalizing i k w with
  | zero => rfl
  | succ n ih =>
    rw [revokeFrom, revokeFrom]
    by_cases hi : i < w.list.count
    · rw [if_pos hi, if_pos hi]
      by_cases hrole : (w.list.entries i).role = .owner
      · simp only [hrole, ne_eq, not_true_eq_false, if_false]
        rw [toRevoke_of_owner hi hrole] at hok
        exact ih w hok
      · simp only [ne_eq, hrole, not_false_eq_true, if_true]
        rw [toRevoke_of_ne_owner hi hrole, List.length_cons] at hok
        have hfirst : env.listFate k = .ok := hok 0 (Nat.succ_pos _)
        simp only [hfirst, pairedListRemove_ok hi, if_true]
        refine ih _ fun m hm => ?_
        have hstored := hok (m + 1) (Nat.succ_lt_succ hm)
        rwa [show k + (m + 1) = k + 1 + m by omega] at hstored
    · rw [if_neg hi, if_neg hi]

theorem revokeFrom_passed (n : Nat) (hj : (w.pool j).pairedIndex = some r) (hr : r < i) :
    (revokeFrom env n i k w).pool j = w.pool j := by
  induction n generalizing i k w with
  | zero => rfl
  | succ n ih =>
    rw [revokeFrom]
    by_cases hi : i < w.list.count
    · rw [if_pos hi]
      by_cases hrole : (w.list.entries i).role = .owner
      · simp only [hrole, ne_eq, not_true_eq_false, if_false]
        exact ih hj (by omega)
      · simp only [ne_eq, hrole, not_false_eq_true, if_true]
        rcases hrem : pairedListRemove (env.listFate k) w.list w.nvsList i with ⟨ok, l, nvs⟩
        cases ok with
        | false => exact ih (w := w.setList l nvs) hj (by omega)
        | true =>
          have hsame : (w.pool j).onPairedRemoved i = w.pool j := by
            rcases (w.pool j).onPairedRemoved_cases i with ⟨-, hk, -⟩ | ⟨k, -, hk, hlt, -⟩ |
              ⟨-, he⟩
            · rw [hj] at hk
              cases hk
              omega
            · rw [hj] at hk
              cases hk
              omega
            · exact he
          exact (ih (w := ((w.setList l nvs).onPairedRemoved i).pushEvent env (ascii "unpaired")
            (w.list.entries i).userSub (ascii "user"))
            ((congrArg LocalSession.pairedIndex hsame).trans hj) hr).trans hsame
    · rw [if_neg hi]

theorem pairedListRemove_failed {fate : NvsFate} (hfate : fate ≠ .ok) (nvs : Option StoredList)
    (r : Nat) : (pairedListRemove fate l nvs r).1 = false := by
  rw [pairedListRemove]
  split_ifs
  · rfl
  · cases fate with
    | ok => exact absurd rfl hfate
    | openFails | writeFails | commitFails => rfl

theorem revokeFrom_misses (hn : l.count ≤ i + n)
    (hfail : ∃ m < (toRevoke l i).length, env.listFate (k + m) ≠ .ok) :
    ∃ r < l.count, i ≤ r ∧ (l.entries r).role ≠ .owner ∧
      ∀ (w : World) (j : Slot), w.list = l → (w.pool j).sock ≠ none →
        (w.pool j).pairedIndex = some r →
        ((revokeFrom env n i k w).pool j).state = (w.pool j).state := by
  induction n generalizing i k l with
  | zero =>
    obtain ⟨m, hm, -⟩ := hfail
    rw [toRevoke_of_count_le (by omega)] at hm
    exact absurd hm (Nat.not_lt_zero m)
  | succ n ih =>
    obtain ⟨m, hm, hfate⟩ := hfail
    by_cases hi : i < l.count
    · by_cases hrole : (l.entries i).role = .owner
      · rw [toRevoke_of_owner hi hrole] at hm
        obtain ⟨r, hr, hir, hnot, hkeeps⟩ := ih (by omega) ⟨m, hm, hfate⟩
        refine ⟨r, hr, by omega, hnot, fun w j hl hsock hj => ?_⟩
        rw [revokeFrom, if_pos (hl ▸ hi), if_neg (by rw [hl]; exact not_not.mpr hrole)]
        exact hkeeps w j hl hsock hj
      · rw [toRevoke_of_ne_owner hi hrole] at hm
        by_cases hfirst : env.listFate k = .ok
        · -- the row goes, and the one that is missed stands one lower
          cases m with
          | zero => exact absurd hfirst hfate
          | succ m =>
            have hcount : (l.dropRow i).count = l.count - 1 := dropRow_count ..
            obtain ⟨r, hr, hir, hnot, hkeeps⟩ := ih (by omega)
              ⟨m, Nat.lt_of_succ_lt_succ hm, by rwa [show k + 1 + m = k + (m + 1) by omega]⟩
            rw [dropRow_entries_ge hi hir (by omega)] at hnot
            refine ⟨r + 1, by omega, by omega, hnot, fun w j hl hsock hj => ?_⟩
            have hmoved :
                (w.pool j).onPairedRemoved i = { w.pool j with pairedIndex := some r } := by
              rw [LocalSession.onPairedRemoved, if_neg hsock, hj]
              simp only [Option.some.injEq]
              rw [if_neg (by omega)]
              simp only [Nat.add_sub_cancel]
              rw [if_pos (by omega)]
            rw [revokeFrom, if_pos (hl ▸ hi), if_pos (by rw [hl]; exact hrole), hfirst, hl,
              pairedListRemove_ok hi]
            have hstep := hkeeps (((w.setList (l.dropRow i) (l.dropRow i).stored).onPairedRemoved
              i).pushEvent env (ascii "unpaired") (l.entries i).userSub (ascii "user")) j rfl
              (by change ((w.pool j).onPairedRemoved i).sock ≠ none; rw [hmoved]; exact hsock)
              (by change ((w.pool j).onPairedRemoved i).pairedIndex = some r; rw [hmoved])
            refine hstep.trans ?_
            change ((w.pool j).onPairedRemoved i).state = _
            rw [hmoved]
        · -- the loop steps on from the row that it could not store
          refine ⟨i, hi, le_rfl, hrole, fun w j hl hsock hj => ?_⟩
          rw [revokeFrom, if_pos (hl ▸ hi), if_pos (by rw [hl]; exact hrole)]
          rcases hrem : pairedListRemove (env.listFate k) w.list w.nvsList i with ⟨ok, l', nvs⟩
          have hok : ok = false := by
            have hfailed := pairedListRemove_failed (l := w.list) hfirst w.nvsList i
            rwa [hrem] at hfailed
          subst hok
          exact congrArg LocalSession.state
            (revokeFrom_passed (w := w.setList l' nvs) n hj (Nat.lt_succ_self i))
    · rw [toRevoke_of_count_le (by omega)] at hm
      exact absurd hm (Nat.not_lt_zero m)

end Stores

/-! ## What it leaves -/

section Leaves

variable {env : Env} {c c' : Core} {j : Slot} {r : Nat}

theorem RevokeRun.no_index (hrun : RevokeRun env c c') (hj : (c.pool j).pairedIndex = none) :
    c'.pool j = c.pool j := by
  induction hrun with
  | done c => rfl
  | @removed c c' r k l nvs hr hrole hrem hrest ih =>
    have hsame : (c.removed l nvs r).pool j = c.pool j := by
      rcases (c.pool j).onPairedRemoved_cases r with ⟨-, hk, -⟩ | ⟨k, -, hk, -, -⟩ | ⟨-, he⟩
      · rw [hj] at hk
        cases hk
      · rw [hj] at hk
        cases hk
      · exact he
    rw [ih (hsame ▸ hj), hsame]
  | failed hr hrole hrem hrest ih => exact ih hj

theorem dropRow_moved {l : PairedBlob} {k : Nat} (hr : r < l.count) (hk : k < l.count)
    (hne : k ≠ r) :
    (if k < r then k else k - 1) < (l.dropRow r).count ∧
      (l.dropRow r).entries (if k < r then k else k - 1) = l.entries k := by
  rw [dropRow_count]
  split
  · next hlow => exact ⟨by omega, dropRow_entries_lt hr hlow⟩
  · next hhigh =>
    refine ⟨by omega, ?_⟩
    rw [dropRow_entries_ge hr (by omega) (by omega), Nat.sub_add_cancel (by omega)]

theorem RevokeRun.session (hrun : RevokeRun env c c') (hok : ∀ k, env.listFate k = .ok)
    (hsock : (c.pool j).sock ≠ none) (hj : (c.pool j).pairedIndex = some r)
    (hr : r < c.list.count) :
    ((c.list.entries r).role ≠ .owner ∧ Dropped (c'.pool j)) ∨
      ∃ r' < c'.list.count, c'.pool j = { c.pool j with pairedIndex := some r' } ∧
        c'.list.entries r' = c.list.entries r := by
  induction hrun generalizing r with
  | done c => exact .inr ⟨r, hr, by rw [← hj], rfl⟩
  | @removed c c' r₀ k l nvs hr₀ hrole hrem hrest ih =>
    obtain rfl := pairedListRemove_list hr₀ hrem
    have hpool : (c.removed (c.list.dropRow r₀) nvs r₀).pool j =
        (c.pool j).onPairedRemoved r₀ := rfl
    -- the session moves with its row, one place down when the gap is below it
    have hmoved : r ≠ r₀ → (c.removed (c.list.dropRow r₀) nvs r₀).pool j =
        { c.pool j with pairedIndex := some (if r < r₀ then r else r - 1) } := by
      intro hne
      rw [hpool]
      rcases (c.pool j).onPairedRemoved_cases r₀ with ⟨-, hk, -⟩ | ⟨k, -, hk, hlow, he⟩ |
          ⟨hkeep, he⟩
      · rw [hj] at hk
        exact absurd (Option.some.inj hk) hne
      · rw [hj] at hk
        cases hk
        rw [he, if_neg (by omega)]
      · have hlow : r < r₀ := hkeep.elim (absurd · hsock) fun h => h r hj
        rw [he, if_pos hlow, ← hj]
    by_cases hne : r = r₀
    · subst hne
      left
      refine ⟨hrole, ?_⟩
      have hdrop : (c.removed (c.list.dropRow r) nvs r).pool j = (c.pool j).dropAuth := by
        rw [hpool, LocalSession.onPairedRemoved, if_neg hsock, if_pos hj]
      rw [hrest.no_index (by rw [hdrop]; rfl), hdrop]
      exact (c.pool j).dropped_dropAuth
    · obtain ⟨hlt, hentry⟩ := dropRow_moved hr₀ hr hne
      have hsession := hmoved hne
      rcases ih (by rw [hsession]; exact hsock) (by rw [hsession]) hlt with h | h
      · rw [show (c.removed (c.list.dropRow r₀) nvs r₀).list = c.list.dropRow r₀ from rfl,
          hentry] at h
        exact .inl h
      · obtain ⟨r', hr', hp, he⟩ := h
        refine .inr ⟨r', hr', ?_, he.trans hentry⟩
        rw [hp, hsession]
  | failed hr₀ hrole hrem hrest ih =>
    rw [hok, pairedListRemove_ok hr₀] at hrem
    cases hrem

theorem RevokeRun.ownerRow (hrun : RevokeRun env c c') (hr : r < c.list.count)
    (hrole : (c.list.entries r).role = .owner) :
    ∃ r' < c'.list.count, c'.list.entries r' = c.list.entries r := by
  induction hrun generalizing r with
  | done c => exact ⟨r, hr, rfl⟩
  | @removed c c' r₀ k l nvs hr₀ hrole₀ hrem hrest ih =>
    obtain rfl := pairedListRemove_list hr₀ hrem
    obtain ⟨hlt, hentry⟩ := dropRow_moved hr₀ hr fun he => hrole₀ (he ▸ hrole)
    obtain ⟨r', hr', he⟩ := ih hlt (by rw [← hrole, ← hentry]; rfl)
    exact ⟨r', hr', he.trans hentry⟩
  | @failed c c' r₀ k l nvs hr₀ hrole₀ hrem hrest ih =>
    obtain rfl := pairedListRemove_list hr₀ hrem
    obtain ⟨hlt, hentry⟩ := dropRow_moved hr₀ hr fun he => hrole₀ (he ▸ hrole)
    obtain ⟨r', hr', he⟩ := ih hlt (by rw [← hrole, ← hentry]; rfl)
    exact ⟨r', hr', he.trans hentry⟩

end Leaves

/-! ## PWSET -/

structure PwsetRevoked (w w' : World) : Prop where
  /-- Every row left is the owner's. -/
  onlyOwner : ∀ r < w'.list.count, (w'.list.entries r).role = .owner
  /-- The owner's rows are left. -/
  ownerRow : ∀ r < w.list.count, (w.list.entries r).role = .owner →
    ∃ r' < w'.list.count, (w'.list.entries r').userSub = (w.list.entries r).userSub
  /-- The sessions on every other row have nothing. -/
  ended : ∀ j r, (w.pool j).sock ≠ none → (w.pool j).pairedIndex = some r → r < w.list.count →
    (w.list.entries r).role ≠ .owner → Dropped (w'.pool j)
  /-- The owner's sessions are as they were, on the owner's row. -/
  kept : ∀ j r, (w.pool j).sock ≠ none → (w.pool j).pairedIndex = some r → r < w.list.count →
    (w.list.entries r).role = .owner →
    ∃ r' < w'.list.count,
      (w'.pool j).unframed = { (w.pool j).unframed with pairedIndex := some r' } ∧
      (w'.list.entries r').userSub = (w.list.entries r).userSub

theorem PwsetRevoked.of_run {env : Env} {w w' : World} {c : Core}
    (hok : ∀ k, env.listFate k = .ok) (hrun : RevokeRun env w.core c)
    (hend : ∀ r < c.list.count, (c.list.entries r).role = .owner)
    (hpool : w'.core.pool = c.pool) (hrows : SameRows c.list w'.list)
    (hcount : w'.list.count = c.list.count) : PwsetRevoked w w' where
  onlyOwner r hr := by
    have hr' : r < c.list.count := hcount ▸ hr
    rw [(hrows.2 r hr').2]
    exact hend r hr'
  ownerRow r hr hrole := by
    obtain ⟨r', hr', he⟩ := hrun.ownerRow hr hrole
    exact ⟨r', hcount ▸ hr', (hrows.2 r' hr').1.trans (congrArg PairedEntry.userSub he)⟩
  ended j r hsock hj hr hrole := by
    apply Dropped.of_core
    rw [hpool]
    rcases hrun.session hok (j := j) hsock hj hr with h | ⟨r', hr', -, he⟩
    · exact h.2
    · exact absurd (he ▸ hend r' hr') hrole
  kept j r hsock hj hr hrole := by
    rcases hrun.session hok (j := j) hsock hj hr with h | ⟨r', hr', hp, he⟩
    · exact absurd hrole h.1
    · refine ⟨r', hcount ▸ hr', ?_, (hrows.2 r' hr').1.trans (congrArg PairedEntry.userSub he)⟩
      exact (congrFun hpool j).trans hp

theorem rotateOwnerKey_rows {fate : NvsFate} {l l' : PairedBlob} {nvs nvs' : Option StoredList}
    {key : Block pairedKeyLen} {ok : Bool}
    (h : pairedListRotateOwnerKey fate l nvs key = (ok, l', nvs')) :
    SameRows l l' ∧ l'.count = l.count := by
  rcases pairedListRotateOwnerKey_cases h with ⟨rfl, -⟩ | ⟨r, -, -, rfl, -⟩
  · exact ⟨SameRows.refl _, rfl⟩
  · exact ⟨rekeyed_rows _ _ _, rfl⟩

theorem handlePwset_cases (P : Platform) (env : Env) (w : World) (sock : Nat) (line : Bytes) :
    (pwsetAccepted P env w.core line = false ∧
      ∃ x text, handlePwset P env w sock line = sendErr P x sock text) ∨
    (pwsetAccepted P env w.core line = true ∧ ∃ pw x ok l nvs,
      x = revokeAllNonOwner env (w.setPw pw) ∧
      pairedListRotateOwnerKey env.rotateFate x.list x.nvsList (.fit pairedKeyLen env.ownerKey) =
        (ok, l, nvs) ∧
      handlePwset P env w sock line =
        securitySendLine P (x.setList l nvs) sock (ascii "ACK")) := by
  simp only [handlePwset, pwsetAccepted]
  cases hp : parsePwset P line with
  | none => exact .inl ⟨rfl, _, _, rfl⟩
  | some password =>
    dsimp only
    rcases hset : devicePasswordSet P env.pairFate env.setRand w.pw password with ⟨ok, pw⟩
    have hset' : devicePasswordSet P env.pairFate env.setRand w.core.pw password = (ok, pw) := hset
    rw [hset']
    cases ok with
    | false => exact .inl ⟨rfl, _, _, rfl⟩
    | true => exact .inr ⟨rfl, pw, _, _, _, _, rfl, rfl, rfl⟩

theorem handlePwset_core {P : Platform} {env : Env} {w : World} {line : Bytes}
    (hacc : pwsetAccepted P env w.core line = true) (sock : Nat) :
    ∃ pw, (handlePwset P env w sock line).core.pool =
        (revokeAllNonOwner env (w.setPw pw)).core.pool ∧
      SameRows (revokeAllNonOwner env (w.setPw pw)).list (handlePwset P env w sock line).list ∧
      (handlePwset P env w sock line).list.count =
        (revokeAllNonOwner env (w.setPw pw)).list.count := by
  rcases handlePwset_cases P env w sock line with ⟨hno, -⟩ | ⟨-, pw, x, ok, l, nvs, rfl, hrot, hw⟩
  · exact absurd (hno.symm.trans hacc) Bool.false_ne_true
  · obtain ⟨hrows, hcount⟩ := rotateOwnerKey_rows hrot
    have hcore := core_securitySendLine P
      ((revokeAllNonOwner env (w.setPw pw)).setList l nvs) sock (ascii "ACK")
    rw [← hw] at hcore
    have hlist : (handlePwset P env w sock line).list = l := congrArg Core.list hcore
    rw [hlist]
    exact ⟨pw, by rw [hcore]; rfl, hrows, hcount⟩

theorem pwset_revoked_of_stored {P : Platform} {env : Env} {w : World} {line : Bytes}
    (hacc : pwsetAccepted P env w.core line = true)
    (hok : ∀ k < (revokedAccounts w.list).length, env.listFate k = .ok) (sock : Nat) :
    PwsetRevoked w (handlePwset P env w sock line) := by
  obtain ⟨pw, hpool, hrows, hcount⟩ := handlePwset_core hacc sock
  have hstored : revokeAllNonOwner env (w.setPw pw) =
      revokeAllNonOwner { env with listFate := fun _ => .ok } (w.setPw pw) :=
    revokeFrom_of_stored _ _ fun m hm => by rw [Nat.zero_add]; exact hok m hm
  rw [hstored] at hpool hrows hcount
  obtain ⟨hrun, hend⟩ := revokeFrom_run { env with listFate := fun _ => .ok } w.list.count 0 0
    (w.setPw pw)
  have honly := hend (Nat.zero_add w.list.count).ge (fun _ => rfl) fun r hr =>
    absurd hr (Nat.not_lt_zero r)
  have h : PwsetRevoked (w.setPw pw) (handlePwset P env w sock line) :=
    .of_run (fun _ => rfl) hrun honly hpool hrows hcount
  exact ⟨h.onlyOwner, h.ownerRow, h.ended, h.kept⟩

theorem not_revoked_of_failed {P : Platform} {env : Env} {w : World} {line : Bytes}
    (hacc : pwsetAccepted P env w.core line = true) {k : Nat}
    (hk : k < (revokedAccounts w.list).length) (hfate : env.listFate k ≠ .ok) (sock : Nat) :
    ∃ pool, ¬ PwsetRevoked { w with pool } (handlePwset P env { w with pool } sock line) := by
  obtain ⟨r, hr, -, hnot, hkeeps⟩ := revokeFrom_misses (n := w.list.count) (k := 0)
    (Nat.zero_add w.list.count).ge ⟨k, hk, by rwa [Nat.zero_add]⟩
  refine ⟨fun _ => { sock := some 0, state := .authOk, pairedIndex := some r }, fun h => ?_⟩
  have hdropped := h.ended 0 r (Option.some_ne_none 0) rfl hr hnot
  obtain ⟨pw, hpool, -⟩ := handlePwset_core (w := { w with pool := fun _ =>
    { sock := some 0, state := .authOk, pairedIndex := some r } }) hacc sock
  have hstate := (congrArg LocalSession.state (congrFun hpool 0)).trans
    (hkeeps (World.setPw { w with pool := fun _ =>
      { sock := some 0, state := .authOk, pairedIndex := some r } } pw) 0 rfl
      (Option.some_ne_none 0) rfl)
  exact LocalSessionState.noConfusion (hdropped.state_new.symm.trans hstate)

/-- The loop of a `PWSET` ends, whatever the stores return. A `PWSET` answers an error, or it
answers `ACK`, and then it has revoked every account but the owner's, whatever sessions there
are, if and only if every store of the loop succeeded. -/
theorem pwset_revokes_or_says_so (P : Platform) (env : Env) (w : World) (sock : Nat)
    (line : Bytes) :
    (∀ (x : World) (m : Nat),
      revokeFrom env (x.list.count + m) 0 0 x = revokeAllNonOwner env x) ∧
    (pwsetAccepted P env w.core line = false →
      ∃ x text, handlePwset P env w sock line = sendErr P x sock text) ∧
    (pwsetAccepted P env w.core line = true →
      (∃ x, handlePwset P env w sock line = securitySendLine P x sock (ascii "ACK")) ∧
      ((∀ pool, PwsetRevoked { w with pool } (handlePwset P env { w with pool } sock line)) ↔
        ∀ k < (revokedAccounts w.list).length, env.listFate k = .ok)) := by
  refine ⟨fun x m => revokeFrom_enough env (by omega) m, fun hrefused => ?_, fun hacc => ⟨?_, ?_⟩⟩
  · rcases handlePwset_cases P env w sock line with ⟨-, herr⟩ | ⟨hacc, -⟩
    · exact herr
    · exact absurd (hrefused.symm.trans hacc) Bool.false_ne_true
  · rcases handlePwset_cases P env w sock line with ⟨hrefused, -⟩ | ⟨-, _, _, _, _, _, -, -, hw⟩
    · exact absurd (hrefused.symm.trans hacc) Bool.false_ne_true
    · exact ⟨_, hw⟩
  · constructor
    · intro hall k hk
      by_contra hfate
      obtain ⟨pool, hnot⟩ := not_revoked_of_failed hacc hk hfate sock
      exact hnot (hall pool)
    · exact fun hok pool => pwset_revoked_of_stored (w := { w with pool }) hacc hok sock

/-! ## The events -/

def unpairedEvent (env : Env) (e : PairedEntry) : Bytes :=
  pairingEventJson (ascii "unpaired") e.userSub (ascii "user") (unixOrZero env.unix)

def pushText (q : List Bytes) (text : Bytes) : List Bytes :=
  (if pairingEventsMax ≤ q.length then q.drop 1 else q) ++ [text]

theorem foldl_pushText {q : List Bytes} (hq : q.length ≤ pairingEventsMax) (texts : List Bytes) :
    texts.foldl pushText q =
      (q ++ texts).drop ((q ++ texts).length - pairingEventsMax) := by
  have hmax : pairingEventsMax = 8 := rfl
  induction texts generalizing q with
  | nil =>
    rw [List.foldl_nil, List.append_nil, Nat.sub_eq_zero_of_le hq, List.drop_zero]
  | cons text texts ih =>
    rw [List.foldl_cons]
    by_cases hfull : pairingEventsMax ≤ q.length
    · have hpush : pushText q text = q.drop 1 ++ [text] := by rw [pushText, if_pos hfull]
      have hlen : (q.drop 1 ++ [text]).length ≤ pairingEventsMax := by
        simp only [List.length_append, List.length_drop, List.length_singleton]
        omega
      have hdrop : q.drop 1 ++ [text] ++ texts = (q ++ text :: texts).drop 1 := by
        rw [List.append_assoc, List.singleton_append, List.drop_append_of_le_length (by omega)]
      rw [hpush, ih hlen, hdrop, List.drop_drop]
      congr 1
      simp only [List.length_drop, List.length_append, List.length_cons]
      omega
    · have hpush : pushText q text = q ++ [text] := by rw [pushText, if_neg hfull]
      have hlen : (q ++ [text]).length ≤ pairingEventsMax := by
        simp only [List.length_append, List.length_singleton]
        omega
      rw [hpush, ih hlen, List.append_assoc, List.singleton_append]

theorem World.pushEvent_json (w : World) (env : Env) (event userSub role : Bytes) :
    (w.pushEvent env event userSub role).events.json =
      pushText w.events.json (pairingEventJson event userSub role (unixOrZero env.unix)) :=
  pairingEventsPush_json w.events env.eventOk env.unix event userSub role

theorem revokeFrom_events {env : Env} {n i k : Nat} {w : World}
    (hok : ∀ m < (toRevoke w.list i).length, env.listFate (k + m) = .ok)
    (hn : w.list.count ≤ i + n) :
    (revokeFrom env n i k w).events.json =
      ((toRevoke w.list i).map (unpairedEvent env)).foldl pushText w.events.json := by
  induction n generalizing i k w with
  | zero =>
    rw [toRevoke_of_count_le (by omega)]
    rfl
  | succ n ih =>
    rw [revokeFrom]
    by_cases hi : i < w.list.count
    · rw [if_pos hi]
      by_cases hrole : (w.list.entries i).role = .owner
      · simp only [hrole, ne_eq, not_true_eq_false, if_false]
        rw [toRevoke_of_owner hi hrole] at hok ⊢
        exact ih hok (by omega)
      · rw [toRevoke_of_ne_owner hi hrole, List.length_cons] at hok
        have hfirst : env.listFate k = .ok := hok 0 (Nat.succ_pos _)
        simp only [ne_eq, hrole, not_false_eq_true, if_true, hfirst, pairedListRemove_ok hi]
        have hcount : (w.list.dropRow i).count ≤ i + n := by
          rw [dropRow_count]
          omega
        rw [ih (fun m hm => ?_) hcount, World.pushEvent_json, toRevoke_of_ne_owner hi hrole,
          List.map_cons, List.foldl_cons]
        · rfl
        · have hstored := hok (m + 1) (Nat.succ_lt_succ hm)
          rwa [show k + (m + 1) = k + 1 + m by omega] at hstored
    · rw [if_neg hi, toRevoke_of_count_le (by omega)]
      rfl

theorem securitySendLine_events (P : Platform) (w : World) (sock : Nat) (text : Bytes) :
    (securitySendLine P w sock text).events = w.events := by
  unfold securitySendLine
  split
  · exact congrArg Prod.snd (parts_encFrameSend _)
  · rfl

theorem handlePwset_events {P : Platform} {env : Env} {w : World} {line : Bytes}
    (hok : ∀ k < (revokedAccounts w.list).length, env.listFate k = .ok)
    (hempty : w.events.json = []) (hacc : pwsetAccepted P env w.core line = true) (sock : Nat) :
    (handlePwset P env w sock line).events.json =
      ((revokedAccounts w.list).map (unpairedEvent env)).drop
        ((revokedAccounts w.list).length - pairingEventsMax) := by
  rcases handlePwset_cases P env w sock line with ⟨hno, -⟩ | ⟨-, pw, x, ok, l, nvs, rfl, -, hw⟩
  · exact absurd (hno.symm.trans hacc) Bool.false_ne_true
  · have hevents : (revokeAllNonOwner env (w.setPw pw)).events.json = _ :=
      revokeFrom_events (fun m hm => by rw [Nat.zero_add]; exact hok m hm)
        (Nat.zero_add (w.setPw pw).list.count).ge
    rw [hw, securitySendLine_events]
    refine hevents.trans ?_
    have hjson : (w.setPw pw).events.json = [] := hempty
    rw [hjson, foldl_pushText (Nat.zero_le _), List.nil_append, List.length_map]
    rfl

/-- Every account a `PWSET` revokes is reported, in the order of removal, if and only if the
queue has room for all of them. -/
theorem pwset_reports_revoked (P : Platform) (env : Env) (w : World) (sock : Nat) (line : Bytes)
    (hok : ∀ k < (revokedAccounts w.list).length, env.listFate k = .ok)
    (hempty : w.events.json = []) (hacc : pwsetAccepted P env w.core line = true) :
    (handlePwset P env w sock line).events.json =
        (revokedAccounts w.list).map (unpairedEvent env) ↔
      (revokedAccounts w.list).length ≤ pairingEventsMax := by
  rw [handlePwset_events hok hempty hacc]
  constructor
  · intro hall
    have hlen := congrArg List.length hall
    rw [List.length_drop, List.length_map] at hlen
    have hmax : 0 < pairingEventsMax := by decide
    omega
  · intro hfew
    rw [Nat.sub_eq_zero_of_le hfew, List.drop_zero]

namespace Sample

def pairedWith (users : List String) : World :=
  let list := PairedBlob.ofEntries (ascii "owner")
    ({ userSub := ascii "owner", role := .owner } ::
      users.map fun user => { userSub := ascii user, role := .user })
  { list := list, nvsList := list.stored }

def pwset : Bytes := ascii "PWSET:" ++ b64 "new password"

end Sample

theorem pwset_revokes_two_users :
    PwsetRevoked (Sample.pairedWith ["u1", "u2"])
      (handlePwset Sample.platform {} (Sample.pairedWith ["u1", "u2"]) 5 Sample.pwset) :=
  ((pwset_revokes_or_says_so Sample.platform {} (Sample.pairedWith ["u1", "u2"]) 5
    Sample.pwset).2.2 (by decide +kernel)).2.mpr (fun _ _ => rfl) _

def firstStoreFails : Env := { listFate := fun k => if k = 0 then .writeFails else .ok }

/-- The loop steps over the second user, who has moved into the place of the first, and the
owner is told `ACK`. -/
theorem pwset_acks_and_keeps_user :
    let w := handlePwset Sample.platform firstStoreFails (Sample.pairedWith ["u1", "u2"]) 5
      Sample.pwset
    w.out = [⟨5, ascii "ACK\n", none⟩] ∧ w.list.count = 2 ∧
      (w.list.entries 1).userSub = ascii "u2" ∧ (w.list.entries 1).role = .user := by
  decide +kernel

theorem pwset_reports_two_users :
    (handlePwset Sample.platform {} (Sample.pairedWith ["u1", "u2"]) 5 Sample.pwset).events.json =
      (revokedAccounts (Sample.pairedWith ["u1", "u2"]).list).map (unpairedEvent {}) :=
  (pwset_reports_revoked Sample.platform {} (Sample.pairedWith ["u1", "u2"]) 5 Sample.pwset
    (fun _ _ => rfl) rfl (by decide +kernel)).mpr (by decide +kernel)

def nineUsers : List String := ["u1", "u2", "u3", "u4", "u5", "u6", "u7", "u8", "u9"]

/-- Nine accounts are revoked and eight are reported: the first one is lost. -/
theorem pwset_forgets_ninth :
    let w := handlePwset Sample.platform {} (Sample.pairedWith nineUsers) 5 Sample.pwset
    (revokedAccounts (Sample.pairedWith nineUsers).list).length = 9 ∧ w.list.count = 1 ∧
      w.events.json.length = 8 ∧
      pairingEventJson (ascii "unpaired") (ascii "u1") (ascii "user") 0 ∉ w.events.json := by
  decide +kernel

end CyThing
