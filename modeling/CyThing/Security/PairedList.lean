import CyThing.Security.PairedListDefs

/-! What the operations of the paired list do to its rows. -/

namespace CyThing
open CLib

variable {l l' : PairedBlob} {nvs nvs' : Option StoredList} {fate : NvsFate} {ok : Bool}
  {sub : Bytes} {r : Nat}

/-! ## Search -/

theorem findLocked_lt (h : findLocked l sub = some r) : r < l.count :=
  List.mem_range.mp (List.mem_of_find?_eq_some h)

theorem findLocked_sub (h : findLocked l sub = some r) :
    (l.entries r).userSub.take pairedSubMax = sub.take pairedSubMax := by
  simpa [strncmpEq] using List.find?_some h

theorem findLocked_eq_none :
    findLocked l sub = none ↔
      ∀ j < l.count, (l.entries j).userSub.take pairedSubMax ≠ sub.take pairedSubMax := by
  simp [findLocked, strncmpEq]

/-! ## Stores -/

theorem nvsStore_true (h : nvsStore fate l nvs = (true, nvs')) : nvs' = l.stored := by
  cases fate <;> simp_all [nvsStore]

/-! ## Removal -/

theorem pairedListRemove_of_lt (hr : r < l.count) :
    pairedListRemove fate l nvs r =
      ((nvsStore fate (l.dropRow r) nvs).1, l.dropRow r, (nvsStore fate (l.dropRow r) nvs).2) := by
  rw [pairedListRemove, if_neg (by omega)]

theorem pairedListRemove_list (hr : r < l.count)
    (h : pairedListRemove fate l nvs r = (ok, l', nvs')) : l' = l.dropRow r := by
  rw [pairedListRemove_of_lt hr, Prod.mk.injEq, Prod.mk.injEq] at h
  exact h.2.1.symm

theorem pairedListRemove_stored (hr : r < l.count)
    (h : pairedListRemove fate l nvs r = (true, l', nvs')) : nvs' = l'.stored := by
  have hl := pairedListRemove_list hr h
  rw [pairedListRemove_of_lt hr, Prod.mk.injEq, Prod.mk.injEq] at h
  rw [hl]
  exact nvsStore_true (Prod.ext h.1 h.2.2)

theorem pairedListRemove_ok (hr : r < l.count) :
    pairedListRemove .ok l nvs r = (true, l.dropRow r, (l.dropRow r).stored) :=
  pairedListRemove_of_lt hr

theorem dropRow_entries (hr : r < l.count) (j : Nat) :
    (l.dropRow r).entries j =
      if j = l.count - 1 then {} else if r ≤ j ∧ j < l.count then l.entries (j + 1)
      else l.entries j :=
  Dense.removeAt_apply _ _ hr j

theorem length_accounts (l : PairedBlob) : l.accounts.length = l.count := Dense.length_toList _ _

theorem accounts_dropRow (hr : r < l.count) : (l.dropRow r).accounts = l.accounts.eraseIdx r :=
  Dense.toList_removeAt _ _ hr

theorem dropRow_count : (l.dropRow r).count = l.count - 1 := rfl

theorem dropRow_ownerSub : (l.dropRow r).ownerSub = l.ownerSub := rfl

theorem pairedListRemove_ownerSub (hr : r < l.count)
    (h : pairedListRemove fate l nvs r = (ok, l', nvs')) : l'.ownerSub = l.ownerSub := by
  rw [pairedListRemove_list hr h, dropRow_ownerSub]

theorem dropRow_entries_lt (hr : r < l.count) {j : Nat} (hj : j < r) :
    (l.dropRow r).entries j = l.entries j := by
  rw [dropRow_entries hr, if_neg (by omega), if_neg (by omega)]

theorem dropRow_entries_ge (hr : r < l.count) {j : Nat} (hj : r ≤ j) (hc : j + 1 < l.count) :
    (l.dropRow r).entries j = l.entries (j + 1) := by
  rw [dropRow_entries hr, if_neg (by omega), if_pos (by omega)]

def rowBefore (r j : Nat) : Nat := if j < r then j else j + 1

theorem rowBefore_ne (r j : Nat) : rowBefore r j ≠ r := by
  unfold rowBefore
  split_ifs <;> omega

theorem rowBefore_inj {r j k : Nat} (h : rowBefore r j = rowBefore r k) : j = k := by
  unfold rowBefore at h
  split_ifs at h <;> omega

theorem rowBefore_lt {r j n : Nat} (hj : j < n - 1) : rowBefore r j < n := by
  unfold rowBefore
  split_ifs <;> omega

theorem dropRow_row (hr : r < l.count) {j : Nat} (hj : j < l.count - 1) :
    (l.dropRow r).entries j = l.entries (rowBefore r j) := by
  unfold rowBefore
  split_ifs with h
  · exact dropRow_entries_lt hr h
  · exact dropRow_entries_ge hr (by omega) (by omega)

/-! ## Enrolment -/

def ownerAfter (l : PairedBlob) (sub : Bytes) : Bytes :=
  if l.ownerSub == [] then copyField (pairedSubMax + 1) sub else l.ownerSub

theorem ownerAfter_undo (l : PairedBlob) (sub : Bytes) :
    (if l.ownerSub == [] then [] else ownerAfter l sub) = l.ownerSub := by
  by_cases h : l.ownerSub = [] <;> simp [ownerAfter, h]

def PairedBlob.refreshed (l : PairedBlob) (sub email : Bytes) (pairedAt r : Nat) : PairedBlob :=
  { l with
    ownerSub := ownerAfter l sub
    entries := Function.update l.entries r
      ((l.entries r).touch email pairedAt (roleFor (ownerAfter l sub) sub)) }

def PairedBlob.appended (l : PairedBlob) (sub email : Bytes) (key : Block pairedKeyLen)
    (pairedAt : Nat) : PairedBlob :=
  { ownerSub := ownerAfter l sub
    count := l.count + 1
    entries := Function.update l.entries l.count
      (({ userSub := copyField (pairedSubMax + 1) sub, key := key } : PairedEntry).touch
        email pairedAt (roleFor (ownerAfter l sub) sub)) }

theorem pairedListAdd_cases (fate : NvsFate) (nvs : Option StoredList) (sub email : Bytes)
    (key : Block pairedKeyLen) (pairedAt : Nat)
    (hclear : ∀ r, l.count ≤ r → l.entries r = {}) :
    ((pairedListAdd fate l nvs sub email key pairedAt).enrolled = none ∧
      (pairedListAdd fate l nvs sub email key pairedAt).list = l ∧
      (fate = .ok → (pairedListAdd fate l nvs sub email key pairedAt).nvs = nvs)) ∨
    (∃ r, sub ≠ [] ∧ findLocked l sub = some r ∧
      pairedListAdd fate l nvs sub email key pairedAt =
        ⟨some ⟨r, (l.entries r).key, roleFor (ownerAfter l sub) sub⟩,
          l.refreshed sub email pairedAt r, (l.refreshed sub email pairedAt r).stored⟩) ∨
    (sub ≠ [] ∧ findLocked l sub = none ∧ l.count < pairedListMax ∧
      pairedListAdd fate l nvs sub email key pairedAt =
        ⟨some ⟨l.count, key, roleFor (ownerAfter l sub) sub⟩,
          l.appended sub email key pairedAt, (l.appended sub email key pairedAt).stored⟩) := by
  have hundo : { l with ownerSub := if l.ownerSub == [] then [] else ownerAfter l sub } = l :=
    congrArg (fun o => { l with ownerSub := o }) (ownerAfter_undo l sub)
  by_cases hsub : sub = []
  · exact Or.inl (by simp [pairedListAdd, hsub])
  rcases hf : findLocked l sub with _ | r
  · by_cases hfull : pairedListMax ≤ l.count
    · left
      simp only [pairedListAdd, hsub, hf, hfull, if_false, if_true, true_and]
      exact ⟨hundo, fun _ => trivial⟩
    have hblank : Function.update l.entries l.count {} = l.entries := by
      rw [← hclear l.count le_rfl, Function.update_eq_self]
    -- the undo clears the row again and takes the claim of ownership back
    have hback : ({ ownerSub := if l.ownerSub == [] then [] else ownerAfter l sub
                    count := l.count + 1 - 1
                    entries := Function.update (l.appended sub email key pairedAt).entries
                      l.count {} } : PairedBlob) = l := by
      simp only [PairedBlob.appended, Function.update_idem, hblank, Nat.add_sub_cancel]
      exact hundo
    simp only [pairedListAdd, hsub, hf, hfull, if_false]
    cases fate with
    | ok => exact Or.inr (Or.inr ⟨hsub, trivial, by omega, rfl⟩)
    | openFails => exact Or.inl ⟨rfl, hback, nofun⟩
    | writeFails => exact Or.inl ⟨rfl, hback, nofun⟩
    | commitFails => exact Or.inl ⟨rfl, hback, nofun⟩
  · have hback : { l.refreshed sub email pairedAt r with
        ownerSub := if l.ownerSub == [] then [] else ownerAfter l sub
        entries := Function.update (l.refreshed sub email pairedAt r).entries r (l.entries r) } =
        l := by
      simp only [PairedBlob.refreshed, Function.update_idem, Function.update_eq_self]
      exact hundo
    simp only [pairedListAdd, hsub, hf, if_false]
    cases fate with
    | ok => exact Or.inr (Or.inl ⟨r, hsub, rfl, rfl⟩)
    | openFails => exact Or.inl ⟨rfl, hback, nofun⟩
    | writeFails => exact Or.inl ⟨rfl, hback, nofun⟩
    | commitFails => exact Or.inl ⟨rfl, hback, nofun⟩

/-! ## Well-formed lists -/

/-- What holds of the list whenever no store has failed. The owner is in row 0. -/
structure PairedBlob.WellFormed (l : PairedBlob) : Prop where
  count_le : l.count ≤ pairedListMax
  sub_ne : ∀ r < l.count, (l.entries r).userSub ≠ []
  sub_len : ∀ r < l.count, (l.entries r).userSub.length ≤ pairedSubMax
  distinct : ∀ r < l.count, ∀ k < l.count,
    (l.entries r).userSub.take pairedSubMax = (l.entries k).userSub.take pairedSubMax → r = k
  clear : ∀ r, l.count ≤ r → l.entries r = {}
  role_eq : ∀ r < l.count,
    (l.entries r).role = if (l.entries r).userSub = l.ownerSub then .owner else .user
  owner_empty : l.ownerSub = [] ↔ l.count = 0
  owner_first : 0 < l.count → (l.entries 0).userSub = l.ownerSub

def SameRows (l l' : PairedBlob) : Prop :=
  l.count ≤ l'.count ∧ ∀ r < l.count,
    (l'.entries r).userSub = (l.entries r).userSub ∧ (l'.entries r).role = (l.entries r).role

theorem SameRows.refl (l : PairedBlob) : SameRows l l := ⟨le_rfl, fun _ _ => ⟨rfl, rfl⟩⟩

theorem appended_rows (l : PairedBlob) (sub email : Bytes) (key : Block pairedKeyLen)
    (pairedAt : Nat) : SameRows l (l.appended sub email key pairedAt) := by
  refine ⟨Nat.le_succ _, fun k hk => ?_⟩
  have hne : k ≠ l.count := by omega
  simp only [PairedBlob.appended, Function.update_of_ne hne, and_self]

theorem take_eq_of_length_le {b : Bytes} (h : b.length ≤ pairedSubMax) :
    b.take pairedSubMax = b := List.take_of_length_le h

namespace PairedBlob.WellFormed

variable (h : l.WellFormed)

theorem empty : ({} : PairedBlob).WellFormed where
  count_le := Nat.zero_le _
  sub_ne := fun _ hr => absurd hr (Nat.not_lt_zero _)
  sub_len := fun _ hr => absurd hr (Nat.not_lt_zero _)
  distinct := fun _ hr => absurd hr (Nat.not_lt_zero _)
  clear := fun _ _ => rfl
  role_eq := fun _ hr => absurd hr (Nat.not_lt_zero _)
  owner_empty := ⟨fun _ => rfl, fun _ => rfl⟩
  owner_first := fun hr => absurd hr (Nat.not_lt_zero _)

include h

theorem owner_iff (hr : r < l.count) :
    (l.entries r).role = .owner ↔ (l.entries r).userSub = l.ownerSub := by
  rw [h.role_eq r hr]
  by_cases hs : (l.entries r).userSub = l.ownerSub <;> simp [hs]

theorem sub_inj {r k : Nat} (hr : r < l.count) (hk : k < l.count)
    (hs : (l.entries r).userSub = (l.entries k).userSub) : r = k :=
  h.distinct r hr k hk (by rw [hs])

theorem owner_row (hr : r < l.count) : (l.entries r).role = .owner ↔ r = 0 := by
  rw [h.owner_iff hr]
  constructor
  · intro hs
    exact h.sub_inj hr (by omega) (hs.trans (h.owner_first (by omega)).symm)
  · rintro rfl
    exact h.owner_first hr

theorem findLocked_userSub (hlen : sub.length ≤ pairedSubMax)
    (hf : findLocked l sub = some r) : (l.entries r).userSub = sub := by
  have hs := findLocked_sub hf
  rwa [take_eq_of_length_le hlen, take_eq_of_length_le (h.sub_len r (findLocked_lt hf))] at hs

theorem roleFor_eq (hlen : sub.length ≤ pairedSubMax) (hpos : 0 < l.count) :
    roleFor l.ownerSub sub = if sub = l.ownerSub then .owner else .user := by
  have hown : l.ownerSub ≠ [] := fun ho => by
    have := h.owner_empty.mp ho
    omega
  have holen : l.ownerSub.length ≤ pairedSubMax := by
    rw [← h.owner_first hpos]
    exact h.sub_len 0 hpos
  simp only [roleFor, strncmpEq, take_eq_of_length_le hlen, take_eq_of_length_le holen,
    beq_iff_eq, ne_eq, hown, not_false_eq_true, true_and]

theorem dropRow (hr : r < l.count) (h0 : r ≠ 0) : (l.dropRow r).WellFormed where
  count_le := by
    have := h.count_le
    rw [dropRow_count]
    omega
  sub_ne := fun j hj => by
    rw [dropRow_row hr hj]
    exact h.sub_ne _ (rowBefore_lt hj)
  sub_len := fun j hj => by
    rw [dropRow_row hr hj]
    exact h.sub_len _ (rowBefore_lt hj)
  distinct := fun j hj k hk hs => by
    rw [dropRow_row hr hj, dropRow_row hr hk] at hs
    exact rowBefore_inj (h.distinct _ (rowBefore_lt hj) _ (rowBefore_lt hk) hs)
  clear := fun j hj => Dense.removeAt_clear hr h.clear j hj
  role_eq := fun j hj => by
    rw [dropRow_row hr hj, dropRow_ownerSub]
    exact h.role_eq _ (rowBefore_lt hj)
  owner_empty := by
    rw [dropRow_ownerSub, h.owner_empty, dropRow_count]
    omega
  owner_first := fun _ => by
    rw [dropRow_entries_lt hr (Nat.pos_of_ne_zero h0), dropRow_ownerSub]
    exact h.owner_first (by omega)

theorem ownerAfter_eq (hpos : 0 < l.count) : ownerAfter l sub = l.ownerSub := by
  have hne : l.ownerSub ≠ [] := fun ho => by
    have := h.owner_empty.mp ho
    omega
  simp [ownerAfter, hne]

theorem ownerAfter_of_empty (hlen : sub.length ≤ pairedSubMax) (hc : l.count = 0) :
    ownerAfter l sub = sub := by
  simp only [ownerAfter, h.owner_empty.mpr hc, beq_self_eq_true, if_true, copyField]
  exact take_eq_of_length_le hlen

theorem ownerAfter_ne (hsub : sub ≠ []) (hlen : sub.length ≤ pairedSubMax) :
    ownerAfter l sub ≠ [] := by
  by_cases hpos : 0 < l.count
  · rw [h.ownerAfter_eq hpos, ne_eq, h.owner_empty]
    omega
  · rw [h.ownerAfter_of_empty hlen (by omega)]
    exact hsub

theorem roleFor_ownerAfter (hsub : sub ≠ []) (hlen : sub.length ≤ pairedSubMax) :
    roleFor (ownerAfter l sub) sub = if sub = ownerAfter l sub then .owner else .user := by
  by_cases hpos : 0 < l.count
  · rw [h.ownerAfter_eq hpos, h.roleFor_eq hlen hpos]
  · rw [h.ownerAfter_of_empty hlen (by omega)]
    simp [roleFor, strncmpEq, hsub]

theorem refreshed_rows (hlen : sub.length ≤ pairedSubMax) (hf : findLocked l sub = some r)
    (email : Bytes) (pairedAt : Nat) : SameRows l (l.refreshed sub email pairedAt r) := by
  have hr := findLocked_lt hf
  have hpos : 0 < l.count := by omega
  refine ⟨le_rfl, fun k hk => ?_⟩
  by_cases hkr : k = r
  · subst hkr
    simp only [PairedBlob.refreshed, Function.update_self, PairedEntry.touch, true_and]
    rw [h.ownerAfter_eq hpos, h.roleFor_eq hlen hpos, h.role_eq k hk,
      h.findLocked_userSub hlen hf]
  · simp only [PairedBlob.refreshed, Function.update_of_ne hkr, and_self]

theorem of_sameRows {l' : PairedBlob} (hrows : SameRows l l') (hcount : l'.count = l.count)
    (hown : l'.ownerSub = l.ownerSub) (hclear : ∀ r, l.count ≤ r → l'.entries r = {}) :
    l'.WellFormed where
  count_le := hcount ▸ h.count_le
  sub_ne := fun r hr => by
    rw [hcount] at hr
    rw [(hrows.2 r hr).1]
    exact h.sub_ne r hr
  sub_len := fun r hr => by
    rw [hcount] at hr
    rw [(hrows.2 r hr).1]
    exact h.sub_len r hr
  distinct := fun r hr k hk hs => by
    rw [hcount] at hr hk
    rw [(hrows.2 r hr).1, (hrows.2 k hk).1] at hs
    exact h.distinct r hr k hk hs
  clear := fun r hr => hclear r (hcount ▸ hr)
  role_eq := fun r hr => by
    rw [hcount] at hr
    rw [(hrows.2 r hr).1, (hrows.2 r hr).2, hown]
    exact h.role_eq r hr
  owner_empty := by rw [hown, hcount, h.owner_empty]
  owner_first := fun hpos => by
    rw [hcount] at hpos
    rw [(hrows.2 0 hpos).1, hown]
    exact h.owner_first hpos

theorem refreshed (hlen : sub.length ≤ pairedSubMax) (hf : findLocked l sub = some r)
    (email : Bytes) (pairedAt : Nat) : (l.refreshed sub email pairedAt r).WellFormed := by
  have hr := findLocked_lt hf
  refine h.of_sameRows (h.refreshed_rows hlen hf email pairedAt) rfl
    (h.ownerAfter_eq (by omega)) fun k hk => ?_
  have hne : k ≠ r := by omega
  simp only [PairedBlob.refreshed, Function.update_of_ne hne]
  exact h.clear k hk

theorem appended (hsub : sub ≠ []) (hlen : sub.length ≤ pairedSubMax)
    (hf : findLocked l sub = none) (hfull : l.count < pairedListMax) (email : Bytes)
    (key : Block pairedKeyLen) (pairedAt : Nat) :
    (l.appended sub email key pairedAt).WellFormed := by
  have hold : ∀ k < l.count, (l.appended sub email key pairedAt).entries k = l.entries k :=
    fun k hk => Function.update_of_ne (by omega) ..
  have hnew : ((l.appended sub email key pairedAt).entries l.count).userSub = sub := by
    simp only [PairedBlob.appended, Function.update_self, PairedEntry.touch, copyField]
    exact take_eq_of_length_le hlen
  have hrole : ((l.appended sub email key pairedAt).entries l.count).role =
      roleFor (ownerAfter l sub) sub := by
    simp only [PairedBlob.appended, Function.update_self, PairedEntry.touch]
  have hfresh : ∀ k < l.count, (l.entries k).userSub.take pairedSubMax ≠ sub := fun k hk => by
    rw [← take_eq_of_length_le hlen]
    exact findLocked_eq_none.mp hf k hk
  have hrow : ∀ {k}, k < l.count + 1 → k < l.count ∨ k = l.count := fun hk => by omega
  refine
    { count_le := hfull
      sub_ne := fun k hk => ?_
      sub_len := fun k hk => ?_
      distinct := fun k hk j hj hs => ?_
      clear := fun k hk => ?_
      role_eq := fun k hk => ?_
      owner_empty := ?_
      owner_first := fun _ => ?_ }
  · rcases hrow hk with hk | rfl
    · rw [hold k hk]
      exact h.sub_ne k hk
    · rw [hnew]
      exact hsub
  · rcases hrow hk with hk | rfl
    · rw [hold k hk]
      exact h.sub_len k hk
    · rw [hnew]
      exact hlen
  · rcases hrow hk with hk | rfl <;> rcases hrow hj with hj | rfl
    · rw [hold k hk, hold j hj] at hs
      exact h.distinct k hk j hj hs
    · rw [hold k hk, hnew, take_eq_of_length_le hlen] at hs
      exact absurd hs (hfresh k hk)
    · rw [hold j hj, hnew, take_eq_of_length_le hlen] at hs
      exact absurd hs.symm (hfresh j hj)
    · rfl
  · have hk : l.count + 1 ≤ k := hk
    have hne : k ≠ l.count := by omega
    simp only [PairedBlob.appended, Function.update_of_ne hne]
    exact h.clear k (by omega)
  · rcases hrow hk with hk | rfl
    · rw [hold k hk, h.role_eq k hk]
      exact congrArg (fun o => if (l.entries k).userSub = o then PairedRole.owner else .user)
        (h.ownerAfter_eq (by omega)).symm
    · rw [hrole, hnew]
      exact h.roleFor_ownerAfter hsub hlen
  · have hne : ownerAfter l sub ≠ [] := h.ownerAfter_ne hsub hlen
    exact ⟨fun ho => absurd ho hne, fun hc => absurd hc (Nat.succ_ne_zero _)⟩
  · by_cases hpos : 0 < l.count
    · rw [hold 0 hpos, h.owner_first hpos]
      exact (h.ownerAfter_eq hpos).symm
    · have hc : l.count = 0 := by omega
      rw [← hc, hnew]
      exact (h.ownerAfter_of_empty hlen hc).symm

end PairedBlob.WellFormed

structure Added (l : PairedBlob) (sub : Bytes) (e : Enrolled) (l' : PairedBlob) : Prop where
  wf : l'.WellFormed
  rows : SameRows l l'
  index_lt : e.index < l'.count
  sub_eq : (l'.entries e.index).userSub = sub
  role_eq : (l'.entries e.index).role = e.role
  owner : l'.ownerSub = ownerAfter l sub

theorem PairedBlob.WellFormed.added (h : l.WellFormed) {email : Bytes} {e : Enrolled}
    {key : Block pairedKeyLen} {pairedAt : Nat} (hsub : sub ≠ [] ∧ sub.length ≤ pairedSubMax)
    (he : (pairedListAdd fate l nvs sub email key pairedAt).enrolled = some e) :
    Added l sub e (pairedListAdd fate l nvs sub email key pairedAt).list ∧
      (pairedListAdd fate l nvs sub email key pairedAt).nvs =
        (pairedListAdd fate l nvs sub email key pairedAt).list.stored := by
  obtain ⟨hne, hlen⟩ := hsub
  rcases pairedListAdd_cases fate nvs sub email key pairedAt h.clear with
    ⟨hn, -, -⟩ | ⟨r, -, hf, ha⟩ | ⟨-, hf, hfull, ha⟩
  · rw [hn] at he
    cases he
  · have hrows := h.refreshed_rows hlen hf email pairedAt
    rw [ha] at he ⊢
    cases he
    have hr := findLocked_lt hf
    refine ⟨⟨h.refreshed hlen hf _ _, hrows, hr, ?_, ?_, rfl⟩, rfl⟩
    · rw [(hrows.2 r hr).1]
      exact h.findLocked_userSub hlen hf
    · simp only [PairedBlob.refreshed, Function.update_self, PairedEntry.touch]
  · have hrows := appended_rows l sub email key pairedAt
    rw [ha] at he ⊢
    cases he
    refine ⟨⟨h.appended hne hlen hf hfull _ _ _, hrows, Nat.lt_succ_self _, ?_, ?_, rfl⟩, rfl⟩
    · simp only [PairedBlob.appended, Function.update_self, PairedEntry.touch, copyField]
      exact take_eq_of_length_le hlen
    · simp only [PairedBlob.appended, Function.update_self, PairedEntry.touch]

/-! ## Key rotation -/

def PairedBlob.rekeyed (l : PairedBlob) (r : Nat) (key : Block pairedKeyLen) : PairedBlob :=
  { l with entries := Function.update l.entries r { l.entries r with key := key } }

theorem pairedListRotateOwnerKey_cases {freshKey : Block pairedKeyLen}
    (h : pairedListRotateOwnerKey fate l nvs freshKey = (ok, l', nvs')) :
    (l' = l ∧ (nvs' = nvs ∨ fate ≠ .ok)) ∨
      ∃ r, r < l.count ∧ (l.entries r).role = .owner ∧ l' = l.rekeyed r freshKey ∧
        nvs' = l'.stored := by
  simp only [pairedListRotateOwnerKey] at h
  split at h
  · cases h
    exact Or.inl ⟨rfl, Or.inl rfl⟩
  · next r hr =>
    have hlt : r < l.count := List.mem_range.mp (List.mem_of_find?_eq_some hr)
    have hrole : (l.entries r).role = .owner := by simpa using List.find?_some hr
    have hback : { l with entries := Function.update l.entries r (l.entries r) } = l := by
      rw [Function.update_eq_self]
    cases fate with
    | ok =>
      cases h
      exact Or.inr ⟨r, hlt, hrole, rfl, rfl⟩
    | openFails =>
      cases h
      exact Or.inl ⟨hback, Or.inr nofun⟩
    | writeFails =>
      cases h
      exact Or.inl ⟨hback, Or.inr nofun⟩
    | commitFails =>
      cases h
      exact Or.inl ⟨hback, Or.inr nofun⟩

theorem rekeyed_rows (l : PairedBlob) (r : Nat) (key : Block pairedKeyLen) :
    SameRows l (l.rekeyed r key) := by
  refine ⟨le_rfl, fun k _ => ?_⟩
  by_cases hkr : k = r
  · subst hkr
    simp only [PairedBlob.rekeyed, Function.update_self, and_self]
  · simp only [PairedBlob.rekeyed, Function.update_of_ne hkr, and_self]

theorem PairedBlob.WellFormed.rekeyed (h : l.WellFormed) (hr : r < l.count)
    (key : Block pairedKeyLen) : (l.rekeyed r key).WellFormed := by
  refine h.of_sameRows (rekeyed_rows l r key) rfl rfl fun k hk => ?_
  have hne : k ≠ r := by omega
  simp only [PairedBlob.rekeyed, Function.update_of_ne hne]
  exact h.clear k hk

/-! ## Reload -/

theorem ofEntries_accounts (hclear : ∀ r, l.count ≤ r → l.entries r = {}) :
    PairedBlob.ofEntries l.ownerSub l.accounts = l := by
  have hentries : (fun r => l.accounts.getD r {}) = l.entries := by
    funext r
    simp only [PairedBlob.accounts, List.getD_eq_getElem?_getD, Dense.getElem?_toList]
    split_ifs with hr
    · rfl
    · exact (hclear r (by omega)).symm
  have hlen := length_accounts l
  simp only [PairedBlob.ofEntries, hentries, hlen]

theorem dedupeRow_eq_self {i j n : Nat}
    (h : ∀ k, j ≤ k → k < l.count →
      (l.entries k).userSub.take pairedSubMax ≠ (l.entries i).userSub.take pairedSubMax) :
    dedupeRow i j n l = l := by
  induction n generalizing j with
  | zero => rfl
  | succ n ih =>
    rw [dedupeRow]
    split_ifs with hj hs
    · exact absurd (by simpa [strncmpEq] using hs) (h j le_rfl hj)
    · exact ih fun k hk => h k (by omega)
    · rfl

theorem dedupeRows_eq_self
    (h : ∀ r < l.count, ∀ k < l.count,
      (l.entries r).userSub.take pairedSubMax = (l.entries k).userSub.take pairedSubMax → r = k)
    (i n : Nat) : dedupeRows i n l = l := by
  induction n generalizing i with
  | zero => rfl
  | succ n ih =>
    rw [dedupeRows]
    split_ifs with hi
    · rw [dedupeRow_eq_self, ih]
      intro k hk hkc hs
      have := h k hkc i hi hs
      omega
    · rfl

theorem nvsLoad_stored (hcount : l.count ≤ pairedListMax)
    (hclear : ∀ r, l.count ≤ r → l.entries r = {}) (howner : l.count = 0 → l.ownerSub = []) :
    nvsLoad l.stored = (l, false) := by
  by_cases hc : l.count = 0
  · have hl : ({} : PairedBlob) = l := by
      rw [← ofEntries_accounts hclear, PairedBlob.accounts, hc, howner hc]
      rfl
    rw [PairedBlob.stored, if_pos hc, nvsLoad, hl]
  · have hlen : l.accounts.length ≤ pairedListMax := by
      rw [length_accounts]
      exact hcount
    simp only [PairedBlob.stored, if_neg hc, nvsLoad, if_pos hlen, ofEntries_accounts hclear]

theorem pairedListInit_stored (h : l.WellFormed) (fate : NvsFate) :
    pairedListInit fate l.stored = (l, l.stored) := by
  simp only [pairedListInit, nvsLoad_stored h.count_le h.clear h.owner_empty.mpr,
    dedupeAccountsLocked, dedupeRows_eq_self h.distinct, Bool.false_or, bne_self_eq_false,
    Bool.false_eq_true, if_false]

end CyThing
