import CyThing.Moves
import CyThing.Sample

/-! What a reboot makes of the device password: the lockout it resumes, and the pair it loads
after a change that failed. -/

namespace CyThing
open CLib Trace

/-! ## The module over time -/

structure PasswordModule where
  pw : DevicePassword := {}
  clock : Nat := 0

inductive PasswordOp
  /-- A bad proof from this address. -/
  | noteFailure (peerIp : UInt32)
  /-- A good one. -/
  | noteSuccess (peerIp : UInt32)
  | set (rand password : Bytes)
  | clear
  | get (rand : Bytes)
  | tick (us : Nat)
  /-- A power cycle; `nvs_load` runs when the new clock shows `clock`. -/
  | reboot (clock : Nat)

def PasswordModule.reboot (m : PasswordModule) (clock : Nat) : PasswordModule :=
  ⟨passwordNvsLoad clock m.pw.nvs, clock⟩

def passwordStep (P : Platform) (m : PasswordModule) : PasswordOp → PasswordModule
  | .noteFailure peerIp => { m with pw := devicePasswordNoteFailure {} m.clock m.pw peerIp }
  | .noteSuccess peerIp => { m with pw := devicePasswordNoteSuccess {} m.clock m.pw peerIp }
  | .set rand password => { m with pw := (devicePasswordSet P {} rand m.pw password).2 }
  | .clear => { m with pw := (devicePasswordClear {} m.pw).2 }
  | .get rand => { m with pw := (devicePasswordGet P rand m.pw).2 }
  | .tick us => { m with clock := m.clock + us }
  | .reboot clock => m.reboot clock

/-! ## The lockout in flash -/

structure PasswordModule.Persisted (m : PasswordModule) : Prop where
  fails : m.pw.nvs.fails.getD 0 = m.pw.globalFails
  lock : m.pw.globalUntilUs ≤ m.clock + m.pw.nvs.lock.getD 0 * 1000000
  unlocked : m.pw.globalUntilUs = 0 → m.pw.nvs.lock.getD 0 = 0

theorem remainingS_le {untilUs now n : Nat} (h : untilUs ≤ now + n * 1000000) :
    remainingS untilUs now ≤ n := by
  unfold remainingS
  omega

theorem le_remainingS (untilUs now : Nat) :
    untilUs ≤ now + remainingS untilUs now * 1000000 := by
  unfold remainingS
  omega

theorem passwordNvsLoad_globalFails (clock : Nat) (nvs : PasswordNvs) :
    (passwordNvsLoad clock nvs).globalFails = nvs.fails.getD 0 := rfl

theorem remainingS_passwordNvsLoad (clock : Nat) (nvs : PasswordNvs) :
    remainingS (passwordNvsLoad clock nvs).globalUntilUs clock = nvs.lock.getD 0 := by
  simp only [passwordNvsLoad, remainingS]
  split <;> omega

section Ops

variable {m : PasswordModule}

theorem nvsStoreLockout_ok (d : DevicePassword) (now : Nat) :
    d.nvsStoreLockout {} now =
      { d with nvs := { d.nvs with
          fails := some d.globalFails, lock := some (remainingS d.globalUntilUs now) } } := by
  simp only [DevicePassword.nvsStoreLockout, Bool.not_true, Bool.false_eq_true, if_false, if_true]

theorem Persisted.stored (d : DevicePassword) (clock : Nat) :
    PasswordModule.Persisted ⟨d.nvsStoreLockout {} clock, clock⟩ := by
  rw [nvsStoreLockout_ok]
  constructor
  · rfl
  · rw [Option.getD_some]
    exact le_remainingS d.globalUntilUs clock
  · intro h
    rw [Option.getD_some, show d.globalUntilUs = 0 from h]
    unfold remainingS
    omega

theorem PasswordModule.Persisted.noteFailure (h : m.Persisted) (peerIp : UInt32) :
    PasswordModule.Persisted
      ⟨devicePasswordNoteFailure {} m.clock m.pw peerIp, m.clock⟩ := by
  unfold devicePasswordNoteFailure
  split
  · exact h
  · exact Persisted.stored _ _

theorem PasswordModule.Persisted.noteSuccess (h : m.Persisted) (peerIp : UInt32) :
    PasswordModule.Persisted
      ⟨devicePasswordNoteSuccess {} m.clock m.pw peerIp, m.clock⟩ := by
  -- a good proof writes nothing when the RAM pair is zero; the flash pair then is zero too
  unfold devicePasswordNoteSuccess
  dsimp only
  split
  · exact Persisted.stored _ _
  · next hdirty =>
    simp only [Bool.or_eq_true, bne_iff_ne, ne_eq, not_or, not_not] at hdirty
    have hfails : m.pw.nvs.fails.getD 0 = 0 := h.fails.trans hdirty.1
    have hlock : m.pw.nvs.lock.getD 0 = 0 := h.unlocked hdirty.2
    exact ⟨hfails, Nat.zero_le _, fun _ => hlock⟩

theorem PasswordModule.Persisted.set (P : Platform) (h : m.Persisted) (rand password : Bytes) :
    PasswordModule.Persisted ⟨(devicePasswordSet P {} rand m.pw password).2, m.clock⟩ := by
  unfold devicePasswordSet
  split
  · exact h
  · split
    · exact h
    · split
      · exact h
      · exact ⟨rfl, Nat.zero_le _, fun _ => rfl⟩

theorem PasswordModule.Persisted.clear (m : PasswordModule) :
    PasswordModule.Persisted ⟨(devicePasswordClear {} m.pw).2, m.clock⟩ :=
  ⟨rfl, Nat.zero_le _, fun _ => rfl⟩

theorem PasswordModule.Persisted.get (P : Platform) (h : m.Persisted) (rand : Bytes) :
    PasswordModule.Persisted ⟨(devicePasswordGet P rand m.pw).2, m.clock⟩ := by
  -- the initial pair is kept in RAM only
  unfold devicePasswordGet deriveInitialLocked
  split
  · exact h
  · dsimp only
    split
    · exact h
    · split
      · split
        · exact ⟨h.fails, h.lock, h.unlocked⟩
        · exact h
      · exact h

theorem PasswordModule.Persisted.reboot (m : PasswordModule) (clock : Nat) :
    (m.reboot clock).Persisted := by
  constructor
  · rfl
  · have hle := le_remainingS (passwordNvsLoad clock m.pw.nvs).globalUntilUs clock
    rw [remainingS_passwordNvsLoad] at hle
    exact hle
  · intro hzero
    have hrem := remainingS_passwordNvsLoad clock m.pw.nvs
    have h0 : (passwordNvsLoad clock m.pw.nvs).globalUntilUs = 0 := hzero
    rw [h0] at hrem
    change m.pw.nvs.lock.getD 0 = 0
    rw [← hrem]
    unfold remainingS
    omega

theorem passwordStep_persisted (P : Platform) (h : m.Persisted) (op : PasswordOp) :
    (passwordStep P m op).Persisted := by
  cases op with
  | noteFailure peerIp => exact h.noteFailure peerIp
  | noteSuccess peerIp => exact h.noteSuccess peerIp
  | set rand password => exact h.set P rand password
  | clear => exact .clear m
  | get rand => exact h.get P rand
  | tick us =>
    exact ⟨h.fails, h.lock.trans (Nat.add_le_add_right (Nat.le_add_right _ us) _), h.unlocked⟩
  | reboot clock => exact .reboot m clock

theorem passwordRun_persisted (P : Platform) (ops : List PasswordOp) :
    (run (passwordStep P) {} ops).Persisted :=
  history_induction (s := ({} : PasswordModule)) (Q := fun _ m => m.Persisted)
    ⟨rfl, Nat.le_refl 0, fun _ => rfl⟩ (fun _ _ op h => passwordStep_persisted P h op) ops

theorem PasswordModule.Persisted.remainingS_le (h : m.Persisted) (clock : Nat) :
    remainingS m.pw.globalUntilUs m.clock ≤
      remainingS (m.reboot clock).pw.globalUntilUs clock := by
  rw [PasswordModule.reboot, remainingS_passwordNvsLoad]
  exact CyThing.remainingS_le h.lock

theorem nvsStoreLockout_cut {fate : LockoutFate}
    (hcut : fate.openOk = false ∨ fate.lockOk = false) (now : Nat) (d : DevicePassword) :
    ((d.nvsStoreLockout fate now).nvs.fails = d.nvs.fails ∨
        (d.nvsStoreLockout fate now).nvs.fails = some d.globalFails) ∧
      (d.nvsStoreLockout fate now).nvs.lock = d.nvs.lock := by
  unfold DevicePassword.nvsStoreLockout
  cases hopen : fate.openOk with
  | false => exact ⟨.inl rfl, rfl⟩
  | true =>
    have hlock : fate.lockOk = false := by
      rcases hcut with hcut | hcut
      · rw [hopen] at hcut
        cases hcut
      · exact hcut
    cases hfails : fate.failsOk <;> simp [hlock]

theorem PasswordModule.Persisted.cut (h : m.Persisted) {fate : LockoutFate}
    (hcut : fate.openOk = false ∨ fate.lockOk = false) (peerIp : UInt32) (clock : Nat) :
    m.pw.globalFails ≤
        (passwordNvsLoad clock
          (devicePasswordNoteFailure fate m.clock m.pw peerIp).nvs).globalFails ∧
      remainingS m.pw.globalUntilUs m.clock ≤
        remainingS (passwordNvsLoad clock
          (devicePasswordNoteFailure fate m.clock m.pw peerIp).nvs).globalUntilUs clock := by
  rw [passwordNvsLoad_globalFails, remainingS_passwordNvsLoad]
  unfold devicePasswordNoteFailure
  split
  · exact ⟨h.fails.ge, CyThing.remainingS_le h.lock⟩
  · dsimp only
    generalize hd : DevicePassword.mk _ _ _ (bumpFails m.pw.globalFails) _ _ = d
    have hbump : m.pw.globalFails ≤ d.globalFails := by
      rw [← hd]
      dsimp only [bumpFails]
      split <;> omega
    have hnvs : d.nvs = m.pw.nvs := by rw [← hd]
    obtain ⟨hfails, hlock⟩ := nvsStoreLockout_cut hcut m.clock d
    rw [hlock, hnvs]
    refine ⟨?_, CyThing.remainingS_le h.lock⟩
    rcases hfails with hfails | hfails
    · rw [hfails, hnvs]
      exact h.fails.ge
    · rw [hfails]
      exact hbump

end Ops

/-- After any run of proofs, password changes, waits and power cycles, whenever power is
cycled next: the count is the same and at least as much of the lock is left, also if the cut
comes inside a bad proof; and flash has no count and no lock when RAM has none. -/
theorem reboot_keeps_lockout (P : Platform) (ops : List PasswordOp) (clock : Nat) :
    let m := run (passwordStep P) {} ops
    ((m.reboot clock).pw.globalFails = m.pw.globalFails ∧
      remainingS m.pw.globalUntilUs m.clock ≤
        remainingS (m.reboot clock).pw.globalUntilUs clock) ∧
    (∀ peerIp (fate : LockoutFate), fate.openOk = false ∨ fate.lockOk = false →
      let d := passwordNvsLoad clock (devicePasswordNoteFailure fate m.clock m.pw peerIp).nvs
      m.pw.globalFails ≤ d.globalFails ∧
        remainingS m.pw.globalUntilUs m.clock ≤ remainingS d.globalUntilUs clock) ∧
    (m.pw.globalFails = 0 → m.pw.globalUntilUs = 0 →
      m.pw.nvs.fails.getD 0 = 0 ∧ m.pw.nvs.lock.getD 0 = 0) := by
  intro m
  have h : m.Persisted := passwordRun_persisted P ops
  exact ⟨⟨h.fails, h.remainingS_le clock⟩, fun peerIp fate hcut => h.cut hcut peerIp clock,
    fun hf hu => ⟨h.fails.trans hf, h.unlocked hu⟩⟩

def lockedRun : List PasswordOp :=
  .set (ascii "s") (ascii "a password") :: List.replicate 20 (.noteFailure 7) ++ [.tick 10000000]

theorem reboot_keeps_lockout_locked :
    let m := run (passwordStep Sample.platform) {} lockedRun
    remainingS m.pw.globalUntilUs m.clock = 50 ∧ (m.reboot 3).pw.globalFails = 20 ∧
      50 ≤ remainingS (m.reboot 3).pw.globalUntilUs 3 := by
  have h := reboot_keeps_lockout Sample.platform lockedRun 3
  have hleft : remainingS (run (passwordStep Sample.platform) {} lockedRun).pw.globalUntilUs
      (run (passwordStep Sample.platform) {} lockedRun).clock = 50 := by decide +kernel
  refine ⟨hleft, h.1.1.trans (by decide +kernel), ?_⟩
  rw [← hleft]
  exact h.1.2

/-- Power is cut inside an operation. In the twentieth bad proof, RAM counts it and is locked
before flash is written, and the reboot counts nineteen and has no lock. In a password change the
flash is written before RAM, and the reboot counts none where RAM still counted twenty. -/
theorem reboot_inside_operation_forgets :
    (let m := run (passwordStep Sample.platform) {}
        (.set (ascii "s") (ascii "a password") :: List.replicate 19 (.noteFailure 7))
     let d := devicePasswordNoteFailure { openOk := false } m.clock m.pw 7
     d.globalFails = 20 ∧ (passwordNvsLoad 3 d.nvs).globalFails = 19 ∧
      0 < remainingS d.globalUntilUs m.clock ∧
      remainingS (passwordNvsLoad 3 d.nvs).globalUntilUs 3 = 0) ∧
    (let m := run (passwordStep Sample.platform) {} lockedRun
     let d := (devicePasswordSet Sample.platform { commitOk := false } (ascii "s") m.pw
        (ascii "a new password")).2
     d.globalFails = 20 ∧ (passwordNvsLoad 3 d.nvs).globalFails = 0) := by
  decide +kernel

/-! ## The whole device -/

def Event.PasswordStoresOk : Event → Prop
  | .line _ _ env => env.pairFate = {} ∧ env.lockoutFate = {}
  | .reboot _ env => env.pairFate = {}
  | _ => True

def Core.password (c : Core) : PasswordModule := ⟨c.pw, c.clock⟩

theorem Action.passwordOps {P : Platform} {env : Env} {enc : Bool} {sock : Nat} {line : Bytes}
    {c c' : Core} (ha : Action P env enc sock line c c') (hpair : env.pairFate = {})
    (hlockout : env.lockoutFate = {}) :
    ∃ ops, c'.password = run (passwordStep P) c.password ops := by
  cases ha with
  | idle => exact ⟨[], rfl⟩
  | voided hi hm hpw =>
    rcases hpw with rfl | rfl
    · exact ⟨[], rfl⟩
    · exact ⟨[.get env.initRand], rfl⟩
  | pake1 hi hk hlock hA hget hhd =>
    refine ⟨[.get env.initRand], ?_⟩
    simp [Core.password, Core.setSession, Core.setPw, passwordStep, hget]
  | pake3Abort => exact ⟨[], rfl⟩
  | @pake3Bad i =>
    refine ⟨[.noteFailure (c.pool i).peerIp], ?_⟩
    simp [Core.password, Core.setSession, Core.setPw, passwordStep, hlockout]
  | @pake3Ok i =>
    refine ⟨[.noteSuccess (c.pool i).peerIp], ?_⟩
    simp [Core.password, Core.setSession, Core.setPw, passwordStep, hlockout]
  | enroll => exact ⟨[], rfl⟩
  | enrollFail => exact ⟨[], rfl⟩
  | auth1 => exact ⟨[], rfl⟩
  | auth3Bad => exact ⟨[], rfl⟩
  | auth3Ok => exact ⟨[], rfl⟩
  | remove => exact ⟨[], rfl⟩
  | removeFail => exact ⟨[], rfl⟩
  | @pwset i password pw c₁ ok l nvs hi hm ho hset hrun =>
    refine ⟨[.set env.setRand password], ?_⟩
    rw [hpair] at hset
    simp [Core.password, Core.setList, passwordStep, hset, hrun.pw.1, hrun.pw.2, Core.setPw]
  | @pwsetFail password pw hm hset =>
    refine ⟨[.set env.setRand password], ?_⟩
    rw [hpair] at hset
    simp [Core.password, passwordStep, hset, Core.setPw]
  | pwclear =>
    refine ⟨[.clear], ?_⟩
    simp [Core.password, passwordStep, hpair, Core.setPw]
  | reset =>
    refine ⟨[.clear], ?_⟩
    simp [Core.password, passwordStep, hpair]

/-- Every event of the device is a run of the password module. -/
theorem step_passwordOps (P : Platform) (w : World) {e : Event} (he : e.PasswordStoresOk) :
    ∃ ops, (step P w e).core.password = run (passwordStep P) w.core.password ops := by
  have hm := step_move P w e
  generalize (step P w e).core = c at hm
  cases hm with
  | line hl ha => exact ha.passwordOps he.1 he.2
  | tick => exact ⟨[.tick _], rfl⟩
  | reboot => exact ⟨[.reboot 0], rfl⟩
  | @factory env =>
    refine ⟨[.reboot 0, .clear, .reboot 0], ?_⟩
    have hpair : env.pairFate = {} := he
    simp [Core.password, Core.boot, Core.factoryReset, passwordStep, PasswordModule.reboot, hpair]
  | _ => exact ⟨[], rfl⟩

theorem run_passwordOps (P : Platform) (es : List Event) (hok : ∀ e ∈ es, e.PasswordStoresOk) :
    ∃ ops, (run (step P) World.fresh es).core.password = run (passwordStep P) {} ops := by
  induction es using List.reverseRecOn with
  | nil => exact ⟨[], rfl⟩
  | append_singleton es e ih =>
    obtain ⟨ops, hops⟩ := ih fun x hx => hok x (List.mem_append_left _ hx)
    obtain ⟨ops', hops'⟩ := step_passwordOps P (run (step P) World.fresh es)
      (hok e (List.mem_append_right _ (List.mem_singleton_self e)))
    refine ⟨ops ++ ops', ?_⟩
    rw [run_append, run_append, ← hops, ← hops']
    rfl

/-- A device whose password writes succeed restarts with the same count of failures and at
least what was left of the lock. -/
theorem device_reboot_keeps_lockout (P : Platform) (es : List Event)
    (hok : ∀ e ∈ es, e.PasswordStoresOk) (env : Env) :
    let w := run (step P) World.fresh es
    (step P w (.reboot false env)).pw.globalFails = w.pw.globalFails ∧
      remainingS w.pw.globalUntilUs w.clock ≤
        remainingS (step P w (.reboot false env)).pw.globalUntilUs 0 := by
  intro w
  obtain ⟨ops, hops⟩ := run_passwordOps P es hok
  have h : w.core.password.Persisted := hops ▸ passwordRun_persisted P ops
  exact ⟨h.fails, h.remainingS_le 0⟩

/-! ## Changes that fail -/

def PasswordNvs.pair (nvs : PasswordNvs) : Option (Bytes × Bytes) := (passwordNvsLoad 0 nvs).pair

theorem PasswordNvs.pair_eq_some {nvs : PasswordNvs} {salt ver : Bytes} :
    nvs.pair = some (salt, ver) ↔ nvs.salt = some salt ∧ nvs.ver = some ver := by
  unfold PasswordNvs.pair passwordNvsLoad
  rcases nvs.salt with _ | s <;> rcases nvs.ver with _ | v <;> simp

/-- `device_password_set` comes to write this pair: the password is accepted, and `nvs_open` and
the write of the salt succeed. -/
structure WritesPair (P : Platform) (fate : PairFate) (rand password salt ver : Bytes) : Prop where
  length_password : devicePwMinLen ≤ password.length ∧ password.length ≤ devicePwMaxLen
  generated : P.srpGenSaltVerifier devicePwSrpIdentity password rand = some (salt, ver)
  length_ver : 0 < ver.length ∧ ver.length ≤ devicePwVerifierMax
  openOk : fate.openOk = true
  saltOk : fate.saltOk = true

structure HoldsPassword (P : Platform) (rand : Bytes) (old : Bytes × Bytes) (d : DevicePassword) :
    Prop where
  isSet : devicePasswordIsSet d = true
  get : (devicePasswordGet P rand d).1 = some old
  flash : d.nvs.pair = some old

section Failed

variable {P : Platform} {fate : PairFate} {rand rand' password : Bytes} {d : DevicePassword}
  {old : Bytes × Bytes} {salt ver : Bytes}

theorem holdsPassword_of_pair (hram : d.pair = some old) (nvs : PasswordNvs) :
    HoldsPassword P rand' old { d with nvs } ↔ nvs.pair = some old := by
  have hset : devicePasswordIsSet { d with nvs } = true := by
    rw [devicePasswordIsSet, hram]
    rfl
  refine ⟨HoldsPassword.flash, fun hflash => ⟨hset, ?_, hflash⟩⟩
  rw [devicePasswordGet, if_pos hset]
  exact hram

theorem devicePasswordSet_of_unwritten
    (h : ∀ salt ver, ¬ WritesPair P fate rand password salt ver) :
    devicePasswordSet P fate rand d password = (false, d) := by
  unfold devicePasswordSet
  split
  · rfl
  next hlength =>
  split
  · rfl
  next salt ver hgen =>
  split
  · rfl
  next hver =>
  have hstop : fate.openOk = false ∨ fate.saltOk = false := by
    by_contra hgo
    rw [not_or, Bool.not_eq_false, Bool.not_eq_false] at hgo
    exact h salt ver ⟨by omega, hgen, by omega, hgo.1, hgo.2⟩
  have hstore : nvsStorePair fate (some (salt, ver)) d.nvs = (false, d.nvs) := by
    unfold nvsStorePair
    rcases hstop with hopen | hsalt
    · simp [hopen]
    · simp [hsalt]
  simp only [hstore, Bool.false_eq_true, if_false]

theorem devicePasswordSet_of_written (h : WritesPair P fate rand password salt ver)
    (herr : (devicePasswordSet P fate rand d password).1 = false) :
    ∃ nvs, (devicePasswordSet P fate rand d password).2 = { d with nvs } ∧
      nvs.salt = some salt ∧ nvs.ver = if fate.verOk then some ver else d.nvs.ver := by
  obtain ⟨hlength, hgen, hver, hopen, hsalt⟩ := h
  have hset : devicePasswordSet P fate rand d password =
      let stored := nvsStorePair fate (some (salt, ver)) d.nvs
      if stored.1 then
        (true, { d with
          pair := some (salt, ver), globalFails := 0, globalUntilUs := 0,
          ip := fun _ => {}, nvs := stored.2 })
      else (false, { d with nvs := stored.2 }) := by
    rw [devicePasswordSet, if_neg (by omega), hgen]
    simp only
    rw [if_neg (by omega)]
  rw [hset] at herr ⊢
  simp only at herr ⊢
  split at herr
  · cases herr
  next hstored =>
  rw [if_neg hstored]
  refine ⟨_, rfl, ?_⟩
  simp only [nvsStorePair, hopen, hsalt, Bool.not_true, Bool.false_eq_true, if_false]
  cases fate.verOk with
  | false => exact ⟨rfl, rfl⟩
  | true =>
    simp only [Bool.not_true, Bool.false_eq_true, if_false, if_true, nvsStorePairTail]
    split_ifs <;> exact ⟨rfl, rfl⟩

theorem devicePasswordSet_failed (herr : (devicePasswordSet P fate rand d password).1 = false) :
    ∃ nvs, (devicePasswordSet P fate rand d password).2 = { d with nvs } := by
  by_cases hwrites : ∃ salt ver, WritesPair P fate rand password salt ver
  · obtain ⟨salt, ver, hwrites⟩ := hwrites
    obtain ⟨nvs, hd, -⟩ := devicePasswordSet_of_written hwrites herr
    exact ⟨nvs, hd⟩
  · rw [devicePasswordSet_of_unwritten fun salt ver h => hwrites ⟨salt, ver, h⟩]
    exact ⟨d.nvs, rfl⟩

end Failed

/-- A `device_password_set` that returns an error keeps the old password if and only if it never
came to write, or wrote nothing but what was there; a `device_password_clear` that does never
keeps it. -/
theorem failed_change_keeps_password_iff (P : Platform) (fate : PairFate)
    (rand rand' password : Bytes) (d : DevicePassword) (old : Bytes × Bytes)
    (hram : d.pair = some old) (hflash : d.nvs.pair = some old) :
    ((devicePasswordSet P fate rand d password).1 = false →
      (HoldsPassword P rand' old (devicePasswordSet P fate rand d password).2 ↔
        ∀ salt ver, WritesPair P fate rand password salt ver →
          salt = old.1 ∧ (fate.verOk = true → ver = old.2))) ∧
    ((devicePasswordClear fate d).1 = false →
      ¬ HoldsPassword P rand' old (devicePasswordClear fate d).2) := by
  refine ⟨fun herr => ?_, fun _ hholds => Bool.false_ne_true hholds.isSet⟩
  obtain ⟨hsalt₀, hver₀⟩ := PasswordNvs.pair_eq_some.mp hflash
  by_cases hwrites : ∃ salt ver, WritesPair P fate rand password salt ver
  · obtain ⟨salt, ver, hwrites⟩ := hwrites
    obtain ⟨nvs, hd, hsalt, hver⟩ := devicePasswordSet_of_written hwrites herr
    have hunique : (∀ salt' ver', WritesPair P fate rand password salt' ver' →
        salt' = old.1 ∧ (fate.verOk = true → ver' = old.2)) ↔
        salt = old.1 ∧ (fate.verOk = true → ver = old.2) := by
      refine ⟨fun h => h salt ver hwrites, fun h salt' ver' hwrites' => ?_⟩
      cases hwrites.generated.symm.trans hwrites'.generated
      exact h
    rw [hd, holdsPassword_of_pair hram, hunique, ← Prod.mk.eta (p := old),
      PasswordNvs.pair_eq_some, hsalt, hver, hver₀]
    cases fate.verOk <;> simp
  · have hnone : ∀ salt ver, ¬ WritesPair P fate rand password salt ver :=
      fun salt ver h => hwrites ⟨salt, ver, h⟩
    rw [devicePasswordSet_of_unwritten hnone]
    exact iff_of_true ((holdsPassword_of_pair hram d.nvs).mpr hflash)
      fun salt ver h => absurd h (hnone salt ver)

namespace Sample

def oldPassword : DevicePassword :=
  { pair := some (ascii "old salt", ascii "old verifier")
    nvs := { salt := some (ascii "old salt"), ver := some (ascii "old verifier") } }

end Sample

theorem failed_change_keeps_password_sample :
    HoldsPassword Sample.platform [] (ascii "old salt", ascii "old verifier")
        (devicePasswordSet Sample.platform { saltOk := false } (ascii "s") Sample.oldPassword
          (ascii "new password")).2 ∧
      ¬ HoldsPassword Sample.platform [] (ascii "old salt", ascii "old verifier")
        (devicePasswordClear { openOk := false } Sample.oldPassword).2 := by
  have hset := failed_change_keeps_password_iff Sample.platform { saltOk := false } (ascii "s") []
    (ascii "new password") Sample.oldPassword (ascii "old salt", ascii "old verifier") rfl rfl
  have hclear := failed_change_keeps_password_iff Sample.platform { openOk := false } [] [] []
    Sample.oldPassword (ascii "old salt", ascii "old verifier") rfl rfl
  exact ⟨(hset.1 (by decide +kernel)).mpr fun _ _ h => absurd h.saltOk Bool.false_ne_true,
    hclear.2 rfl⟩

/-- Three changes that return an error. When the verifier cannot be written, the next boot
loads the new salt with the old verifier. When the commit fails, it loads the new password,
which RAM does not have. And a clear that fails has cleared RAM. -/
theorem failed_change_loses_password :
    (let r := devicePasswordSet Sample.platform { verOk := false } (ascii "s") Sample.oldPassword
        (ascii "new password")
     r.1 = false ∧ r.2.nvs.pair =
        some ((Block.fit 16 (ascii "s")).1, ascii "old verifier")) ∧
    (let r := devicePasswordSet Sample.platform { commitOk := false } (ascii "s")
        Sample.oldPassword (ascii "new password")
     r.1 = false ∧ r.2.pair = some (ascii "old salt", ascii "old verifier") ∧
        r.2.nvs.pair = some ((Block.fit 16 (ascii "s")).1, ascii "new password")) ∧
    (let r := devicePasswordClear { failsOk := false } Sample.oldPassword
     r.1 = false ∧ devicePasswordIsSet r.2 = false ∧ r.2.nvs.pair = none) := by
  decide +kernel

end CyThing
