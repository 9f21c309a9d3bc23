import CyThing.Action
import CyThing.Lib.Trace

/-! The receive tasks side by side. A line is handled by the task of its socket, its handler
makes one call after the other that takes a mutex, and between two calls any other task may
run. What a task is about to do is the call it makes next, with what it has in hand. -/

namespace CyThing
open CLib Trace

/-! ## Tasks -/

abbrev Account : Type := { sub : Bytes // sub ≠ [] ∧ sub.length ≤ pairedSubMax }

inductive Job
  | revoke (sub : Account)
  | unpair
  | pwset (password : Bytes)
  | enroll (sub : Account) (email : Bytes)
  deriving DecidableEq

inductive Point
  | idle
  | revokeFind (sub : Account)
  | revokeGet (sub : Account) (index : Nat)
  | revokeRemove (sub : Account) (index : Nat) (role : PairedRole)
  | revokeFix (sub : Account) (index : Nat) (role : PairedRole)
  | unpairGet
  | unpairRead (sub : Bytes)
  | unpairRemove (sub : Bytes) (index : Nat)
  | unpairFix (sub : Bytes) (index : Nat)
  | pwsetStore (password : Bytes)
  | pwsetCount (row k : Nat)
  | pwsetGet (row k : Nat)
  | pwsetRemove (row k : Nat) (sub : Bytes)
  | pwsetFix (row k : Nat) (sub : Bytes)
  | pwsetRotate
  | enrollAdd (sub : Account) (email : Bytes)
  | enrollAssign (sub : Account) (e : Enrolled)
  deriving DecidableEq

def Job.first : Job → Point
  | .revoke sub => .revokeFind sub
  | .unpair => .unpairGet
  | .pwset password => .pwsetStore password
  | .enroll sub email => .enrollAdd sub email

structure Task where
  sock : Nat := 0
  env : Env := {}
  point : Point := .idle

def advance (P : Platform) (i : Slot) (t : Task) (w : World) : World × Point :=
  match t.point with
  | .idle => (w, .idle)
  | .revokeFind sub =>
    match pairedListFind w.list sub with
    | none => (sendErr P w t.sock (ascii "UNKNOWN"), .idle)
    | some index => (w, .revokeGet sub index)
  | .revokeGet sub index =>
    match pairedListGet w.list (some index) with
    | none => (sendErr P w t.sock (ascii "UNKNOWN"), .idle)
    | some e =>
      if (w.pool i).pairedIndex = some index then (sendErr P w t.sock (ascii "OWNER"), .idle)
      else (w, .revokeRemove sub index e.role)
  | .revokeRemove sub index role =>
    let (ok, list, nvs) := pairedListRemove (t.env.listFate 0) w.list w.nvsList index
    let w := w.setList list nvs
    if !ok then (sendErr P w t.sock (ascii "STORE"), .idle) else (w, .revokeFix sub index role)
  | .revokeFix sub index role =>
    let w := w.onPairedRemoved index
    let w := w.pushEvent t.env (ascii "unpaired") sub (roleText role)
    (securitySendLine P w t.sock (ascii "ACK"), .idle)
  | .unpairGet =>
    match pairedListGet w.list (w.pool i).pairedIndex with
    | none => (sendErr P w t.sock (ascii "UNKNOWN"), .idle)
    | some e =>
      if e.role = .owner then (sendErr P w t.sock (ascii "OWNER"), .idle)
      else (securitySendLine P w t.sock (ascii "ACK"), .unpairRead e.userSub)
  | .unpairRead sub =>
    match (w.pool i).pairedIndex with
    | none => (w, .idle)
    | some index => (w, .unpairRemove sub index)
  | .unpairRemove sub index =>
    let (ok, list, nvs) := pairedListRemove (t.env.listFate 0) w.list w.nvsList index
    (w.setList list nvs, if !ok then .idle else .unpairFix sub index)
  | .unpairFix sub index =>
    ((w.onPairedRemoved index).pushEvent t.env (ascii "unpaired") sub (ascii "user"), .idle)
  | .pwsetStore password =>
    let (ok, pw) := devicePasswordSet P t.env.pairFate t.env.setRand w.pw password
    let w := w.setPw pw
    if !ok then (sendErr P w t.sock (ascii "STORE"), .idle) else (w, .pwsetCount 0 0)
  | .pwsetCount row k => (w, if row < w.list.count then .pwsetGet row k else .pwsetRotate)
  | .pwsetGet row k =>
    match pairedListGet w.list (some row) with
    | none => (w, .pwsetRotate)
    | some e =>
      (w, if e.role ≠ .owner then .pwsetRemove row k e.userSub else .pwsetCount (row + 1) k)
  | .pwsetRemove row k sub =>
    let (ok, list, nvs) := pairedListRemove (t.env.listFate k) w.list w.nvsList row
    (w.setList list nvs, if ok then .pwsetFix row k sub else .pwsetCount (row + 1) (k + 1))
  | .pwsetFix row k sub =>
    ((w.onPairedRemoved row).pushEvent t.env (ascii "unpaired") sub (ascii "user"),
      .pwsetCount row (k + 1))
  | .pwsetRotate =>
    let (_, list, nvs) := pairedListRotateOwnerKey t.env.rotateFate w.list w.nvsList
      (.fit pairedKeyLen t.env.ownerKey)
    (securitySendLine P (w.setList list nvs) t.sock (ascii "ACK"), .idle)
  | .enrollAdd sub email =>
    let r := pairedListAdd (t.env.listFate 0) w.list w.nvsList sub email
      (.fit pairedKeyLen t.env.kAccount) (unixOrZero t.env.unix)
    let w := w.setList r.list r.nvs
    match r.enrolled with
    | none => (sendErr P w t.sock (ascii "FULL"), .idle)
    | some e => (w, .enrollAssign sub e)
  | .enrollAssign sub e =>
    let w := w.setSession i
      { w.pool i with pairedIndex := some e.index, role := sessionRole e.role }
    let w := securitySendLine P w t.sock
      (ascii "ENROLLED:" ++ P.base64Encode e.key.1 ++ ascii "," ++ roleText e.role)
    (w.pushEvent t.env (ascii "paired") sub (roleText e.role), .idle)

/-! ## A task on its own -/

section Alone

variable (P : Platform) (i : Slot)

def finish : Nat → Task → World → World × Point
  | 0, t, w => (w, t.point)
  | n + 1, t, w =>
    finish n { t with point := (advance P i t w).2 } (advance P i t w).1

variable {P i} {sock : Nat} {env : Env}

theorem finish_add (m n : Nat) (t : Task) (w : World) :
    finish P i (m + n) t w =
      finish P i n { t with point := (finish P i m t w).2 } (finish P i m t w).1 := by
  induction m generalizing t w with
  | zero => rw [Nat.zero_add]; rfl
  | succ m ih => rw [Nat.succ_add, finish, ih]; rfl

theorem revoke_alone {sub : Account} {line : Bytes} (w : World)
    (hp : parseRevoke P line = some sub.1) :
    finish P i 4 ⟨sock, env, .revokeFind sub⟩ w = (handleRevoke P env w i sock line, .idle) := by
  simp only [handleRevoke, hp]
  rcases hf : pairedListFind w.list sub with _ | r
  · simp only [finish, advance, hf]
  rcases hg : pairedListGet w.list (some r) with _ | e
  · simp only [finish, advance, hf, hg]
  by_cases hown : (w.pool i).pairedIndex = some r
  · simp only [finish, advance, hf, hg, if_pos hown]
  rcases hr : pairedListRemove (env.listFate 0) w.list w.nvsList r with ⟨ok, l, nvs⟩
  cases ok with
  | false => simp only [finish, advance, hf, hg, if_neg hown, hr, Bool.not_false, if_true]
  | true =>
    simp only [finish, advance, hf, hg, if_neg hown, hr, Bool.not_true, Bool.false_eq_true,
      if_false]

theorem unpair_alone (w : World) :
    finish P i 4 ⟨sock, env, .unpairGet⟩ w = (handleUnpair P env w i sock, .idle) := by
  simp only [handleUnpair]
  rcases hg : pairedListGet w.list (w.pool i).pairedIndex with _ | e
  · simp only [finish, advance, hg]
  by_cases hrole : e.role = .owner
  · simp only [finish, advance, hg, if_pos hrole]
  rcases hx : ((securitySendLine P w sock (ascii "ACK")).pool i).pairedIndex with _ | r
  · simp only [finish, advance, hg, if_neg hrole, hx]
  rcases hr : pairedListRemove (env.listFate 0) (securitySendLine P w sock (ascii "ACK")).list
    (securitySendLine P w sock (ascii "ACK")).nvsList r with ⟨ok, l, nvs⟩
  cases ok with
  | false => simp only [finish, advance, hg, if_neg hrole, hx, hr, Bool.not_false, if_true]
  | true =>
    simp only [finish, advance, hg, if_neg hrole, hx, hr, Bool.not_true, Bool.false_eq_true,
      if_false]

theorem enroll_alone {sub : Account} {email line : Bytes} (w : World)
    (hs : (w.pool i).state = .pakeOk) (hx : (w.pool i).rxEncrypted = true)
    (hp : parseEnroll P line = some (sub.1, email)) :
    finish P i 2 ⟨sock, env, .enrollAdd sub email⟩ w =
      (handleEnroll P env w i sock line, .idle) := by
  have hgate : ¬((w.pool i).state ≠ .pakeOk ∨ (w.pool i).rxEncrypted = false) := by
    rw [hs, hx]
    decide
  simp only [handleEnroll, if_neg hgate, hp]
  rcases he : (pairedListAdd (env.listFate 0) w.list w.nvsList sub.1 email
    (.fit pairedKeyLen env.kAccount) (unixOrZero env.unix)).enrolled with _ | e
  · simp only [finish, advance, he]
  · simp only [finish, advance, he]
    rfl

theorem revokeFrom_alone (n row k : Nat) (w : World) (hn : w.list.count ≤ row + n) :
    ∃ m, finish P i m ⟨sock, env, .pwsetCount row k⟩ w =
      (revokeFrom env n row k w, .pwsetRotate) := by
  induction n generalizing row k w with
  | zero =>
    refine ⟨1, ?_⟩
    simp only [finish, advance, revokeFrom, if_neg (show ¬row < w.list.count by omega)]
  | succ n ih =>
    by_cases hrow : row < w.list.count
    swap
    · refine ⟨1, ?_⟩
      simp only [finish, advance, revokeFrom, if_neg hrow]
    have hget : pairedListGet w.list (some row) = some (w.list.entries row) := if_pos hrow
    by_cases hrole : (w.list.entries row).role ≠ .owner
    · rcases hr : pairedListRemove (env.listFate k) w.list w.nvsList row with ⟨ok, l, nvs⟩
      have hcount : l.count = w.list.count - 1 := by
        rw [pairedListRemove, if_neg (by omega)] at hr
        exact congrArg PairedBlob.count (congrArg (fun x => x.2.1) hr).symm
      cases ok with
      | true =>
        obtain ⟨m, hm⟩ := ih row (k + 1)
          (((w.setList l nvs).onPairedRemoved row).pushEvent env (ascii "unpaired")
            (w.list.entries row).userSub (ascii "user"))
          (show l.count ≤ row + n by omega)
        refine ⟨4 + m, ?_⟩
        rw [finish_add]
        simp only [finish, advance, revokeFrom, if_pos hrow, hget, if_pos hrole, hr, if_true, hm]
      | false =>
        obtain ⟨m, hm⟩ := ih (row + 1) (k + 1) (w.setList l nvs)
          (show l.count ≤ row + 1 + n by omega)
        refine ⟨3 + m, ?_⟩
        rw [finish_add]
        simp only [finish, advance, revokeFrom, if_pos hrow, hget, if_pos hrole, hr,
          Bool.false_eq_true, if_false, hm]
    · obtain ⟨m, hm⟩ := ih (row + 1) k w (by omega)
      refine ⟨2 + m, ?_⟩
      rw [finish_add]
      simp only [finish, advance, revokeFrom, if_pos hrow, hget, if_neg hrole, hm]

theorem pwset_alone {password line : Bytes} (w : World)
    (hp : parsePwset P line = some password) :
    ∃ n, finish P i n ⟨sock, env, .pwsetStore password⟩ w =
      (handlePwset P env w sock line, .idle) := by
  simp only [handlePwset, hp]
  rcases hset : devicePasswordSet P env.pairFate env.setRand w.pw password with ⟨ok, pw⟩
  cases ok with
  | false => exact ⟨1, by simp only [finish, advance, hset, Bool.not_false, if_true]⟩
  | true =>
    obtain ⟨m, hm⟩ : ∃ m, finish P i m ⟨sock, env, .pwsetCount 0 0⟩ (w.setPw pw) =
        (revokeFrom env (w.setPw pw).list.count 0 0 (w.setPw pw), .pwsetRotate) :=
      revokeFrom_alone _ _ _ _ (by omega)
    refine ⟨1 + (m + 1), ?_⟩
    rw [finish_add, finish_add]
    simp only [finish, advance, hset, Bool.not_true, Bool.false_eq_true, if_false, hm,
      revokeAllNonOwner]

end Alone

/-! ## All tasks -/

structure Config where
  world : World
  task : Slot → Task := fun _ => {}

inductive Sched
  | line (i : Slot) (env : Env) (job : Job)
  | call (i : Slot)

def LocalSession.mayStart (s : LocalSession) : Job → Bool
  | .revoke _ => s.mayRun .revoke
  | .unpair => s.mayRun .unpair
  | .pwset _ => s.mayRun .pwset
  | .enroll _ _ => s.state == .pakeOk && s.rxEncrypted

def Job.refusal : Job → Bytes
  | .enroll _ _ => ascii "SEQ"
  | _ => ascii "AUTH"

def Config.setTask (cfg : Config) (i : Slot) (t : Task) : Config :=
  { cfg with task := Function.update cfg.task i t }

def interleave (P : Platform) (cfg : Config) : Sched → Config
  | .line i env job =>
    match (cfg.world.pool i).sock, (cfg.task i).point with
    | some sock, .idle =>
      -- the frame has been opened
      let w := cfg.world.setSession i { cfg.world.pool i with rxEncrypted := true }
      if (w.pool i).mayStart job then
        { cfg with world := w }.setTask i ⟨sock, env, job.first⟩
      else { cfg with world := sendErr P w sock job.refusal }
    | _, _ => cfg
  | .call i =>
    let t := cfg.task i
    let (w, p) := advance P i t cfg.world
    { cfg with world := w }.setTask i { t with point := p }

theorem run_calls (P : Platform) (i : Slot) (n : Nat) (cfg : Config) :
    run (interleave P) cfg (List.replicate n (.call i)) =
      { cfg with world := (finish P i n (cfg.task i) cfg.world).1 }.setTask i
        { cfg.task i with point := (finish P i n (cfg.task i) cfg.world).2 } := by
  induction n generalizing cfg with
  | zero => simp [finish, Config.setTask]
  | succ n ih =>
    rw [List.replicate_succ, run_cons, ih]
    simp only [interleave, Config.setTask, Function.update_self, finish, Function.update_idem]

def Job.ParsedFrom (P : Platform) (line : Bytes) : Job → Prop
  | .revoke sub => parseRevoke P line = some sub.1
  | .unpair => True
  | .pwset password => parsePwset P line = some password
  | .enroll sub email => parseEnroll P line = some (sub.1, email)

def Job.handle (P : Platform) (env : Env) (w : World) (i : Slot) (sock : Nat) (line : Bytes) :
    Job → World
  | .revoke _ => handleRevoke P env w i sock line
  | .unpair => handleUnpair P env w i sock
  | .pwset _ => handlePwset P env w sock line
  | .enroll _ _ => handleEnroll P env w i sock line

/-- A task that no other interrupts does what its handler does. -/
theorem job_alone {P : Platform} {i : Slot} {cfg : Config} {sock : Nat} {env : Env} {job : Job}
    {line : Bytes} (ht : cfg.task i = ⟨sock, env, job.first⟩)
    (hmay : (cfg.world.pool i).mayStart job = true) (hp : job.ParsedFrom P line) :
    ∃ n, run (interleave P) cfg (List.replicate n (.call i)) =
      { cfg with world := job.handle P env cfg.world i sock line }.setTask i
        ⟨sock, env, .idle⟩ := by
  have hfinish : ∃ n, finish P i n ⟨sock, env, job.first⟩ cfg.world =
      (job.handle P env cfg.world i sock line, .idle) := by
    cases job with
    | revoke sub => exact ⟨4, revoke_alone _ hp⟩
    | unpair => exact ⟨4, unpair_alone _⟩
    | pwset password => exact pwset_alone _ hp
    | enroll sub email =>
      simp only [LocalSession.mayStart, Bool.and_eq_true, beq_iff_eq] at hmay
      exact ⟨2, enroll_alone _ hmay.1 hmay.2 hp⟩
  obtain ⟨n, hn⟩ := hfinish
  refine ⟨n, ?_⟩
  rw [run_calls, ht, hn]

end CyThing
