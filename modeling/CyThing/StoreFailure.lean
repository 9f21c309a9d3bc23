import CyThing.Moves
import CyThing.Sample

/-! What a failed store of the paired list leaves behind. Enrolment and the rotation of the
owner's key undo what they did in RAM; a removal does not, so that the row is gone while the
sessions keep their indices. -/

namespace CyThing
open CLib Trace

inductive ListMutation
  | add (sub email : Bytes) (key : Block pairedKeyLen) (pairedAt : Nat)
  | remove (index : Nat)
  | rotateOwnerKey (key : Block pairedKeyLen)
  | enroll (i : Slot) (sock : Nat) (line : Bytes)
  | revoke (i : Slot) (sock : Nat) (line : Bytes)
  | unpair (i : Slot) (sock : Nat)

def ListMutation.perform (P : Platform) (env : Env) (w : World) : ListMutation → World
  | .add sub email key pairedAt =>
    let r := pairedListAdd (env.listFate 0) w.list w.nvsList sub email key pairedAt
    w.setList r.list r.nvs
  | .remove index =>
    let (_, list, nvs) := pairedListRemove (env.listFate 0) w.list w.nvsList index
    w.setList list nvs
  | .rotateOwnerKey key =>
    let (_, list, nvs) := pairedListRotateOwnerKey env.rotateFate w.list w.nvsList key
    w.setList list nvs
  | .enroll i sock line => handleEnroll P env w i sock line
  | .revoke i sock line => handleRevoke P env w i sock line
  | .unpair i sock => handleUnpair P env w i sock

def ListMutation.dropsRow (P : Platform) (w : World) : ListMutation → Bool
  | .remove index => decide (index < w.list.count)
  | .revoke i _ line =>
    match (parseRevoke P line).bind (pairedListFind w.list) with
    | some r => decide ((w.pool i).pairedIndex ≠ some r)
    | none => false
  | .unpair i _ =>
    match pairedListGet w.list (w.pool i).pairedIndex with
    | some e => decide (e.role ≠ .owner)
    | none => false
  | _ => false

def Env.StoresFail (env : Env) : Prop := env.listFate 0 ≠ .ok ∧ env.rotateFate ≠ .ok

structure SameRam (l l' : PairedBlob) : Prop where
  ownerSub : l'.ownerSub = l.ownerSub
  count : l'.count = l.count
  entries : ∀ r < l.count, l'.entries r = l.entries r

/-- Nothing has changed: the list in RAM is the same, so is what each session holds and with
it the account its index denotes, and all a client was answered is an error. -/
structure Unharmed (P : Platform) (w w' : World) : Prop where
  ram : SameRam w.list w'.list
  sessions : ∀ j, (w'.pool j).state = (w.pool j).state ∧ (w'.pool j).key = (w.pool j).key ∧
    (w'.pool j).pairedIndex = (w.pool j).pairedIndex
  answer : w'.out = w.out ∨
    ∃ (x : World) (sock : Nat) (code : Bytes), x.out = w.out ∧ w' = sendErr P x sock code

section Failure

variable {P : Platform} {env : Env} {w : World} {i : Slot} {sock : Nat} {line : Bytes}
  {fate : NvsFate} {l l' : PairedBlob} {nvs : Option StoredList}

theorem SameRam.refl (l : PairedBlob) : SameRam l l := ⟨rfl, rfl, fun _ _ => rfl⟩

theorem nvsStore_fails (h : fate ≠ .ok) : (nvsStore fate l nvs).1 = false := by
  cases fate with
  | ok => exact absurd rfl h
  | openFails => rfl
  | writeFails => rfl
  | commitFails => rfl

theorem pairedListAdd_fails (h : fate ≠ .ok) (l : PairedBlob) (nvs : Option StoredList)
    (sub email : Bytes) (key : Block pairedKeyLen) (pairedAt : Nat) :
    (pairedListAdd fate l nvs sub email key pairedAt).enrolled = none ∧
      SameRam l (pairedListAdd fate l nvs sub email key pairedAt).list := by
  have hundo := ownerAfter_undo l sub
  simp only [ownerAfter] at hundo
  simp only [pairedListAdd]
  by_cases hsub : sub = []
  · rw [if_pos hsub]
    exact ⟨rfl, SameRam.refl l⟩
  rw [if_neg hsub]
  rcases findLocked l sub with _ | r
  · by_cases hfull : pairedListMax ≤ l.count
    · simp only [if_pos hfull]
      exact ⟨trivial, hundo, rfl, fun _ _ => rfl⟩
    · simp only [if_neg hfull, nvsStore_fails h, Bool.false_eq_true, if_false]
      refine ⟨trivial, hundo, Nat.add_sub_cancel _ _, fun r hr => ?_⟩
      simp only [Function.update_of_ne (Nat.ne_of_lt hr)]
  · simp only [nvsStore_fails h, Bool.false_eq_true, if_false]
    refine ⟨trivial, hundo, rfl, fun k _ => ?_⟩
    simp only [Function.update_idem, Function.update_eq_self]

theorem pairedListRotateOwnerKey_fails (h : fate ≠ .ok) (nvs : Option StoredList)
    (key : Block pairedKeyLen) : (pairedListRotateOwnerKey fate l nvs key).2.1 = l := by
  simp only [pairedListRotateOwnerKey]
  rcases ownerRow l with _ | r
  · rfl
  · simp only [nvsStore_fails h, Bool.false_eq_true, if_false, Function.update_eq_self]

theorem Unharmed.of_ram {nvs : Option StoredList} (h : SameRam w.list l) :
    Unharmed P w (w.setList l nvs) :=
  ⟨h, fun _ => ⟨rfl, rfl, rfl⟩, Or.inl rfl⟩

theorem Unharmed.err {code : Bytes} (h : SameRam w.list l) :
    Unharmed P w (sendErr P (w.setList l nvs) sock code) := by
  have hcore := core_sendErr P (w.setList l nvs) sock code
  refine ⟨?_, fun j => ?_, Or.inr ⟨w.setList l nvs, sock, code, rfl, rfl⟩⟩ <;>
    generalize sendErr P (w.setList l nvs) sock code = x at hcore
  · have hlist : x.list = l := congrArg Core.list hcore
    rw [hlist]
    exact h
  · have hpool : (x.pool j).unframed = (w.pool j).unframed :=
      congrFun (congrArg Core.pool hcore) j
    have hstate := congrArg LocalSession.state hpool
    have hkey := congrArg LocalSession.key hpool
    have hindex := congrArg LocalSession.pairedIndex hpool
    exact ⟨hstate, hkey, hindex⟩

theorem Unharmed.refused {code : Bytes} : Unharmed P w (sendErr P w sock code) := by
  have h : Unharmed P w (sendErr P (w.setList w.list w.nvsList) sock code) :=
    .err (SameRam.refl w.list)
  exact h

theorem handleEnroll_unharmed (h : env.listFate 0 ≠ .ok) :
    Unharmed P w (handleEnroll P env w i sock line) := by
  simp only [handleEnroll]
  by_cases hseq : (w.pool i).state ≠ .pakeOk ∨ (w.pool i).rxEncrypted = false
  · rw [if_pos hseq]
    exact Unharmed.refused
  rw [if_neg hseq]
  rcases parseEnroll P line with _ | ⟨sub, email⟩
  · exact Unharmed.refused
  · obtain ⟨hnone, hram⟩ := pairedListAdd_fails h w.list w.nvsList sub email
      (.fit pairedKeyLen env.kAccount) (unixOrZero env.unix)
    simp only [hnone]
    exact Unharmed.err hram

/-! ## Removals -/

theorem not_unharmed_of_dropRow {w' : World} {r : Nat} (hr : r < w.list.count)
    (h : w'.list.count = (w.list.dropRow r).count) : ¬Unharmed P w w' := by
  intro hu
  have hcount := hu.ram.count
  rw [h, dropRow_count] at hcount
  omega

theorem handleRevoke_unharmed_iff (h : env.listFate 0 ≠ .ok) :
    Unharmed P w (handleRevoke P env w i sock line) ↔
      (ListMutation.revoke i sock line).dropsRow P w = false := by
  simp only [handleRevoke, ListMutation.dropsRow]
  rcases parseRevoke P line with _ | sub
  · exact ⟨fun _ => rfl, fun _ => Unharmed.refused⟩
  simp only [Option.bind_some]
  rcases hf : pairedListFind w.list sub with _ | r
  · exact ⟨fun _ => rfl, fun _ => Unharmed.refused⟩
  have hr : r < w.list.count := findLocked_lt hf
  simp only [pairedListGet, if_pos hr]
  by_cases hown : (w.pool i).pairedIndex = some r
  · rw [if_pos hown]
    exact ⟨fun _ => by simp [hown], fun _ => Unharmed.refused⟩
  rw [if_neg hown]
  simp only [pairedListRemove_of_lt hr, nvsStore_fails h, Bool.not_false, if_true]
  constructor
  · intro hu
    refine absurd hu (not_unharmed_of_dropRow hr ?_)
    have hcore := core_sendErr P (w.setList (w.list.dropRow r)
      (nvsStore (env.listFate 0) (w.list.dropRow r) w.nvsList).2) sock (ascii "STORE")
    exact congrArg (fun c => c.list.count) hcore
  · intro hno
    simp [hown] at hno

theorem handleUnpair_unharmed_iff (h : env.listFate 0 ≠ .ok) :
    Unharmed P w (handleUnpair P env w i sock) ↔
      (ListMutation.unpair i sock).dropsRow P w = false := by
  simp only [ListMutation.dropsRow]
  rcases hget : pairedListGet w.list (w.pool i).pairedIndex with _ | e
  · simp only [handleUnpair, hget]
    exact ⟨fun _ => trivial, fun _ => Unharmed.refused⟩
  by_cases hrole : e.role = .owner
  · simp only [handleUnpair, hget, if_pos hrole]
    exact ⟨fun _ => by simp [hrole], fun _ => Unharmed.refused⟩
  obtain ⟨r, hidx, hr⟩ : ∃ r, (w.pool i).pairedIndex = some r ∧ r < w.list.count := by
    rcases hidx : (w.pool i).pairedIndex with _ | r
    · rw [hidx] at hget
      cases hget
    · rw [hidx, pairedListGet] at hget
      split_ifs at hget with hr
      exact ⟨r, rfl, hr⟩
  constructor
  · intro hu
    refine absurd hu (not_unharmed_of_dropRow hr ?_)
    have hcore := core_securitySendLine P w sock (ascii "ACK")
    have hidx' : ((securitySendLine P w sock (ascii "ACK")).core.pool i).pairedIndex = some r := by
      rw [hcore]
      exact hidx
    have hlist : (securitySendLine P w sock (ascii "ACK")).core.list = w.core.list := by
      rw [hcore]
    change ((securitySendLine P w sock (ascii "ACK")).pool i).pairedIndex = some r at hidx'
    change (securitySendLine P w sock (ascii "ACK")).list = w.list at hlist
    simp only [handleUnpair, hget, if_neg hrole, hidx', hlist, pairedListRemove_of_lt hr,
      nvsStore_fails h, Bool.not_false, if_true]
    rfl
  · intro hno
    simp [hrole] at hno

end Failure

/-- After a failed store nothing has changed, unless the mutation took a row out of the
list: then it is not undone. -/
theorem failed_store_unharmed_iff (P : Platform) (env : Env) (w : World) (m : ListMutation)
    (hfail : env.StoresFail) : Unharmed P w (m.perform P env w) ↔ m.dropsRow P w = false := by
  obtain ⟨hlist, hrotate⟩ := hfail
  cases m with
  | add sub email key pairedAt =>
    exact ⟨fun _ => rfl, fun _ => Unharmed.of_ram (pairedListAdd_fails hlist _ _ _ _ _ _).2⟩
  | remove index =>
    simp only [ListMutation.perform, ListMutation.dropsRow, decide_eq_false_iff_not, not_lt]
    by_cases hr : index < w.list.count
    · rw [pairedListRemove_of_lt hr]
      exact ⟨fun hu => absurd hu (not_unharmed_of_dropRow hr rfl), fun hle => by omega⟩
    · simp only [pairedListRemove, if_pos (Nat.le_of_not_lt hr)]
      exact ⟨fun _ => Nat.le_of_not_lt hr, fun _ => Unharmed.of_ram (SameRam.refl _)⟩
  | rotateOwnerKey key =>
    refine ⟨fun _ => rfl, fun _ => Unharmed.of_ram ?_⟩
    change SameRam w.list (pairedListRotateOwnerKey env.rotateFate w.list w.nvsList key).2.1
    rw [pairedListRotateOwnerKey_fails hrotate]
    exact SameRam.refl _
  | enroll i sock line => exact ⟨fun _ => rfl, fun _ => handleEnroll_unharmed hlist⟩
  | revoke i sock line => exact handleRevoke_unharmed_iff hlist
  | unpair i sock => exact handleUnpair_unharmed_iff hlist

def brokenFlash : Env := { listFate := fun _ => .writeFails, rotateFate := .writeFails }

theorem brokenFlash_fails : brokenFlash.StoresFail := ⟨nofun, nofun⟩

def thirdPhone : World :=
  run (step Sample.platform) World.fresh (Sample.twoPhones ++
    [.accept 7 3 true, Sample.pake1 7 {}, Sample.pake3 7 (ascii "initial0"),
      Sample.command 7 (Sample.pakeKey (ascii "initial0")) 1 "LIST" {}])

theorem failed_enroll_unharmed :
    let m := ListMutation.enroll 2 7
      (ascii "ENROLL:" ++ Sample.b64 "third" ++ ascii "," ++ Sample.b64 "t@x")
    (m.perform Sample.platform {} thirdPhone).list.count = 3 ∧
      Unharmed Sample.platform thirdPhone
        (m.perform Sample.platform brokenFlash thirdPhone) := by
  intro m
  exact ⟨by decide +kernel,
    (failed_store_unharmed_iff Sample.platform brokenFlash _ m brokenFlash_fails).mpr rfl⟩

def threePhones : List Event :=
  Sample.twoPhones ++ Sample.join 7 3 (ascii "initial0") "third" "t@x" {}

/-- A `REVOKE` whose store fails is answered with an error, yet the session of the revoked
account is from then on taken for the next account in the list. -/
theorem failed_revoke_retargets :
    let w := run (step Sample.platform) World.fresh threePhones
    let m := ListMutation.revoke 0 5 (ascii "REVOKE:" ++ Sample.b64 "user")
    let w' := m.perform Sample.platform brokenFlash w
    brokenFlash.StoresFail ∧ ¬Unharmed Sample.platform w w' ∧
      (w.pool 1).pairedIndex = some 1 ∧ (w.list.entries 1).userSub = ascii "user" ∧
      (w'.pool 1).authenticated = true ∧ (w'.pool 1).pairedIndex = some 1 ∧
      (w'.list.entries 1).userSub = ascii "third" := by
  intro w m w'
  have hcount : w'.list.count ≠ w.list.count := by decide +kernel
  refine ⟨brokenFlash_fails, fun hu => hcount hu.ram.count, ?_⟩
  decide +kernel

end CyThing
