import CyThing.Platform
import CyThing.Lib.Dense

/-! The paired list: the accounts that may talk to the device, kept dense in RAM and
rewritten whole in flash on every change (`security/paired_list`). -/

namespace CyThing
open CLib

abbrev pairedListMax : Nat := 16
abbrev pairedSubMax : Nat := 40
abbrev pairedEmailMax : Nat := 64
abbrev pairedKeyLen : Nat := 32

/-- The role byte of an entry; `none` is the zero of a cleared slot. -/
inductive PairedRole
  | none
  | user
  | owner
  deriving DecidableEq

structure PairedEntry where
  userSub : Bytes := []
  userEmail : Bytes := []
  key : Block pairedKeyLen := .zero pairedKeyLen
  pairedAt : Nat := 0
  role : PairedRole := .none
  deriving DecidableEq

/-- `s_list`; its version is always the current one. -/
structure PairedBlob where
  ownerSub : Bytes := []
  count : Nat := 0
  entries : Nat → PairedEntry := fun _ => {}

def PairedBlob.accounts (l : PairedBlob) : List PairedEntry := Dense.toList l.entries l.count

structure PairedEntryV2 where
  userSub : Bytes
  installId : Bytes
  displayName : Bytes
  key : Block pairedKeyLen
  pairedAt : Nat
  role : PairedRole
  deriving DecidableEq

/-- The blob in flash: one of the two layouts whose version, count and length agree, or
bytes that match neither. -/
inductive StoredList
  | v3 (ownerSub : Bytes) (entries : List PairedEntry)
  | v2 (ownerSub : Bytes) (entries : List PairedEntryV2)
  | unusable
  deriving DecidableEq

/-- How far a store gets: `nvs_open`, then the write or erase, then `nvs_commit`. -/
inductive NvsFate
  | ok
  | openFails
  | writeFails
  | commitFails
  deriving DecidableEq

def PairedBlob.stored (l : PairedBlob) : Option StoredList :=
  if l.count = 0 then none else some (.v3 l.ownerSub l.accounts)

def nvsStore (fate : NvsFate) (l : PairedBlob) (nvs : Option StoredList) :
    Bool × Option StoredList :=
  match fate with
  | .ok => (true, l.stored)
  | .openFails => (false, nvs)
  | .writeFails => (false, nvs)
  | .commitFails => (false, l.stored)

def copyField (size : Nat) (src : Bytes) : Bytes := src.take (size - 1)

def migrateV2Entry (e : PairedEntryV2) : PairedEntry :=
  { userSub := e.userSub
    userEmail := copyField (pairedEmailMax + 1) e.displayName
    key := e.key
    pairedAt := e.pairedAt
    role := e.role }

def PairedBlob.ofEntries (ownerSub : Bytes) (es : List PairedEntry) : PairedBlob :=
  { ownerSub := ownerSub, count := es.length, entries := fun i => es.getD i {} }

/-- `nvs_load`: the list and whether it must be written back. -/
def nvsLoad (nvs : Option StoredList) : PairedBlob × Bool :=
  match nvs with
  | some (.v3 ownerSub es) =>
    if es.length ≤ pairedListMax then (.ofEntries ownerSub es, false) else ({}, false)
  | some (.v2 ownerSub es) =>
    if es.length ≤ pairedListMax then (.ofEntries ownerSub (es.map migrateV2Entry), true)
    else ({}, false)
  | some .unusable => ({}, false)
  | none => ({}, false)

def roleFor (ownerSub userSub : Bytes) : PairedRole :=
  if ownerSub ≠ [] ∧ strncmpEq pairedSubMax userSub ownerSub then .owner else .user

def findLocked (l : PairedBlob) (userSub : Bytes) : Option Nat :=
  (List.range l.count).find? fun i => strncmpEq pairedSubMax (l.entries i).userSub userSub

def PairedBlob.dropRow (l : PairedBlob) (index : Nat) : PairedBlob :=
  { l with entries := Dense.removeAt {} l.entries l.count index, count := l.count - 1 }

def dedupeRow (i : Nat) : Nat → Nat → PairedBlob → PairedBlob
  | _, 0, l => l
  | j, n + 1, l =>
    if j < l.count then
      if strncmpEq pairedSubMax (l.entries j).userSub (l.entries i).userSub then
        dedupeRow i j n (l.dropRow j)
      else dedupeRow i (j + 1) n l
    else l

def dedupeRows : Nat → Nat → PairedBlob → PairedBlob
  | _, 0, l => l
  | i, n + 1, l =>
    if i < l.count then dedupeRows (i + 1) n (dedupeRow i (i + 1) l.count l) else l

def dedupeAccountsLocked (l : PairedBlob) : PairedBlob := dedupeRows 0 l.count l

/-! ## The public operations -/

def pairedListInit (fate : NvsFate) (nvs : Option StoredList) :
    PairedBlob × Option StoredList :=
  let (l, migrated) := nvsLoad nvs
  let l' := dedupeAccountsLocked l
  let dirty := migrated || l'.count != l.count
  (l', if dirty then (nvsStore fate l' nvs).2 else nvs)

def pairedListFind (l : PairedBlob) (userSub : Bytes) : Option Nat := findLocked l userSub

def pairedListGet (l : PairedBlob) (index : Option Nat) : Option PairedEntry :=
  match index with
  | some i => if i < l.count then some (l.entries i) else none
  | none => none

structure Enrolled where
  index : Nat
  key : Block pairedKeyLen
  role : PairedRole
  deriving DecidableEq

structure AddResult where
  enrolled : Option Enrolled
  list : PairedBlob
  nvs : Option StoredList

def PairedEntry.touch (e : PairedEntry) (userEmail : Bytes) (pairedAt : Nat)
    (role : PairedRole) : PairedEntry :=
  { e with
    userEmail :=
      if userEmail ≠ [] then copyField (pairedEmailMax + 1) userEmail else e.userEmail
    pairedAt := pairedAt
    role := role }

def pairedListAdd (fate : NvsFate) (l : PairedBlob) (nvs : Option StoredList)
    (userSub userEmail : Bytes) (key : Block pairedKeyLen) (pairedAt : Nat) : AddResult :=
  if userSub = [] then ⟨none, l, nvs⟩
  else
    -- the first account to pair claims ownership
    let claimedOwner := l.ownerSub == []
    let owner := if claimedOwner then copyField (pairedSubMax + 1) userSub else l.ownerSub
    let role := roleFor owner userSub
    match findLocked l userSub with
    | some i =>
      let before := l.entries i
      let e := before.touch userEmail pairedAt role
      let l' := { l with ownerSub := owner, entries := Function.update l.entries i e }
      let (ok, nvs') := nvsStore fate l' nvs
      if ok then ⟨some ⟨i, before.key, role⟩, l', nvs'⟩
      else
        ⟨none, { l' with ownerSub := if claimedOwner then [] else owner,
                         entries := Function.update l'.entries i before }, nvs'⟩
    | none =>
      if pairedListMax ≤ l.count then
        ⟨none, { l with ownerSub := if claimedOwner then [] else owner }, nvs⟩
      else
        let i := l.count
        let fresh : PairedEntry :=
          { userSub := copyField (pairedSubMax + 1) userSub, key := key }
        let e := fresh.touch userEmail pairedAt role
        let l' : PairedBlob :=
          { ownerSub := owner, count := l.count + 1, entries := Function.update l.entries i e }
        let (ok, nvs') := nvsStore fate l' nvs
        if ok then ⟨some ⟨i, key, role⟩, l', nvs'⟩
        else
          ⟨none, { l' with ownerSub := if claimedOwner then [] else owner,
                           count := l'.count - 1,
                           entries := Function.update l'.entries i {} }, nvs'⟩

/-- `paired_list_remove`: whether it returned `ESP_OK`. There is no undo: the row is gone
from RAM whatever the store says. -/
def pairedListRemove (fate : NvsFate) (l : PairedBlob) (nvs : Option StoredList)
    (index : Nat) : Bool × PairedBlob × Option StoredList :=
  if l.count ≤ index then (false, l, nvs)
  else
    let l' := l.dropRow index
    let (ok, nvs') := nvsStore fate l' nvs
    (ok, l', nvs')

def ownerRow (l : PairedBlob) : Option Nat :=
  (List.range l.count).find? fun i => (l.entries i).role == .owner

def pairedListRotateOwnerKey (fate : NvsFate) (l : PairedBlob) (nvs : Option StoredList)
    (freshKey : Block pairedKeyLen) : Bool × PairedBlob × Option StoredList :=
  match ownerRow l with
  | none => (true, l, nvs)
  | some i =>
    let old := (l.entries i).key
    let setKey (k : Block pairedKeyLen) : PairedBlob :=
      { l with entries := Function.update l.entries i { l.entries i with key := k } }
    let (ok, nvs') := nvsStore fate (setKey freshKey) nvs
    if ok then (true, setKey freshKey, nvs') else (false, setKey old, nvs')

def pairedListClear (fate : NvsFate) (nvs : Option StoredList) :
    Bool × PairedBlob × Option StoredList :=
  let (ok, nvs') := nvsStore fate {} nvs
  (ok, {}, nvs')

end CyThing
