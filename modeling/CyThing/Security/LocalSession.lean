import CyThing.Platform
import CyThing.Lib.SlotTable

/-! The pool of local sessions: one slot for each socket, with the handshake state, the
keys and the frame counters (`security/local_session`). -/

namespace CyThing
open CLib SlotTable

abbrev localSessionMax : Nat := 8

abbrev Slot := Fin localSessionMax

inductive LocalSessionState
  | new
  | pakeWaitProof
  | pakeOk
  | authWaitProof
  | authOk
  deriving DecidableEq

inductive LocalSessionRole
  | none
  | user
  | owner
  deriving DecidableEq

def zeroKey : Block 32 := .zero 32

def zeroNonce : Block 16 := .zero 16

/-- `local_session_t`; a free slot has no socket. -/
structure LocalSession where
  sock : Option Nat := none
  peerIp : UInt32 := 0
  state : LocalSessionState := .new
  role : LocalSessionRole := .none
  pairedIndex : Option Nat := none
  srp : Option SrpHandle := none
  key : Block 32 := zeroKey
  nonceDev : Block 16 := zeroNonce
  noncePhone : Block 16 := zeroNonce
  txCtr : Nat := 0
  rxCtr : Nat := 0
  rxEncrypted : Bool := false
  deriving DecidableEq

abbrev Pool := Slot → LocalSession

def LocalSession.keyed (s : LocalSession) : Bool := s.state == .pakeOk || s.state == .authOk

def LocalSession.authenticated (s : LocalSession) : Bool :=
  s.state == .authOk || (s.state == .pakeOk && s.pairedIndex.isSome)

/-! ## What ends a session or its authentication -/

def LocalSession.wipe (s : LocalSession) : LocalSession :=
  { s with
    srp := none, key := zeroKey, nonceDev := zeroNonce, noncePhone := zeroNonce
    txCtr := 0, rxCtr := 0, rxEncrypted := false
    state := .new, role := .none, pairedIndex := none, peerIp := 0, sock := none }

/-- Forgets the keys and the entry, keeps the socket; the nonces and `rx_encrypted` stay. -/
def LocalSession.dropAuth (s : LocalSession) : LocalSession :=
  { s with
    srp := none, key := zeroKey, txCtr := 0, rxCtr := 0
    state := .new, role := .none, pairedIndex := none }

def LocalSession.resetHandshake (s : LocalSession) : LocalSession :=
  { s with
    srp := none, key := zeroKey, nonceDev := zeroNonce, noncePhone := zeroNonce
    txCtr := 0, rxCtr := 0, rxEncrypted := false
    state := .new, role := .none, pairedIndex := none }

/-- `abort_pake`: leaves role, index and counters alone. -/
def LocalSession.abortPake (s : LocalSession) : LocalSession :=
  { s with srp := none, key := zeroKey, state := .new }

/-! ## The pool -/

def localSessionInit : Pool := fun _ => {}

def localSessionFind (pool : Pool) (sock : Nat) : Option Slot :=
  findSlot pool fun s => s.sock == some sock

def localSessionAcquire (pool : Pool) (sock : Nat) (peerIp : UInt32) : Option Slot × Pool :=
  match findSlot pool fun s => s.sock == none with
  | some i =>
    (some i, Function.update pool i { (pool i).wipe with sock := some sock, peerIp := peerIp })
  | none => (none, pool)

def localSessionRelease (pool : Pool) (sock : Nat) : Pool :=
  match localSessionFind pool sock with
  | some i => Function.update pool i (pool i).wipe
  | none => pool

def LocalSession.onPairedRemoved (index : Nat) (s : LocalSession) : LocalSession :=
  if s.sock = none then s
  else if s.pairedIndex = some index then s.dropAuth
  else match s.pairedIndex with
    | some k => if index < k then { s with pairedIndex := some (k - 1) } else s
    | none => s

def localSessionOnPairedRemoved (pool : Pool) (index : Nat) : Pool :=
  fun i => (pool i).onPairedRemoved index

def localSessionDropAllAuth (pool : Pool) : Pool :=
  fun i => if (pool i).sock = none then pool i else (pool i).dropAuth

def localSessionCount (pool : Pool) : Nat :=
  ((List.finRange localSessionMax).filter fun i => (pool i).sock.isSome).length

def localSessionShutdownPeer (pool : Pool) (peerIp : UInt32) : Nat :=
  if peerIp = 0 then 0
  else ((List.finRange localSessionMax).filter fun i =>
    (pool i).sock.isSome && (pool i).peerIp == peerIp).length

/-! ## Facts about single sessions -/

theorem LocalSession.keyed_iff {s : LocalSession} :
    s.keyed = true ↔ s.state = .pakeOk ∨ s.state = .authOk := by
  simp [LocalSession.keyed]

theorem LocalSession.authenticated_iff {s : LocalSession} :
    s.authenticated = true ↔
      s.state = .authOk ∨ (s.state = .pakeOk ∧ s.pairedIndex.isSome = true) := by
  simp [LocalSession.authenticated]

theorem LocalSession.keyed_of_authenticated {s : LocalSession} (h : s.authenticated = true) :
    s.keyed = true := by
  rw [LocalSession.keyed_iff]
  rcases LocalSession.authenticated_iff.mp h with h | ⟨h, _⟩
  · exact Or.inr h
  · exact Or.inl h

theorem localSessionFind_sock {pool : Pool} {sock : Nat} {i : Slot}
    (h : localSessionFind pool sock = some i) : (pool i).sock = some sock := by
  simpa using findSlot_spec h

theorem localSessionFind_congr {p q : Pool} (h : ∀ j, (p j).sock = (q j).sock) (sock : Nat) :
    localSessionFind p sock = localSessionFind q sock := by
  simp only [localSessionFind, SlotTable.findSlot, h]

theorem LocalSession.onPairedRemoved_cases (index : Nat) (s : LocalSession) :
    (s.sock ≠ none ∧ s.pairedIndex = some index ∧ s.onPairedRemoved index = s.dropAuth) ∨
    (∃ k, s.sock ≠ none ∧ s.pairedIndex = some k ∧ index < k ∧
      s.onPairedRemoved index = { s with pairedIndex := some (k - 1) }) ∨
    ((s.sock = none ∨ ∀ k, s.pairedIndex = some k → k < index) ∧
      s.onPairedRemoved index = s) := by
  unfold LocalSession.onPairedRemoved
  by_cases hs : s.sock = none
  · rw [if_pos hs]
    exact Or.inr (Or.inr ⟨Or.inl hs, rfl⟩)
  · rw [if_neg hs]
    by_cases hi : s.pairedIndex = some index
    · rw [if_pos hi]
      exact Or.inl ⟨hs, hi, rfl⟩
    · rw [if_neg hi]
      rcases hk : s.pairedIndex with _ | k
      · exact Or.inr (Or.inr ⟨Or.inr (fun k h => by cases h), rfl⟩)
      · have hne : k ≠ index := fun h => hi (by rw [hk, h])
        by_cases hlt : index < k
        · simp only [if_pos hlt]
          exact Or.inr (Or.inl ⟨k, hs, rfl, hlt, rfl⟩)
        · simp only [if_neg hlt]
          refine Or.inr (Or.inr ⟨Or.inr fun k' hk' => ?_, trivial⟩)
          cases hk'
          omega

end CyThing
