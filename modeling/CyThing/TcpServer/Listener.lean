import CyThing.System
import CyThing.Lib.Admission
import Mathlib.Data.FinEnum

/-! The listener (`tcp_server_task`) beside the receive tasks, one call at a time. A
connection that the listener shuts down keeps its session until its receive task gets round to
releasing it, a refused one is undone call by call, and other connections end in between. -/

namespace CyThing
open CLib Trace SlotTable

/-! ## Model -/

inductive ConnPhase
  | closed
  /-- `accept` has returned. -/
  | accepted
  /-- `local_session_count` was at the cap. -/
  | atCap
  | admitted
  /-- `add_account` has taken it. -/
  | registered
  /-- It has its session. -/
  | acquired
  /-- Its task could not be created. -/
  | releasing
  | unlisting
  | refusing
  | running
  /-- The receive task is through with `local_session_release`. -/
  | released
  /-- The receive task is through with `remove_account`. -/
  | unlisted
  deriving DecidableEq

def ConnPhase.atListener : ConnPhase → Bool
  | .closed | .running | .released | .unlisted => false
  | _ => true

def ConnPhase.seated : ConnPhase → Bool
  | .acquired | .releasing | .running => true
  | _ => false

def ConnPhase.listed : ConnPhase → Bool
  | .registered | .acquired | .releasing | .unlisting | .running | .released => true
  | _ => false

def ConnPhase.reserved : ConnPhase → Bool
  | .admitted | .registered => true
  | _ => false

structure Server where
  pool : Pool := localSessionInit
  accounts : List Nat := []
  /-- The descriptors on which the listener has called `shutdown`. -/
  shut : Nat → Bool := fun _ => false
  phase : Nat → ConnPhase := fun _ => .closed
  /-- The listener's own `sock` and `peer_ip`. -/
  hand : Option Nat := none
  peerIp : UInt32 := 0

inductive ServerEvent
  /-- `accept` returns a descriptor that is not open. -/
  | connect (sock : Nat) (peerIp : UInt32)
  /-- The listener makes its next call. -/
  | listener (taskOk : Bool)
  /-- The receive task of `sock` makes its next call on the way out; it leaves its loop when
  the peer has gone, when the listener has shut the connection down, or on an error. -/
  | recv (sock : Nat)
  /-- Tasks work on the sessions in use. -/
  | work (g : Slot → LocalSession → LocalSession)

def ServerEvent.isConnect : ServerEvent → Bool
  | .connect _ _ => true
  | _ => false

def ServerEvent.byListener : ServerEvent → Bool
  | .connect _ _ | .listener _ => true
  | _ => false

def Server.go (s : Server) (sock : Nat) (p : ConnPhase) : Server :=
  { s with phase := Function.update s.phase sock p }

def shutPeerSocks (pool : Pool) (peerIp : UInt32) (shut : Nat → Bool) : Nat → Bool :=
  fun k => shut k || (List.finRange localSessionMax).any fun i =>
    (pool i).sock == some k && (pool i).peerIp == peerIp

def listenerStep (s : Server) (sock : Nat) (taskOk : Bool) : Server :=
  match s.phase sock with
  | .accepted =>
    s.go sock (if tcpClientMax ≤ localSessionCount s.pool then .atCap else .admitted)
  | .atCap =>
    if localSessionShutdownPeer s.pool s.peerIp = 0 then s.go sock .refusing
    else { s with shut := shutPeerSocks s.pool s.peerIp s.shut }.go sock .admitted
  | .admitted =>
    match addAccount s.accounts sock with
    | none => s.go sock .refusing
    | some accounts => { s with accounts := accounts }.go sock .registered
  | .registered =>
    match localSessionAcquire s.pool sock s.peerIp with
    | (none, _) => s.go sock .unlisting
    | (some _, pool) => { s with pool := pool }.go sock .acquired
  | .acquired =>
    if taskOk then { s with hand := none }.go sock .running else s.go sock .releasing
  | .releasing => { s with pool := localSessionRelease s.pool sock }.go sock .unlisting
  | .unlisting => { s with accounts := removeAccount s.accounts sock }.go sock .refusing
  | .refusing => { s with hand := none }.go sock .closed
  | _ => s

def recvStep (s : Server) (sock : Nat) : Server :=
  match s.phase sock with
  | .running => { s with pool := localSessionRelease s.pool sock }.go sock .released
  | .released => { s with accounts := removeAccount s.accounts sock }.go sock .unlisted
  | .unlisted => s.go sock .closed
  | _ => s

/-- Handlers change sessions in use, and neither their socket nor their peer. -/
def workOn (g : Slot → LocalSession → LocalSession) (pool : Pool) : Pool :=
  fun i =>
    if (pool i).sock = none then pool i
    else { g i (pool i) with sock := (pool i).sock, peerIp := (pool i).peerIp }

def serverStep (s : Server) : ServerEvent → Server
  | .connect sock peerIp =>
    if s.hand = none ∧ s.phase sock = .closed then
      { s with
        hand := some sock, peerIp := peerIp, shut := Function.update s.shut sock false }.go sock
          .accepted
    else s
  | .listener taskOk =>
    match s.hand with
    | some sock => listenerStep s sock taskOk
    | none => s
  | .recv sock => recvStep s sock
  | .work g => { s with pool := workOn g s.pool }

def Server.live (s : Server) : Nat :=
  ((List.finRange localSessionMax).filter fun i => (s.pool i).sock.any fun k => !s.shut k).length

/-! ## The pool -/

structure PoolFits (phase : Nat → ConnPhase) (pool : Pool) : Prop where
  blank : ∀ i, (pool i).sock = none → pool i = {}
  inj : ∀ {i j k}, (pool i).sock = some k → (pool j).sock = some k → i = j
  seated : ∀ k, (phase k).seated = true ↔ ∃ i, (pool i).sock = some k

section Pool

variable {pool : Pool} {phase : Nat → ConnPhase} {j k : Nat} {p : ConnPhase} {i : Slot}

theorem PoolFits.absent (h : PoolFits phase pool) (hk : (phase k).seated = false) (i : Slot) :
    (pool i).sock ≠ some k := by
  intro hi
  rw [(h.seated k).mpr ⟨i, hi⟩] at hk
  cases hk

theorem localSessionRelease_apply
    (hinj : ∀ {i j k}, (pool i).sock = some k → (pool j).sock = some k → i = j) (k : Nat)
    (i : Slot) :
    localSessionRelease pool k i = if (pool i).sock = some k then {} else pool i := by
  unfold localSessionRelease
  rcases hf : localSessionFind pool k with _ | j
  · have habsent : (pool i).sock ≠ some k := by
      simpa using findSlot_eq_none.mp hf i
    rw [if_neg habsent]
  · have hj := localSessionFind_sock hf
    by_cases hi : (pool i).sock = some k
    · obtain rfl := hinj hi hj
      rw [if_pos hi]
      exact Function.update_self ..
    · have hne : i ≠ j := fun h => hi (h ▸ hj)
      rw [if_neg hi]
      exact Function.update_of_ne hne ..

theorem localSessionRelease_absent (h : ∀ i, (pool i).sock ≠ some k) :
    localSessionRelease pool k = pool := by
  have hf : localSessionFind pool k = none := findSlot_eq_none.mpr fun i => by simpa using h i
  rw [localSessionRelease, hf]

theorem PoolFits.go (h : PoolFits phase pool) (hp : p.seated = (phase k).seated) :
    PoolFits (Function.update phase k p) pool where
  blank := h.blank
  inj := h.inj
  seated j := by
    rw [← h.seated j]
    by_cases hj : j = k
    · rw [hj, Function.update_self, hp]
    · rw [Function.update_of_ne hj]

theorem PoolFits.acquire (h : PoolFits phase pool) (hi : (pool i).sock = none)
    (hk : (phase k).seated = false) (hp : p.seated = true) (peerIp : UInt32) :
    PoolFits (Function.update phase k p)
      (Function.update pool i { sock := some k, peerIp := peerIp }) where
  blank j hj := by
    by_cases hji : j = i
    · rw [hji, Function.update_self] at hj
      cases hj
    · rw [Function.update_of_ne hji] at hj ⊢
      exact h.blank j hj
  inj {a b c} ha hb := by
    by_cases hai : a = i <;> by_cases hbi : b = i
    · rw [hai, hbi]
    · rw [hai, Function.update_self] at ha
      rw [Function.update_of_ne hbi, ← ha] at hb
      exact absurd hb (h.absent hk b)
    · rw [hbi, Function.update_self] at hb
      rw [Function.update_of_ne hai, ← hb] at ha
      exact absurd ha (h.absent hk a)
    · rw [Function.update_of_ne hai] at ha
      rw [Function.update_of_ne hbi] at hb
      exact h.inj ha hb
  seated j := by
    by_cases hj : j = k
    · rw [hj, Function.update_self, hp]
      exact ⟨fun _ => ⟨i, by rw [Function.update_self]⟩, fun _ => rfl⟩
    · rw [Function.update_of_ne hj, h.seated j]
      constructor
      · rintro ⟨a, ha⟩
        refine ⟨a, ?_⟩
        have hai : a ≠ i := fun heq => by rw [heq, hi] at ha; cases ha
        rwa [Function.update_of_ne hai]
      · rintro ⟨a, ha⟩
        by_cases hai : a = i
        · rw [hai, Function.update_self] at ha
          exact absurd (Option.some.inj ha).symm hj
        · rw [Function.update_of_ne hai] at ha
          exact ⟨a, ha⟩

theorem release_sock_iff (h : PoolFits phase pool) :
    (localSessionRelease pool k i).sock = some j ↔ (pool i).sock = some j ∧ j ≠ k := by
  rw [localSessionRelease_apply h.inj]
  split
  · next hi =>
    constructor
    · intro hj
      cases hj
    · rintro ⟨hj, hne⟩
      exact absurd (Option.some.inj (hj.symm.trans hi)) hne
  · next hi =>
    constructor
    · intro hj
      exact ⟨hj, fun heq => hi (heq ▸ hj)⟩
    · exact And.left

theorem PoolFits.release (h : PoolFits phase pool) (hp : p.seated = false) :
    PoolFits (Function.update phase k p) (localSessionRelease pool k) where
  blank i hi := by
    rw [localSessionRelease_apply h.inj] at hi ⊢
    split at hi
    · next hk => rw [if_pos hk]
    · next hk =>
      rw [if_neg hk]
      exact h.blank i hi
  inj ha hb := h.inj ((release_sock_iff h).mp ha).1 ((release_sock_iff h).mp hb).1
  seated j := by
    simp only [release_sock_iff h]
    by_cases hj : j = k
    · rw [hj, Function.update_self, hp]
      simp
    · rw [Function.update_of_ne hj, h.seated j]
      simp [hj]

theorem workOn_sock (g : Slot → LocalSession → LocalSession) (pool : Pool) (i : Slot) :
    (workOn g pool i).sock = (pool i).sock := by
  unfold workOn
  split <;> rfl

theorem workOn_peerIp (g : Slot → LocalSession → LocalSession) (pool : Pool) (i : Slot) :
    (workOn g pool i).peerIp = (pool i).peerIp := by
  unfold workOn
  split <;> rfl

theorem PoolFits.work (h : PoolFits phase pool) (g : Slot → LocalSession → LocalSession) :
    PoolFits phase (workOn g pool) where
  blank i hi := by
    rw [workOn_sock] at hi
    rw [workOn, if_pos hi, h.blank i hi]
  inj ha hb := by
    rw [workOn_sock] at ha hb
    exact h.inj ha hb
  seated k := by
    simp only [workOn_sock]
    exact h.seated k

end Pool

/-! ## The invariant -/

structure Server.Sound (s : Server) : Prop where
  pool : PoolFits s.phase s.pool
  nodup : s.accounts.Nodup
  listed : ∀ k, (s.phase k).listed = true ↔ k ∈ s.accounts
  hand : ∀ k, (s.phase k).atListener = true ↔ s.hand = some k
  /-- The connection in hand is not shut down. -/
  fresh : ∀ k, s.hand = some k → s.shut k = false

inductive ServerMoves (s : Server) : Server → Prop
  | stay : ServerMoves s s
  | works (g : Slot → LocalSession → LocalSession) :
      ServerMoves s { s with pool := workOn g s.pool }
  | connects {k : Nat} (peerIp : UInt32) (hfree : s.hand = none) (hk : s.phase k = .closed) :
      ServerMoves s
        ({ s with hand := some k, peerIp := peerIp,
                  shut := Function.update s.shut k false }.go k .accepted)
  /-- The listener finds something out. -/
  | passes {k : Nat} {p : ConnPhase} (hhand : s.hand = some k) (hp : p.atListener = true)
      (hseated : p.seated = (s.phase k).seated) (hlisted : p.listed = (s.phase k).listed)
      (hroom : p.reserved = true → localSessionCount s.pool < tcpClientMax) :
      ServerMoves s (s.go k p)
  | shuts {k : Nat} (hk : s.phase k = .atCap)
      (hpeer : localSessionShutdownPeer s.pool s.peerIp ≠ 0) :
      ServerMoves s ({ s with shut := shutPeerSocks s.pool s.peerIp s.shut }.go k .admitted)
  | lists {k : Nat} (hk : s.phase k = .admitted) :
      ServerMoves s ({ s with accounts := s.accounts ++ [k] }.go k .registered)
  | seats {k : Nat} {i : Slot} (hk : s.phase k = .registered) (hi : (s.pool i).sock = none) :
      ServerMoves s
        ({ s with pool := Function.update s.pool i { sock := some k, peerIp := s.peerIp } }.go k
          .acquired)
  | starts {k : Nat} (hk : s.phase k = .acquired) :
      ServerMoves s ({ s with hand := none }.go k .running)
  | frees {k : Nat} {p : ConnPhase} (hlisted : p.listed = (s.phase k).listed)
      (hat : p.atListener = (s.phase k).atListener) (hseated : p.seated = false)
      (hres : p.reserved = false) :
      ServerMoves s ({ s with pool := localSessionRelease s.pool k }.go k p)
  | unlists {k : Nat} {p : ConnPhase} (hseated : p.seated = (s.phase k).seated)
      (hat : p.atListener = (s.phase k).atListener) (hlisted : p.listed = false)
      (hres : p.reserved = false) :
      ServerMoves s ({ s with accounts := removeAccount s.accounts k }.go k p)
  | refuses {k : Nat} (hk : s.phase k = .refusing) :
      ServerMoves s ({ s with hand := none }.go k .closed)
  | closes {k : Nat} (hk : s.phase k = .unlisted) : ServerMoves s (s.go k .closed)

theorem listenerStep_moves {s : Server} {k : Nat} (hhand : s.hand = some k) (taskOk : Bool) :
    ServerMoves s (listenerStep s k taskOk) := by
  unfold listenerStep
  split
  · next hk =>
    split
    · exact .passes hhand rfl (by rw [hk]; rfl) (by rw [hk]; rfl) fun h => by cases h
    · next hcount =>
      exact .passes hhand rfl (by rw [hk]; rfl) (by rw [hk]; rfl) fun _ => Nat.not_le.mp hcount
  · next hk =>
    split
    · exact .passes hhand rfl (by rw [hk]; rfl) (by rw [hk]; rfl) fun h => by cases h
    · next hpeer => exact .shuts hk hpeer
  · next hk =>
    unfold addAccount
    split
    · exact .passes hhand rfl (by rw [hk]; rfl) (by rw [hk]; rfl) fun h => by cases h
    · next haccounts =>
      split at haccounts
      · cases haccounts
      · cases haccounts
        exact .lists hk
  · next hk =>
    unfold localSessionAcquire
    rcases hf : findSlot s.pool fun t => t.sock == none with _ | i
    · exact .passes hhand rfl (by rw [hk]; rfl) (by rw [hk]; rfl) fun h => by cases h
    · exact .seats hk (by simpa using findSlot_spec hf)
  · next hk =>
    split
    · exact .starts hk
    · exact .passes hhand rfl (by rw [hk]; rfl) (by rw [hk]; rfl) fun h => by cases h
  · next hk => exact .frees (by rw [hk]; rfl) (by rw [hk]; rfl) rfl rfl
  · next hk => exact .unlists (by rw [hk]; rfl) (by rw [hk]; rfl) rfl rfl
  · next hk => exact .refuses hk
  · exact .stay

theorem recvStep_moves (s : Server) (k : Nat) : ServerMoves s (recvStep s k) := by
  unfold recvStep
  split
  · next hk => exact .frees (by rw [hk]; rfl) (by rw [hk]; rfl) rfl rfl
  · next hk => exact .unlists (by rw [hk]; rfl) (by rw [hk]; rfl) rfl rfl
  · next hk => exact .closes hk
  · exact .stay

theorem serverStep_moves (s : Server) (e : ServerEvent) : ServerMoves s (serverStep s e) := by
  cases e with
  | connect sock peerIp =>
    simp only [serverStep]
    split
    · next h => exact .connects peerIp h.1 h.2
    · exact .stay
  | listener taskOk =>
    simp only [serverStep]
    split
    · next hhand => exact listenerStep_moves hhand taskOk
    · exact .stay
  | recv sock => exact recvStep_moves s sock
  | work g => exact .works g

section Sound

variable {s s' : Server} {k : Nat} {p : ConnPhase}

theorem Server.Sound.init : ({} : Server).Sound where
  pool :=
    { blank := fun _ _ => rfl
      inj := fun h _ => absurd h.symm (Option.some_ne_none _)
      seated := fun _ => ⟨fun h => absurd h Bool.false_ne_true,
        fun ⟨_, h⟩ => absurd h.symm (Option.some_ne_none _)⟩ }
  nodup := List.nodup_nil
  listed _ := ⟨fun h => absurd h Bool.false_ne_true, fun h => absurd h List.not_mem_nil⟩
  hand _ := ⟨fun h => absurd h Bool.false_ne_true, fun h => absurd h.symm (Option.some_ne_none _)⟩
  fresh _ h := absurd h.symm (Option.some_ne_none _)

theorem Server.Sound.hand_of (h : s.Sound) (hk : (s.phase k).atListener = true) :
    s.hand = some k := (h.hand k).mp hk

theorem update_phase_iff {f : ConnPhase → Bool} {Q R : Nat → Prop} {phase : Nat → ConnPhase}
    (h : ∀ j, f (phase j) = true ↔ Q j) (hk : f p = true ↔ R k) (hrest : ∀ j ≠ k, R j ↔ Q j)
    (j : Nat) : f (Function.update phase k p j) = true ↔ R j := by
  by_cases hj : j = k
  · rw [hj, Function.update_self, hk]
  · rw [Function.update_of_ne hj, h j, hrest j hj]

theorem Server.Sound.listed_go (h : s.Sound) (hp : p.listed = (s.phase k).listed) (j : Nat) :
    (Function.update s.phase k p j).listed = true ↔ j ∈ s.accounts :=
  update_phase_iff h.listed (by rw [hp, h.listed k]) (fun _ _ => Iff.rfl) j

theorem Server.Sound.hand_go (h : s.Sound) (hp : p.atListener = (s.phase k).atListener)
    (j : Nat) : (Function.update s.phase k p j).atListener = true ↔ s.hand = some j :=
  update_phase_iff h.hand (by rw [hp, h.hand k]) (fun _ _ => Iff.rfl) j

theorem Server.Sound.hand_drop (h : s.Sound) (hhand : s.hand = some k)
    (hp : p.atListener = false) (j : Nat) :
    (Function.update s.phase k p j).atListener = true ↔ (none : Option Nat) = some j := by
  refine update_phase_iff h.hand (R := fun j => (none : Option Nat) = some j) ?_ ?_ j
  · rw [hp]
    simp
  · intro i hi
    rw [hhand]
    simp [Ne.symm hi]

theorem shutPeerSocks_absent {pool : Pool} {peerIp : UInt32} {shut : Nat → Bool}
    (h : ∀ i, (pool i).sock ≠ some k) : shutPeerSocks pool peerIp shut k = shut k := by
  simp [shutPeerSocks, h]

theorem ServerMoves.sound (h : s.Sound) (hm : ServerMoves s s') : s'.Sound := by
  cases hm with
  | stay => exact h
  | works g => exact { h with pool := h.pool.work g }
  | @connects k peerIp hfree hk =>
    refine ⟨h.pool.go (by rw [hk]; rfl), h.nodup, h.listed_go (by rw [hk]; rfl), ?_, ?_⟩
    · refine update_phase_iff h.hand (R := fun j => some k = some j)
        (by simp [ConnPhase.atListener]) fun j hj => ?_
      rw [hfree]
      simp [Ne.symm hj]
    · intro j hj
      obtain rfl := Option.some.inj hj
      exact Function.update_self ..
  | @passes k p hhand hp hseated hlisted _ =>
    have hat : p.atListener = (s.phase k).atListener := by rw [hp, (h.hand _).mpr hhand]
    exact ⟨h.pool.go hseated, h.nodup, h.listed_go hlisted, h.hand_go hat, h.fresh⟩
  | @shuts k hk _ =>
    refine ⟨h.pool.go (by rw [hk]; rfl), h.nodup, h.listed_go (by rw [hk]; rfl),
      h.hand_go (by rw [hk]; rfl), ?_⟩
    intro j hj
    have hjk : j = k :=
      Option.some.inj (hj.symm.trans (h.hand_of (by rw [hk]; rfl)))
    subst hjk
    change shutPeerSocks s.pool s.peerIp s.shut j = false
    rw [shutPeerSocks_absent (h.pool.absent (by rw [hk]; rfl))]
    exact h.fresh j hj
  | @lists k hk =>
    have hout : k ∉ s.accounts := by
      rw [← h.listed k, hk]
      exact Bool.false_ne_true
    refine ⟨h.pool.go (by rw [hk]; rfl), ?_, ?_, h.hand_go (by rw [hk]; rfl), h.fresh⟩
    · exact List.nodup_append.mpr ⟨h.nodup, List.nodup_singleton k, by
        rintro a ha b hb rfl
        exact hout (List.mem_singleton.mp hb ▸ ha)⟩
    · exact update_phase_iff h.listed (R := fun j => j ∈ s.accounts ++ [k])
        (by simp [ConnPhase.listed]) fun j hj => by simp [hj]
  | @seats k i hk hi =>
    exact ⟨h.pool.acquire hi (by rw [hk]; rfl) rfl s.peerIp, h.nodup,
      h.listed_go (by rw [hk]; rfl), h.hand_go (by rw [hk]; rfl), h.fresh⟩
  | @starts k hk =>
    refine ⟨h.pool.go (by rw [hk]; rfl), h.nodup, h.listed_go (by rw [hk]; rfl),
      h.hand_drop (h.hand_of (by rw [hk]; rfl)) rfl, ?_⟩
    intro j hj
    cases hj
  | frees hlisted hat hseated _ =>
    exact ⟨h.pool.release hseated, h.nodup, h.listed_go hlisted, h.hand_go hat, h.fresh⟩
  | @unlists k p hseated hat hlisted _ =>
    refine ⟨h.pool.go hseated, h.nodup.erase k, ?_, h.hand_go hat, h.fresh⟩
    refine update_phase_iff h.listed (R := fun j => j ∈ s.accounts.erase k) ?_ fun j hj => ?_
    · rw [hlisted]
      simp [h.nodup.mem_erase_iff]
    · exact List.mem_erase_of_ne hj
  | @refuses k hk =>
    refine ⟨h.pool.go (by rw [hk]; rfl), h.nodup, h.listed_go (by rw [hk]; rfl),
      h.hand_drop (h.hand_of (by rw [hk]; rfl)) rfl, ?_⟩
    intro j hj
    cases hj
  | @closes k hk =>
    exact ⟨h.pool.go (by rw [hk]; rfl), h.nodup, h.listed_go (by rw [hk]; rfl),
      h.hand_go (by rw [hk]; rfl), h.fresh⟩

end Sound

/-! ## The cap -/

section Cap

variable {s s' : Server} {k : Nat} {p : ConnPhase}

def Server.seats (s : Server) : Admission.Table Slot UInt32 :=
  fun i => (s.pool i).sock.map fun k => ⟨(s.pool i).peerIp, s.shut k⟩

/-- A connection that the listener has let past the cap is counted before it has its
session. -/
structure Server.Capped (s : Server) : Prop where
  weight : Admission.weight s.seats ≤ tcpClientMax
  room : ∀ k, (s.phase k).reserved = true →
    Admission.weightWith s.peerIp s.seats ≤ tcpClientMax

theorem Server.live_eq (s : Server) :
    s.live = Admission.number (fun t => !t.shut) s.seats := by
  rw [Admission.number_eq_length]
  simp only [Server.live, Server.seats, Option.any_map]

theorem localSessionCount_eq (s : Server) :
    localSessionCount s.pool = Admission.number (fun _ => true) s.seats := by
  rw [Admission.number_eq_length, localSessionCount]
  congr 2
  funext i
  simp only [Server.seats]
  cases (s.pool i).sock <;> rfl

theorem held_pos_of_shutdownPeer {peerIp : UInt32}
    (h : localSessionShutdownPeer s.pool peerIp ≠ 0) : 0 < Admission.held s.seats peerIp := by
  unfold localSessionShutdownPeer at h
  split at h
  · exact absurd rfl h
  · rw [Admission.held, Admission.number_eq_length]
    refine Nat.pos_of_ne_zero fun h0 => h (Eq.trans ?_ h0)
    congr 2
    funext i
    simp only [Server.seats]
    cases (s.pool i).sock with
    | none => rfl
    | some k => exact beq_eq_decide ..

theorem seats_shutPeer (h : s.Sound) (k : Nat) (p : ConnPhase) :
    ({ s with shut := shutPeerSocks s.pool s.peerIp s.shut }.go k p).seats =
      Admission.shutPeer s.peerIp s.seats := by
  funext i
  simp only [Server.seats, Server.go, Admission.shutPeer, shutPeerSocks]
  rcases hi : (s.pool i).sock with _ | j
  · rfl
  · -- slot `i` is the only one with its socket
    have hany : ((List.finRange localSessionMax).any fun a =>
        (s.pool a).sock == some j && (s.pool a).peerIp == s.peerIp) =
          ((s.pool i).peerIp == s.peerIp) := by
      rw [Bool.eq_iff_iff, List.any_eq_true]
      constructor
      · rintro ⟨a, -, ha⟩
        simp only [Bool.and_eq_true, beq_iff_eq] at ha ⊢
        rw [← h.pool.inj ha.1 hi]
        exact ha.2
      · intro hpeer
        exact ⟨i, List.mem_finRange i, by simp [hi, hpeer]⟩
    simp only [Option.map_some, hany]
    by_cases hpeer : (s.pool i).peerIp = s.peerIp
    · simp [hpeer]
    · simp [hpeer]

theorem seats_acquire {i : Slot} (hk : s.shut k = false) (p : ConnPhase) :
    ({ s with pool := Function.update s.pool i { sock := some k, peerIp := s.peerIp } }.go k
      p).seats = Function.update s.seats i (some ⟨s.peerIp, false⟩) := by
  funext j
  by_cases hj : j = i
  · subst hj
    simp [Server.seats, Server.go, hk]
  · simp [Server.seats, Server.go, Function.update_of_ne hj]

theorem seats_release_within (h : s.Sound) (k : Nat) (p : ConnPhase) :
    Admission.Within ({ s with pool := localSessionRelease s.pool k }.go k p).seats s.seats := by
  intro i t ht
  obtain ⟨j, hj, rfl⟩ := Option.map_eq_some_iff.mp ht
  have hold := (release_sock_iff h.pool).mp hj
  have hne : (s.pool i).sock ≠ some k := by
    rw [hold.1]
    exact fun heq => hold.2 (Option.some.inj heq)
  refine ⟨⟨(s.pool i).peerIp, s.shut j⟩, ?_, ?_, id⟩
  · simp [Server.seats, hold.1]
  · change (s.pool i).peerIp = (localSessionRelease s.pool k i).peerIp
    rw [localSessionRelease_apply h.pool.inj, if_neg hne]

theorem seats_connect (h : s.Sound) (hk : s.phase k = .closed) (peerIp : UInt32)
    (p : ConnPhase) :
    ({ s with hand := some k, peerIp := peerIp, shut := Function.update s.shut k false }.go k
      p).seats = s.seats := by
  funext i
  simp only [Server.seats, Server.go]
  rcases hi : (s.pool i).sock with _ | j
  · rfl
  · have hj : j ≠ k := fun heq => h.pool.absent (by rw [hk]; rfl) i (heq ▸ hi)
    simp [Function.update_of_ne hj]

theorem seats_work (s : Server) (g : Slot → LocalSession → LocalSession) :
    { s with pool := workOn g s.pool }.seats = s.seats := by
  funext i
  simp only [Server.seats, workOn_sock, workOn_peerIp]

theorem Server.Capped.mono (hc : s.Capped) (hw : Admission.Within s'.seats s.seats)
    (hip : s'.peerIp = s.peerIp)
    (hres : ∀ j, (s'.phase j).reserved = true → ∃ k, (s.phase k).reserved = true) :
    s'.Capped where
  weight := (Admission.weight_mono hw).trans hc.weight
  room j hj := by
    obtain ⟨k, hk⟩ := hres j hj
    rw [hip]
    exact (Admission.weightWith_mono hw).trans (hc.room k hk)

theorem reserved_go (hp : p.reserved = true → (s.phase k).reserved = true) (j : Nat)
    (hj : (Function.update s.phase k p j).reserved = true) :
    ∃ k, (s.phase k).reserved = true := by
  by_cases hjk : j = k
  · rw [hjk, Function.update_self] at hj
    exact ⟨k, hp hj⟩
  · rw [Function.update_of_ne hjk] at hj
    exact ⟨j, hj⟩

theorem ConnPhase.atListener_of_reserved (h : p.reserved = true) : p.atListener = true := by
  cases p <;> first | rfl | cases h

theorem Server.Sound.reserved_eq (h : s.Sound) {j : Nat} (hj : (s.phase j).reserved = true)
    (hk : (s.phase k).atListener = true) : j = k :=
  Option.some.inj
    ((h.hand_of (ConnPhase.atListener_of_reserved hj)).symm.trans (h.hand_of hk))

theorem ServerMoves.capped (h : s.Sound) (hc : s.Capped) (hm : ServerMoves s s') :
    s'.Capped := by
  have hsame : Admission.Within s.seats s.seats := fun _ t ht => ⟨t, ht, rfl, id⟩
  cases hm with
  | stay => exact hc
  | works g =>
    refine hc.mono ?_ rfl fun j hj => ⟨j, hj⟩
    rw [seats_work]
    exact hsame
  | @connects k peerIp hfree hk =>
    refine ⟨?_, fun j hj => ?_⟩
    · rw [seats_connect h hk]
      exact hc.weight
    · -- the listener had nothing in its hand
      obtain ⟨a, ha⟩ := reserved_go (fun h => by cases h) j hj
      rw [h.hand_of (ConnPhase.atListener_of_reserved ha)] at hfree
      cases hfree
  | @passes k p hhand _ _ _ hroom =>
    refine ⟨hc.weight, fun j hj => ?_⟩
    by_cases hp : p.reserved = true
    · have hcount := hroom hp
      rw [localSessionCount_eq] at hcount
      exact (Admission.weightWith_le_number s.peerIp s.seats).trans hcount
    · obtain ⟨a, ha⟩ := reserved_go (fun h => absurd h hp) j hj
      exact hc.room a ha
  | @shuts k hk hpeer =>
    have hroom : Admission.weightWith s.peerIp (Admission.shutPeer s.peerIp s.seats) ≤
        tcpClientMax :=
      (Admission.weightWith_shutPeer (held_pos_of_shutdownPeer hpeer)).trans hc.weight
    refine ⟨?_, fun j _ => ?_⟩
    · rw [seats_shutPeer h]
      exact (Admission.weight_le_weightWith _ _).trans hroom
    · rw [seats_shutPeer h]
      exact hroom
  | @lists k hk => exact hc.mono hsame rfl (reserved_go fun _ => by rw [hk]; rfl)
  | @seats k i hk hi =>
    have hat : (s.phase k).atListener = true := by rw [hk]; rfl
    have hfree : s.seats i = none := by simp [Server.seats, hi]
    refine ⟨?_, fun j hj => ?_⟩
    · rw [seats_acquire (h.fresh k (h.hand_of hat)), Admission.weight_sit hfree]
      exact hc.room k (by rw [hk]; rfl)
    · -- no other connection has a place reserved
      have hjk : j ≠ k := by
        rintro rfl
        change (Function.update s.phase j _ j).reserved = true at hj
        rw [Function.update_self] at hj
        cases hj
      change (Function.update s.phase k _ j).reserved = true at hj
      rw [Function.update_of_ne hjk] at hj
      exact absurd (h.reserved_eq hj hat) hjk
  | starts hk => exact hc.mono hsame rfl (reserved_go fun h => by cases h)
  | frees _ _ _ hres =>
    exact hc.mono (seats_release_within h _ _) rfl
      (reserved_go fun hp => by rw [hres] at hp; cases hp)
  | unlists _ _ _ hres =>
    exact hc.mono hsame rfl (reserved_go fun hp => by rw [hres] at hp; cases hp)
  | refuses hk => exact hc.mono hsame rfl (reserved_go fun h => by cases h)
  | closes hk => exact hc.mono hsame rfl (reserved_go fun h => by cases h)

theorem Server.Capped.init : ({} : Server).Capped where
  weight := by
    have h := (Admission.weight_le_weightWith (0 : UInt32) ({} : Server).seats).trans
      (Admission.weightWith_le_number 0 ({} : Server).seats)
    rw [← localSessionCount_eq] at h
    exact h.trans (by decide)
  room _ h := absurd h Bool.false_ne_true

theorem run_server (es : List ServerEvent) :
    (run serverStep {} es).Sound ∧ (run serverStep {} es).Capped :=
  history_induction (s := ({} : Server)) (Q := fun _ s => s.Sound ∧ s.Capped)
    ⟨Server.Sound.init, Server.Capped.init⟩
    (fun _ u e h => ⟨(serverStep_moves u e).sound h.1, (serverStep_moves u e).capped h.1 h.2⟩) es

end Cap

/-! ## Refused connections -/

section Refused

variable {s s₁ s₂ : Server} {j k : Nat}

structure Without (k : Nat) (s₁ s₂ : Server) : Prop where
  pool : s₂.pool = localSessionRelease s₁.pool k
  accounts : s₂.accounts = removeAccount s₁.accounts k
  phase : s₂.phase = Function.update s₁.phase k .closed

theorem Without.eq (h : s₁.Sound) (hw : Without k s₁ s₂) (hseated : (s₁.phase k).seated = false)
    (hlisted : (s₁.phase k).listed = false) :
    s₁.pool = s₂.pool ∧ s₁.accounts = s₂.accounts := by
  have hout : k ∉ s₁.accounts := by
    rw [← h.listed k, hlisted]
    exact Bool.false_ne_true
  rw [hw.pool, hw.accounts, localSessionRelease_absent (h.pool.absent hseated), removeAccount,
    List.erase_of_not_mem hout]
  exact ⟨rfl, rfl⟩

theorem release_release_comm {phase : Nat → ConnPhase} {pool : Pool} (h : PoolFits phase pool)
    (j k : Nat) :
    localSessionRelease (localSessionRelease pool j) k =
      localSessionRelease (localSessionRelease pool k) j := by
  have hfits := fun a => h.release (k := a) (p := .closed) rfl
  funext i
  rw [localSessionRelease_apply (hfits j).inj, localSessionRelease_apply (hfits k).inj,
    localSessionRelease_apply h.inj, localSessionRelease_apply h.inj]
  split_ifs <;> rfl

theorem release_workOn {phase : Nat → ConnPhase} {pool : Pool} (h : PoolFits phase pool)
    (g : Slot → LocalSession → LocalSession) (k : Nat) :
    localSessionRelease (workOn g pool) k = workOn g (localSessionRelease pool k) := by
  funext i
  rw [localSessionRelease_apply (h.work g).inj, workOn_sock]
  simp only [workOn, localSessionRelease_apply h.inj]
  by_cases hk : (pool i).sock = some k
  · simp [hk]
  · simp [hk]

theorem Without.listener (h : s₁.Sound) (hw : Without k s₁ s₂) (taskOk : Bool)
    (hhand : (listenerStep s₁ k taskOk).hand = some k) :
    Without k (listenerStep s₁ k taskOk) s₂ := by
  have hphase : ∀ p, s₂.phase = Function.update (Function.update s₁.phase k p) k .closed :=
    fun p => by rw [Function.update_idem, hw.phase]
  revert hhand
  unfold listenerStep
  split
  · exact fun _ => ⟨hw.pool, hw.accounts, hphase _⟩
  · intro _
    split
    · exact ⟨hw.pool, hw.accounts, hphase _⟩
    · exact ⟨hw.pool, hw.accounts, hphase _⟩
  · next hk =>
    intro _
    split
    · exact ⟨hw.pool, hw.accounts, hphase _⟩
    · next accounts hadd =>
      have hout : k ∉ s₁.accounts := by
        rw [← h.listed k, hk]
        exact Bool.false_ne_true
      refine ⟨hw.pool, ?_, hphase _⟩
      unfold addAccount at hadd
      split at hadd
      · cases hadd
      · cases hadd
        change s₂.accounts = (s₁.accounts ++ [k]).erase k
        rw [List.erase_append_right _ hout, hw.accounts, removeAccount,
          List.erase_of_not_mem hout]
        simp
  · next hk =>
    intro _
    unfold localSessionAcquire
    rcases hf : findSlot s₁.pool fun t => t.sock == none with _ | i
    · exact ⟨hw.pool, hw.accounts, hphase _⟩
    · have hi : (s₁.pool i).sock = none := by simpa using findSlot_spec hf
      have hfits := h.pool.acquire (k := k) (p := .acquired) hi (by rw [hk]; rfl) rfl s₁.peerIp
      refine ⟨?_, hw.accounts, hphase _⟩
      rw [hw.pool]
      funext a
      change localSessionRelease s₁.pool k a =
        localSessionRelease (Function.update s₁.pool i { sock := some k, peerIp := s₁.peerIp }) k a
      rw [localSessionRelease_apply hfits.inj, localSessionRelease_apply h.pool.inj]
      by_cases ha : a = i
      · subst ha
        simp [h.pool.blank a hi]
      · simp [Function.update_of_ne ha]
  · intro hhand
    split at hhand
    · cases hhand
    · next hok =>
      rw [if_neg hok]
      exact ⟨hw.pool, hw.accounts, hphase _⟩
  · intro _
    refine ⟨?_, hw.accounts, hphase _⟩
    have hgone : ∀ i, (localSessionRelease s₁.pool k i).sock ≠ some k := fun i hi =>
      ((release_sock_iff h.pool).mp hi).2 rfl
    exact hw.pool.trans (localSessionRelease_absent hgone).symm
  · intro _
    refine ⟨hw.pool, hw.accounts.trans ?_, hphase _⟩
    exact (List.erase_of_not_mem fun hmem => (h.nodup.mem_erase_iff.mp hmem).1 rfl).symm
  · intro hhand
    cases hhand
  · exact fun _ => hw

theorem Without.recv (h : s₁.Sound) (hw : Without k s₁ s₂) (hhand : s₁.hand = some k) (j : Nat) :
    Without k (recvStep s₁ j) (recvStep s₂ j) := by
  by_cases hj : j = k
  · -- the receive task of `k` does not exist yet
    subst hj
    have hat := (h.hand j).mpr hhand
    have h₂ : s₂.phase j = .closed := by rw [hw.phase, Function.update_self]
    have hstay : recvStep s₁ j = s₁ := by
      unfold recvStep
      split
      · next hk => rw [hk] at hat; cases hat
      · next hk => rw [hk] at hat; cases hat
      · next hk => rw [hk] at hat; cases hat
      · rfl
    rw [hstay, recvStep, h₂]
    exact hw
  · have h₂ : s₂.phase j = s₁.phase j := by rw [hw.phase, Function.update_of_ne hj]
    have hphase : ∀ p, Function.update s₂.phase j p =
        Function.update (Function.update s₁.phase j p) k .closed :=
      fun p => by rw [hw.phase, Function.update_comm (Ne.symm hj)]
    unfold recvStep
    rw [h₂]
    split
    · exact ⟨by
        change localSessionRelease s₂.pool j = _
        rw [hw.pool, release_release_comm h.pool]
        rfl, hw.accounts, hphase _⟩
    · exact ⟨hw.pool, by
        change s₂.accounts.erase j = (s₁.accounts.erase j).erase k
        rw [hw.accounts, removeAccount, List.erase_comm], hphase _⟩
    · exact ⟨hw.pool, hw.accounts, hphase _⟩
    · exact hw

theorem listenerStep_hand (s : Server) (k : Nat) (taskOk : Bool) :
    (listenerStep s k taskOk).hand = s.hand ∨ (listenerStep s k taskOk).hand = none := by
  unfold listenerStep
  split
  · exact .inl rfl
  · split <;> exact .inl rfl
  · split <;> exact .inl rfl
  · split <;> exact .inl rfl
  · split
    · exact .inr rfl
    · exact .inl rfl
  · exact .inl rfl
  · exact .inl rfl
  · exact .inr rfl
  · exact .inl rfl

theorem recvStep_hand (s : Server) (k : Nat) : (recvStep s k).hand = s.hand := by
  unfold recvStep
  split <;> rfl

theorem hand_of_step {e : ServerEvent} (he : e.isConnect = false)
    (h : (serverStep s e).hand = some k) : s.hand = some k := by
  cases e with
  | connect sock peerIp => cases he
  | listener taskOk =>
    rcases hs : s.hand with _ | a
    · simp only [serverStep, hs] at h
      cases h
    · simp only [serverStep, hs] at h
      rcases listenerStep_hand s a taskOk with hsame | hnone
      · rw [← hs, ← hsame, h]
      · rw [hnone] at h
        cases h
  | recv sock => rwa [serverStep, recvStep_hand] at h
  | work g => exact h

theorem hand_of_run {es : List ServerEvent} (hes : ∀ e ∈ es, e.isConnect = false)
    (h : (run serverStep s es).hand = some k) : s.hand = some k := by
  induction es generalizing s with
  | nil => exact h
  | cons e es ih =>
    exact hand_of_step (hes e List.mem_cons_self)
      (ih (fun e' he' => hes e' (List.mem_cons_of_mem _ he')) h)

theorem Without.run {es : List ServerEvent} (h : s₁.Sound) (hw : Without k s₁ s₂)
    (hes : ∀ e ∈ es, e.isConnect = false) (hhand : (run serverStep s₁ es).hand = some k) :
    Without k (run serverStep s₁ es)
      (run serverStep s₂ (es.filter fun e => !e.byListener)) := by
  induction es generalizing s₁ s₂ with
  | nil => exact hw
  | cons e es ih =>
    have hrest : ∀ e ∈ es, e.isConnect = false := fun e' he' => hes e' (List.mem_cons_of_mem _ he')
    have hsound := (serverStep_moves s₁ e).sound h
    have hstep : (serverStep s₁ e).hand = some k := hand_of_run hrest hhand
    have hbefore : s₁.hand = some k := hand_of_step (hes e List.mem_cons_self) hstep
    cases e with
    | connect sock peerIp =>
      have hconnect := hes _ List.mem_cons_self
      cases hconnect
    | listener taskOk =>
      refine ih hsound ?_ hrest hhand
      simp only [serverStep, hbefore] at hstep ⊢
      exact hw.listener h taskOk hstep
    | recv j => exact ih hsound (hw.recv h hbefore j) hrest hhand
    | work g =>
      refine ih hsound ⟨?_, hw.accounts, hw.phase⟩ hrest hhand
      change workOn g s₂.pool = localSessionRelease (workOn g s₁.pool) k
      rw [hw.pool, release_workOn h.pool]

theorem refused_unchanged (h : s.Sound) {es : List ServerEvent} {peerIp : UInt32}
    (hfree : s.hand = none) (hes : ∀ e ∈ es, e.isConnect = false)
    (href : (run serverStep s (.connect k peerIp :: es)).phase k = .refusing) :
    (run serverStep s (.connect k peerIp :: es)).pool =
        (run serverStep s (es.filter fun e => !e.byListener)).pool ∧
      (run serverStep s (.connect k peerIp :: es)).accounts =
        (run serverStep s (es.filter fun e => !e.byListener)).accounts := by
  have hsound := (serverStep_moves s (.connect k peerIp)).sound h
  have hend : (run serverStep (serverStep s (.connect k peerIp)) es).Sound :=
    history_induction (s := serverStep s (.connect k peerIp)) (Q := fun _ s => s.Sound) hsound
      (fun _ u e hu => (serverStep_moves u e).sound hu) es
  rw [run_cons] at href ⊢
  have hhand : (run serverStep (serverStep s (.connect k peerIp)) es).hand = some k :=
    hend.hand_of (by rw [href]; rfl)
  have hopen : s.phase k = .closed := by
    by_contra hopen
    have hstay : serverStep s (.connect k peerIp) = s := if_neg fun hc => hopen hc.2
    have := hand_of_run hes hhand
    rw [hstay, hfree] at this
    cases this
  have hstart : Without k (serverStep s (.connect k peerIp)) s := by
    have hout : k ∉ s.accounts := by
      rw [← h.listed k, hopen]
      exact Bool.false_ne_true
    rw [serverStep, if_pos ⟨hfree, hopen⟩]
    refine ⟨?_, ?_, ?_⟩
    · exact (localSessionRelease_absent (h.pool.absent (by rw [hopen]; rfl))).symm
    · exact (List.erase_of_not_mem hout).symm
    · change s.phase = Function.update (Function.update s.phase k .accepted) k .closed
      rw [Function.update_idem, ← hopen, Function.update_eq_self]
  exact (hstart.run hsound hes hhand).eq hend (by rw [href]; rfl) (by rw [href]; rfl)

end Refused

/-! ## Rounds without interruption -/

section Rounds

variable {s : Server} {pool : Pool} {accounts : List Nat} {peerIp : UInt32}

theorem waiting_round (h : s.hand = none) (taskOk : Bool) (n : Nat) :
    run serverStep s (List.replicate n (.listener taskOk)) = s := by
  induction n with
  | zero => rfl
  | succ n ih =>
    rw [List.replicate_succ, run_cons]
    simp only [serverStep, h]
    exact ih

theorem admitted_round (w : World) {k : Nat} (hhand : s.hand = some k)
    (hk : s.phase k = .admitted) (hpool : s.pool = pool) (haccounts : s.accounts = accounts)
    (hpeerIp : s.peerIp = peerIp) (taskOk : Bool) :
    let s' := run serverStep s (List.replicate 6 (.listener taskOk))
    let w' : World := match addAccount accounts k with
      | none => { w with pool := pool, accounts := accounts }
      | some accounts =>
        match localSessionAcquire pool k peerIp with
        | (none, _) => { w with pool := pool, accounts := removeAccount accounts k }
        | (some _, pool) =>
          if taskOk then { w with pool := pool, accounts := accounts }
          else { w with pool := localSessionRelease pool k, accounts := removeAccount accounts k }
    s'.pool = w'.pool ∧ s'.accounts = w'.accounts ∧ s'.hand = none := by
  subst hpool haccounts hpeerIp
  simp only [List.replicate, run_cons, run_nil]
  rcases hadd : addAccount s.accounts k with _ | accounts
  · simp [serverStep, listenerStep, Server.go, hhand, hk, hadd]
  · rcases hacq : localSessionAcquire s.pool k s.peerIp with ⟨_ | i, pool⟩
    · simp [serverStep, listenerStep, Server.go, hhand, hk, hadd, hacq]
    · cases taskOk with
      | true => simp [serverStep, listenerStep, Server.go, hhand, hk, hadd, hacq]
      | false => simp [serverStep, listenerStep, Server.go, hhand, hk, hadd, hacq]

theorem accepted_round (w : World) {k : Nat} (hhand : s.hand = some k)
    (hk : s.phase k = .accepted) (hpool : s.pool = pool) (haccounts : s.accounts = accounts)
    (hpeerIp : s.peerIp = peerIp) (hfind : ¬(localSessionFind pool k).isSome = true)
    (taskOk : Bool) :
    let s' := run serverStep s (List.replicate 8 (.listener taskOk))
    let w' := acceptConnection { w with pool := pool, accounts := accounts } k peerIp taskOk
    s'.pool = w'.pool ∧ s'.accounts = w'.accounts ∧ s'.hand = none := by
  subst hpool haccounts hpeerIp
  have hfirst : serverStep s (.listener taskOk) = s.go k
      (if tcpClientMax ≤ localSessionCount s.pool then .atCap else .admitted) := by
    simp only [serverStep, hhand, listenerStep, hk]
  rw [acceptConnection, if_neg hfind, List.replicate_succ, run_cons, hfirst]
  by_cases hcount : tcpClientMax ≤ localSessionCount s.pool
  · rw [if_pos hcount, List.replicate_succ, run_cons]
    by_cases hpeer : localSessionShutdownPeer s.pool s.peerIp = 0
    · have hsecond : serverStep (s.go k .atCap) (.listener taskOk) =
          (s.go k .atCap).go k .refusing := by
        simp [serverStep, Server.go, hhand, listenerStep, hpeer]
      have hthird : serverStep ((s.go k .atCap).go k .refusing) (.listener taskOk) =
          { (s.go k .atCap).go k .refusing with hand := none }.go k .closed := by
        simp [serverStep, Server.go, hhand, listenerStep]
      rw [if_pos ⟨hcount, hpeer⟩, hsecond, List.replicate_succ, run_cons, hthird,
        waiting_round rfl]
      exact ⟨rfl, rfl, rfl⟩
    · have hsecond : serverStep (s.go k .atCap) (.listener taskOk) =
          { s.go k .atCap with shut := shutPeerSocks s.pool s.peerIp s.shut }.go k .admitted := by
        simp [serverStep, Server.go, hhand, listenerStep, hpeer]
      rw [if_neg fun hcap => hpeer hcap.2, hsecond]
      refine admitted_round w ?_ ?_ rfl rfl rfl taskOk
      · exact hhand
      · exact Function.update_self ..
  · have hround := admitted_round (s := s.go k .admitted) w hhand (Function.update_self ..)
      rfl rfl rfl taskOk
    rw [if_neg hcount, if_neg fun hcap => hcount hcap.1, List.replicate_add 6 1, run_append,
      waiting_round hround.2.2]
    exact hround

/-- A round of the listener that nothing interrupts is the accept of the device. -/
theorem acceptConnection_round (h : s.Sound) (w : World) {sock : Nat} (hfree : s.hand = none)
    (hopen : s.phase sock = .closed) (peerIp : UInt32) (taskOk : Bool) :
    let s' := run serverStep s (.connect sock peerIp :: List.replicate 8 (.listener taskOk))
    let w' := acceptConnection { w with pool := s.pool, accounts := s.accounts } sock peerIp taskOk
    s'.pool = w'.pool ∧ s'.accounts = w'.accounts ∧ s'.hand = none := by
  have hfind : ¬(localSessionFind s.pool sock).isSome = true := by
    rw [Bool.not_eq_true, Option.isSome_eq_false_iff, Option.isNone_iff_eq_none]
    exact findSlot_eq_none.mpr fun i => by
      simpa using h.pool.absent (by rw [hopen]; rfl) i
  have hconnect : serverStep s (.connect sock peerIp) =
      { s with
        hand := some sock, peerIp := peerIp
        shut := Function.update s.shut sock false }.go sock .accepted := if_pos ⟨hfree, hopen⟩
  have hphase : (serverStep s (.connect sock peerIp)).phase sock = .accepted := by
    rw [hconnect]
    exact Function.update_self ..
  exact accepted_round (s := serverStep s (.connect sock peerIp)) w (by rw [hconnect]; rfl) hphase
    (by rw [hconnect]; rfl) (by rw [hconnect]; rfl) (by rw [hconnect]; rfl) hfind taskOk

/-- A receive task that nothing interrupts on its way out is the close of the device. -/
theorem closeConnection_round (w : World) {sock : Nat} (hrun : s.phase sock = .running) :
    let s' := run serverStep s (List.replicate 3 (.recv sock))
    let w' := closeConnection { w with pool := s.pool, accounts := s.accounts } sock
    s'.pool = w'.pool ∧ s'.accounts = w'.accounts ∧ s'.phase sock = .closed := by
  simp [List.replicate, serverStep, recvStep, Server.go, hrun, closeConnection]

end Rounds

/-- In every order of connections, calls of the listener and ends of receive tasks: at most
`TCP_CLIENT_MAX` sessions are not shut down, the socket of every session stands once in the
pool and once in the list, every running receive task has its session, and a connection that
is refused leaves pool and list as they would be had it never come. -/
theorem connection_cap (es : List ServerEvent) :
    let s := run serverStep {} es
    s.live ≤ tcpClientMax ∧
      (∀ i k, (s.pool i).sock = some k →
        (∀ j, (s.pool j).sock = some k → j = i) ∧ s.accounts.count k = 1) ∧
      (∀ k, s.phase k = .running → ∃ i, (s.pool i).sock = some k) ∧
      ∀ k peerIp es', s.hand = none → (∀ e ∈ es', e.isConnect = false) →
        let s₁ := run serverStep s (.connect k peerIp :: es')
        let s₂ := run serverStep s (es'.filter fun e => !e.byListener)
        s₁.phase k = .refusing → s₁.pool = s₂.pool ∧ s₁.accounts = s₂.accounts := by
  intro s
  obtain ⟨hsound, hcapped⟩ := run_server es
  refine ⟨?_, ?_, ?_, ?_⟩
  · rw [Server.live_eq]
    exact (Admission.number_live_le_weight _).trans hcapped.weight
  · intro i k hi
    refine ⟨fun j hj => hsound.pool.inj hj hi, ?_⟩
    have hseated := (hsound.pool.seated k).mpr ⟨i, hi⟩
    have hlisted : (s.phase k).listed = true := by
      revert hseated
      cases s.phase k <;> decide
    exact List.count_eq_one_of_mem hsound.nodup ((hsound.listed k).mp hlisted)
  · intro k hk
    exact (hsound.pool.seated k).mp (by rw [hk]; rfl)
  · intro k peerIp es' hfree hes s₁ s₂ href
    exact refused_unchanged hsound hfree hes href

def phoneComesBack : List ServerEvent :=
  ([(10, 1), (11, 2), (12, 3), (13, 1)] : List (Nat × UInt32)).flatMap fun c =>
    .connect c.1 c.2 :: List.replicate 8 (.listener true)

theorem connection_cap_comesBack :
    let s := run serverStep {} phoneComesBack
    let s₁ := run serverStep s [.connect 14 4, .listener true, .recv 11, .listener true]
    s.live = tcpClientMax ∧ localSessionCount s.pool = 4 ∧ s₁.phase 14 = .refusing ∧
      s.live ≤ tcpClientMax ∧ s₁.pool = (run serverStep s [.recv 11]).pool := by
  refine ⟨by decide, by decide, by decide, (connection_cap phoneComesBack).1, ?_⟩
  exact ((connection_cap phoneComesBack).2.2.2 14 4
    [.listener true, .recv 11, .listener true] (by decide) (by decide) (by decide)).1

end CyThing
