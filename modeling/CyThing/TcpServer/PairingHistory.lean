import CyThing.Lib.Trace
import CyThing.Sample
import CyThing.TcpServer.Pairing

/-! Wi-Fi pairing over any lines from any sockets and timer expiries: the one global step counter
says what the history says, so that a commit is traced back to its `StartP`. -/

namespace CyThing
open CLib Trace

/-! ## Lines -/

inductive PairingCommand
  | start
  | ssid (value : Bytes)
  | pass (value : Bytes)
  | finish
  deriving DecidableEq

def pairingField (text pre : Bytes) : Bytes :=
  (text.drop pre.length).take (text.length - pre.length - 1)

def pairingCommand (P : Platform) (line : Bytes) : Option PairingCommand :=
  let text := cstr (line ++ [10])
  if hasPrefix line (ascii "StartP") then some .start
  else if isPairingCommandValid text P.routerSsidPrefix [10] then
    some (.ssid (pairingField text P.routerSsidPrefix))
  else if isPairingCommandValid text P.routerPassPrefix [10] then
    some (.pass (pairingField text P.routerPassPrefix))
  else if hasPrefix line (ascii "FinishP") then some .finish
  else none

def pairingCut (value : Bytes) : Bytes := value.take 127

theorem pairingValue_eq (text pre : Bytes) :
    pairingValue text pre [10] 128 = pairingCut (pairingField text pre) := by
  rw [pairingValue, pairingCut, pairingField, List.take_take, List.length_singleton]
  exact congrArg (fun n => (text.drop pre.length).take n) (Nat.min_comm _ _)

def PairingCommand.awaited (p : PairingState) : PairingCommand → Bool
  | .start => true
  | .ssid _ => p.step = .setRouterSsid
  | .pass _ => p.step = .setRouterPass
  | .finish => p.step = .finishPairing

def PairingCommand.take (flashOk : Bool) (p : PairingState) : PairingCommand → PairingState
  | .start => { p with step := .setRouterSsid }
  | .ssid value => { p with tempSsid := pairingCut value, step := .setRouterPass }
  | .pass value => { p with tempPassword := pairingCut value, step := .finishPairing }
  | .finish => { pairingCommit flashOk p with step := .startPairing }

theorem pairingHandleLine_eq (P : Platform) (flashOk : Bool) (p : PairingState) (line : Bytes) :
    pairingHandleLine P flashOk p line = (pairingCommand P line).map fun l =>
      if l.awaited p then (l.take flashOk p, true) else (p, false) := by
  simp only [pairingHandleLine, pairingCommand, pairingValue_eq]
  split_ifs <;> simp_all [PairingCommand.awaited, PairingCommand.take]

theorem pairingCommand_finish_iff {P : Platform} (hs : P.routerSsidPrefix = ascii "ssid:")
    (hp : P.routerPassPrefix = ascii "pass:") {line : Bytes} :
    pairingCommand P line = some .finish ↔ hasPrefix line (ascii "FinishP") = true := by
  simp only [pairingCommand, hs, hp]
  constructor
  · intro h
    split_ifs at h with h₁ h₂ h₃ h₄
    · cases h
    · cases h
    · cases h
    · exact h₄
  · intro h
    have hclash : ∀ pre ∈ [ascii "ssid:", ascii "pass:"],
        isPairingCommandValid (cstr (line ++ [10])) pre [10] = false := by
      intro pre hpre
      have hclash : hasPrefix pre (ascii "FinishP") = false ∧
          hasPrefix (ascii "FinishP") pre = false := by
        rcases List.mem_pair.mp hpre with rfl | rfl <;> decide +kernel
      have hno : hasPrefix (cstr (line ++ [10])) pre = false := by
        refine not_hasPrefix_of_hasPrefix hclash (hasPrefix_iff.mpr ?_)
        obtain ⟨rest, rfl⟩ := hasPrefix_iff.mp h
        rw [List.append_assoc, cstr, List.takeWhile_append_of_pos (by decide +kernel)]
        exact List.prefix_append _ _
      rw [isPairingCommandValid, hno, Bool.and_false, Bool.false_and]
    have hstart : hasPrefix line (ascii "StartP") = false :=
      not_hasPrefix_of_hasPrefix (p := ascii "FinishP") (by decide +kernel) h
    rw [hstart, hclash (ascii "ssid:") (by simp), hclash (ascii "pass:") (by simp), h]
    rfl

/-! ## Runs -/

inductive PairingEvent
  /-- A line on a socket, and what `flash_store_wifi_router_info` returns if it is called. -/
  | line (sock : Int) (bytes : Bytes) (flashOk : Bool)
  /-- The inactivity timer expires. -/
  | timeout
  deriving DecidableEq

def pairingStep (P : Platform) (p : PairingState) : PairingEvent → PairingState
  | .line _ bytes flashOk =>
    match pairingHandleLine P flashOk p bytes with
    | some (p', _) => p'
    | none => p
  | .timeout => pairingTimeoutCb p

def pairingAcks (P : Platform) (p : PairingState) : PairingEvent → Bool
  | .line _ bytes flashOk =>
    match pairingHandleLine P flashOk p bytes with
    | some (_, ack) => ack
    | none => false
  | .timeout => false

def PairingEvent.command (P : Platform) : PairingEvent → Option PairingCommand
  | .line _ bytes _ => pairingCommand P bytes
  | .timeout => none

def PairingEvent.flashOk : PairingEvent → Bool
  | .line _ _ flashOk => flashOk
  | .timeout => false

def commitCall (P : Platform) (p : PairingState) (e : PairingEvent) : Option (Bytes × Bytes) :=
  if e.command P = some .finish ∧ p.step = .finishPairing then some (p.tempSsid, p.tempPassword)
  else none

abbrev pairingRun (P : Platform) (events : List PairingEvent) : PairingState :=
  run (pairingStep P) {} events

abbrev pairingTrace (P : Platform) (events : List PairingEvent) :
    List (Step PairingState PairingEvent) :=
  trace (pairingStep P) {} events

section OneStep

variable {P : Platform} {p : PairingState} {e : PairingEvent}

def PairingEvent.taken (P : Platform) (p : PairingState) (e : PairingEvent) : Bool :=
  (e.command P).any (PairingCommand.awaited p)

theorem pairingAcks_eq (P : Platform) (p : PairingState) (e : PairingEvent) :
    pairingAcks P p e = e.taken P p := by
  cases e with
  | timeout => rfl
  | line sock bytes flashOk =>
    simp only [pairingAcks, pairingHandleLine_eq, PairingEvent.taken, PairingEvent.command]
    cases pairingCommand P bytes with
    | none => rfl
    | some l =>
      cases h : l.awaited p <;> simp [h]

theorem pairingStep_of_command {l : PairingCommand} (h : e.command P = some l) :
    pairingStep P p e = if l.awaited p then l.take e.flashOk p else p := by
  cases e with
  | timeout => cases h
  | line sock bytes flashOk =>
    have h : pairingCommand P bytes = some l := h
    simp only [pairingStep, pairingHandleLine_eq, h, Option.map_some, PairingEvent.flashOk]
    split_ifs <;> rfl

theorem pairingStep_of_not_taken (hline : e ≠ .timeout) (h : e.taken P p = false) :
    pairingStep P p e = p := by
  cases hc : e.command P with
  | none =>
    cases e with
    | timeout => exact absurd rfl hline
    | line sock bytes flashOk =>
      have hc : pairingCommand P bytes = none := hc
      simp only [pairingStep, pairingHandleLine_eq, hc, Option.map_none]
  | some l =>
    rw [PairingEvent.taken, hc, Option.any_some] at h
    rw [pairingStep_of_command hc, h, if_neg Bool.false_ne_true]

theorem commitCall_eq (P : Platform) (p : PairingState) (sock : Int) (bytes : Bytes)
    (flashOk : Bool) : commitCall P p (.line sock bytes flashOk) =
      (pairingStep P { p with stored := none } (.line sock bytes true)).stored := by
  have hcmd : (PairingEvent.line sock bytes flashOk).command P = pairingCommand P bytes := rfl
  rw [commitCall, hcmd]
  cases hc : pairingCommand P bytes with
  | none =>
    rw [pairingStep_of_not_taken (by simp) (by simp [PairingEvent.taken, PairingEvent.command, hc])]
    simp
  | some l =>
    rw [pairingStep_of_command (e := .line sock bytes true) (l := l) hc]
    cases l <;>
      simp [PairingCommand.awaited, PairingCommand.take, pairingCommit, PairingEvent.flashOk,
        apply_ite PairingState.stored]

end OneStep

/-! ## What the step counter knows of the past -/

section History

variable (P : Platform)

def PairingQuiet (t : Step PairingState PairingEvent) : Prop :=
  t.event.command P ≠ some .start ∧ t.event ≠ .timeout ∧ commitCall P t.before t.event = none

def Started : List (Step PairingState PairingEvent) → Prop :=
  After (fun _ => True) (fun t => t.event.command P = some .start) fun t =>
    PairingQuiet P t ∧ ∀ value, t.event.command P ≠ some (.ssid value)

def GotSsid (ssid : Bytes) : List (Step PairingState PairingEvent) → Prop :=
  After (Started P) (fun t => t.event.command P = some (.ssid ssid)) fun t =>
    PairingQuiet P t ∧ ∀ value, t.event.command P ≠ some (.pass value)

def GotPass (ssid pass : Bytes) : List (Step PairingState PairingEvent) → Prop :=
  After (GotSsid P ssid) (fun t => t.event.command P = some (.pass pass)) (PairingQuiet P)

structure Remembers (tr : List (Step PairingState PairingEvent)) (p : PairingState) : Prop where
  started : p.step = .setRouterSsid ↔ Started P tr
  gotSsid : ∀ s, p.step = .setRouterPass ∧ p.tempSsid = s ↔
    ∃ ssid, GotSsid P ssid tr ∧ s = pairingCut ssid
  gotPass : ∀ s w, p.step = .finishPairing ∧ p.tempSsid = s ∧ p.tempPassword = w ↔
    ∃ ssid pass, GotPass P ssid pass tr ∧ s = pairingCut ssid ∧ w = pairingCut pass

end History

section Step

variable {P : Platform} {tr : List (Step PairingState PairingEvent)} {p p' : PairingState}
  {e : PairingEvent}

section Concat

variable {t : Step PairingState PairingEvent} {ssid pass : Bytes}

theorem started_concat : Started P (tr ++ [t]) ↔ t.event.command P = some .start ∨
    Started P tr ∧ PairingQuiet P t ∧ ∀ value, t.event.command P ≠ some (.ssid value) := by
  rw [Started, after_concat_iff, true_and]

theorem gotSsid_concat : GotSsid P ssid (tr ++ [t]) ↔
    Started P tr ∧ t.event.command P = some (.ssid ssid) ∨
      GotSsid P ssid tr ∧ PairingQuiet P t ∧ ∀ value, t.event.command P ≠ some (.pass value) :=
  after_concat_iff

theorem gotPass_concat : GotPass P ssid pass (tr ++ [t]) ↔
    GotSsid P ssid tr ∧ t.event.command P = some (.pass pass) ∨
      GotPass P ssid pass tr ∧ PairingQuiet P t :=
  after_concat_iff

end Concat

theorem remembers_init (P : Platform) : Remembers P [] {} where
  started := iff_of_false (by decide) not_after_nil
  gotSsid s := iff_of_false (by simp) (by rintro ⟨ssid, h, -⟩; exact not_after_nil h)
  gotPass s w := iff_of_false (by simp) (by rintro ⟨ssid, pass, h, -⟩; exact not_after_nil h)

theorem Remembers.forget (hp' : p'.step = .startPairing)
    (hstart : e.command P ≠ some .start) (hssid : ∀ value, e.command P ≠ some (.ssid value))
    (hpass : ∀ value, e.command P ≠ some (.pass value)) (hloud : ¬ PairingQuiet P ⟨p, e, p'⟩) :
    Remembers P (tr ++ [⟨p, e, p'⟩]) p' where
  started := by simp [started_concat, hp', hstart, hloud]
  gotSsid s := by simp [gotSsid_concat, hp', hssid, hloud]
  gotPass s w := by simp [gotPass_concat, hp', hpass, hloud]

theorem Remembers.keep (h : Remembers P tr p) (hstart : e.command P ≠ some .start)
    (hquiet : PairingQuiet P ⟨p, e, p⟩)
    (hssid : p.step = .setRouterSsid → ∀ value, e.command P ≠ some (.ssid value))
    (hpass : p.step = .setRouterPass → ∀ value, e.command P ≠ some (.pass value)) :
    Remembers P (tr ++ [⟨p, e, p⟩]) p where
  started := by
    rw [started_concat, ← h.started, or_iff_right hstart]
    exact ⟨fun hs => ⟨hs, hquiet, hssid hs⟩, And.left⟩
  gotSsid s := by
    rw [h.gotSsid]
    refine exists_congr fun ssid => and_congr_left fun hs => ?_
    rw [gotSsid_concat]
    constructor
    · intro hg
      exact .inr ⟨hg, hquiet, hpass ((h.gotSsid s).mpr ⟨ssid, hg, hs⟩).1⟩
    · rintro (⟨hg, hc⟩ | ⟨hg, -⟩)
      · exact absurd hc (hssid (h.started.mpr hg) ssid)
      · exact hg
  gotPass s w := by
    rw [h.gotPass]
    refine exists_congr fun ssid => exists_congr fun pass => and_congr_left fun hs => ?_
    rw [gotPass_concat]
    constructor
    · exact fun hg => .inr ⟨hg, hquiet⟩
    · rintro (⟨hg, hc⟩ | ⟨hg, -⟩)
      · exact absurd hc (hpass ((h.gotSsid (pairingCut ssid)).mpr ⟨ssid, hg, rfl⟩).1 pass)
      · exact hg

theorem Remembers.not_gotSsid (h : Remembers P tr p) (hstep : p.step ≠ .setRouterPass)
    (ssid : Bytes) : ¬ GotSsid P ssid tr :=
  fun hg => hstep ((h.gotSsid _).mpr ⟨ssid, hg, rfl⟩).1

theorem Remembers.not_gotPass (h : Remembers P tr p) (hstep : p.step ≠ .finishPairing)
    (ssid pass : Bytes) : ¬ GotPass P ssid pass tr :=
  fun hg => hstep ((h.gotPass _ _).mpr ⟨ssid, pass, hg, rfl, rfl⟩).1

theorem pairingQuiet_of_command {l : PairingCommand} (hc : e.command P = some l)
    (hstart : l ≠ .start) (hfinish : l = .finish → p.step ≠ .finishPairing) :
    PairingQuiet P ⟨p, e, p'⟩ := by
  refine ⟨?_, ?_, if_neg ?_⟩
  · rw [hc]
    exact fun h => hstart (Option.some_inj.mp h)
  · rintro rfl
    cases hc
  · rintro ⟨h, hstep⟩
    rw [hc] at h
    exact hfinish (Option.some_inj.mp h) hstep

theorem Remembers.start (hc : e.command P = some .start) (hp' : p'.step = .setRouterSsid) :
    Remembers P (tr ++ [⟨p, e, p'⟩]) p' := by
  have hloud : ¬ PairingQuiet P ⟨p, e, p'⟩ := fun h => h.1 hc
  constructor
  · simp [started_concat, hc, hp']
  · simp [gotSsid_concat, hc, hp', hloud]
  · simp [gotPass_concat, hc, hp', hloud]

theorem Remembers.ssid (h : Remembers P tr p) {value : Bytes}
    (hc : e.command P = some (.ssid value)) (hstep : p.step = .setRouterSsid)
    (hp' : p' = { p with tempSsid := pairingCut value, step := .setRouterPass }) :
    Remembers P (tr ++ [⟨p, e, p'⟩]) p' := by
  have hnoSsid := h.not_gotSsid (by rw [hstep]; decide)
  have hnoPass := h.not_gotPass (by rw [hstep]; decide)
  constructor
  · simp [started_concat, hc, hp']
  · intro s
    simp [gotSsid_concat, ← h.started, hnoSsid, hstep, hc, hp', eq_comm]
  · simp [gotPass_concat, hnoPass, hc, hp']

theorem Remembers.pass (h : Remembers P tr p) {value : Bytes}
    (hc : e.command P = some (.pass value)) (hstep : p.step = .setRouterPass)
    (hp' : p' = { p with tempPassword := pairingCut value, step := .finishPairing }) :
    Remembers P (tr ++ [⟨p, e, p'⟩]) p' := by
  have hnoPass := h.not_gotPass (by rw [hstep]; decide)
  constructor
  · simp [started_concat, ← h.started, hstep, hc, hp']
  · simp [gotSsid_concat, hc, hp']
  · intro s w
    have hssid : p.tempSsid = s ↔ ∃ ssid, GotSsid P ssid tr ∧ s = pairingCut ssid := by
      rw [← h.gotSsid, and_iff_right hstep]
    simp only [gotPass_concat, hnoPass, false_and, or_false, hc, hp', true_and, hssid,
      Option.some_inj, PairingCommand.pass.injEq]
    constructor
    · rintro ⟨⟨ssid, hg, hs⟩, hw⟩
      exact ⟨ssid, value, ⟨hg, rfl⟩, hs, hw.symm⟩
    · rintro ⟨ssid, pass, ⟨hg, rfl⟩, hs, hw⟩
      exact ⟨⟨ssid, hg, hs⟩, hw.symm⟩

theorem Remembers.skip (h : Remembers P tr p) {l : PairingCommand} (hc : e.command P = some l)
    (hnot : ¬ l.awaited p = true) : Remembers P (tr ++ [⟨p, e, p⟩]) p := by
  have hstart : l ≠ .start := by
    rintro rfl
    exact hnot rfl
  refine h.keep (by rw [hc]; exact fun hs => hstart (Option.some_inj.mp hs))
    (pairingQuiet_of_command hc hstart ?_) ?_ ?_
  · rintro rfl hstep
    exact hnot (by simp [PairingCommand.awaited, hstep])
  · rintro hstep value hl
    rw [hc, Option.some_inj] at hl
    exact hnot (by simp [hl, PairingCommand.awaited, hstep])
  · rintro hstep value hl
    rw [hc, Option.some_inj] at hl
    exact hnot (by simp [hl, PairingCommand.awaited, hstep])

theorem Remembers.step (h : Remembers P tr p) (e : PairingEvent) :
    Remembers P (tr ++ [⟨p, e, pairingStep P p e⟩]) (pairingStep P p e) := by
  cases hc : e.command P with
  | none =>
    have hnot (l : PairingCommand) : e.command P ≠ some l := by simp [hc]
    cases e with
    | timeout =>
      exact .forget rfl (hnot _) (fun _ => hnot _) (fun _ => hnot _) fun hq => hq.2.1 rfl
    | line sock bytes flashOk =>
      have hline : PairingEvent.line sock bytes flashOk ≠ .timeout := by rintro ⟨⟩
      rw [pairingStep_of_not_taken hline (by rw [PairingEvent.taken, hc]; rfl)]
      exact h.keep (hnot _) ⟨hnot _, hline, if_neg fun hf => hnot _ hf.1⟩ (fun _ _ => hnot _)
        fun _ _ => hnot _
  | some l =>
    rw [pairingStep_of_command hc]
    by_cases hawait : l.awaited p = true
    · rw [if_pos hawait]
      cases l with
      | start => exact .start hc rfl
      | ssid value => exact h.ssid hc (by simpa [PairingCommand.awaited] using hawait) rfl
      | pass value => exact h.pass hc (by simpa [PairingCommand.awaited] using hawait) rfl
      | finish =>
        have hstep : p.step = .finishPairing := by simpa [PairingCommand.awaited] using hawait
        refine .forget rfl (by simp [hc]) (by simp [hc]) (by simp [hc]) fun hq => ?_
        have hno := hq.2.2
        simp [commitCall, hc, hstep] at hno
    · rw [if_neg hawait]
      exact h.skip hc hawait

end Step

theorem remembers_run (P : Platform) (events : List PairingEvent) :
    Remembers P (pairingTrace P events) (pairingRun P events) :=
  history_induction (Q := Remembers P) (remembers_init P) (fun _ _ e h => h.step e) events

/-! ## Commits, inert lines and the answer to `FinishP` -/

def PairingCommand.HasTurn (P : Platform) (tr : List (Step PairingState PairingEvent)) :
    PairingCommand → Prop
  | .start => True
  | .ssid _ => Started P tr
  | .pass _ => ∃ ssid, GotSsid P ssid tr
  | .finish => ∃ ssid pass, GotPass P ssid pass tr

theorem Remembers.awaited_iff {P : Platform} {tr : List (Step PairingState PairingEvent)}
    {p : PairingState} (h : Remembers P tr p) (l : PairingCommand) :
    l.awaited p = true ↔ l.HasTurn P tr := by
  cases l with
  | start => exact iff_of_true rfl trivial
  | ssid value =>
    rw [PairingCommand.awaited, decide_eq_true_eq]
    exact h.started
  | pass value =>
    rw [PairingCommand.awaited, decide_eq_true_eq]
    constructor
    · intro hstep
      obtain ⟨ssid, hg, -⟩ := (h.gotSsid p.tempSsid).mp ⟨hstep, rfl⟩
      exact ⟨ssid, hg⟩
    · rintro ⟨ssid, hg⟩
      exact ((h.gotSsid _).mpr ⟨ssid, hg, rfl⟩).1
  | finish =>
    rw [PairingCommand.awaited, decide_eq_true_eq]
    constructor
    · intro hstep
      obtain ⟨ssid, pass, hg, -⟩ := (h.gotPass p.tempSsid p.tempPassword).mp ⟨hstep, rfl, rfl⟩
      exact ⟨ssid, pass, hg⟩
    · rintro ⟨ssid, pass, hg⟩
      exact ((h.gotPass _ _).mpr ⟨ssid, pass, hg, rfl, rfl⟩).1

theorem Remembers.commitCall_iff {P : Platform} {tr : List (Step PairingState PairingEvent)}
    {p : PairingState} (h : Remembers P tr p) (e : PairingEvent) (s w : Bytes) :
    commitCall P p e = some (s, w) ↔ e.command P = some .finish ∧
      ∃ ssid pass, GotPass P ssid pass tr ∧ s = pairingCut ssid ∧ w = pairingCut pass := by
  rw [← h.gotPass, commitCall]
  split
  · next hcall => simp [hcall]
  · next hcall =>
    simp only [reduceCtorEq, false_iff]
    exact fun hc => hcall ⟨hc.1, hc.2.1⟩

theorem finish_acked_iff {P : Platform} {p : PairingState} {e : PairingEvent} :
    e.command P = some .finish ∧ pairingAcks P p e = true ↔ (commitCall P p e).isSome := by
  rw [pairingAcks_eq, PairingEvent.taken, commitCall]
  constructor
  · rintro ⟨hc, hack⟩
    rw [hc, Option.any_some, PairingCommand.awaited, decide_eq_true_eq] at hack
    rw [if_pos ⟨hc, hack⟩]
    rfl
  · intro h
    split at h
    · next hcall => simp [hcall, PairingCommand.awaited]
    · cases h

def FinishStores (t : Step PairingState PairingEvent) : Prop :=
  t.event.flashOk = true ∧ t.after.stored = some (t.before.tempSsid, t.before.tempPassword)

theorem finishStores_iff {P : Platform} {p : PairingState} {e : PairingEvent}
    (h : (commitCall P p e).isSome) :
    FinishStores ⟨p, e, pairingStep P p e⟩ ↔ e.flashOk = true := by
  refine ⟨And.left, fun hflash => ⟨hflash, ?_⟩⟩
  have hcall : e.command P = some .finish ∧ p.step = .finishPairing := by
    by_contra hno
    rw [commitCall, if_neg hno] at h
    cases h
  have hawait : PairingCommand.finish.awaited p = true := by
    simp [PairingCommand.awaited, hcall.2]
  change (pairingStep P p e).stored = some (p.tempSsid, p.tempPassword)
  rw [pairingStep_of_command hcall.1, if_pos hawait, hflash]
  rfl

/-- After any lines from any sockets and timer expiries. `pairing_commit` is called exactly by a
`FinishP` after the latest `StartP`, the first ssid line since and the first pass line since
that, with no expiry and no commit in between; a pairing line that has no turn is inert and not
answered. Whether a `FinishP` is answered only for stored credentials depends on the flash. -/
theorem wifi_pairing_follows_history (P : Platform) (events : List PairingEvent)
    (e : PairingEvent) :
    (∀ s w, commitCall P (pairingRun P events) e = some (s, w) ↔
      e.command P = some .finish ∧
        ∃ ssid pass, GotPass P ssid pass (pairingTrace P events) ∧
          s = pairingCut ssid ∧ w = pairingCut pass) ∧
    (∀ l, e.command P = some l → ¬ l.HasTurn P (pairingTrace P events) →
      pairingRun P (events ++ [e]) = pairingRun P events ∧
        pairingAcks P (pairingRun P events) e = false) ∧
    ((∀ t ∈ pairingTrace P events, t.event.command P = some .finish →
        pairingAcks P t.before t.event = true → FinishStores t) ↔
      ∀ t ∈ pairingTrace P events, (commitCall P t.before t.event).isSome →
        t.event.flashOk = true) := by
  have hpast := remembers_run P events
  refine ⟨hpast.commitCall_iff e, fun l hl hturn => ?_, ?_⟩
  · have hnot : e.taken P (pairingRun P events) = false := by
      rw [PairingEvent.taken, hl, Option.any_some]
      exact Bool.eq_false_iff.mpr fun ha => hturn ((hpast.awaited_iff l).mp ha)
    have hline : e ≠ .timeout := by
      rintro rfl
      cases hl
    rw [pairingAcks_eq, pairingRun, run_append]
    exact ⟨pairingStep_of_not_taken hline hnot, hnot⟩
  · refine forall₂_congr fun t ht => ?_
    obtain ⟨-, -, -, -, hafter⟩ := mem_trace ht
    have hstep : t = ⟨t.before, t.event, pairingStep P t.before t.event⟩ := by rw [← hafter]
    rw [← and_imp, finish_acked_iff]
    refine forall_congr' fun hcall => ?_
    rw [hstep]
    exact finishStores_iff hcall

namespace Sample

def pairingLines (flashOk : Bool) : List PairingEvent :=
  [.line 54 (ascii "pass:early") true, .line 54 (ascii "StartP") true,
    .line 55 (ascii "ssid:Home") true, .line 54 (ascii "ssid:Other") true,
    .line 54 (ascii "pass:secret") true, .line 55 (ascii "FinishP") flashOk]

/-- The flash refuses the credentials and the `FinishP` is answered `ACK` all the same. -/
theorem finish_acked_not_stored :
    pairingAcks platform (pairingRun platform ((pairingLines false).take 5))
        (.line 55 (ascii "FinishP") false) = true ∧
      commitCall platform (pairingRun platform ((pairingLines false).take 5))
        (.line 55 (ascii "FinishP") false) = some (ascii "Home", ascii "secret") ∧
      (pairingRun platform (pairingLines false)).stored = none ∧
      (pairingRun platform (pairingLines false)).rebootArmed = false ∧
      (pairingRun platform (pairingLines true)).stored =
        some (ascii "Home", ascii "secret") := by
  decide +kernel

end Sample

end CyThing
