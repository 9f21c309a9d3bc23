import CyThing.Lib.Trace
import Mathlib.Logic.Function.Basic

/-! A record that shows several items of a shared state, rebuilt by the tasks that change the
state. A change is made under a lock of the state and followed by a refresh; a refresh takes
the lock of the record, reads the items one after another while other tasks go on changing
them, and writes the record. A start does the same for the first record, and until then a
refresh does nothing. Changes after which no refresh comes must not touch what an item shows;
then the record is right whenever no task is at work. -/

namespace Publish
open Trace

variable {τ σ μ κ ν : Type*}

/-- The items of the record in the order in which they are read, what each one shows, and the
changes of the state with whether a refresh follows. -/
structure Source (σ μ κ ν : Type*) where
  items : List κ
  view : σ → κ → ν
  mutate : σ → μ → σ × Bool

inductive Point (κ ν : Type*)
  | idle
  /-- It has changed the state and its refresh is to come. -/
  | owes
  /-- It has called the start. -/
  | asked
  /-- It has the lock of the record, has read some items and has others to read. -/
  | building (starts : Bool) (todo : List κ) (read : κ → Option ν)

def Point.isIdle : Point κ ν → Bool
  | .idle => true
  | _ => false

def Point.isBuilding : Point κ ν → Bool
  | .building _ _ _ => true
  | _ => false

structure Board (τ σ κ ν : Type*) where
  state : σ
  started : Bool := false
  record : κ → Option ν := fun _ => none
  holder : Option τ := none
  point : τ → Point κ ν := fun _ => .idle

inductive Event (τ μ : Type*)
  | mutate (t : τ) (m : μ)
  | start (t : τ)
  /-- The task gets the lock of the record. -/
  | take (t : τ)
  | read (t : τ)
  /-- The task writes the record and gives the lock back; a start may fail instead. -/
  | publish (t : τ) (ok : Bool)

/-! ## When the record is right -/

section Invariant

variable {S : Source σ μ κ ν} {b : Board τ σ κ ν} {t u : τ} {p : Point κ ν} {k : κ}

def Point.WillShow (S : Source σ μ κ ν) (s : σ) (k : κ) : Point κ ν → Prop
  | .building _ todo read => k ∈ todo ∨ read k = some (S.view s k)
  | _ => False

def Fresh (S : Source σ μ κ ν) (k : κ) (b : Board τ σ κ ν) : Prop :=
  (∃ t, b.point t = .owes) ∨ (∃ t, (b.point t).WillShow S b.state k) ∨
    (b.holder = none ∧ (b.started = true → b.record k = some (S.view b.state k)))

structure Shows (S : Source σ μ κ ν) (k : κ) (b : Board τ σ κ ν) : Prop where
  lock : ∀ t, (b.point t).isBuilding = true ↔ b.holder = some t
  first : ∀ t todo read, b.point t = .building true todo read → b.started = false
  fresh : Fresh S k b

theorem shows_init (S : Source σ μ κ ν) (k : κ) (s : σ) :
    Shows S k ({ state := s } : Board τ σ κ ν) where
  lock _ := ⟨fun h => absurd h Bool.false_ne_true, fun h => absurd h.symm (Option.some_ne_none _)⟩
  first _ _ _ h := by cases h
  fresh := .inr (.inr ⟨rfl, fun h => absurd h Bool.false_ne_true⟩)

theorem Shows.not_building (h : Shows S k b) (hfree : b.holder = none) (u : τ) :
    (b.point u).isBuilding = false := by
  rw [Bool.eq_false_iff]
  intro hu
  rw [h.lock u, hfree] at hu
  cases hu

theorem Shows.builder_unique (h : Shows S k b) (ht : (b.point t).isBuilding = true)
    (hu : (b.point u).isBuilding = true) : u = t := by
  rw [h.lock] at ht hu
  exact Option.some.inj (hu.symm.trans ht)

theorem Point.WillShow.isBuilding {s : σ} (h : p.WillShow S s k) : p.isBuilding = true := by
  cases p with
  | building starts todo read => rfl
  | _ => exact h.elim

theorem Shows.fresh_builder (h : Shows S k b) (ht : (b.point t).isBuilding = true) :
    (∃ u, u ≠ t ∧ b.point u = .owes) ∨ (b.point t).WillShow S b.state k := by
  rcases h.fresh with ⟨u, hu⟩ | ⟨u, hu⟩ | ⟨hfree, -⟩
  · left
    refine ⟨u, ?_, hu⟩
    rintro rfl
    rw [hu] at ht
    cases ht
  · right
    rw [h.builder_unique ht hu.isBuilding] at hu
    exact hu
  · rw [h.not_building hfree t] at ht
    cases ht

theorem Shows.record_eq (h : Shows S k b) (hidle : ∀ t, (b.point t).isIdle = true)
    (hstarted : b.started = true) : b.record k = some (S.view b.state k) := by
  rcases h.fresh with ⟨t, ht⟩ | ⟨t, ht⟩ | ⟨-, hshown⟩
  · have := hidle t
    rw [ht] at this
    cases this
  · have hb := ht.isBuilding
    have hi := hidle t
    revert hb hi
    cases b.point t <;> simp [Point.isBuilding, Point.isIdle]
  · exact hshown hstarted

end Invariant

/-! ## The steps -/

section Step

variable [DecidableEq τ]

def Board.go (b : Board τ σ κ ν) (t : τ) (p : Point κ ν) : Board τ σ κ ν :=
  { b with point := Function.update b.point t p }

def step [DecidableEq κ] (S : Source σ μ κ ν) (b : Board τ σ κ ν) : Event τ μ → Board τ σ κ ν
  | .mutate t m =>
    match b.point t with
    | .idle =>
      { b with state := (S.mutate b.state m).1 }.go t
        (if (S.mutate b.state m).2 then .owes else .idle)
    | _ => b
  | .start t =>
    match b.point t with
    | .idle => b.go t .asked
    | _ => b
  | .take t =>
    if b.holder.isSome then b
    else match b.point t with
      | .owes =>
        if b.started then { b with holder := some t }.go t (.building false S.items fun _ => none)
        else b.go t .idle
      | .asked =>
        if b.started then b.go t .idle
        else { b with holder := some t }.go t (.building true S.items fun _ => none)
      | _ => b
  | .read t =>
    match b.point t with
    | .building starts (k :: todo) read =>
      b.go t (.building starts todo (Function.update read k (some (S.view b.state k))))
    | _ => b
  | .publish t ok =>
    match b.point t with
    | .building starts [] read =>
      if starts && !ok then { b with holder := none }.go t .idle
      else { b with holder := none, started := true, record := read }.go t .idle
    | _ => b

variable {S : Source σ μ κ ν} {b : Board τ σ κ ν} {t u : τ} {p : Point κ ν} {k : κ}

@[simp] theorem Board.go_self : (b.go t p).point t = p := Function.update_self ..

theorem Board.go_of_ne (h : u ≠ t) : (b.go t p).point u = b.point u := Function.update_of_ne h ..

inductive Moves [DecidableEq κ] (S : Source σ μ κ ν) (b : Board τ σ κ ν) : Board τ σ κ ν → Prop
  | stay : Moves S b b
  | mutated {t : τ} (m : μ) (ht : b.point t = .idle) :
      Moves S b ({ b with state := (S.mutate b.state m).1 }.go t
        (if (S.mutate b.state m).2 then .owes else .idle))
  | asks {t : τ} (ht : b.point t = .idle) : Moves S b (b.go t .asked)
  | takes {t : τ} {starts : Bool} (hfree : b.holder = none) (hstarts : b.started = !starts) :
      Moves S b ({ b with holder := some t }.go t (.building starts S.items fun _ => none))
  | leaves {t : τ} (hfree : b.holder = none)
      (ht : b.point t = .asked ∨ b.started = false) : Moves S b (b.go t .idle)
  | reads {t : τ} {starts : Bool} {k : κ} {todo : List κ} {read : κ → Option ν}
      (ht : b.point t = .building starts (k :: todo) read) :
      Moves S b (b.go t
        (.building starts todo (Function.update read k (some (S.view b.state k)))))
  | publishes {t : τ} {starts : Bool} {read : κ → Option ν}
      (ht : b.point t = .building starts [] read) :
      Moves S b ({ b with holder := none, started := true, record := read }.go t .idle)
  | fails {t : τ} {read : κ → Option ν} (ht : b.point t = .building true [] read) :
      Moves S b ({ b with holder := none }.go t .idle)

theorem step_moves [DecidableEq κ] (S : Source σ μ κ ν) (b : Board τ σ κ ν) (e : Event τ μ) :
    Moves S b (step S b e) := by
  cases e with
  | mutate t m =>
    simp only [step]
    split
    · next ht => exact .mutated m ht
    · exact .stay
  | start t =>
    simp only [step]
    split
    · next ht => exact .asks ht
    · exact .stay
  | take t =>
    simp only [step]
    split
    · exact .stay
    · next hheld =>
      have hfree : b.holder = none := by simpa using hheld
      split
      · split
        · next hs => exact .takes hfree hs
        · next hs => exact .leaves hfree (.inr (by simpa using hs))
      · next ht =>
        split
        · exact .leaves hfree (.inl ht)
        · next hs => exact .takes hfree (by simpa using hs)
      · exact .stay
  | read t =>
    simp only [step]
    split
    · next ht => exact .reads ht
    · exact .stay
  | publish t ok =>
    simp only [step]
    split
    · next starts read ht =>
      cases starts with
      | false => exact .publishes ht
      | true =>
        cases ok with
        | true => exact .publishes ht
        | false => exact .fails ht
    · exact .stay

theorem Shows.go {b' : Board τ σ κ ν} (h : Shows S k b) (hpoint : b'.point = b.point)
    (hholder : b'.holder = b.holder) (hstarted : b'.started = b.started)
    (ht : (b.point t).isBuilding = false) (hp : p.isBuilding = false)
    (hfresh : Fresh S k (b'.go t p)) : Shows S k (b'.go t p) where
  lock u := by
    change _ ↔ b'.holder = some u
    rw [hholder, ← h.lock u]
    by_cases hu : u = t
    · rw [hu, Board.go_self, hp, ht]
    · rw [Board.go_of_ne hu, hpoint]
  first u todo read hu := by
    change b'.started = false
    rw [hstarted]
    by_cases hut : u = t
    · rw [hut, Board.go_self] at hu
      rw [hu] at hp
      cases hp
    · rw [Board.go_of_ne hut, hpoint] at hu
      exact h.first u todo read hu
  fresh := hfresh

theorem Fresh.go {b' : Board τ σ κ ν} (h : Fresh S k b) (hpoint : b'.point = b.point)
    (hholder : b'.holder = b.holder) (hstarted : b'.started = b.started)
    (hrecord : b'.record = b.record) (hview : S.view b'.state k = S.view b.state k)
    (howes : b.point t ≠ .owes) (ht : (b.point t).isBuilding = false) :
    Fresh S k (b'.go t p) := by
  have hkeep : ∀ u, u ≠ t → (b'.go t p).point u = b.point u := fun u hu => by
    rw [Board.go_of_ne hu, hpoint]
  rcases h with ⟨u, hu⟩ | ⟨u, hu⟩ | ⟨hfree, hshown⟩
  · left
    refine ⟨u, (hkeep u ?_).trans hu⟩
    rintro rfl
    exact howes hu
  · right
    left
    have hut : u ≠ t := by
      rintro rfl
      revert hu ht
      cases b.point u <;> simp [Point.WillShow, Point.isBuilding]
    refine ⟨u, ?_⟩
    rw [hkeep u hut]
    revert hu
    cases b.point u with
    | building starts todo read =>
      change k ∈ todo ∨ read k = some (S.view b.state k) →
        k ∈ todo ∨ read k = some (S.view b'.state k)
      rw [hview]
      exact id
    | _ => exact False.elim
  · right
    right
    refine ⟨hholder.trans hfree, fun hs => ?_⟩
    change b'.record k = some (S.view b'.state k)
    rw [hrecord, hview]
    exact hshown (hstarted ▸ hs)

theorem Shows.takes {starts : Bool} (h : Shows S k b) (hk : k ∈ S.items)
    (hfree : b.holder = none) (hstarts : b.started = !starts) :
    Shows S k ({ b with holder := some t }.go t (.building starts S.items fun _ => none)) where
  lock u := by
    by_cases hu : u = t
    · rw [hu, Board.go_self]
      exact ⟨fun _ => rfl, fun _ => rfl⟩
    · rw [Board.go_of_ne hu, h.not_building hfree u]
      exact ⟨fun hb => absurd hb Bool.false_ne_true, fun hs => absurd (Option.some.inj hs).symm hu⟩
  first u todo read hu := by
    change b.started = false
    by_cases hut : u = t
    · rw [hut, Board.go_self] at hu
      cases hu
      exact hstarts
    · rw [Board.go_of_ne hut] at hu
      exact h.first u todo read hu
  fresh := .inr (.inl ⟨t, by rw [Board.go_self]; exact .inl hk⟩)

theorem Shows.reads [DecidableEq κ] {starts : Bool} {k' : κ} {todo : List κ}
    {read : κ → Option ν} (h : Shows S k b) (ht : b.point t = .building starts (k' :: todo) read) :
    Shows S k (b.go t
      (.building starts todo (Function.update read k' (some (S.view b.state k'))))) where
  lock u := by
    change _ ↔ b.holder = some u
    rw [← h.lock u]
    by_cases hu : u = t
    · rw [hu, Board.go_self, ht]
      exact Iff.rfl
    · rw [Board.go_of_ne hu]
  first u todo' read' hu := by
    by_cases hut : u = t
    · rw [hut, Board.go_self] at hu
      cases hu
      exact h.first t _ _ ht
    · rw [Board.go_of_ne hut] at hu
      exact h.first u todo' read' hu
  fresh := by
    rcases h.fresh_builder (t := t) (by rw [ht]; rfl) with ⟨u, hut, hu⟩ | hshow
    · exact .inl ⟨u, (Board.go_of_ne hut).trans hu⟩
    · right
      left
      refine ⟨t, ?_⟩
      rw [Board.go_self]
      rw [ht] at hshow
      change k ∈ todo ∨ Function.update read k' _ k = some (S.view b.state k)
      by_cases hk : k = k'
      · rw [hk, Function.update_self]
        exact .inr rfl
      · rw [Function.update_of_ne hk]
        exact hshow.imp_left fun hmem => (List.mem_cons.mp hmem).resolve_left hk

theorem Shows.ends {b' : Board τ σ κ ν} (h : Shows S k b) (ht : (b.point t).isBuilding = true)
    (hpoint : b'.point = b.point) (hholder : b'.holder = none)
    (hshown : (b.point t).WillShow S b.state k →
      b'.started = true → b'.record k = some (S.view b'.state k)) :
    Shows S k (b'.go t .idle) := by
  have hothers : ∀ u, ((b'.go t .idle).point u).isBuilding = false := by
    intro u
    by_cases hu : u = t
    · rw [hu, Board.go_self]
      rfl
    · rw [Board.go_of_ne hu, hpoint, Bool.eq_false_iff]
      exact fun hb => hu (h.builder_unique ht hb)
  refine ⟨fun u => ?_, fun u todo read hu => ?_, ?_⟩
  · change _ ↔ b'.holder = some u
    rw [hothers u, hholder]
    exact ⟨fun hb => absurd hb Bool.false_ne_true, fun hs => absurd hs.symm (Option.some_ne_none u)⟩
  · have hb := hothers u
    rw [hu] at hb
    cases hb
  · rcases h.fresh_builder ht with ⟨u, hut, hu⟩ | hshow
    · exact .inl ⟨u, by rw [Board.go_of_ne hut, hpoint, hu]⟩
    · exact .inr (.inr ⟨hholder, hshown hshow⟩)

theorem step_shows [DecidableEq κ] (hk : k ∈ S.items)
    (hlaw : ∀ s m, (S.mutate s m).2 = false → S.view (S.mutate s m).1 k = S.view s k)
    (h : Shows S k b) (e : Event τ μ) : Shows S k (step S b e) := by
  have hm := step_moves S b e
  generalize step S b e = b' at hm ⊢
  cases hm with
  | stay => exact h
  | @mutated t m ht =>
    have hidle : (b.point t).isBuilding = false := by rw [ht]; rfl
    cases hr : (S.mutate b.state m).2 with
    | true => exact h.go rfl rfl rfl hidle rfl (.inl ⟨t, Board.go_self⟩)
    | false =>
      refine h.go rfl rfl rfl hidle rfl (h.fresh.go rfl rfl rfl rfl (hlaw _ m hr) ?_ hidle)
      rw [ht]
      rintro ⟨⟩
  | @asks t ht =>
    have hidle : (b.point t).isBuilding = false := by rw [ht]; rfl
    refine h.go rfl rfl rfl hidle rfl (h.fresh.go rfl rfl rfl rfl rfl ?_ hidle)
    rw [ht]
    rintro ⟨⟩
  | takes hfree hstarts => exact h.takes hk hfree hstarts
  | @leaves t hfree ht =>
    have hout := h.not_building hfree t
    refine h.go rfl rfl rfl hout rfl ?_
    rcases ht with ht | hs
    · refine h.fresh.go rfl rfl rfl rfl rfl ?_ hout
      rw [ht]
      rintro ⟨⟩
    · exact .inr (.inr ⟨hfree, fun hs' => absurd (hs.symm.trans hs') Bool.false_ne_true⟩)
  | reads ht => exact h.reads ht
  | @publishes t starts read ht =>
    refine h.ends (by rw [ht]; rfl) rfl rfl fun hshow _ => ?_
    rw [ht] at hshow
    exact hshow.resolve_left List.not_mem_nil
  | @fails t read ht =>
    refine h.ends (by rw [ht]; rfl) rfl rfl fun _ hs => ?_
    exact absurd ((h.first t _ _ ht).symm.trans hs) Bool.false_ne_true

theorem run_shows [DecidableEq κ] (hk : k ∈ S.items)
    (hlaw : ∀ s m, (S.mutate s m).2 = false → S.view (S.mutate s m).1 k = S.view s k)
    (s : σ) (es : List (Event τ μ)) :
    Shows S k (run (step S) ({ state := s } : Board τ σ κ ν) es) :=
  history_induction (s := ({ state := s } : Board τ σ κ ν)) (Q := fun _ b => Shows S k b)
    (shows_init S k s) (fun _ _ e h => step_shows hk hlaw h e) es

end Step

end Publish
