import CyThing.Mediation

/-! Sessions become keyed one at a time, at the end of a handshake and with both counters at
zero; a session that is keyed keeps its key until it loses it. -/

namespace CyThing
open CLib Trace

def completed (w w' : World) : List (Block 32) :=
  (List.finRange localSessionMax).filterMap fun i =>
    if (w.pool i).keyed = false ∧ (w'.pool i).keyed = true then some (w'.pool i).key else none

def KeepsKey (w w' : World) (j : Slot) : Prop :=
  (w'.pool j).keyed = true → (w.pool j).keyed = true ∧ (w'.pool j).key = (w.pool j).key

inductive Keying (w w' : World) : Prop
  | kept (h : ∀ j, KeepsKey w w' j)
  | settled {i : Slot} (hi : (w.pool i).keyed = false) (hi' : (w'.pool i).keyed = true)
      (hrx : (w'.pool i).rxCtr = 0) (h : ∀ j, j ≠ i → KeepsKey w w' j)

section Completed

variable {w w' w'' : World} {i : Slot}

theorem completed_kept (h : ∀ j, KeepsKey w w' j) : completed w w' = [] := by
  refine List.filterMap_eq_nil_iff.mpr fun j _ => if_neg ?_
  rintro ⟨hno, hk⟩
  rw [(h j hk).1] at hno
  cases hno

theorem filterMap_unique {α β : Type} {l : List α} {f : α → Option β} {a : α} {b : β}
    (hl : l.Nodup) (ha : a ∈ l) (hf : f a = some b) (hother : ∀ x ∈ l, x ≠ a → f x = none) :
    l.filterMap f = [b] := by
  induction l with
  | nil => cases ha
  | cons x l ih =>
    obtain ⟨hx, hl⟩ := List.nodup_cons.mp hl
    rcases List.mem_cons.mp ha with rfl | ha
    · have hrest : l.filterMap f = [] := List.filterMap_eq_nil_iff.mpr fun y hy =>
        hother y (List.mem_cons_of_mem _ hy) fun h => hx (h ▸ hy)
      rw [List.filterMap_cons_some hf, hrest]
    · have hne : x ≠ a := fun h => hx (h ▸ ha)
      rw [List.filterMap_cons_none (hother x List.mem_cons_self hne)]
      exact ih hl ha fun y hy => hother y (List.mem_cons_of_mem _ hy)

theorem completed_settled (hi : (w.pool i).keyed = false) (hi' : (w'.pool i).keyed = true)
    (h : ∀ j, j ≠ i → KeepsKey w w' j) : completed w w' = [(w'.pool i).key] := by
  refine filterMap_unique (List.nodup_finRange _) (List.mem_finRange i) (if_pos ⟨hi, hi'⟩) ?_
  refine fun j _ hj => if_neg ?_
  rintro ⟨hno, hk⟩
  rw [(h j hj hk).1] at hno
  cases hno

theorem Keying.before (h : Keying w' w'') (hcore : w'.core = w.core) : Keying w w'' := by
  have hkeyed (j : Slot) : (w'.core.pool j).keyed = (w.core.pool j).keyed := by rw [hcore]
  have hkey (j : Slot) : (w'.core.pool j).key = (w.core.pool j).key := by rw [hcore]
  have hkeeps (j : Slot) (hj : KeepsKey w' w'' j) : KeepsKey w w'' j := by
    intro hk
    obtain ⟨hk', hsame⟩ := hj hk
    exact ⟨(hkeyed j).symm.trans hk', hsame.trans (hkey j)⟩
  cases h with
  | kept h => exact .kept fun j => hkeeps j (h j)
  | settled hi hi' hrx h =>
    exact .settled ((hkeyed _).symm.trans hi) hi' hrx fun j hj => hkeeps j (h j hj)

end Completed

section Steps

variable {P : Platform} {T : Set Slot} {w w' : World} {e : Event}

theorem KeepsKey.trans {w'' : World} {j : Slot} (h : KeepsKey w w' j) (h' : KeepsKey w' w'' j) :
    KeepsKey w w'' j := by
  intro hk
  obtain ⟨hk', hkey⟩ := h' hk
  obtain ⟨hk, hkey'⟩ := h hk'
  exact ⟨hk, hkey.trans hkey'⟩

theorem KeepsKey.of_core_eq (h : w'.core = w.core) (j : Slot) : KeepsKey w w' j := by
  change (w'.core.pool j).keyed = true →
    (w.core.pool j).keyed = true ∧ (w'.core.pool j).key = (w.core.pool j).key
  rw [h]
  exact fun hk => ⟨hk, rfl⟩

theorem Edits.keepsKey (h : Edits P T w w') (j : Slot) : KeepsKey w w' j := by
  induction h with
  | refl => exact fun hk => ⟨hk, rfl⟩
  | sessions h hp ih =>
    refine ih.trans fun hk => ?_
    rcases (hp j).keyed with hno | ⟨hs, hkey, -⟩
    · rw [hno] at hk
      cases hk
    · refine ⟨?_, hkey⟩
      rwa [LocalSession.keyed, hs] at hk
  | setPw h ih | setList h ih | pushEvent h ih | discoveryMode h ih | send h ih => exact ih
  | frame h ih => exact ih.trans (.of_core_eq (core_encFrameSend ..) j)

theorem Handled.keying (h : Handled P T w w') : Keying w w' := by
  cases h with
  | edits h => exact .kept h.keepsKey
  | @settled x i st h hi hk hst =>
    refine .settled hk ?_ ?_ fun j hj => ?_
    · rw [World.setSession_self, LocalSession.keyed_iff]
      exact hst
    · rw [World.setSession_self]
    · have hsame : (x.setSession i { x.pool i with txCtr := 0, rxCtr := 0, state := st }).pool j =
          x.pool j := Function.update_of_ne hj ..
      rw [KeepsKey, hsame]
      exact h.keepsKey j

theorem keepsKey_step (he : ∀ sock bytes env, e ≠ .line sock bytes env) (j : Slot) :
    KeepsKey w (step P w e) j := by
  by_cases hsend : e = .send
  · subst hsend
    exact .of_core_eq (core_sendTaskStep P w) j
  · intro hk
    have hsame := keyed_step he hsend hk
    rw [hsame] at hk ⊢
    exact ⟨hk, rfl⟩

theorem keying_tcpDispatchLine (P : Platform) (env : Env) (w : World) (sock : Nat)
    (line : Bytes) : Keying w (tcpDispatchLine P env w sock line) := by
  have hcases := tcpDispatchLine_cases P env w sock line
  generalize tcpDispatchLine P env w sock line = w' at hcases
  cases hcases with
  | refused => exact .kept fun _ hk => ⟨hk, rfl⟩
  | outer =>
    refine .kept fun j => ?_
    rw [KeepsKey, (outer_dispatchBehindPolicy P env w sock line).link.1]
    exact fun hk => ⟨hk, rfl⟩
  | noSession => exact .kept (Edits.refl (T := ∅)).err.keepsKey
  | @handled i => exact (handled_handleKind P env w i sock line (lineKind line)).keying

theorem step_keying (P : Platform) (w : World) (e : Event) : Keying w (step P w e) := by
  by_cases he : ∃ sock bytes env, e = .line sock bytes env
  · obtain ⟨sock, bytes, env, rfl⟩ := he
    have hcore := core_encFrameUnwrap P w sock bytes
    simp only [step, handleLine]
    rcases hu : encFrameUnwrap P w sock bytes with ⟨_ | line, x⟩
    · rw [hu] at hcore
      exact .kept fun j => .of_core_eq hcore j
    · rw [hu] at hcore
      exact (keying_tcpDispatchLine P env x sock line).before hcore
  · exact .kept (keepsKey_step fun sock bytes env h => he ⟨sock, bytes, env, h⟩)

end Steps

end CyThing
