import CyThing.Lib.Base64
import CyThing.Lib.Memory

/-! Filters that write their output into the buffer they read from. A filter that never puts
out more bytes than it has taken in stays behind its own reading, and then the buffer might as
well be two. Base64 decoding is such a filter. -/

namespace InPlace
open CLib

variable {σ : Type*}

def output (feed : σ → UInt8 → σ × Bytes) : σ → Bytes → Bytes
  | _, [] => []
  | s, c :: text => (feed s c).2 ++ output feed (feed s c).1 text

/-- The filter reads `n` bytes from `src` on and writes from `dst` on, in one buffer; `none`
when it leaves the buffer. -/
def overwrite (feed : σ → UInt8 → σ × Bytes) {size : Nat} :
    Nat → σ → Block size → Nat → Nat → Option (Block size × Nat)
  | 0, _, b, _, dst => some (b, dst)
  | n + 1, s, b, src, dst =>
    match b.1[src]? with
    | none => none
    | some c =>
      match memcpy b dst (feed s c).2 with
      | none => none
      | some b' => overwrite feed n (feed s c).1 b' (src + 1) (dst + (feed s c).2.length)

/-- `held s` counts bytes taken in and not yet answered: a step puts out no more than those
and the byte it reads. -/
def Behind (feed : σ → UInt8 → σ × Bytes) (held : σ → Nat) : Prop :=
  ∀ s c, (feed s c).2.length + held (feed s c).1 ≤ held s + 1

theorem overwrite_eq {feed : σ → UInt8 → σ × Bytes} {held : σ → Nat} (hfeed : Behind feed held)
    {size : Nat} {b : Block size} {front text rest : Bytes} {s : σ} {dst : Nat}
    (hb : b.1 = front ++ (text ++ rest)) (hdst : dst + held s ≤ front.length) :
    ∃ b', overwrite feed text.length s b front.length dst =
        some (b', dst + (output feed s text).length) ∧
      b'.1.take (dst + (output feed s text).length) = b.1.take dst ++ output feed s text := by
  induction text generalizing b front s dst with
  | nil => exact ⟨b, rfl, (List.append_nil _).symm⟩
  | cons c text ih =>
    have hstep := hfeed s c
    have hread : b.1[front.length]? = some c := by simp [hb]
    have hsize : front.length + 1 ≤ size := by
      rw [← b.2, hb]
      simp only [List.length_append, List.length_cons]
      omega
    obtain ⟨b₁, hcopy⟩ : ∃ b₁, memcpy b dst (feed s c).2 = some b₁ := exists_memcpy b (by omega)
    -- the bytes that are still to be read lie behind the copy
    have hlen : (b₁.1.take (front.length + 1)).length = front.length + 1 := by
      rw [List.length_take, b₁.2]
      omega
    have hrest : b₁.1 = b₁.1.take (front.length + 1) ++ (text ++ rest) := by
      have hdrop : b₁.1.drop (front.length + 1) = text ++ rest := by
        rw [drop_memcpy_of_le hcopy (by omega), hb]
        simp
      rw [← hdrop, List.take_append_drop]
    have hbehind : dst + (feed s c).2.length + held (feed s c).1 ≤
        (b₁.1.take (front.length + 1)).length := by omega
    obtain ⟨b₂, hover, htake⟩ := ih hrest hbehind
    refine ⟨b₂, ?_, ?_⟩
    · rw [hlen] at hover
      simp only [List.length_cons, overwrite, hread, hcopy, hover, output, List.length_append,
        Nat.add_assoc]
    · rw [output, List.length_append, ← Nat.add_assoc, htake, take_memcpy hcopy,
        List.append_assoc]

end InPlace

namespace Base64
open CLib InPlace Layout

def isBlank (c : UInt8) : Bool := c == 13 || c == 10 || c == 32

def feed (digits : Bytes) (c : UInt8) : Bytes × Bytes :=
  if isBlank c then (digits, [])
  else match digits with
    | [p, q, r] => ([], (group p q r c).getD [])
    | _ => (digits ++ [c], [])

/-- `mbedtls_base64_decode(b, size, &olen, b + src, n)`: the first pass checks the text and its
length, the second one decodes; `none` when it leaves the buffer, `some none` when it fails. -/
def decodeOver {size : Nat} (b : Block size) (src n : Nat) : Option (Option (Block size × Nat)) :=
  match decode (slice b.1 src n) with
  | none => some none
  | some d => if size < d.length then some none else (overwrite feed n [] b src 0).map some

theorem length_group {p q r s : UInt8} {b : Bytes} (h : group p q r s = some b) :
    b.length ≤ 3 := by
  unfold group at h
  split at h
  · split at h
    · cases h
      exact Nat.le_refl 3
    · split_ifs at h
      cases h
      exact Nat.le_succ 2
    · split_ifs at h
      cases h
      exact Nat.succ_le_succ (Nat.zero_le 2)
  · cases h

theorem feed_behind : Behind feed List.length := by
  intro digits c
  unfold feed
  split_ifs
  · simp
  · split
    · next p q r =>
      rcases hg : group p q r c with _ | b
      · simp
      · have hlen := length_group hg
        simpa using Nat.le_succ_of_le hlen
    · simp

theorem isBlank_of_value {c : UInt8} {n : Nat} (h : value c = some n) : isBlank c = false := by
  rw [Bool.eq_false_iff]
  intro hb
  simp only [isBlank, Bool.or_eq_true, beq_iff_eq] at hb
  rcases hb with (rfl | rfl) | rfl <;> cases h

theorem isBlank_of_group {p q r s : UInt8} {b : Bytes} (h : group p q r s = some b) :
    isBlank p = false ∧ isBlank q = false ∧ isBlank r = false ∧ isBlank s = false := by
  have hpad : isBlank 61 = false := rfl
  unfold group at h
  split at h
  · next hp hq =>
    refine ⟨isBlank_of_value hp, isBlank_of_value hq, ?_⟩
    split at h
    · next hr hs => exact ⟨isBlank_of_value hr, isBlank_of_value hs⟩
    · next hr _ =>
      split_ifs at h with hs
      exact ⟨isBlank_of_value hr, hs ▸ hpad⟩
    · split_ifs at h with hrs
      exact ⟨hrs.1 ▸ hpad, hrs.2 ▸ hpad⟩
  · cases h

theorem output_of_decode {text b : Bytes} (h : decode text = some b) :
    output feed [] text = b := by
  fun_induction decode text generalizing b with
  | case1 => cases h; rfl
  | case2 | case4 | case5 => cases h
  | case3 p q r s rest b' bs hrest hgroup _ ih =>
    cases h
    obtain ⟨hp, hq, hr, hs⟩ := isBlank_of_group hgroup
    simp [output, feed, hp, hq, hr, hs, hgroup, ih hrest]

theorem length_le_of_decode {text b : Bytes} (h : decode text = some b) :
    b.length ≤ text.length := by
  fun_induction decode text generalizing b with
  | case1 => cases h; exact Nat.le_refl 0
  | case2 | case4 | case5 => cases h
  | case3 p q r s rest b' bs hrest hgroup _ ih =>
    cases h
    have hb' := length_group hgroup
    have hbs := ih hrest
    simp only [List.length_append, List.length_cons]
    omega

section Over

variable {size : Nat} {b : Block size} {front text rest : Bytes}

theorem slice_text (hb : b.1 = front ++ (text ++ rest)) :
    slice b.1 front.length text.length = text := by
  rw [slice, hb, List.drop_left, List.take_left]

theorem decodeOver_none (hb : b.1 = front ++ (text ++ rest)) (hd : decode text = none) :
    decodeOver b front.length text.length = some none := by
  simp only [decodeOver, slice_text hb, hd]

theorem decodeOver_eq {d : Bytes} (hb : b.1 = front ++ (text ++ rest))
    (hd : decode text = some d) :
    ∃ b', decodeOver b front.length text.length = some (some (b', d.length)) ∧
      b'.1.take d.length = d := by
  have hfits : ¬size < d.length := by
    have := length_le_of_decode hd
    have : size = front.length + (text.length + rest.length) := by
      rw [← b.2, hb, List.length_append, List.length_append]
    omega
  obtain ⟨b', hover, htake⟩ :=
    overwrite_eq feed_behind hb (s := []) (Nat.zero_le front.length : 0 + [].length ≤ front.length)
  rw [output_of_decode hd, Nat.zero_add] at hover htake
  refine ⟨b', ?_, htake⟩
  simp only [decodeOver, slice_text hb, hd, if_neg hfits, hover, Option.map_some]

end Over

end Base64
