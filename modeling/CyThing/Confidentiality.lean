import CyThing.Moves
import CyThing.Sample

/-! What leaves on the socket of a keyed session. Two senders do not encrypt: provisioning
answers in the clear, and `security_send_line` does so with a line that fills its buffer.
Apart from these every line on a keyed socket is a frame under the key of its session. -/

namespace CyThing
open CLib Trace

def Confidential (P : Platform) (x : Sent) : Prop :=
  ∀ k, x.key = some k →
    x.bytes = ascii "ERR:ENC\n" ∨ x.bytes = ascii "ERR:AUTH\n" ∨
      ∃ nonce plain ct, P.aeadEncrypt k nonce plain = some ct ∧ x.bytes = encLine P nonce ct

def Covers (P : Platform) (w w' : World) : Prop :=
  ∃ new, w'.out = w.out ++ new ∧ ∀ x ∈ new, Confidential P x

section Covers

variable {P : Platform} {env : Env} {w w' w'' : World} {i : Slot} {sock : Nat} {line : Bytes}

theorem Covers.silent (h : w'.out = w.out) : Covers P w w' :=
  ⟨[], by rw [h, List.append_nil], fun _ hx => absurd hx List.not_mem_nil⟩

theorem Covers.trans (h₁ : Covers P w w') (h₂ : Covers P w' w'') : Covers P w w'' := by
  obtain ⟨new₁, ho₁, hc₁⟩ := h₁
  obtain ⟨new₂, ho₂, hc₂⟩ := h₂
  refine ⟨new₁ ++ new₂, by rw [ho₂, ho₁, List.append_assoc], fun x hx => ?_⟩
  rcases List.mem_append.mp hx with hx | hx
  · exact hc₁ x hx
  · exact hc₂ x hx

theorem Covers.after (h : Covers P w' w'') (ho : w'.out = w.out) : Covers P w w'' :=
  (Covers.silent ho).trans h

theorem Covers.before (h : Covers P w w') (ho : w''.out = w'.out) : Covers P w w'' :=
  h.trans (Covers.silent ho)

theorem Covers.setSession {s : LocalSession} (h : Covers P w w') :
    Covers P w (w'.setSession i s) := h.before rfl

theorem Covers.pushEvent {event sub role : Bytes} (h : Covers P w w') :
    Covers P w (w'.pushEvent env event sub role) := h.before rfl

theorem Covers.send {bytes : Bytes} (h : Confidential P ⟨sock, bytes, w.keyOf sock⟩) :
    Covers P w (w.send sock bytes) := by
  refine ⟨[_], rfl, fun x hx => ?_⟩
  rw [List.mem_singleton.mp hx]
  exact h

end Covers

end CyThing
