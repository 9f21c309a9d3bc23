import CyThing.Lib.Framing
import CyThing.Lib.Memory
import CyThing.Reconnect

/-! From the bytes of a connection to lines (`tcp_server/tcp_client_recv`). -/

namespace CyThing
open CLib Framing Trace

/-! ## The receive loop -/

/-- What `recv` comes back with while the connection stands. For a byte that ends a line,
`left` is what `enc_frame_unwrap` and the handlers leave in `rx_buffer`. -/
inductive RecvResult
  | byte (b : UInt8) (left : Block tcpReceiveDataLength)
  | timeout

structure HandedLine where
  text : Bytes
  lineLen : Nat
  deriving DecidableEq

structure RecvLoop where
  rxBuffer : Block tcpReceiveDataLength
  rxLen : Nat := 0
  handed : List HandedLine := []

/-- One round of `tcp_client_recv_task`; `none` for a write outside `rx_buffer`. -/
def RecvLoop.round (s : RecvLoop) : RecvResult → Option RecvLoop
  | .timeout => some { s with rxLen := 0 }
  | .byte b left =>
    (memcpy s.rxBuffer s.rxLen [b]).bind fun buf =>
      let rxLen := s.rxLen + 1
      if tcpReceiveDataLength ≤ rxLen then some { s with rxBuffer := buf, rxLen := 0 }
      else if Layout.slice buf.1 (rxLen - 1) 1 = [10] then
        (memcpy buf rxLen [0]).map fun buf =>
          { rxBuffer := left, handed := s.handed ++ [⟨buf.1.take rxLen, rxLen - 1⟩] }
      else some { s with rxBuffer := buf, rxLen := rxLen }

def tcpClientRecvTask (stack : Block tcpReceiveDataLength) (rs : List RecvResult) :
    Option RecvLoop := rs.foldlM RecvLoop.round { rxBuffer := stack }

def received (rs : List RecvResult) : Bytes :=
  rs.filterMap fun
    | .byte b _ => some b
    | .timeout => none

def QuietBetweenLines (rs : List RecvResult) : Prop :=
  ∀ pre, pre ++ [.timeout] <+: rs → received pre = [] ∨ (received pre).getLast? = some 10

/-! ## The loop is a collector -/

def HandedLine.of (l : Bytes) : HandedLine := ⟨l, l.length - 1⟩

def collect (c : Collector UInt8) : RecvResult → Collector UInt8
  | .timeout => { c with rx := [] }
  | .byte b _ => c.push tcpReceiveDataLength 10 b

theorem tcpReceiveDataLength_pos : 0 < tcpReceiveDataLength := by decide

structure RecvLoop.Collects (s : RecvLoop) (c : Collector UInt8) : Prop where
  rx : s.rxBuffer.1.take s.rxLen = c.rx
  room : s.rxLen < tcpReceiveDataLength
  handed : s.handed = c.handed.map HandedLine.of

section Collects

variable {s : RecvLoop} {c : Collector UInt8}

theorem RecvLoop.Collects.length_rx (h : s.Collects c) : c.rx.length = s.rxLen := by
  rw [← h.rx, List.length_take, s.rxBuffer.2]
  exact Nat.min_eq_left h.room.le

theorem RecvLoop.Collects.byte (h : s.Collects c) (b : UInt8)
    (left : Block tcpReceiveDataLength) :
    ∃ s', s.round (.byte b left) = some s' ∧ s'.Collects (collect c (.byte b left)) := by
  have hfit : s.rxLen + [b].length ≤ tcpReceiveDataLength := h.room
  obtain ⟨buf, hbuf⟩ := exists_memcpy s.rxBuffer hfit
  have hrx : buf.1.take (s.rxLen + 1) = c.rx ++ [b] := h.rx ▸ take_memcpy hbuf
  have hlen : (c.rx ++ [b]).length = s.rxLen + 1 := by
    rw [List.length_append, h.length_rx, List.length_singleton]
  have hlast : Layout.slice buf.1 (s.rxLen + 1 - 1) 1 = [b] := by
    rw [Nat.add_sub_cancel, Layout.slice, List.take_drop, hrx, List.drop_left' h.length_rx]
  simp only [RecvLoop.round, hbuf, Option.bind_some, collect, Collector.push, hlen, hlast,
    List.cons.injEq, and_true]
  by_cases hfull : tcpReceiveDataLength ≤ s.rxLen + 1
  · rw [if_pos hfull, if_pos hfull]
    exact ⟨_, rfl, List.take_zero, tcpReceiveDataLength_pos, h.handed⟩
  rw [if_neg hfull, if_neg hfull]
  have hroom : s.rxLen + 1 + [(0 : UInt8)].length ≤ tcpReceiveDataLength := Nat.not_le.mp hfull
  by_cases hb : b = 10
  · -- the NUL behind the line is written inside the buffer as well
    obtain ⟨buf', hbuf'⟩ := exists_memcpy buf hroom
    have htext : buf'.1.take (s.rxLen + 1) = c.rx ++ [b] :=
      (take_memcpy_of_le hbuf' le_rfl).trans hrx
    rw [if_pos hb, if_pos hb, hbuf', Option.map_some, htext]
    refine ⟨_, rfl, List.take_zero, tcpReceiveDataLength_pos, ?_⟩
    rw [List.map_append, ← h.handed, List.map_singleton, HandedLine.of, hlen]
  · rw [if_neg hb, if_neg hb]
    exact ⟨_, rfl, hrx, hroom, h.handed⟩

theorem RecvLoop.Collects.timeout (h : s.Collects c) :
    ∃ s', s.round .timeout = some s' ∧ s'.Collects (collect c .timeout) :=
  ⟨_, rfl, List.take_zero, tcpReceiveDataLength_pos, h.handed⟩

end Collects

theorem tcpClientRecvTask_collects (stack : Block tcpReceiveDataLength) (rs : List RecvResult) :
    ∃ s, tcpClientRecvTask stack rs = some s ∧ s.Collects (rs.foldl collect {}) := by
  refine foldlM_induction (Q := fun rs (s : RecvLoop) => s.Collects (rs.foldl collect {}))
    ⟨List.take_zero, tcpReceiveDataLength_pos, rfl⟩ (fun rs s r _ h => ?_) rs
  rw [List.foldl_append]
  cases r with
  | byte b left => exact h.byte b left
  | timeout => exact h.timeout

/-! ## Timeouts between lines -/

theorem received_append (rs rs' : List RecvResult) :
    received (rs ++ rs') = received rs ++ received rs' := List.filterMap_append

theorem QuietBetweenLines.of_append {rs rs' : List RecvResult}
    (h : QuietBetweenLines (rs ++ rs')) : QuietBetweenLines rs :=
  fun pre hpre => h pre (hpre.trans (List.prefix_append rs rs'))

theorem collect_timeout {c : Collector UInt8} (h : c.rx = []) : collect c .timeout = c := by
  rw [collect, ← h]

theorem foldl_collect {rs : List RecvResult} (hquiet : QuietBetweenLines rs) :
    rs.foldl collect {} =
      (received rs).foldl (Collector.push tcpReceiveDataLength 10) {} := by
  -- a timeout between lines finds nothing collected
  induction rs using List.reverseRecOn with
  | nil => rfl
  | append_singleton rs r ih =>
    rw [received_append, List.foldl_append, List.foldl_append, ih hquiet.of_append]
    cases r with
    | byte b left => rfl
    | timeout =>
      have hrx : ((received rs).foldl (Collector.push tcpReceiveDataLength 10) {}).rx = [] := by
        rcases hquiet rs (List.prefix_refl _) with hnil | hlast
        · rw [hnil]
          rfl
        · exact (Collector.foldl_stream tcpReceiveDataLength_pos _ []).2 hlast
      exact collect_timeout hrx

/-! ## The lines of the stream -/

/-- For every stream without a timeout inside a line, every write stays inside `rx_buffer`, and
the lines that are handed over are the lines below the limit, in order, if and only if every
longer line is a multiple of the limit long: of any other longer line the end is handed over. -/
theorem lines_framed_iff (stack : Block tcpReceiveDataLength) (rs : List RecvResult)
    (hquiet : QuietBetweenLines rs) :
    ∃ s, tcpClientRecvTask stack rs = some s ∧ s.rxLen < tcpReceiveDataLength ∧
      (s.handed = ((completeLines 10 (received rs)).filter fun l =>
          l.length < tcpReceiveDataLength).map HandedLine.of ↔
        ∀ l ∈ completeLines 10 (received rs),
          tcpReceiveDataLength ≤ l.length → tcpReceiveDataLength ∣ l.length) := by
  obtain ⟨s, hrun, h⟩ := tcpClientRecvTask_collects stack rs
  refine ⟨s, hrun, h.room, ?_⟩
  have hstream : ((received rs).foldl (Collector.push tcpReceiveDataLength 10) {}).handed = _ :=
    (Collector.foldl_stream tcpReceiveDataLength_pos (received rs) []).1
  have hinj : Function.Injective HandedLine.of := fun l l' heq => congrArg HandedLine.text heq
  rw [h.handed, foldl_collect hquiet, hstream, List.nil_append, (List.map_injective_iff.mpr
    hinj).eq_iff]
  exact filterMap_handedOf_iff fun l hl => length_pos_of_mem_completeLines hl

/-! ## The device behind the loop -/

theorem RecvTask.foldl_recvByte_eq (P : Platform) (env : Nat → Env) (sock : Nat) (d : RecvTask)
    (bytes : Bytes) :
    let c := bytes.foldl (Collector.push tcpReceiveDataLength 10) ⟨d.rx, []⟩
    bytes.foldl (RecvTask.recvByte P env sock) d =
      { w := run (step P) d.w
          (c.handed.mapIdx fun i l => .line sock l.dropLast (env (d.lines + i)))
        rx := c.rx, lines := d.lines + c.handed.length } := by
  induction bytes using List.reverseRecOn with
  | nil => rfl
  | append_singleton bytes b ih =>
    simp only [List.foldl_append, List.foldl_cons, List.foldl_nil] at ih ⊢
    rw [ih]
    generalize bytes.foldl (Collector.push tcpReceiveDataLength 10) ⟨d.rx, []⟩ = c
    simp only [RecvTask.recvByte, Collector.push]
    by_cases hfull : tcpReceiveDataLength ≤ (c.rx ++ [b]).length
    · rw [if_pos hfull, if_pos hfull]
    rw [if_neg hfull, if_neg hfull]
    by_cases hb : b = 10
    · rw [if_pos hb, if_pos hb, List.mapIdx_concat, run_append, List.length_append]
      rfl
    · rw [if_neg hb, if_neg hb]

/-! ## Bytes without a pause -/

def steadily (bytes : Bytes) : List RecvResult :=
  bytes.map fun b => .byte b (Block.zero tcpReceiveDataLength)

theorem received_steadily (bytes : Bytes) : received (steadily bytes) = bytes := by
  rw [received, steadily, List.filterMap_map]
  exact List.filterMap_some

theorem quiet_steadily (bytes : Bytes) : QuietBetweenLines (steadily bytes) := by
  intro pre hpre
  have hmem : RecvResult.timeout ∈ steadily bytes :=
    hpre.subset (List.mem_append_right _ (List.mem_singleton_self _))
  obtain ⟨b, -, hb⟩ := List.mem_map.mp hmem
  cases hb

def fullLine : Bytes := List.replicate (tcpReceiveDataLength - 1) 65

theorem completeLines_fullLine :
    completeLines 10 (fullLine ++ 10 :: ascii "LIST\n") = [fullLine ++ [10], ascii "LIST\n"] := by
  have hno : (10 : UInt8) ∉ fullLine := fun h => absurd (List.eq_of_mem_replicate h) (by decide)
  rw [completeLines_cons hno]
  exact congrArg _ (by decide +kernel)

theorem length_fullLine : (fullLine ++ [10]).length = tcpReceiveDataLength := by
  rw [List.length_append, fullLine, List.length_replicate]
  rfl

theorem lines_framed_list :
    ∃ s, tcpClientRecvTask (Block.zero _) (steadily (fullLine ++ 10 :: ascii "LIST\n")) = some s ∧
      s.rxLen < tcpReceiveDataLength ∧ s.handed = [⟨ascii "LIST\n", 4⟩] := by
  obtain ⟨s, hrun, hroom, hiff⟩ := lines_framed_iff (Block.zero _)
    (steadily (fullLine ++ 10 :: ascii "LIST\n")) (quiet_steadily _)
  rw [received_steadily, completeLines_fullLine] at hiff
  have hshort : ¬ tcpReceiveDataLength ≤ (ascii "LIST\n").length := by decide
  have hhanded := hiff.mpr fun l hl hlong => by
    rcases List.mem_cons.mp hl with rfl | hl
    · rw [length_fullLine]
    · rw [List.mem_singleton.mp hl] at hlong
      exact absurd hlong hshort
  rw [List.filter_cons_of_neg (by rw [length_fullLine]; simp)] at hhanded
  exact ⟨s, hrun, hroom, hhanded.trans (by decide +kernel)⟩

def oversizedLine : Bytes := List.replicate tcpReceiveDataLength 65 ++ ascii "PWCLEAR" ++ [10]

/-- The only line of the stream is over the limit, and its end is handed over as a command. -/
theorem oversized_line_handed :
    completeLines 10 (received (steadily oversizedLine)) = [oversizedLine] ∧
      tcpReceiveDataLength < oversizedLine.length ∧
      ∃ s, tcpClientRecvTask (Block.zero _) (steadily oversizedLine) = some s ∧
        s.handed = [⟨ascii "PWCLEAR\n", 7⟩] := by
  have hno : (10 : UInt8) ∉ List.replicate tcpReceiveDataLength 65 ++ ascii "PWCLEAR" := by
    intro h
    rcases List.mem_append.mp h with h | h
    · exact absurd (List.eq_of_mem_replicate h) (by decide)
    · exact absurd h (by decide +kernel)
  have hlast : handedOf tcpReceiveDataLength oversizedLine = some (ascii "PWCLEAR\n") := by
    rw [oversizedLine, List.append_assoc]
    exact handedOf_append List.length_replicate (by decide +kernel) (by decide +kernel)
  refine ⟨?_, ?_, ?_⟩
  · rw [received_steadily]
    exact completeLines_cons hno []
  · rw [oversizedLine, List.append_assoc, List.length_append, List.length_replicate]
    exact Nat.lt_add_of_pos_right (by decide +kernel)
  · obtain ⟨s, hrun, h⟩ := tcpClientRecvTask_collects (Block.zero _) (steadily oversizedLine)
    refine ⟨s, hrun, ?_⟩
    have hline : oversizedLine.foldl (Collector.push tcpReceiveDataLength 10) {} =
        ⟨[], [] ++ (handedOf tcpReceiveDataLength oversizedLine).toList⟩ :=
      Collector.foldl_line tcpReceiveDataLength_pos hno []
    rw [h.handed, foldl_collect (quiet_steadily _), received_steadily, hline, hlast]
    decide +kernel

end CyThing
