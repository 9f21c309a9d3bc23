import CyThing.System
import CyThing.Lib.Postbox
import CyThing.Lib.TextLine

/-! Replies to one client on their way through the response FIFO: the two producers, the send
task and the tasks that open and close connections, step by step. A line waits with nothing but
the number of its socket, and the system hands that number out again. -/

namespace CyThing
open CLib Trace

/-! ## Model -/

abbrev Reply := Postbox.Receipt Nat Nat Bytes

structure Delivery where
  accounts : List Nat := []
  fifo : Bytes := []
  staging : Bytes := []
  broadcast : Option Broadcast := none
  /-- The line that the send task is about to send to the client it found in the list. -/
  hand : Option (Nat × Bytes) := none
  /-- The connection behind each open descriptor; connections are counted from zero. -/
  holder : Nat → Option Nat := fun _ => none
  conns : Nat := 0
  accepted : List Reply := []
  delivered : List Reply := []

inductive DeliveryEvent
  /-- `accept()` returns the descriptor. -/
  | accept (sock : Nat)
  | addAccount (sock : Nat)
  | removeAccount (sock : Nat)
  | close (sock : Nat)
  /-- `send_data_to_clients` with the response id it has drawn. -/
  | data (sock : Int) (id : Nat) (data : Bytes)
  /-- `send_raw_to_client` -/
  | raw (sock : Int) (text : Bytes)
  /-- The send task takes its next step. -/
  | send
  /-- `enc_frame_send` gives up: the session is gone or the encryption fails. -/
  | giveUp
  | reboot

/-- What the client on `sock` is to get of `text`: all of it and the `\n`, or as much as leaves
the line, with prefix and `\n`, at `RESPONSE_LINE_MAX - 1` bytes. -/
def replyText (sock : Nat) (text : Bytes) : Bytes :=
  text.take (responseLineMax - 2 - (decimal sock ++ ascii ":").length) ++ [10]

def responseData (data : Bytes) : Bytes := if data.getLast? = some 10 then data.dropLast else data

def Delivery.push (s : Delivery) (sock : Int) (line text : Bytes) : Delivery :=
  { s with
    fifo := responseFifoPush s.fifo line
    accepted :=
      if 0 < sock ∧ responseFifoTakes s.fifo line = true then
        s.accepted ++ [⟨s.holder sock.toNat, sock.toNat, replyText sock.toNat text⟩]
      else s.accepted }

def Delivery.route (s : Delivery) : Delivery :=
  match s.broadcast with
  | some b =>
    if b.next < s.accounts.length then
      { s with broadcast := some { b with next := b.next + 1 } }
    else { s with broadcast := none }
  | none =>
    if s.staging = [] then { s with staging := s.fifo, fifo := [] }
    else
      let (line, rest) := nextLine s.staging
      match routeOf line with
      | none => { s with staging := rest }
      | some (target, payload) =>
        if target = responseTargetAll ∨ target = responseTargetEveryone then
          { s with staging := rest, broadcast := some ⟨target, payload, 0⟩ }
        else if 0 ≤ target ∧ target.toNat ∈ s.accounts then
          { s with staging := rest, hand := some (target.toNat, payload) }
        else { s with staging := rest }

def deliveryStep (s : Delivery) : DeliveryEvent → Delivery
  | .accept sock =>
    if (s.holder sock).isSome then s
    else { s with holder := Function.update s.holder sock (some s.conns), conns := s.conns + 1 }
  | .addAccount sock => { s with accounts := (addAccount s.accounts sock).getD s.accounts }
  | .removeAccount sock => { s with accounts := removeAccount s.accounts sock }
  | .close sock => { s with holder := Function.update s.holder sock none }
  | .data sock id data =>
    s.push sock (dataLine sock id data) (decimal id ++ ascii ":" ++ responseData data)
  | .raw sock text => s.push sock (rawLine sock text) text
  | .send =>
    match s.hand with
    | none => s.route
    | some (dst, payload) =>
      match s.holder dst with
      | some c => { s with hand := none, delivered := s.delivered ++ [⟨some c, dst, payload⟩] }
      | none => { s with hand := none }
  | .giveUp => { s with hand := none }
  | .reboot => { conns := s.conns, accepted := s.accepted, delivered := s.delivered }

def DeliveryEvent.Clean : DeliveryEvent → Bool
  | .data sock _ bytes =>
    sock.natAbs ≤ 2 ^ 31 ∧ (0 : UInt8) ∉ bytes ∧ (10 : UInt8) ∉ responseData bytes
  | .raw sock text => sock.natAbs ≤ 2 ^ 31 ∧ (0 : UInt8) ∉ text ∧ (10 : UInt8) ∉ text
  | _ => true

/-! ## Letters -/

def letterOf (line : Bytes) : Option (Nat × Bytes) :=
  match routeOf line with
  | some (target, payload) => if 0 < target then some (target.toNat, payload) else none
  | none => none

def letters (buffer : Bytes) : List (Nat × Bytes) := (linesOf buffer).filterMap letterOf

def Delivery.pending (s : Delivery) : List (Nat × Bytes) :=
  s.hand.toList ++ letters s.staging ++ letters s.fifo

/-- A descriptor is handed out only when no line waits for its number, and the data of a
response ends in its `\n`, unless the line is not of the one length at which the FIFO adds it
behind the limit. -/
def Settled (t : Step Delivery DeliveryEvent) : Bool :=
  match t.event with
  | .accept sock => t.before.pending.all fun x => x.1 != sock
  | .data sock id data =>
    data.getLast? == some 10 ||
      (decimalInt (responseTarget sock) ++ ascii ":" ++ decimal id ++ ascii ":" ++ data).length !=
        responseLineMax - 1
  | _ => true

section Lines

variable {q text : Bytes} {t : Int}

theorem getLast?_ne_newline (hq : (10 : UInt8) ∉ q) : q.getLast? ≠ some 10 :=
  fun h => hq (List.mem_of_getLast? h)

theorem storedLine_tcpLine_newline (q : Bytes) :
    storedLine (tcpLine (q ++ [10])) = q.take (responseLineMax - 2) ++ [10] := by
  rw [tcpLine]
  split_ifs with hlong
  · rw [List.length_append, List.length_singleton] at hlong
    rw [List.take_append_of_le_length (by omega), storedLine, if_pos (by simp)]
  · rw [List.length_append, List.length_singleton] at hlong
    rw [storedLine, if_pos (by simp), List.take_of_length_le (by omega)]

theorem storedLine_tcpLine (hq : (10 : UInt8) ∉ q) (hlen : q.length ≠ responseLineMax - 1) :
    storedLine (tcpLine q) = q.take (responseLineMax - 2) ++ [10] := by
  rw [tcpLine]
  split_ifs with hlong
  · rw [storedLine, if_pos (by simp)]
  · rw [storedLine, if_neg (getLast?_ne_newline hq), List.take_of_length_le (by omega)]

theorem not_mem_decimalInt {c : UInt8} (hc : isDigit c = false) (hminus : c ≠ 45) (n : Int) :
    c ∉ decimalInt n := by
  rw [decimalInt]
  split_ifs
  · intro h
    rcases List.mem_append.mp h with h | h
    · exact hminus (List.mem_singleton.mp h)
    · exact not_mem_decimal hc _ h
  · exact not_mem_decimal hc _

theorem length_decimalInt_le (h : t.natAbs ≤ 2 ^ 31) : (decimalInt t).length ≤ 11 := by
  have habs : t.natAbs < 10 ^ 10 := by omega
  have hlen := length_decimal_le (by omega) habs
  rw [decimalInt]
  split_ifs
  · rw [List.length_append]
    have : (ascii "-").length = 1 := rfl
    omega
  · omega

theorem take_line (h : t.natAbs ≤ 2 ^ 31) (text : Bytes) :
    (decimalInt t ++ 58 :: text).take (responseLineMax - 2) = decimalInt t ++
      58 :: text.take (responseLineMax - 2 - (decimalInt t ++ ascii ":").length) := by
  have hlen := length_decimalInt_le h
  have hone : (ascii ":").length = 1 := rfl
  have hroom : responseLineMax - 2 - (decimalInt t).length =
      responseLineMax - 2 - (decimalInt t ++ ascii ":").length + 1 := by
    rw [List.length_append, hone]
    change 254 - (decimalInt t).length = 254 - ((decimalInt t).length + 1) + 1
    omega
  rw [List.take_append, List.take_of_length_le (by change _ ≤ 254; omega), hroom,
    List.take_succ_cons]

theorem routeOf_line (t : Int) (payload : Bytes) :
    routeOf (decimalInt t ++ 58 :: payload) = some (t, payload) := by
  have hsplit : splitFirst 58 (decimalInt t ++ 58 :: payload) = some (decimalInt t, payload) :=
    splitFirst_eq_some.mpr ⟨rfl, not_mem_decimalInt (by decide) (by decide) t⟩
  have hne : decimalInt t ≠ [] := by
    rw [decimalInt]
    split_ifs
    · simp [decimal_ne_nil]
    · exact decimal_ne_nil _
  simp only [routeOf, hsplit, strtol_decimalInt t (c := 58) (by decide)]
  rw [if_neg (by simp [hne])]

theorem letterOf_stored (h : t.natAbs ≤ 2 ^ 31) (text : Bytes) :
    letterOf ((decimalInt t ++ 58 :: text).take (responseLineMax - 2) ++ [10]) =
      if 0 < t then some (t.toNat, replyText t.toNat text) else none := by
  rw [take_line h, List.append_assoc, List.cons_append, letterOf, routeOf_line]
  by_cases hpos : 0 < t
  · have hdec : decimalInt t = decimal t.toNat := by
      rw [decimalInt, if_neg (by omega)]
      congr 1
      omega
    simp only [if_pos hpos, replyText, hdec]
  · simp only [if_neg hpos]

theorem storedLine_rawLine {sock : Int} (h0 : (0 : UInt8) ∉ text) :
    storedLine (rawLine sock text) =
      (decimalInt sock ++ 58 :: text).take (responseLineMax - 2) ++ [10] := by
  rw [rawLine, cstr_eq_self h0, storedLine_tcpLine_newline, List.append_assoc]
  rfl

theorem storedLine_dataLine {sock : Int} {id : Nat} {data : Bytes} (h0 : (0 : UInt8) ∉ data)
    (h10 : (10 : UInt8) ∉ responseData data)
    (hlen : data.getLast? = some 10 ∨ (decimalInt (responseTarget sock) ++ ascii ":" ++
      decimal id ++ ascii ":" ++ data).length ≠ responseLineMax - 1) :
    storedLine (dataLine sock id data) =
      (decimalInt (responseTarget sock) ++
        58 :: (decimal id ++ ascii ":" ++ responseData data)).take (responseLineMax - 2) ++
        [10] := by
  have hshape (d : Bytes) :
      decimalInt (responseTarget sock) ++ ascii ":" ++ decimal id ++ ascii ":" ++ d =
        decimalInt (responseTarget sock) ++ 58 :: (decimal id ++ ascii ":" ++ d) := by
    simp only [List.append_assoc]
    rfl
  rw [dataLine, cstr_eq_self h0]
  by_cases hlast : data.getLast? = some 10
  · have hdata : data = responseData data ++ [10] := by
      rw [responseData, if_pos hlast]
      exact (List.dropLast_append_getLast? 10 hlast).symm
    have hfull : decimalInt (responseTarget sock) ++ 58 :: (decimal id ++ ascii ":" ++ data) =
        decimalInt (responseTarget sock) ++ 58 :: (decimal id ++ ascii ":" ++ responseData data) ++
          [10] := by
      conv_lhs => rw [hdata]
      simp only [List.append_assoc, List.cons_append]
    rw [hshape, hfull, storedLine_tcpLine_newline]
  · have hdata : responseData data = data := if_neg hlast
    rw [hdata] at h10 ⊢
    rw [← hshape]
    refine storedLine_tcpLine ?_ (hlen.resolve_left hlast)
    have hcolon : (10 : UInt8) ∉ ascii ":" := by decide
    simp only [List.mem_append, not_or]
    exact ⟨⟨⟨⟨not_mem_decimalInt (by decide) (by decide) _, hcolon⟩,
      not_mem_decimal (by decide) _⟩, hcolon⟩, h10⟩

end Lines

/-! ## Whole lines in the buffers -/

def Lined (buffer : Bytes) : Prop :=
  ∃ lines : List Bytes, (∀ l ∈ lines, (10 : UInt8) ∉ l) ∧ buffer = unlines lines

section Lined

variable {buffer q : Bytes}

theorem letters_cons (hq : (10 : UInt8) ∉ q) (rest : Bytes) :
    letters (q ++ 10 :: rest) = (letterOf (q ++ [10])).toList ++ letters rest := by
  rw [letters, linesOf_cons hq, List.filterMap_cons]
  rcases letterOf (q ++ [10]) with _ | x <;> rfl

theorem Lined.concat (h : Lined buffer) (hq : (10 : UInt8) ∉ q) :
    Lined (buffer ++ (q ++ [10])) ∧
      letters (buffer ++ (q ++ [10])) = letters buffer ++ (letterOf (q ++ [10])).toList := by
  obtain ⟨lines, hlines, rfl⟩ := h
  have hall : ∀ l ∈ lines ++ [q], (10 : UInt8) ∉ l := by
    intro l hl
    rcases List.mem_append.mp hl with hl | hl
    · exact hlines l hl
    · exact List.mem_singleton.mp hl ▸ hq
  have hbuffer : unlines lines ++ (q ++ [10]) = unlines (lines ++ [q]) := by
    rw [unlines_append, unlines_cons]
    rfl
  rw [hbuffer]
  refine ⟨⟨_, hall, rfl⟩, ?_⟩
  rw [letters, letters, linesOf_unlines hall, linesOf_unlines hlines, List.map_append,
    List.filterMap_append]
  congr 1

theorem Lined.nextLine (h : Lined buffer) (hne : buffer ≠ []) :
    ∃ q rest, (10 : UInt8) ∉ q ∧ nextLine buffer = (q ++ [10], rest) ∧ Lined rest ∧
      letters buffer = (letterOf (q ++ [10])).toList ++ letters rest := by
  obtain ⟨lines, hlines, rfl⟩ := h
  cases lines with
  | nil => exact absurd rfl hne
  | cons q lines =>
    have hq := hlines q (List.mem_cons_self ..)
    have hrest : ∀ l ∈ lines, (10 : UInt8) ∉ l := fun l hl => hlines l (List.mem_cons_of_mem q hl)
    refine ⟨q, unlines lines, hq, ?_, ⟨lines, hrest, rfl⟩, ?_⟩
    · rw [unlines_cons, CyThing.nextLine, splitFirst_eq_some.mpr ⟨rfl, hq⟩]
    · rw [unlines_cons, letters_cons hq]

end Lined

/-! ## The FIFO as a post box -/

def Delivery.box (s : Delivery) : Postbox.Box Nat Nat Bytes :=
  ⟨s.holder, s.pending, s.accepted, s.delivered⟩

structure Delivery.Sound (s : Delivery) : Prop where
  staging : Lined s.staging
  fifo : Lined s.fifo
  box : Postbox.Sound s.box

section Steps

variable {s : Delivery}

theorem responseTarget_int {sock : Int} (h : sock.natAbs ≤ 2 ^ 31) :
    (responseTarget sock).natAbs ≤ 2 ^ 31 ∧ (0 < sock → responseTarget sock = sock) ∧
      (¬0 < sock → ¬0 < responseTarget sock) := by
  unfold responseTarget sendToAll sendToAllPublic responseTargetAll responseTargetEveryone
  split_ifs <;> omega

theorem sound_push (h : s.Sound) {sock t : Int} {line text : Bytes} (ht : t.natAbs ≤ 2 ^ 31)
    (hone : 0 < sock → t = sock) (hall : ¬0 < sock → ¬0 < t) (h10 : (10 : UInt8) ∉ text)
    (hline : storedLine line = (decimalInt t ++ 58 :: text).take (responseLineMax - 2) ++ [10]) :
    (s.push sock line text).Sound := by
  have hq : (10 : UInt8) ∉ (decimalInt t ++ 58 :: text).take (responseLineMax - 2) := by
    intro hmem
    have hmem := List.mem_of_mem_take hmem
    simp only [List.mem_append, List.mem_cons] at hmem
    rcases hmem with hmem | hmem | hmem
    · exact not_mem_decimalInt (by decide) (by decide) t hmem
    · cases hmem
    · exact h10 hmem
  obtain ⟨hlined, hletters⟩ := h.fifo.concat hq
  rw [letterOf_stored ht] at hletters
  rw [← hline] at hlined hletters
  by_cases htakes : responseFifoTakes s.fifo line = true
  · have hfifo : responseFifoPush s.fifo line = s.fifo ++ storedLine line := by
      rw [responseFifoPush_eq, if_pos htakes]
    by_cases hpos : 0 < sock
    · obtain rfl := hone hpos
      rw [if_pos hpos] at hletters
      have hpush : s.push t line text =
          { s with
            fifo := s.fifo ++ storedLine line
            accepted := s.accepted ++ [⟨s.holder t.toNat, t.toNat, replyText t.toNat text⟩] } := by
        simp only [Delivery.push, hfifo, if_pos (And.intro hpos htakes)]
      have hbox : (s.push t line text).box =
          s.box.apply (.post t.toNat (replyText t.toNat text)) := by
        simp only [hpush, Delivery.box, Delivery.pending, hletters, Postbox.Box.apply,
          List.append_assoc, Option.toList_some]
      refine ⟨?_, ?_, hbox ▸ h.box.apply trivial⟩
      · exact h.staging
      · rw [hpush]
        exact hlined
    · rw [if_neg (hall hpos)] at hletters
      have hpush : s.push sock line text = { s with fifo := s.fifo ++ storedLine line } := by
        simp only [Delivery.push, hfifo, hpos, false_and, if_false]
      have hbox : (s.push sock line text).box = s.box := by
        simp only [hpush, Delivery.box, Delivery.pending, hletters, Option.toList_none,
          List.append_nil]
      refine ⟨?_, ?_, hbox ▸ h.box⟩
      · exact h.staging
      · rw [hpush]
        exact hlined
  · have hfifo : responseFifoPush s.fifo line = s.fifo := by
      rw [responseFifoPush_eq, if_neg htakes]
    have hsame : s.push sock line text = s := by
      simp only [Delivery.push, hfifo, htakes, Bool.false_eq_true, and_false, if_false]
    rw [hsame]
    exact h

theorem sound_taken (h : s.Sound) (hhand : s.hand = none) {rest : Bytes} (hrest : Lined rest)
    {letter taken : Option (Nat × Bytes)}
    (hletters : letters s.staging = letter.toList ++ letters rest)
    (htaken : taken = letter ∨ taken = none) (b : Option Broadcast) :
    Delivery.Sound { s with staging := rest, broadcast := b, hand := taken } := by
  refine ⟨hrest, h.fifo, ?_⟩
  have hbox : s.box =
      ⟨s.holder, letter.toList ++ letters rest ++ letters s.fifo, s.accepted, s.delivered⟩ := by
    rw [Delivery.box, Delivery.pending, hhand, hletters]
    rfl
  have hsound := h.box
  rw [hbox] at hsound
  rcases htaken with rfl | rfl
  · exact hsound
  · cases letter with
    | none => exact hsound
    | some x => exact hsound.lose

theorem sound_route (h : s.Sound) (hhand : s.hand = none) : s.route.Sound := by
  rcases hb : s.broadcast with _ | b
  · by_cases hempty : s.staging = []
    · have hroute : s.route = { s with staging := s.fifo, fifo := [] } := by
        simp only [Delivery.route, hb, if_pos hempty]
      have hbox : s.route.box = s.box := by
        simp only [hroute, Delivery.box, Delivery.pending, hempty]
        simp [letters, linesOf]
      rw [hroute] at hbox ⊢
      exact ⟨h.fifo, ⟨[], fun l hl => absurd hl List.not_mem_nil, rfl⟩, hbox ▸ h.box⟩
    · obtain ⟨q, rest, hq, hnext, hrest, hletters⟩ := h.staging.nextLine hempty
      have htaken {taken : Option (Nat × Bytes)} (ht : taken = letterOf (q ++ [10]) ∨ taken = none)
          (b : Option Broadcast) :
          Delivery.Sound { s with staging := rest, broadcast := b, hand := taken } :=
        sound_taken h hhand hrest hletters ht b
      simp only [Delivery.route, hb, if_neg hempty, hnext]
      rcases hr : routeOf (q ++ [10]) with _ | ⟨target, payload⟩
      · exact htaken (Or.inr hhand) none
      · simp only
        split_ifs with hall hone
        · exact htaken (Or.inr hhand) _
        · refine htaken (Or.inl ?_) none
          have hpos : 0 < target := lt_of_le_of_ne hone.1 fun h0 => hall (Or.inl h0.symm)
          simp only [letterOf, hr, if_pos hpos]
        · exact htaken (Or.inr hhand) none
  · simp only [Delivery.route, hb]
    split_ifs
    · exact ⟨h.staging, h.fifo, h.box⟩
    · exact ⟨h.staging, h.fifo, h.box⟩

theorem sound_deliveryStep (h : s.Sound) {e : DeliveryEvent} (hclean : e.Clean = true)
    (hsettled : Settled ⟨s, e, deliveryStep s e⟩ = true) : (deliveryStep s e).Sound := by
  cases e with
  | accept sock =>
    rw [deliveryStep]
    split_ifs
    · exact h
    · have hapart : ∀ x ∈ s.pending, x.1 ≠ sock := by
        simpa only [Settled, List.all_eq_true, bne_iff_ne] using hsettled
      have hbox : Postbox.Sound (s.box.apply (.assign sock s.conns)) := h.box.apply hapart
      exact ⟨h.staging, h.fifo, hbox⟩
  | addAccount sock => exact ⟨h.staging, h.fifo, h.box⟩
  | removeAccount sock => exact ⟨h.staging, h.fifo, h.box⟩
  | close sock =>
    have hbox : Postbox.Sound (s.box.apply (.vacate sock)) := h.box.apply trivial
    exact ⟨h.staging, h.fifo, hbox⟩
  | data sock id data =>
    obtain ⟨hint, h0, h10⟩ := of_decide_eq_true hclean
    simp only [Settled, Bool.or_eq_true, beq_iff_eq, bne_iff_ne] at hsettled
    obtain ⟨htarget, hone, hall⟩ := responseTarget_int hint
    refine sound_push h htarget hone hall ?_ (storedLine_dataLine h0 h10 hsettled)
    have hcolon : (10 : UInt8) ∉ ascii ":" := by decide
    simp only [List.mem_append, not_or]
    exact ⟨⟨not_mem_decimal (by decide) _, hcolon⟩, h10⟩
  | raw sock text =>
    obtain ⟨hint, h0, h10⟩ := of_decide_eq_true hclean
    exact sound_push h hint (fun _ => rfl) id h10 (storedLine_rawLine h0)
  | send =>
    rcases hhand : s.hand with _ | ⟨dst, payload⟩
    · simp only [deliveryStep, hhand]
      exact sound_route h hhand
    · have hbox : (deliveryStep s .send).box = s.box.apply .deliver := by
        have hpending : s.box.queue = (dst, payload) :: (letters s.staging ++ letters s.fifo) := by
          rw [Delivery.box, Delivery.pending, hhand]
          rfl
        have hholder : s.box.holder dst = s.holder dst := rfl
        simp only [deliveryStep, hhand, Postbox.Box.apply, hpending, hholder]
        rcases s.holder dst with _ | c <;> rfl
      refine ⟨?_, ?_, hbox ▸ h.box.deliver⟩
      · simp only [deliveryStep, hhand]
        rcases s.holder dst with _ | c
        · exact h.staging
        · exact h.staging
      · simp only [deliveryStep, hhand]
        rcases s.holder dst with _ | c
        · exact h.fifo
        · exact h.fifo
  | giveUp =>
    refine ⟨h.staging, h.fifo, ?_⟩
    rcases hhand : s.hand with _ | x
    · have hbox : (deliveryStep s .giveUp).box = s.box := by
        simp only [deliveryStep, Delivery.box, Delivery.pending, hhand]
      rw [hbox]
      exact h.box
    · have hbox : (deliveryStep s .giveUp).box = s.box.apply .lose := by
        simp only [deliveryStep, Delivery.box, Delivery.pending, hhand, Postbox.Box.apply]
        rfl
      rw [hbox]
      exact h.box.lose
  | reboot =>
    have hnil : Lined [] := ⟨[], fun l hl => absurd hl List.not_mem_nil, rfl⟩
    have hbox : Postbox.Sound (s.box.apply .clear) := h.box.apply trivial
    exact ⟨hnil, hnil, hbox⟩

end Steps

theorem sound_init : Delivery.Sound {} := by
  have hnil : Lined [] := ⟨[], fun l hl => absurd hl List.not_mem_nil, rfl⟩
  exact ⟨hnil, hnil, [], rfl, .slnil, fun r hr => absurd hr List.not_mem_nil⟩

/-- Replies reach the connection they were queued for: over every interleaving in which no
descriptor is handed out while a line waits for its number, what is delivered is a part of what
was accepted, in the same order, every reply at most once, whole or cut as announced, and to
the connection that held the socket when the reply was queued. -/
theorem replies_reach_their_connection (es : List DeliveryEvent) (hclean : ∀ e ∈ es, e.Clean = true)
    (hsettled : ∀ t ∈ trace deliveryStep {} es, Settled t = true) :
    (run deliveryStep {} es).delivered.Sublist (run deliveryStep {} es).accepted := by
  have hok : ∀ t ∈ trace deliveryStep {} es, t.event.Clean = true ∧ Settled t = true := by
    intro t ht
    obtain ⟨pre, post, hes, -⟩ := mem_trace ht
    exact ⟨hclean t.event (hes ▸ by simp), hsettled t ht⟩
  have hsound : (run deliveryStep {} es).Sound :=
    trace_induction (Q := fun _ s => s.Sound) sound_init
      (fun _ _ _ h hok => sound_deliveryStep h hok.1 hok.2) es hok
  exact hsound.box.sublist

/-- Data without its `\n`, at the length that fills the line: the FIFO adds the `\n` behind the
limit, and one byte more is delivered than announced. -/
example :
    let s := run deliveryStep {}
      [.accept 5, .addAccount 5, .data 5 11 (List.replicate 250 97), .send, .send, .send]
    s.delivered.map (·.body.length) = [254] ∧ s.accepted.map (·.body.length) = [253] := by
  decide +kernel

def twoClients : List DeliveryEvent :=
  [.accept 5, .addAccount 5, .raw 5 (ascii "ACK"), .data 5 11 (ascii "on\n"), .send, .send, .send,
    .send, .send, .removeAccount 5, .close 5, .accept 5, .addAccount 5, .raw 5 (ascii "ACK"), .send,
    .send, .send]

theorem two_clients_replies :
    (run deliveryStep {} twoClients).delivered =
        [⟨some 0, 5, ascii "ACK\n"⟩, ⟨some 0, 5, ascii "11:on\n"⟩, ⟨some 1, 5, ascii "ACK\n"⟩] ∧
      (run deliveryStep {} twoClients).delivered.Sublist
        (run deliveryStep {} twoClients).accepted :=
  ⟨by decide +kernel,
    replies_reach_their_connection twoClients (by decide +kernel) (by decide +kernel)⟩

/-- The client leaves while its reply waits, and the next client has its descriptor when the
send task gets there: the reply of the first goes to the second. -/
theorem reply_to_next_client :
    let s := run deliveryStep {}
      [.accept 5, .addAccount 5, .raw 5 (ascii "ACK"), .removeAccount 5, .close 5, .accept 5,
        .addAccount 5, .send, .send, .send]
    s.accepted = [⟨some 0, 5, ascii "ACK\n"⟩] ∧ s.delivered = [⟨some 1, 5, ascii "ACK\n"⟩] ∧
      ¬s.delivered.Sublist s.accepted := by
  decide +kernel

end CyThing
