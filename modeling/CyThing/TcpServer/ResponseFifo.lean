import CyThing.Platform

/-! The byte FIFO of outgoing responses (`common/response_fifo`), the two producers that
format lines for it and the routing prefix the send task reads back
(`tcp_server/tcp_client_list`). -/

namespace CyThing
open CLib

abbrev responseFifoSize : Nat := 5120
abbrev responseLineMax : Nat := 256
abbrev sendToAll : Int := -2
abbrev sendToAllPublic : Int := -3
abbrev responseTargetAll : Int := 0
abbrev responseTargetEveryone : Int := -1

/-- `response_fifo_push` under `RESPONSE_FIFO_DROP_NEW`. -/
def responseFifoPush (fifo data : Bytes) : Bytes :=
  let line := if data.getLast? = some 10 then data else data ++ [10]
  if responseFifoSize < line.length then fifo
  else if responseFifoSize < fifo.length + line.length then fifo
  else fifo ++ line

def storedLine (data : Bytes) : Bytes := if data.getLast? = some 10 then data else data ++ [10]

def responseFifoTakes (fifo data : Bytes) : Bool :=
  (storedLine data).length ≤ responseFifoSize &&
    fifo.length + (storedLine data).length ≤ responseFifoSize

theorem responseFifoPush_eq (fifo data : Bytes) :
    responseFifoPush fifo data =
      if responseFifoTakes fifo data = true then fifo ++ storedLine data else fifo := by
  change (if responseFifoSize < (storedLine data).length then fifo
    else if responseFifoSize < fifo.length + (storedLine data).length then fifo
    else fifo ++ storedLine data) = _
  simp only [responseFifoTakes, Bool.and_eq_true, decide_eq_true_eq]
  split_ifs <;> first | rfl | omega

/-- The line `push_tcp_line` stores: cut to the line limit with its `\n` kept. -/
def tcpLine (text : Bytes) : Bytes :=
  if responseLineMax ≤ text.length then text.take (responseLineMax - 2) ++ [10] else text

def updateResponseId (id : Nat) : Nat := if 255 ≤ id + 1 then 10 else id + 1

def responseTarget (sock : Int) : Int :=
  if sock = sendToAll then responseTargetAll
  else if sock = sendToAllPublic then responseTargetEveryone
  else sock

def dataLine (sock : Int) (id : Nat) (data : Bytes) : Bytes :=
  tcpLine (decimalInt (responseTarget sock) ++ ascii ":" ++ decimal id ++ ascii ":" ++ cstr data)

def rawLine (sock : Int) (text : Bytes) : Bytes :=
  tcpLine (decimalInt sock ++ ascii ":" ++ cstr text ++ [10])

/-- The first line of the staging buffer, with its `\n` when it has one, and the rest. -/
def nextLine (staging : Bytes) : Bytes × Bytes :=
  match splitFirst 10 staging with
  | some (l, rest) => (l ++ [10], rest)
  | none => (staging, [])

def routeOf (line : Bytes) : Option (Int × Bytes) :=
  match splitFirst 58 line with
  | none => none
  | some (pre, payload) =>
    let (target, rest) := strtol line
    if pre = [] ∨ rest.length ≠ payload.length + 1 then none else some (target, payload)

end CyThing
