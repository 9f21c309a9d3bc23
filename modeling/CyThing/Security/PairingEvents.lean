import CyThing.Platform

/-! The queue of pairing events for the backend (`security/pairing_events`). -/

namespace CyThing
open CLib

abbrev pairingEventsMax : Nat := 8
abbrev pairingEventJsonMax : Nat := 256

structure EventQueue where
  json : List Bytes := []
  nvs : Option (List Bytes) := none
  deriving DecidableEq

def jsonEscapeFrom (size : Nat) : Nat → Bytes → Bytes
  | _, [] => []
  | o, c :: cs =>
    if o + 2 < size then
      if c = 34 ∨ c = 92 then 92 :: c :: jsonEscapeFrom size (o + 2) cs
      else c :: jsonEscapeFrom size (o + 1) cs
    else []

def jsonEscape (size : Nat) (text : Bytes) : Bytes := jsonEscapeFrom size 0 text

def pairingEventJson (event userSub role : Bytes) (at_ : Nat) : Bytes :=
  snprintf pairingEventJsonMax
    (ascii "\x7b\"event\":\"" ++ jsonEscape 16 event ++
      ascii "\",\"userSub\":\"" ++ jsonEscape 81 userSub ++
      ascii "\",\"role\":\"" ++ jsonEscape 16 role ++
      ascii "\",\"at\":" ++ decimal at_ ++ ascii "\x7d")

/-- `time(NULL)`, cast to 32 bits, once the clock is set, 0 before. -/
def unixOrZero (t : Nat) : Nat := if 1600000000 < t then t % 2 ^ 32 else 0

/-- `nvs_store` of the queue; its result is only logged. -/
def EventQueue.store (q : EventQueue) (storeOk : Bool) : EventQueue :=
  if storeOk then { q with nvs := if q.json = [] then none else some q.json } else q

def pairingEventsPush (q : EventQueue) (storeOk : Bool) (unix : Nat)
    (event userSub role : Bytes) : EventQueue :=
  -- full: the oldest makes room
  let kept := if pairingEventsMax ≤ q.json.length then q.json.drop 1 else q.json
  { q with json := kept ++ [pairingEventJson event userSub role (unixOrZero unix)] }.store storeOk

def peekText (json : Bytes) : Bytes := json.take (pairingEventJsonMax - 1)

def pairingEventsPeek (q : EventQueue) : Option Bytes := q.json.head?.map peekText

def pairingEventsPop (q : EventQueue) (storeOk : Bool) : EventQueue :=
  if q.json = [] then q else { q with json := q.json.drop 1 }.store storeOk

def pairingEventsInit (nvs : Option (List Bytes)) : EventQueue :=
  match nvs with
  | some js => if js.length ≤ pairingEventsMax then ⟨js, nvs⟩ else ⟨[], nvs⟩
  | none => ⟨[], nvs⟩

@[simp] theorem EventQueue.store_json (q : EventQueue) (storeOk : Bool) :
    (q.store storeOk).json = q.json := by
  unfold EventQueue.store
  split <;> rfl

theorem pairingEventsPush_json (q : EventQueue) (storeOk : Bool) (unix : Nat)
    (event userSub role : Bytes) :
    (pairingEventsPush q storeOk unix event userSub role).json =
      (if pairingEventsMax ≤ q.json.length then q.json.drop 1 else q.json) ++
        [pairingEventJson event userSub role (unixOrZero unix)] := by
  rw [pairingEventsPush, EventQueue.store_json]

theorem pairingEventsPop_json (q : EventQueue) (storeOk : Bool) :
    (pairingEventsPop q storeOk).json = q.json.drop 1 := by
  unfold pairingEventsPop
  split
  · next h => rw [h]; rfl
  · exact EventQueue.store_json _ _

end CyThing
