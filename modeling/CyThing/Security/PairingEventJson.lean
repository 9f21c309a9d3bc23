import CyThing.Security.PairingEventStorage
import CyThing.Lib.Json

/-! The texts of pairing events as JSON. The escaper stops two bytes before the end of its buffer,
and none of the three buffers nor the slot is small enough to cut what the callers pass. -/

namespace CyThing
open CLib Trace BoundedQueue

structure EventPush where
  event : Bytes
  userSub : Bytes
  role : Bytes
  unix : Nat

/-- What `local_auth`, `owner_commands` and `reset_handler` pass; a reset carries no identity. -/
structure EventPush.FromCaller (p : EventPush) : Prop where
  event : p.event ∈ [ascii "paired", ascii "unpaired", ascii "reset"]
  role : p.role ∈ [ascii "owner", ascii "user", []]
  length_le : p.userSub.length ≤ pairedSubMax
  clean : ∀ c ∈ p.userSub, 32 ≤ c ∧ c ≠ 127

def EventPush.op (p : EventPush) : QueueOp := .push p.event p.userSub p.role p.unix

def EventPush.text (p : EventPush) : Bytes :=
  ascii "\x7b\"event\":\"" ++ Json.escape p.event ++
    ascii "\",\"userSub\":\"" ++ Json.escape p.userSub ++
    ascii "\",\"role\":\"" ++ Json.escape p.role ++
    ascii "\",\"at\":" ++ decimal (unixOrZero p.unix) ++ ascii "\x7d"

def EventPush.value (p : EventPush) : Json.Value :=
  .obj [(ascii "event", .str p.event), (ascii "userSub", .str p.userSub),
    (ascii "role", .str p.role), (ascii "at", .num (.ofNat (unixOrZero p.unix)))]

/-! ## The escaper -/

theorem jsonEscapeFrom_eq {size o : Nat} {text : Bytes} (h : o + 2 * text.length < size) :
    jsonEscapeFrom size o text = Json.escape text := by
  induction text generalizing o with
  | nil => rfl
  | cons c text ih =>
    rw [List.length_cons] at h
    rw [jsonEscapeFrom, if_pos (by omega), Json.escape, List.flatMap_cons]
    by_cases hc : c = 34 ∨ c = 92
    · rw [if_pos hc, if_pos hc, ih (by omega)]
      rfl
    · rw [if_neg hc, if_neg hc, ih (by omega)]
      rfl

theorem length_escape_le (text : Bytes) : (Json.escape text).length ≤ 2 * text.length := by
  induction text with
  | nil => exact Nat.le_refl _
  | cons c text ih =>
    have hc : (if c = 34 ∨ c = 92 then [92, c] else [c]).length ≤ 2 := by
      split <;> simp
    rw [Json.escape, List.flatMap_cons, List.length_append, List.length_cons]
    exact (Nat.add_le_add hc ih).trans_eq (by omega)

section Text

variable {p : EventPush}

theorem unixOrZero_lt (t : Nat) : unixOrZero t < 2 ^ 32 := by
  unfold unixOrZero
  split
  · exact Nat.mod_lt t (by decide)
  · decide

theorem EventPush.FromCaller.event_fits (h : p.FromCaller) :
    jsonEscape 16 p.event = Json.escape p.event ∧ (Json.escape p.event).length ≤ 8 ∧
      Json.Plain p.event ∧ 0 ∉ p.event := by
  have hall : ∀ e ∈ [ascii "paired", ascii "unpaired", ascii "reset"],
      jsonEscape 16 e = Json.escape e ∧ (Json.escape e).length ≤ 8 ∧ (∀ c ∈ e, 32 ≤ c) ∧ 0 ∉ e := by
    decide +kernel
  exact hall _ h.event

theorem EventPush.FromCaller.role_fits (h : p.FromCaller) :
    jsonEscape 16 p.role = Json.escape p.role ∧ (Json.escape p.role).length ≤ 5 ∧
      Json.Plain p.role ∧ 0 ∉ p.role := by
  have hall : ∀ r ∈ [ascii "owner", ascii "user", []],
      jsonEscape 16 r = Json.escape r ∧ (Json.escape r).length ≤ 5 ∧ (∀ c ∈ r, 32 ≤ c) ∧ 0 ∉ r := by
    decide +kernel
  exact hall _ h.role

theorem EventPush.FromCaller.sub_plain (h : p.FromCaller) : Json.Plain p.userSub := by
  intro c hc
  exact (h.clean c hc).1

theorem EventPush.FromCaller.zero_notMem_sub (h : p.FromCaller) : 0 ∉ p.userSub := by
  intro hzero
  exact absurd (h.clean 0 hzero).1 (by decide)

theorem EventPush.FromCaller.length_text (h : p.FromCaller) :
    p.text.length < pairingEventJsonMax := by
  have hevent := h.event_fits.2.1
  have hrole := h.role_fits.2.1
  have hsub := length_escape_le p.userSub
  have hlen : p.userSub.length ≤ 40 := h.length_le
  have hat : (decimal (unixOrZero p.unix)).length ≤ 19 := by
    apply length_decimal_le (by decide)
    exact (unixOrZero_lt _).trans (by decide)
  have hliteral : (ascii "\x7b\"event\":\"").length = 10 ∧
      (ascii "\",\"userSub\":\"").length = 13 ∧ (ascii "\",\"role\":\"").length = 10 ∧
      (ascii "\",\"at\":").length = 7 ∧ (ascii "\x7d").length = 1 := by
    decide
  show p.text.length < 256
  simp only [EventPush.text, List.length_append]
  omega

theorem EventPush.FromCaller.pushedText_eq (h : p.FromCaller) :
    pushedText p.event p.userSub p.role p.unix = p.text := by
  have hsub : jsonEscape 81 p.userSub = Json.escape p.userSub := by
    have hlen : p.userSub.length ≤ 40 := h.length_le
    exact jsonEscapeFrom_eq (by omega)
  have hlen : p.text.length < 256 := h.length_text
  rw [pushedText, cstr_eq_self h.event_fits.2.2.2, cstr_eq_self h.role_fits.2.2.2,
    cstr_eq_self h.zero_notMem_sub, pairingEventJson, h.event_fits.1, h.role_fits.1, hsub]
  exact List.take_of_length_le (Nat.le_sub_one_of_lt hlen)

theorem plain_keys : Json.Plain (ascii "event") ∧ Json.Plain (ascii "userSub") ∧
    Json.Plain (ascii "role") ∧ Json.Plain (ascii "at") := by
  unfold Json.Plain
  decide +kernel

def EventPush.members (p : EventPush) (h : p.FromCaller) : List Json.Member :=
  [⟨ascii "event", Json.quote p.event, .str p.event, plain_keys.1,
      Json.reads_quote h.event_fits.2.2.1⟩,
    ⟨ascii "userSub", Json.quote p.userSub, .str p.userSub, plain_keys.2.1,
      Json.reads_quote h.sub_plain⟩,
    ⟨ascii "role", Json.quote p.role, .str p.role, plain_keys.2.2.1,
      Json.reads_quote h.role_fits.2.2.1⟩,
    ⟨ascii "at", decimal (unixOrZero p.unix), .num (.ofNat (unixOrZero p.unix)), plain_keys.2.2.2,
      Json.reads_decimal _⟩]

theorem EventPush.FromCaller.text_eq (h : p.FromCaller) :
    p.text = Json.objectText (p.members h) := by
  simp only [EventPush.text, EventPush.members, Json.objectText, Json.membersText,
    Json.Member.whole, Json.quote, List.append_assoc, List.cons_append]
  rfl

theorem EventPush.FromCaller.parse_text (h : p.FromCaller) :
    Json.parse p.text = some p.value := by
  rw [h.text_eq]
  exact (Json.reads_objectText (p.members h)).parse

end Text

/-! ## Storing and reading -/

def pushes (es : List QueueOp) : List EventPush :=
  es.filterMap fun
    | .push event userSub role unix => some ⟨event, userSub, role, unix⟩
    | _ => none

def recentPushes (es : List QueueOp) : List EventPush :=
  (pushes es).drop ((pushes es).length - queued es)

theorem pushedTexts_eq (es : List QueueOp) :
    pushedTexts es = (pushes es).map fun p => pushedText p.event p.userSub p.role p.unix := by
  unfold pushedTexts pushes
  rw [List.map_filterMap]
  apply List.filterMap_congr
  intro op _
  cases op <;> rfl

theorem Recent.json_getElem? {es : List QueueOp} {q : EventQueue} (h : Recent es q) {i : Nat}
    {p : EventPush} (hp : (recentPushes es)[i]? = some p) (hcaller : p.FromCaller) :
    q.json[i]? = some p.text := by
  rw [h.eq_drop, pushedTexts_eq, List.length_map, ← List.map_drop, List.getElem?_map]
  show ((recentPushes es)[i]?).map _ = _
  rw [hp, Option.map_some, hcaller.pushedText_eq]

theorem ShowsQueue.peek_eq {s : EventMem} {q : EventQueue} (h : ShowsQueue s q) {text : Bytes}
    (htext : q.json[0]? = some text) {outSize : Nat} (hsize : pairingEventJsonMax ≤ outSize) :
    peekSlot s outSize = some text := by
  rw [h.ram.peek hsize, List.head?_eq_getElem?]
  exact htext

/-- What a push stores is the whole text, and the reader of JSON finds the event in it. As long
as the event waits, its slot holds that text, also after a reboot, and once it is the oldest, a
peek copies it. -/
theorem event_json_faithful (es : List QueueOp) (p : EventPush) (hp : p.FromCaller) :
    p.text.length < pairingEventJsonMax ∧ Json.parse p.text = some p.value ∧
      (∃ s, (es ++ [p.op]).foldlM memStep {} = some s ∧
        (queueTexts s.ram.1).getLast? = some p.text) ∧
      ∀ i, (recentPushes es)[i]? = some p →
        ∃ s s', es.foldlM memStep {} = some s ∧ memStep s .reboot = some s' ∧
          (queueTexts s.ram.1)[i]? = some p.text ∧ (queueTexts s'.ram.1)[i]? = some p.text ∧
          (i = 0 → ∀ outSize, pairingEventJsonMax ≤ outSize →
            peekSlot s outSize = some p.text ∧ peekSlot s' outSize = some p.text) := by
  refine ⟨hp.length_text, hp.parse_text, ?_, fun i hi => ?_⟩
  · obtain ⟨s, hs, hshows⟩ := run_showsQueue (es ++ [p.op])
    refine ⟨s, hs, ?_⟩
    have hlast : run queueStep {} (es ++ [p.op]) = queueStep (run queueStep {} es) p.op := by
      rw [run_append]
      rfl
    rw [hshows.ram.texts_eq, hlast, EventPush.op, queueStep_push_json, offer,
      List.getLast?_concat, hp.pushedText_eq]
  · obtain ⟨s, hs, hshows⟩ := run_showsQueue es
    obtain ⟨s', hs', hshows'⟩ := hshows.step .reboot
    have hboot : queueStep (run queueStep {} es) .reboot = run queueStep {} es := hshows.init_eq
    rw [hboot] at hshows'
    have hslot := (recent_run es).json_getElem? hi hp
    refine ⟨s, s', hs, hs', ?_, ?_, ?_⟩
    · rw [hshows.ram.texts_eq, hslot]
    · rw [hshows'.ram.texts_eq, hslot]
    · rintro rfl outSize hsize
      exact ⟨hshows.peek_eq hslot hsize, hshows'.peek_eq hslot hsize⟩

namespace Sample

def quotedPush : EventPush :=
  ⟨ascii "unpaired", ascii "a\"b\\c", ascii "user", 1700000000⟩

theorem quotedPush_fromCaller : quotedPush.FromCaller :=
  ⟨by decide, by decide, by decide, by decide +kernel⟩

theorem event_json_faithful_quoted :
    quotedPush.FromCaller ∧ Json.parse quotedPush.text = some quotedPush.value ∧
      ∃ s s', [.push [] [] [] 0, quotedPush.op, .pop].foldlM memStep {} = some s ∧
        memStep s .reboot = some s' ∧
        peekSlot s' pairingEventJsonMax = some quotedPush.text := by
  have h := event_json_faithful [.push [] [] [] 0, quotedPush.op, .pop] quotedPush
    quotedPush_fromCaller
  obtain ⟨s, s', hs, hs', -, -, hpeek⟩ := h.2.2.2 0 rfl
  exact ⟨quotedPush_fromCaller, h.2.1, s, s', hs, hs', (hpeek rfl _ (Nat.le_refl _)).2⟩

end Sample

end CyThing
