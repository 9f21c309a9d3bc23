import CyThing.Lib.Memory
import CyThing.TcpServer.TcpCommandDefs

/-! The two ways to start a firmware update: `ota_handle_line` for a line on a socket
(`tcp_server/tcp_command`) and `process_aws_iot_update_fw_response` for an MQTT payload
(`aws/aws_iot_handler`), both on the memory they are given, with whatever stands behind the line
or the payload there. -/

namespace CyThing
open CLib

abbrev firmwareUrlSize : Nat := 4096

inductive OtaCommand
  | start
  | credential
  | updating
  deriving DecidableEq

def OtaCommand.command : OtaCommand → Bytes
  | .start => ascii "startupdatecomm"
  | .credential => ascii "credentialcomm"
  | .updating => ascii "updatingcomm"

def OtaCommand.response : OtaCommand → Bytes
  | .start => ascii "startupdateres"
  | .credential => ascii "credentialres"
  | .updating => ascii "updating:"

def otaCommand (mem : Bytes) : Option OtaCommand :=
  if hasPrefix mem OtaCommand.start.command then some .start
  else if hasPrefix mem OtaCommand.credential.command then some .credential
  else if hasPrefix mem OtaCommand.updating.command then some .updating
  else none

structure OtaOutcome where
  command : Option OtaCommand
  reply : Option Bytes
  url : Block firmwareUrlSize
  deriving DecidableEq

/-- `memcpy(firmwareUrl, src, len)` and the NUL behind it; `none` when C does not define what
happens, as for a negative length. -/
def copyFirmwareUrl (url : Block firmwareUrlSize) (src : Bytes) (len : Int) :
    Option (Block firmwareUrlSize) :=
  if len < 0 then none
  else (memcpy url 0 (src.take len.toNat)).bind fun url => memcpy url len.toNat [0]

def otaHandleMemory (url : Block firmwareUrlSize) (mem : Bytes) (len : Int) :
    Option OtaOutcome :=
  match otaCommand mem with
  | none => some ⟨none, none, url⟩
  | some .updating =>
    let cmdLen := OtaCommand.updating.command.length
    let urlLen := len - cmdLen
    let urlLen := if (firmwareUrlSize : Int) ≤ urlLen then (firmwareUrlSize : Int) - 1 else urlLen
    (copyFirmwareUrl url (mem.drop cmdLen) urlLen).map fun url =>
      ⟨some .updating, some (OtaCommand.updating.response ++ ascii "2"), url⟩
  | some c => some ⟨some c, some c.response, url⟩

/-- What `deserializePublish` leaves in `pPayload`: the payload in the network buffer, with what
stands behind it there; `NULL` for an empty one. -/
def pPayload (payload behind : Bytes) : Option Bytes :=
  if payload.length ≠ 0 then some (payload ++ behind) else none

/-- `process_aws_iot_update_fw_response` on the memory that starts with the payload. It does not
look whether there is one: `memcmp` on `NULL` is not defined. -/
def processAwsIotUpdateFwResponse (url : Block firmwareUrlSize) (command : Option Bytes)
    (commandLength : Int) : Option OtaOutcome := do
  let mem ← command
  match otaCommand mem with
  | none => some ⟨none, none, url⟩
  | some .updating =>
    (copyFirmwareUrl url (mem.drop 12) (commandLength - 12)).map fun url =>
      ⟨some .updating, some (OtaCommand.updating.response ++ ascii "2\n"), url⟩
  | some c => some ⟨some c, some c.response, url⟩

structure FollowsText (url : Block firmwareUrlSize) (text : Bytes) (r : OtaOutcome) : Prop where
  command : r.command = otaCommand text
  kept : r.command ≠ some .updating → r.url = url
  copied : r.command = some .updating →
    ((text.drop 12).take (firmwareUrlSize - 1) ++ [0]) <+: r.url.1

/-! ## Commands -/

section Command

variable {mem text rest : Bytes} {c : OtaCommand}

theorem otaCommand_eq_some_iff : otaCommand mem = some c ↔ c.command <+: mem := by
  have hclash : ∀ c d : OtaCommand, c ≠ d →
      hasPrefix d.command c.command = false ∧ hasPrefix c.command d.command = false := by
    intro c d
    cases c <;> cases d <;> decide +kernel
  rw [← hasPrefix_iff]
  constructor
  · intro h
    unfold otaCommand at h
    split_ifs at h with h₁ h₂ h₃
    · exact Option.some_inj.mp h ▸ h₁
    · exact Option.some_inj.mp h ▸ h₂
    · exact Option.some_inj.mp h ▸ h₃
  · intro h
    have hno (d : OtaCommand) (hd : c ≠ d) : hasPrefix mem d.command = false :=
      not_hasPrefix_of_hasPrefix (hclash c d hd) h
    unfold otaCommand
    cases c with
    | start => rw [if_pos h]
    | credential => rw [hno .start (by decide), if_neg Bool.false_ne_true, if_pos h]
    | updating =>
      rw [hno .start (by decide), if_neg Bool.false_ne_true, hno .credential (by decide),
        if_neg Bool.false_ne_true, if_pos h]

theorem otaCommand_congr (h : ∀ c : OtaCommand, c.command <+: mem ↔ c.command <+: text) :
    otaCommand mem = otaCommand text := by
  refine Option.ext fun c => ?_
  rw [otaCommand_eq_some_iff, otaCommand_eq_some_iff]
  exact h c

theorem otaCommand_line (line rest : Bytes) :
    otaCommand (line ++ 10 :: rest) = otaCommand line := by
  -- no command has a `\n`, so the one behind the line ends every comparison
  have hnl : ∀ c : OtaCommand, (10 : UInt8) ∉ c.command := by
    intro c
    cases c <;> decide +kernel
  refine otaCommand_congr fun c => ⟨fun h => ?_, fun h => h.trans (List.prefix_append _ _)⟩
  rcases List.prefix_or_prefix_of_prefix h (List.prefix_append line (10 :: rest)) with h' | h'
  · exact h'
  · obtain ⟨t, ht⟩ := h'
    rw [← ht, List.prefix_append_right_inj] at h
    cases t with
    | nil => rw [← ht, List.append_nil]
    | cons x t =>
      have hx : x = 10 := (List.cons_prefix_cons.mp h).1
      exact absurd (ht ▸ List.mem_append_right line (by simp [hx])) (hnl c)

end Command

/-! ## The copy -/

section Copy

variable {url : Block firmwareUrlSize} {src : Bytes} {len : Nat}

theorem copyFirmwareUrl_spec (url : Block firmwareUrlSize) (hlen : len < firmwareUrlSize)
    (hsrc : len ≤ src.length) :
    ∃ url', copyFirmwareUrl url src len = some url' ∧ src.take len ++ [0] <+: url'.1 := by
  have htake : (src.take len).length = len := by rw [List.length_take, Nat.min_eq_left hsrc]
  have hfits : 0 + (src.take len).length ≤ firmwareUrlSize := by omega
  have hnul : len + [(0 : UInt8)].length ≤ firmwareUrlSize := hlen
  obtain ⟨url₁, h₁⟩ := exists_memcpy url hfits
  obtain ⟨url₂, h₂⟩ := exists_memcpy url₁ hnul
  refine ⟨url₂, ?_, ?_⟩
  · rw [copyFirmwareUrl, if_neg (by omega), Int.toNat_natCast, h₁, Option.bind_some, h₂]
  · have hhead := take_memcpy h₁
    have hall := take_memcpy h₂
    rw [htake, Nat.zero_add, List.take_zero, List.nil_append] at hhead
    rw [hhead] at hall
    exact hall ▸ List.take_prefix _ _

theorem copyFirmwareUrl_of_le (hlen : firmwareUrlSize ≤ len) :
    copyFirmwareUrl url src len = none := by
  rw [copyFirmwareUrl, if_neg (by omega), Int.toNat_natCast]
  cases memcpy url 0 (src.take len) with
  | none => rfl
  | some url => exact memcpy_of_lt url (Nat.lt_succ_of_le hlen)

theorem copyFirmwareUrl_text (url : Block firmwareUrlSize) (rest : Bytes) {text : Bytes}
    {n : Nat} (hlen : len < firmwareUrlSize) (hn : n ≤ text.length)
    (htext : len ≤ text.length - n) :
    ∃ url', copyFirmwareUrl url ((text ++ rest).drop n) len = some url' ∧
      (text.drop n).take len ++ [0] <+: url'.1 := by
  have hdrop : (text ++ rest).drop n = text.drop n ++ rest := List.drop_append_of_le_length hn
  have hshort : len ≤ (text.drop n).length := by rwa [List.length_drop]
  rw [hdrop]
  have hsrc : len ≤ (text.drop n ++ rest).length :=
    hshort.trans (List.length_append ▸ Nat.le_add_right _ rest.length)
  obtain ⟨url', hcopy, hurl⟩ := copyFirmwareUrl_spec url hlen hsrc
  rw [List.take_append_of_le_length hshort] at hurl
  exact ⟨url', hcopy, hurl⟩

end Copy

/-! ## The two entry points -/

section Entry

variable (url : Block firmwareUrlSize)

theorem otaHandleMemory_follows (line rest : Bytes) :
    ∃ r, otaHandleMemory url (line ++ 10 :: rest) line.length = some r ∧
      FollowsText url line r := by
  rw [otaHandleMemory, otaCommand_line]
  cases hc : otaCommand line with
  | none => exact ⟨_, rfl, hc.symm, fun _ => rfl, fun h => by cases h⟩
  | some c =>
    cases c with
    | start => exact ⟨_, rfl, hc.symm, fun _ => rfl, fun h => by cases h⟩
    | credential => exact ⟨_, rfl, hc.symm, fun _ => rfl, fun h => by cases h⟩
    | updating =>
      have h12 : 12 ≤ line.length := (otaCommand_eq_some_iff.mp hc).length_le
      -- the clamp in natural numbers
      obtain ⟨len, hclamp, hmin⟩ : ∃ len : Nat,
          (if (firmwareUrlSize : Int) ≤ line.length - 12 then (firmwareUrlSize : Int) - 1
            else line.length - 12) = len ∧
          len = min (firmwareUrlSize - 1) (line.length - 12) := by
        refine ⟨_, ?_, rfl⟩
        simp only [firmwareUrlSize]
        split <;> omega
      have hroom : len < firmwareUrlSize := by
        simp only [firmwareUrlSize] at hmin ⊢
        omega
      obtain ⟨url', hcopy, hurl⟩ :=
        copyFirmwareUrl_text url (10 :: rest) hroom h12 (by omega : len ≤ line.length - 12)
      refine ⟨⟨some .updating, some (OtaCommand.updating.response ++ ascii "2"), url'⟩, ?_, hc.symm,
        fun h => absurd rfl h, fun _ => ?_⟩
      · have hcmd : OtaCommand.updating.command.length = 12 := by decide +kernel
        have hcast : ((12 : Nat) : Int) = 12 := rfl
        simp only [hcmd, hcast, hclamp, hcopy, Option.map_some]
      · rw [List.take_eq_take_min, List.length_drop, ← hmin]
        exact hurl

theorem processAwsIotUpdateFwResponse_command {mem : Bytes} {len : Int} {r : OtaOutcome}
    (hr : processAwsIotUpdateFwResponse url (some mem) len = some r) :
    r.command = otaCommand mem := by
  rw [processAwsIotUpdateFwResponse, Option.bind_eq_bind, Option.bind_some] at hr
  cases hc : otaCommand mem with
  | none =>
    rw [hc] at hr
    exact Option.some_inj.mp hr ▸ rfl
  | some c =>
    rw [hc] at hr
    cases c with
    | start => exact Option.some_inj.mp hr ▸ rfl
    | credential => exact Option.some_inj.mp hr ▸ rfl
    | updating =>
      obtain ⟨url', -, rfl⟩ := Option.map_eq_some_iff.mp hr
      rfl

theorem processAwsIotUpdateFwResponse_updating {payload : Bytes} (behind : Bytes)
    (hup : OtaCommand.updating.command <+: payload) :
    processAwsIotUpdateFwResponse url (some (payload ++ behind)) payload.length =
      (copyFirmwareUrl url ((payload ++ behind).drop 12) (payload.length - 12 : Nat)).map fun url =>
        ⟨some .updating, some (OtaCommand.updating.response ++ ascii "2\n"), url⟩ := by
  have h12 : 12 ≤ payload.length := hup.length_le
  have hlen : ((payload.length : Int) - 12) = (payload.length - 12 : Nat) := by omega
  rw [processAwsIotUpdateFwResponse, Option.bind_eq_bind, Option.bind_some,
    otaCommand_eq_some_iff.mpr (hup.trans (List.prefix_append payload behind)), hlen]

theorem processAwsIotUpdateFwResponse_follows {payload behind : Bytes}
    (hinside : ∀ c : OtaCommand, c.command <+: payload ++ behind →
      c.command.length ≤ payload.length)
    (hshort : OtaCommand.updating.command <+: payload → payload.length < 12 + firmwareUrlSize) :
    ∃ r, processAwsIotUpdateFwResponse url (some (payload ++ behind)) payload.length = some r ∧
      FollowsText url payload r := by
  have hsame : otaCommand (payload ++ behind) = otaCommand payload :=
    otaCommand_congr fun c =>
      ⟨fun h => List.prefix_of_prefix_length_le h (List.prefix_append _ _) (hinside c h),
        fun h => h.trans (List.prefix_append _ _)⟩
  cases hc : otaCommand payload with
  | none =>
    rw [processAwsIotUpdateFwResponse, Option.bind_eq_bind, Option.bind_some, hsame, hc]
    exact ⟨_, rfl, hc.symm, fun _ => rfl, fun h => by cases h⟩
  | some c =>
    cases c with
    | start =>
      rw [processAwsIotUpdateFwResponse, Option.bind_eq_bind, Option.bind_some, hsame, hc]
      exact ⟨_, rfl, hc.symm, fun _ => rfl, fun h => by cases h⟩
    | credential =>
      rw [processAwsIotUpdateFwResponse, Option.bind_eq_bind, Option.bind_some, hsame, hc]
      exact ⟨_, rfl, hc.symm, fun _ => rfl, fun h => by cases h⟩
    | updating =>
      have hup := otaCommand_eq_some_iff.mp hc
      have h12 : 12 ≤ payload.length := hup.length_le
      have hroom : payload.length - 12 < firmwareUrlSize := by
        have := hshort hup
        omega
      obtain ⟨url', hcopy, hurl⟩ := copyFirmwareUrl_text url behind hroom h12 le_rfl
      refine ⟨⟨some .updating, some (OtaCommand.updating.response ++ ascii "2\n"), url'⟩, ?_,
        hc.symm, fun h => absurd rfl h, fun _ => ?_⟩
      · rw [processAwsIotUpdateFwResponse_updating url behind hup, hcopy, Option.map_some]
      · rw [List.take_eq_take_min, List.length_drop, Nat.min_eq_right (by omega)]
        exact hurl

theorem processAwsIotUpdateFwResponse_follows_iff (payload behind : Bytes) :
    (∃ r, processAwsIotUpdateFwResponse url (pPayload payload behind) payload.length = some r ∧
        FollowsText url payload r) ↔
      payload ≠ [] ∧
        (∀ c : OtaCommand, c.command <+: payload ++ behind → c.command.length ≤ payload.length) ∧
        (OtaCommand.updating.command <+: payload → payload.length < 12 + firmwareUrlSize) := by
  by_cases hempty : payload = []
  · refine iff_of_false ?_ fun h => h.1 hempty
    rintro ⟨r, hr, -⟩
    rw [hempty] at hr
    cases hr
  rw [pPayload, if_pos (mt List.eq_nil_of_length_eq_zero hempty), and_iff_right hempty]
  constructor
  · rintro ⟨r, hr, hfollows⟩
    refine ⟨fun c hc => ?_, fun hup => ?_⟩
    · have hcommand := (processAwsIotUpdateFwResponse_command url hr).symm.trans hfollows.command
      rw [otaCommand_eq_some_iff.mpr hc] at hcommand
      exact (otaCommand_eq_some_iff.mp hcommand.symm).length_le
    · by_contra hlong
      rw [processAwsIotUpdateFwResponse_updating url behind hup,
        copyFirmwareUrl_of_le (by omega : firmwareUrlSize ≤ payload.length - 12)] at hr
      cases hr
  · rintro ⟨hinside, hshort⟩
    exact processAwsIotUpdateFwResponse_follows url hinside hshort

end Entry

theorem otaHandleLine_command (w : World) (sock : Nat) (line : Bytes) :
    otaHandleLine w sock line =
      match otaCommand line with
      | none => none
      | some .updating =>
        some ({ w with
            firmwareUrl := (line.drop 12).take (firmwareUrlSize - 1)
            otaTasks := w.otaTasks ++ [sock] }.sendRaw sock (ascii "updating:2"))
      | some c => some (w.sendRaw sock c.response) := by
  unfold otaHandleLine otaCommand
  simp only [OtaCommand.command]
  by_cases h₁ : hasPrefix line (ascii "startupdatecomm") = true
  · simp only [h₁, if_true, OtaCommand.response]
  by_cases h₂ : hasPrefix line (ascii "credentialcomm") = true
  · simp only [h₁, h₂, if_true, Bool.false_eq_true, if_false, OtaCommand.response]
  by_cases h₃ : hasPrefix line (ascii "updatingcomm") = true
  · simp only [h₁, h₂, h₃, if_true, Bool.false_eq_true, if_false]
    rfl
  · simp only [h₁, h₂, h₃, Bool.false_eq_true, if_false]

theorem otaHandleLine_refines (w : World) (sock : Nat) (url : Block firmwareUrlSize)
    (line rest : Bytes) :
    ∃ r, otaHandleMemory url (line ++ 10 :: rest) line.length = some r ∧
      otaHandleLine w sock line = r.reply.map fun reply =>
        (if r.command = some .updating then
          { w with
            firmwareUrl := (line.drop 12).take (firmwareUrlSize - 1)
            otaTasks := w.otaTasks ++ [sock] }
        else w).sendRaw sock reply := by
  obtain ⟨r, hr, -⟩ := otaHandleMemory_follows url line rest
  refine ⟨r, hr, ?_⟩
  rw [otaHandleLine_command]
  rw [otaHandleMemory, otaCommand_line] at hr
  cases hc : otaCommand line with
  | none =>
    rw [hc] at hr
    obtain rfl := Option.some_inj.mp hr
    rfl
  | some c =>
    rw [hc] at hr
    cases c with
    | start =>
      obtain rfl := Option.some_inj.mp hr
      rfl
    | credential =>
      obtain rfl := Option.some_inj.mp hr
      rfl
    | updating =>
      obtain ⟨url', -, rfl⟩ := Option.map_eq_some_iff.mp hr
      rfl

/-- Both entry points go by the text itself and stay in `firmwareUrl`, exactly when there is a
payload, the bytes behind it do not complete a command that it has only begun, and its URL leaves
room for the end. -/
theorem ota_entry_points_agree_iff (url : Block firmwareUrlSize) (text behind rest : Bytes) :
    ((∃ r, processAwsIotUpdateFwResponse url (pPayload text behind) text.length = some r ∧
          FollowsText url text r) ∧
        ∃ r, otaHandleMemory url (text ++ 10 :: rest) text.length = some r ∧
          FollowsText url text r) ↔
      text ≠ [] ∧
        (∀ c : OtaCommand, c.command <+: text ++ behind → c.command.length ≤ text.length) ∧
        (OtaCommand.updating.command <+: text → text.length < 12 + firmwareUrlSize) := by
  rw [and_iff_left (otaHandleMemory_follows url text rest)]
  exact processAwsIotUpdateFwResponse_follows_iff url text behind

namespace Sample

/-- A payload that is no command, behind which an older one has left its end: on the socket it
is not recognised; over MQTT it is, with a copy of minus four bytes. An empty payload is compared
through `NULL`. -/
theorem stale_payload_recognised :
    otaCommand (ascii "updating") = none ∧
      (otaHandleMemory (Block.zero _) (ascii "updating\n") 8).map OtaOutcome.command =
        some none ∧
      otaCommand (ascii "updating" ++ ascii "commhttps://old") = some .updating ∧
      processAwsIotUpdateFwResponse (Block.zero _)
        (pPayload (ascii "updating") (ascii "commhttps://old")) 8 = none ∧
      (otaHandleMemory (Block.zero _) (ascii "\n") 0).map OtaOutcome.command = some none ∧
      processAwsIotUpdateFwResponse (Block.zero _) (pPayload [] (ascii "updatingcomm")) 0 =
        none := by
  decide +kernel

end Sample

end CyThing
