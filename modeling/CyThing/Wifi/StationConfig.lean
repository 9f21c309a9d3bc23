import CyThing.Lib.Flash

/-! The credentials of the router in flash (`memory_handler/flash_wifi_info_handler`), what
`cything_begin` and `wifi_init_sta` make of them after a reboot, and the configuration of a
trial (`wifi/wifi_trial`). -/

namespace CyThing
open CLib Flash

abbrev flashWifiModeOffset : Nat := 0x000
abbrev flashRouterSsidOffset : Nat := 0x100
abbrev flashRouterPasswordOffset : Nat := 0x400
abbrev flashFieldSize : Nat := 0x100

def wifiStaMode : Bytes := ascii "WiMStA\r\n"

/-- The 256 bytes `flash_store_wifi_router_info` reads from the literal `WIFI_STA_MODE`;
`rodata` is whatever the linker put behind it. -/
def wifiModeField (rodata : Bytes) : Bytes := (wifiStaMode ++ 0 :: rodata).take flashFieldSize

/-- `flash_store_wifi_router_info` when erase and writes succeed; `stored` are the two
strings, each with as many bytes as its length argument says. -/
def flashStoreWifiRouterInfo (p : Partition) (rodata : Bytes) (stored : Bytes × Bytes) :
    Partition :=
  let p := erase p flashWifiModeOffset 4096
  let p := write p flashWifiModeOffset (wifiModeField rodata)
  let p := write p flashRouterSsidOffset stored.1
  write p flashRouterPasswordOffset stored.2

def terminated (cred : Bytes × Bytes) : Bytes × Bytes := (cred.1 ++ [0], cred.2 ++ [0])

structure StaConfig where
  ssid : Block 32
  password : Block 64
  /-- `threshold.authmode` is `WIFI_AUTH_WPA2_PSK`. -/
  wpa2Psk : Bool
  deriving DecidableEq

def StaConfig.of (ssid password : Bytes) : StaConfig :=
  ⟨.fit 32 ssid, .fit 64 password, !password.isEmpty⟩

def wifiTrialConfig (ssid password : Bytes) : StaConfig :=
  { ssid := .fit 32 (cstr ssid)
    password := .fit 64 (cstr password)
    wpa2Psk := password.headD 0 != 0 }

/-- The length loops of `wifi_init_sta`: without a NUL in reach the length stays 0. -/
def argLength (arg : Block 128) : Nat :=
  if (0 : UInt8) ∈ arg.1 then (cstr arg.1).length else 0

/-- The `wifi_config_t` of `wifi_init_sta`; `none` when a copy would leave its field. -/
def wifiInitSta (ssidArg passArg : Block 128) : Option StaConfig :=
  let ssid := ssidArg.1.take (argLength ssidArg)
  let pass := passArg.1.take (argLength passArg)
  if ssid.length ≤ 32 ∧ pass.length ≤ 64 then
    some ⟨.fit 32 ssid, .fit 64 pass, !(cstr (Block.fit 64 pass).1).isEmpty⟩
  else none

/-- `sprintf(arg, field)` into a cleared `char[128]`, the field used as the format; `none`
where C does not define what happens. -/
def sprintfArg (field : Bytes) : Option (Block 128) :=
  (formatNoArgs (cstr field)).bind fun text =>
    if text.length < 128 then some (.fit 128 text) else none

inductive WifiBoot
  | accessPoint
  | station (config : StaConfig)
  | undefined
  deriving DecidableEq

def cythingBegin (p : Partition) : WifiBoot :=
  if (read p flashWifiModeOffset flashFieldSize).take 6 = wifiStaMode.take 6 then
    match sprintfArg (read p flashRouterSsidOffset flashFieldSize),
      sprintfArg (read p flashRouterPasswordOffset flashFieldSize) with
    | some ssidArg, some passArg =>
      match wifiInitSta ssidArg passArg with
      | some config => .station config
      | none => .undefined
    | _, _ => .undefined
  else .accessPoint

/-! ## From the partition to the configuration -/

variable {p : Partition} {off : Nat} {ssid pass text : Bytes}

theorem sprintfArg_of_holds (h : Holds p off (text ++ [0])) (h0 : (0 : UInt8) ∉ text)
    (hpct : (37 : UInt8) ∉ text) (hlen : text.length < 128) :
    sprintfArg (read p off flashFieldSize) = some (.fit 128 text) := by
  have htext : cstr (read p off flashFieldSize) = text :=
    h.cstr_read h0 (hlen.trans (by decide))
  simp only [sprintfArg, htext, formatNoArgs_eq_self hpct, Option.bind_some, hlen, ite_true]

theorem take_argLength (h0 : (0 : UInt8) ∉ text) (hlen : text.length < 128) :
    (Block.fit 128 text).1.take (argLength (.fit 128 text)) = text := by
  obtain ⟨k, hk⟩ : ∃ k, 128 - text.length = k + 1 := ⟨127 - text.length, by omega⟩
  have hval : (Block.fit 128 text).1 = text ++ 0 :: List.replicate k 0 := by
    rw [Block.fit_val hlen.le, hk, List.replicate_succ]
  have hc : cstr (Block.fit 128 text).1 = text := cstr_fit hlen.le h0
  have hmem : (0 : UInt8) ∈ (Block.fit 128 text).1 := by simp [hval]
  rw [argLength, if_pos hmem, hc, hval, List.take_left]

theorem cstr_fit_isEmpty (h0 : (0 : UInt8) ∉ text) (n : Nat) (hn : 0 < n) :
    (cstr (Block.fit n text).1).isEmpty = text.isEmpty := by
  cases text with
  | nil =>
    obtain ⟨k, rfl⟩ : ∃ k, n = k + 1 := ⟨n - 1, by omega⟩
    simp [Block.fit, cstr, List.replicate_succ]
  | cons c cs =>
    have hc : c ≠ 0 := fun h => h0 (by simp [h])
    obtain ⟨k, rfl⟩ : ∃ k, n = k + 1 := ⟨n - 1, by omega⟩
    simp [Block.fit, cstr, hc]

theorem wifiInitSta_fit (hs0 : (0 : UInt8) ∉ ssid) (hp0 : (0 : UInt8) ∉ pass)
    (hs : ssid.length ≤ 32) (hp : pass.length ≤ 64) :
    wifiInitSta (.fit 128 ssid) (.fit 128 pass) = some (.of ssid pass) := by
  have hssid := take_argLength hs0 (by omega : ssid.length < 128)
  have hpass := take_argLength hp0 (by omega : pass.length < 128)
  simp only [wifiInitSta, hssid, hpass, hs, hp, and_self, ite_true, StaConfig.of,
    cstr_fit_isEmpty hp0 64 (by decide)]

theorem noPercent_of_sprintfArg {off n : Nat} {arg : Block 128}
    (hin : Holds p off (text ++ [0])) (h0 : (0 : UInt8) ∉ text) (hn : text.length ≤ n)
    (hsmall : n < 128) (harg : sprintfArg (read p off flashFieldSize) = some arg)
    (hsame : Block.fit n (arg.1.take (argLength arg)) = .fit n text) : (37 : UInt8) ∉ text := by
  rw [sprintfArg, hin.cstr_read h0 (by simp only [flashFieldSize]; omega)] at harg
  obtain ⟨out, hout, hfit⟩ := Option.bind_eq_some_iff.mp harg
  have hformat := formatsTo_of_formatNoArgs hout
  have hlen := hformat.length_le
  have hout0 : (0 : UInt8) ∉ out := fun hz => h0 (hformat.subset 0 hz)
  rw [if_pos (by omega), Option.some_inj] at hfit
  rw [← hfit, take_argLength hout0 (by omega)] at hsame
  have heq : out = text := by
    rw [← cstr_fit (hlen.trans hn) hout0, hsame, cstr_fit hn h0]
  exact hformat.plain (by rw [heq])

theorem noPercent_of_cythingBegin {config : StaConfig}
    (hssid : Holds p flashRouterSsidOffset (ssid ++ [0]))
    (hpass : Holds p flashRouterPasswordOffset (pass ++ [0])) (hs0 : (0 : UInt8) ∉ ssid)
    (hp0 : (0 : UInt8) ∉ pass) (hs : ssid.length ≤ 32) (hp : pass.length ≤ 64)
    (hboot : cythingBegin p = .station config) (hsame : config.ssid = .fit 32 ssid)
    (hsame' : config.password = .fit 64 pass) : (37 : UInt8) ∉ ssid ∧ (37 : UInt8) ∉ pass := by
  rw [cythingBegin] at hboot
  split at hboot
  · split at hboot
    · next ssidArg passArg hssidArg hpassArg =>
      split at hboot
      · next config' hinit =>
        cases hboot
        rw [wifiInitSta] at hinit
        split at hinit
        · cases hinit
          exact ⟨noPercent_of_sprintfArg hssid hs0 hs (by decide) hssidArg hsame,
            noPercent_of_sprintfArg hpass hp0 hp (by decide) hpassArg hsame'⟩
        · cases hinit
      · cases hboot
    · cases hboot
  · cases hboot

theorem holds_flashStore (p : Partition) (rodata : Bytes) (stored : Bytes × Bytes)
    (hs : stored.1.length ≤ flashFieldSize) (hp : stored.2.length ≤ flashFieldSize) :
    Holds (flashStoreWifiRouterInfo p rodata stored) flashWifiModeOffset (wifiModeField rodata) ∧
      Holds (flashStoreWifiRouterInfo p rodata stored) flashRouterSsidOffset stored.1 ∧
      Holds (flashStoreWifiRouterInfo p rodata stored) flashRouterPasswordOffset stored.2 := by
  have hmode : (wifiModeField rodata).length ≤ flashFieldSize := List.length_take_le _ _
  unfold flashStoreWifiRouterInfo
  have hblank := blank_erase p flashWifiModeOffset 4096
  generalize erase p flashWifiModeOffset 4096 = p at hblank
  simp only [flashWifiModeOffset, flashRouterSsidOffset, flashRouterPasswordOffset,
    flashFieldSize] at *
  -- the three fields are disjoint, and each is written on erased bytes
  refine ⟨?_, ?_, ?_⟩
  · have hb : Blank p 0 (wifiModeField rodata).length := hblank.sub (by omega) (by omega)
    exact (hb.holds_write.write (.inr (by omega))).write (.inr (by omega))
  · have hb : Blank p 256 stored.1.length := hblank.sub (by omega) (by omega)
    exact (hb.write (.inl (by omega))).holds_write.write (.inr (by omega))
  · have hb : Blank p 1024 stored.2.length := hblank.sub (by omega) (by omega)
    exact ((hb.write (.inl (by omega))).write (.inl (by omega))).holds_write

theorem mode_of_holds {rodata : Bytes}
    (h : Holds p flashWifiModeOffset (wifiModeField rodata)) :
    (read p flashWifiModeOffset flashFieldSize).take 6 = wifiStaMode.take 6 := by
  obtain ⟨rest, hread⟩ := h.prefix_read (List.length_take_le _ _)
  rw [← hread]
  rfl

theorem cythingBegin_of_holds
    (hmode : (read p flashWifiModeOffset flashFieldSize).take 6 = wifiStaMode.take 6)
    (hssid : Holds p flashRouterSsidOffset (ssid ++ [0]))
    (hpass : Holds p flashRouterPasswordOffset (pass ++ [0]))
    (hs : ssid.length ≤ 32) (hp : pass.length ≤ 64)
    (hclean : ∀ c ∈ ssid ++ pass, c ≠ 0 ∧ c ≠ 37) :
    cythingBegin p = .station (.of ssid pass) := by
  have hs0 : (0 : UInt8) ∉ ssid := fun h => (hclean 0 (by simp [h])).1 rfl
  have hp0 : (0 : UInt8) ∉ pass := fun h => (hclean 0 (by simp [h])).1 rfl
  have hs37 : (37 : UInt8) ∉ ssid := fun h => (hclean 37 (by simp [h])).2 rfl
  have hp37 : (37 : UInt8) ∉ pass := fun h => (hclean 37 (by simp [h])).2 rfl
  have hsarg : sprintfArg (read _ flashRouterSsidOffset flashFieldSize) = some (.fit 128 ssid) :=
    sprintfArg_of_holds hssid hs0 hs37 (by omega)
  have hparg : sprintfArg (read _ flashRouterPasswordOffset flashFieldSize) =
      some (.fit 128 pass) := sprintfArg_of_holds hpass hp0 hp37 (by omega)
  simp only [cythingBegin, hmode, ite_true, hsarg, hparg, wifiInitSta_fit hs0 hp0 hs hp]

theorem cythingBegin_flashStore (p : Partition) (rodata : Bytes)
    (hs : ssid.length ≤ 32) (hp : pass.length ≤ 64)
    (hclean : ∀ c ∈ ssid ++ pass, c ≠ 0 ∧ c ≠ 37) :
    cythingBegin (flashStoreWifiRouterInfo p rodata (terminated (ssid, pass))) =
      .station (.of ssid pass) := by
  have hslen : (ssid ++ [0]).length ≤ 256 := by simp; omega
  have hplen : (pass ++ [0]).length ≤ 256 := by simp; omega
  obtain ⟨hmode, hssid, hpass⟩ := holds_flashStore p rodata (terminated (ssid, pass)) hslen hplen
  exact cythingBegin_of_holds (mode_of_holds hmode) hssid hpass hs hp hclean

end CyThing
