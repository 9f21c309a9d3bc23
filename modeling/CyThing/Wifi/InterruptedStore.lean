import CyThing.Wifi.StationConfig

/-! A store of credentials that stops half-way (`flash_store_wifi_router_info`): which flash
image each stop leaves, and what `cything_begin` makes of it at the next boot. -/

namespace CyThing
open CLib Flash

/-! ## Where the store can stop -/

/-- The calls of `flash_store_wifi_router_info` up to the one that fails, or after which power
is lost; a write that fails may have put down some of its bytes. -/
inductive StoreStop
  | beforeErase
  | modeWrite (done : Nat)
  | ssidWrite (done : Nat)
  | passwordWrite (done : Nat)
  deriving DecidableEq

def flashStoreStopped (p : Partition) (rodata : Bytes) (stored : Bytes × Bytes) :
    StoreStop → Partition
  | .beforeErase => p
  | .modeWrite done =>
    write (erase p flashWifiModeOffset 4096) flashWifiModeOffset
      ((wifiModeField rodata).take done)
  | .ssidWrite done =>
    write
      (write (erase p flashWifiModeOffset 4096) flashWifiModeOffset (wifiModeField rodata))
      flashRouterSsidOffset (stored.1.take done)
  | .passwordWrite done =>
    write
      (write
        (write (erase p flashWifiModeOffset 4096) flashWifiModeOffset (wifiModeField rodata))
        flashRouterSsidOffset stored.1)
      flashRouterPasswordOffset (stored.2.take done)

theorem flashStoreStopped_whole (p : Partition) (rodata : Bytes) (stored : Bytes × Bytes)
    {done : Nat} (h : stored.2.length ≤ done) :
    flashStoreStopped p rodata stored (.passwordWrite done) =
      flashStoreWifiRouterInfo p rodata stored := by
  rw [flashStoreStopped, List.take_of_length_le h, flashStoreWifiRouterInfo]

/-! ## What the next boot finds -/

abbrev StaFlag (p : Partition) : Prop :=
  (read p flashWifiModeOffset flashFieldSize).take 6 = wifiStaMode.take 6

def PairIn (p : Partition) (cred : Bytes × Bytes) : Prop :=
  Holds p flashRouterSsidOffset (cred.1 ++ [0]) ∧ Holds p flashRouterPasswordOffset (cred.2 ++ [0])

def FitsSta (cred : Bytes × Bytes) : Prop :=
  (1 ≤ cred.1.length ∧ cred.1.length ≤ 32) ∧ cred.2.length ≤ 64 ∧
    (0 : UInt8) ∉ cred.1 ∧ (0 : UInt8) ∉ cred.2

def NoPercent (cred : Bytes × Bytes) : Prop := (37 : UInt8) ∉ cred.1 ∧ (37 : UInt8) ∉ cred.2

def BootsWhole (p : Partition) (ok : Bytes × Bytes → Prop) : Prop :=
  cythingBegin p = .accessPoint ∨
    ∃ cred, FitsSta cred ∧ ok cred ∧ PairIn p cred ∧
      cythingBegin p = .station (.of cred.1 cred.2)

section Boot

variable {p : Partition} {cred : Bytes × Bytes} {field text : Bytes}

theorem sprintfArg_eq_none (hlen : field.length = flashFieldSize) (h0 : (0 : UInt8) ∉ field) :
    sprintfArg field = none := by
  -- each conversion takes two bytes for one, and the field is twice the argument buffer
  rw [sprintfArg, cstr_eq_self h0]
  cases hf : formatNoArgs field with
  | none => rfl
  | some text =>
    have hhalf := (formatsTo_of_formatNoArgs hf).half
    rw [Option.bind_some, if_neg (by simp only [flashFieldSize] at hlen; omega)]

theorem cythingBegin_undefined (hflag : StaFlag p)
    (h0 : (0 : UInt8) ∉ read p flashRouterPasswordOffset flashFieldSize) :
    cythingBegin p = .undefined := by
  have hlen : (read p flashRouterPasswordOffset flashFieldSize).length = flashFieldSize := by
    rw [Flash.read, List.length_map, List.length_range]
  have hpass := sprintfArg_eq_none hlen h0
  rw [cythingBegin, if_pos hflag, hpass]
  split
  · next heq => cases heq
  · rfl

theorem not_staFlag_of_accessPoint (h : cythingBegin p = .accessPoint) : ¬ StaFlag p := by
  intro hflag
  rw [cythingBegin, if_pos hflag] at h
  split at h
  · split at h <;> cases h
  · cases h

theorem noPercent_of_boot (hin : PairIn p cred) (hfits : FitsSta cred)
    (hboot : cythingBegin p = .station (.of cred.1 cred.2)) : NoPercent cred :=
  noPercent_of_cythingBegin hin.1 hin.2 hfits.2.2.1 hfits.2.2.2 hfits.1.2 hfits.2.1 hboot rfl rfl

theorem bootsWhole_iff (hflag : StaFlag p) (ok : Bytes × Bytes → Prop) :
    BootsWhole p ok ↔ ∃ cred, FitsSta cred ∧ NoPercent cred ∧ ok cred ∧ PairIn p cred := by
  constructor
  · rintro (hap | ⟨cred, hfits, hok, hin, hboot⟩)
    · exact absurd hflag (not_staFlag_of_accessPoint hap)
    · exact ⟨cred, hfits, noPercent_of_boot hin hfits hboot, hok, hin⟩
  · rintro ⟨cred, hfits, hpct, hok, hin⟩
    refine .inr ⟨cred, hfits, hok, hin, ?_⟩
    obtain ⟨⟨-, hs⟩, hw, hs0, hw0⟩ := hfits
    refine cythingBegin_of_holds hflag hin.1 hin.2 hs hw fun c hc => ⟨?_, ?_⟩
    · rintro rfl
      exact (List.mem_append.mp hc).elim hs0 hw0
    · rintro rfl
      exact (List.mem_append.mp hc).elim hpct.1 hpct.2

theorem not_bootsWhole_of_undefined (h : cythingBegin p = .undefined)
    (ok : Bytes × Bytes → Prop) : ¬ BootsWhole p ok := by
  rintro (hap | ⟨cred, -, -, -, hboot⟩)
  · rw [h] at hap
    cases hap
  · rw [h] at hboot
    cases hboot

theorem bootsWhole_of_not_staFlag (h : ¬ StaFlag p) (ok : Bytes × Bytes → Prop) :
    BootsWhole p ok := .inl (if_neg h)

end Boot

/-! ## The image of each stop -/

section Image

variable {p : Partition} {rodata : Bytes} {stored : Bytes × Bytes} {done : Nat}

theorem staFlag_of_holds (h : Holds p flashWifiModeOffset ((wifiModeField rodata).take done))
    (hdone : 6 ≤ done) : StaFlag p := by
  have hlen : 6 ≤ (wifiModeField rodata).length := by
    simp [wifiModeField, wifiStaMode, ascii]
  have hfits : ((wifiModeField rodata).take done).length ≤ flashFieldSize :=
    (List.length_take_le' done _).trans (List.length_take_le _ _)
  obtain ⟨rest, hread⟩ := h.prefix_read hfits
  rw [StaFlag, ← hread, List.take_append_of_le_length (by rw [List.length_take]; omega),
    List.take_take, Nat.min_eq_left hdone]
  rfl

theorem not_staFlag_of_blank (hblank : p done = 255) (hdone : done < 6) : ¬ StaFlag p := by
  -- where the flag goes on the flash is still erased
  intro hflag
  have hmode : ∀ d < 6, wifiStaMode[d]? ≠ some 255 := by decide
  have hget := congrArg (fun l => l[done]?) hflag
  simp only [List.getElem?_take_of_lt hdone] at hget
  refine hmode done hdone (hget.symm.trans ?_)
  have hin : done < flashFieldSize := hdone.trans (by decide)
  simp [Flash.read, hin, hblank]

theorem undefined_of_blank (hflag : StaFlag p)
    (hblank : Blank p flashRouterPasswordOffset flashFieldSize) :
    cythingBegin p = .undefined := by
  have h0 := hblank.zero_notMem_read (Nat.zero_le _) (List.not_mem_nil (a := (0 : UInt8)))
  rw [write_nil] at h0
  exact cythingBegin_undefined hflag h0

theorem mode_and_blank (p : Partition) (rodata : Bytes) {data : Bytes}
    (hlen : data.length ≤ flashFieldSize) :
    Holds (write
        (write (erase p flashWifiModeOffset 4096) flashWifiModeOffset (wifiModeField rodata))
        flashRouterSsidOffset data) flashWifiModeOffset (wifiModeField rodata) ∧
      Blank (write
        (write (erase p flashWifiModeOffset 4096) flashWifiModeOffset (wifiModeField rodata))
        flashRouterSsidOffset data) flashRouterPasswordOffset flashFieldSize := by
  have hmode : (wifiModeField rodata).length ≤ flashFieldSize := List.length_take_le _ _
  have hblank := blank_erase p flashWifiModeOffset 4096
  simp only [flashWifiModeOffset, flashRouterSsidOffset, flashRouterPasswordOffset,
    flashFieldSize] at *
  constructor
  · have hb : Blank (erase p 0 4096) 0 (wifiModeField rodata).length :=
      hblank.sub (by omega) (by omega)
    exact hb.holds_write.write (.inr (by omega))
  · have hb : Blank (erase p 0 4096) 1024 256 := hblank.sub (by omega) (by omega)
    exact (hb.write (.inl (by omega))).write (.inl (by omega))

theorem bootsWhole_modeWrite (p : Partition) (rodata : Bytes) (stored : Bytes × Bytes) (done : Nat)
    (ok : Bytes × Bytes → Prop) :
    BootsWhole (flashStoreStopped p rodata stored (.modeWrite done)) ok ↔ done < 6 := by
  have hmode : ((wifiModeField rodata).take done).length ≤ flashFieldSize :=
    (List.length_take_le' done _).trans (List.length_take_le _ _)
  have hblank := blank_erase p flashWifiModeOffset 4096
  rw [flashStoreStopped]
  constructor
  · intro hboots
    by_contra hdone
    have hb : Blank (erase p flashWifiModeOffset 4096) flashWifiModeOffset
        ((wifiModeField rodata).take done).length :=
      hblank.sub le_rfl (Nat.add_le_add_left (hmode.trans (by decide)) _)
    have hflag := staFlag_of_holds hb.holds_write (Nat.not_lt.mp hdone)
    have hpass : Blank (write (erase p flashWifiModeOffset 4096) flashWifiModeOffset
        ((wifiModeField rodata).take done)) flashRouterPasswordOffset flashFieldSize :=
      (hblank.sub (by decide) (by decide)).write
        (.inl ((Nat.add_le_add_left hmode _).trans (by decide)))
    exact not_bootsWhole_of_undefined (undefined_of_blank hflag hpass) ok hboots
  · intro hdone
    have hwritten : ((wifiModeField rodata).take done).length ≤ done := List.length_take_le _ _
    have herased : write (erase p flashWifiModeOffset 4096) flashWifiModeOffset
        ((wifiModeField rodata).take done) done = 255 := by
      rw [write_of_le (by simp only [flashWifiModeOffset]; omega)]
      exact hblank done (Nat.zero_le _) (by simp only [flashWifiModeOffset]; omega)
    exact bootsWhole_of_not_staFlag (not_staFlag_of_blank herased hdone) ok

end Image

/-! ## Every stop -/

/-- The stops after which the device still starts: before the erase, if what was stored before
does; before the sixth byte of the mode; and after the last byte of the password, if the new
pair fits and has no percent sign. -/
def SurvivesStop (p : Partition) (cred : Bytes × Bytes) : StoreStop → Prop
  | .beforeErase => StaFlag p → ∃ old, FitsSta old ∧ NoPercent old ∧ PairIn p old
  | .modeWrite done => done < 6
  | .ssidWrite _ => False
  | .passwordWrite done => cred.2.length < done ∧ FitsSta cred ∧ NoPercent cred

section Stops

variable (p : Partition) (rodata : Bytes) {cred : Bytes × Bytes}

theorem terminated_fits (hlen : cred.1.length ≤ 127 ∧ cred.2.length ≤ 127) :
    (terminated cred).1.length ≤ flashFieldSize ∧ (terminated cred).2.length ≤ flashFieldSize := by
  simp only [terminated, List.length_append, List.length_singleton, flashFieldSize]
  omega

theorem bootsWhole_beforeErase (new : Bytes × Bytes) :
    BootsWhole p (fun c => PairIn p c ∨ c = new) ↔
      (StaFlag p → ∃ old, FitsSta old ∧ NoPercent old ∧ PairIn p old) := by
  by_cases hflag : StaFlag p
  · rw [bootsWhole_iff hflag, forall_prop_of_true hflag]
    refine exists_congr fun c => and_congr_right fun _ => and_congr_right fun _ => ?_
    exact ⟨And.right, fun hin => ⟨.inl hin, hin⟩⟩
  · exact iff_of_true (bootsWhole_of_not_staFlag hflag _) fun h => absurd h hflag

theorem not_bootsWhole_ssidWrite (hlen : cred.1.length ≤ 127 ∧ cred.2.length ≤ 127) (done : Nat)
    (ok : Bytes × Bytes → Prop) :
    ¬ BootsWhole (flashStoreStopped p rodata (terminated cred) (.ssidWrite done)) ok := by
  have hpart : ((terminated cred).1.take done).length ≤ flashFieldSize :=
    (List.length_take_le' done _).trans (terminated_fits hlen).1
  obtain ⟨hmode, hblank⟩ := mode_and_blank p rodata hpart
  exact not_bootsWhole_of_undefined (undefined_of_blank (mode_of_holds hmode) hblank) ok

theorem not_bootsWhole_passwordCut (hnul : (0 : UInt8) ∉ cred.2)
    (hlen : cred.1.length ≤ 127 ∧ cred.2.length ≤ 127) {done : Nat} (hcut : done ≤ cred.2.length)
    (ok : Bytes × Bytes → Prop) :
    ¬ BootsWhole (flashStoreStopped p rodata (terminated cred) (.passwordWrite done)) ok := by
  have htake : (terminated cred).2.take done = cred.2.take done := by
    rw [terminated, List.take_append_of_le_length hcut]
  obtain ⟨hmode, hblank⟩ := mode_and_blank p rodata (terminated_fits hlen).1
  have hpart : (cred.2.take done).length ≤ flashFieldSize :=
    (List.length_take_le' done _).trans (hlen.2.trans (by decide))
  have hfield : (wifiModeField rodata).length ≤ flashFieldSize := List.length_take_le _ _
  rw [flashStoreStopped, htake]
  refine not_bootsWhole_of_undefined (cythingBegin_undefined
    (mode_of_holds (hmode.write (.inr ?_)))
    (hblank.zero_notMem_read hpart fun h => hnul (List.mem_of_mem_take h))) ok
  simp only [flashWifiModeOffset, flashRouterPasswordOffset, flashFieldSize] at *
  omega

theorem bootsWhole_passwordWhole (hnul : (0 : UInt8) ∉ cred.1 ∧ (0 : UInt8) ∉ cred.2)
    (hlen : cred.1.length ≤ 127 ∧ cred.2.length ≤ 127) {done : Nat}
    (hwhole : cred.2.length < done) :
    BootsWhole (flashStoreStopped p rodata (terminated cred) (.passwordWrite done))
        (fun c => PairIn p c ∨ c = cred) ↔ FitsSta cred ∧ NoPercent cred := by
  obtain ⟨hssid, hpass⟩ := terminated_fits hlen
  rw [flashStoreStopped_whole p rodata _ (by simpa [terminated])]
  obtain ⟨hmode, hs, hw⟩ := holds_flashStore p rodata (terminated cred) hssid hpass
  rw [bootsWhole_iff (mode_of_holds hmode)]
  constructor
  · rintro ⟨c, hfits, hpct, -, hin⟩
    have hc : c = cred := Prod.ext (hin.1.cstr_unique hs hfits.2.2.1 hnul.1)
      (hin.2.cstr_unique hw hfits.2.2.2 hnul.2)
    exact hc ▸ ⟨hfits, hpct⟩
  · rintro ⟨hfits, hpct⟩
    exact ⟨cred, hfits, hpct, .inr rfl, hs, hw⟩

end Stops

/-- Whatever was stored before, for a pair of C strings that fit the pairing buffers: after a
store that stops anywhere, the next boot starts pairing or a station with a whole pair, the old
one or the new one, exactly for these stops. -/
theorem interrupted_store_boots_iff (p : Partition) (rodata : Bytes) (cred : Bytes × Bytes)
    (hnul : (0 : UInt8) ∉ cred.1 ∧ (0 : UInt8) ∉ cred.2)
    (hlen : cred.1.length ≤ 127 ∧ cred.2.length ≤ 127) (stop : StoreStop) :
    BootsWhole (flashStoreStopped p rodata (terminated cred) stop)
        (fun c => PairIn p c ∨ c = cred) ↔ SurvivesStop p cred stop := by
  cases stop with
  | beforeErase => exact bootsWhole_beforeErase p cred
  | modeWrite done => exact bootsWhole_modeWrite p rodata _ done _
  | ssidWrite done => exact iff_of_false (not_bootsWhole_ssidWrite p rodata hlen done _) id
  | passwordWrite done =>
    by_cases hwhole : cred.2.length < done
    · exact (bootsWhole_passwordWhole p rodata hnul hlen hwhole).trans
        (and_iff_right hwhole).symm
    · exact iff_of_false
        (not_bootsWhole_passwordCut p rodata hnul.2 hlen (Nat.not_lt.mp hwhole) _)
        fun h => hwhole h.1

namespace Sample

def blankPartition : Partition := fun _ => 255

theorem interrupted_store_boots_early :
    BootsWhole (flashStoreStopped blankPartition [] (terminated (ascii "Home", ascii "secret"))
      (.modeWrite 5)) fun c => PairIn blankPartition c ∨ c = (ascii "Home", ascii "secret") :=
  (interrupted_store_boots_iff blankPartition [] (ascii "Home", ascii "secret")
    (by decide) (by decide) (.modeWrite 5)).mpr (by decide : 5 < 6)

/-- Power is lost between the second and the third write: the flag selects station mode, and
there is no password. -/
theorem stranded_by_power_loss :
    cythingBegin (flashStoreStopped blankPartition [] (terminated (ascii "Home", ascii "secret"))
        (.passwordWrite 0)) = .undefined ∧
      StaFlag (flashStoreStopped blankPartition []
        (terminated (ascii "Home", ascii "secret")) (.passwordWrite 0)) ∧
      ¬ BootsWhole (flashStoreStopped blankPartition []
        (terminated (ascii "Home", ascii "secret")) (.passwordWrite 0))
        fun c => PairIn blankPartition c ∨ c = (ascii "Home", ascii "secret") := by
  obtain ⟨hboot, hflag⟩ : cythingBegin (flashStoreStopped blankPartition []
        (terminated (ascii "Home", ascii "secret")) (.passwordWrite 0)) = .undefined ∧
      StaFlag (flashStoreStopped blankPartition []
        (terminated (ascii "Home", ascii "secret")) (.passwordWrite 0)) := by decide +kernel
  exact ⟨hboot, hflag, not_bootsWhole_of_undefined hboot _⟩

end Sample

end CyThing
