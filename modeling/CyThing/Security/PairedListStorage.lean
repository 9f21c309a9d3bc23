import CyThing.Security.PairedList
import CyThing.Lib.Layout
import CyThing.Lib.Trace

/-! The bytes of the paired list in flash: the blob that `nvs_store` writes, the older layout
that `migrate_v2` reads, and `nvs_load`, which reads whatever is stored into the memory of the
list first and looks at it afterwards. -/

namespace CyThing
open CLib Layout Trace

/-! ## The two layouts -/

abbrev blobVersion : UInt8 := 3

abbrev blobHead : Nat := 48

abbrev entrySize : Nat := 148

abbrev blobSize : Nat := blobHead + pairedListMax * entrySize

def PairedRole.byte : PairedRole → UInt8
  | .none => 0
  | .user => 1
  | .owner => 2

def PairedRole.ofByte (b : UInt8) : PairedRole :=
  if b = 1 then .user else if b = 2 then .owner else .none

/-- A `paired_entry_t` in memory, with two bytes of padding before `paired_at` and three at the
end. -/
def encodeEntry (e : PairedEntry) : Bytes :=
  [(Block.fit (pairedSubMax + 1) e.userSub).1, (Block.fit (pairedEmailMax + 1) e.userEmail).1,
    e.key.1, [0, 0], putLe 4 e.pairedAt, [e.role.byte], [0, 0, 0]].flatten

def decodeEntry (m : Bytes) : PairedEntry :=
  { userSub := cstr (slice m 0 41)
    userEmail := cstr (slice m 41 65)
    key := .fit _ (slice m 106 32)
    pairedAt := getLe (slice m 140 4)
    role := .ofByte (getLe (slice m 144 1)).toUInt8 }

def decodeEntryV2 (m : Bytes) : PairedEntryV2 :=
  { userSub := cstr (slice m 0 41)
    installId := cstr (slice m 41 33)
    displayName := cstr (slice m 74 33)
    key := .fit _ (slice m 107 32)
    pairedAt := getLe (slice m 140 4)
    role := .ofByte (getLe (slice m 144 1)).toUInt8 }

def headVersion (m : Bytes) : UInt8 := m.getD 0 0

def headCount (m : Bytes) : Nat := (m.getD 1 0).toNat

def headOwner (m : Bytes) : Bytes := cstr (slice m 4 41)

def entryAt (m : Bytes) (i : Nat) : Bytes := slice m (blobHead + i * entrySize) entrySize

def encodeHead (count : Nat) (ownerSub : Bytes) : Bytes :=
  [[blobVersion], [UInt8.ofNat count], [0, 0], (Block.fit (pairedSubMax + 1) ownerSub).1,
    [0, 0, 0]].flatten

def nvsBytes (l : PairedBlob) : Option Bytes :=
  if l.count = 0 then none
  else some (encodeHead l.count l.ownerSub ++ (l.accounts.map encodeEntry).flatten)

def layoutOk (version : UInt8) (m : Bytes) (n : Nat) : Bool :=
  headVersion m == version && decide (headCount m ≤ pairedListMax) &&
    n == blobHead + headCount m * entrySize

/-! ## Loading -/

inductive NvsRead
  | ok
  | notFound
  | invalidLength
  deriving DecidableEq

def nvsGetBlob (flash : Option Bytes) (buf : Bytes) : NvsRead × Bytes × Nat :=
  match flash with
  | none => (.notFound, buf, buf.length)
  | some b =>
    if buf.length < b.length then (.invalidLength, buf, b.length)
    else (.ok, b ++ buf.drop b.length, b.length)

/-- `migrate_v2`; `allocOk` is whether there is memory for the old blob. -/
def migrateV2 (allocOk : Bool) (flash : Option Bytes) : Option PairedBlob :=
  let (err, old, n) := nvsGetBlob flash (List.replicate blobSize 0)
  if allocOk && err == .ok && layoutOk 2 old n then
    some
      { ownerSub := headOwner old
        count := headCount old
        entries := fun i =>
          if i < headCount old then migrateV2Entry (decodeEntryV2 (entryAt old i)) else {} }
  else none

def nvsLoadBytes (allocOk : Bool) (flash : Option Bytes) : PairedBlob × Bool :=
  let (err, m, n) := nvsGetBlob flash (blobVersion :: List.replicate (blobSize - 1) 0)
  let migrated :=
    if err == .invalidLength || (err == .ok && headVersion m == 2) then migrateV2 allocOk flash
    else none
  match migrated with
  | some l => (l, true)
  | none =>
    if err == .ok && layoutOk blobVersion m n then
      ({ ownerSub := headOwner m
         count := headCount m
         entries := fun i => decodeEntry (entryAt m i) }, false)
    else ({}, false)

def pairedListInitBytes (allocOk : Bool) (flash : Option Bytes) : PairedBlob × Option Bytes :=
  let (l, migrated) := nvsLoadBytes allocOk flash
  let l' := dedupeAccountsLocked l
  (l', if migrated || l'.count != l.count then nvsBytes l' else flash)

/-! ## The bytes as a stored list -/

def v2Entries (b : Bytes) : List PairedEntryV2 :=
  (List.range (headCount b)).map fun i => decodeEntryV2 (entryAt b i)

def readBlob (b : Bytes) : StoredList :=
  if layoutOk blobVersion b b.length then
    .v3 (headOwner b) ((List.range (headCount b)).map fun i => decodeEntry (entryAt b i))
  else if layoutOk 2 b b.length then .v2 (headOwner b) (v2Entries b)
  else .unusable

theorem layoutOk_iff {v : UInt8} {m : Bytes} {n : Nat} :
    layoutOk v m n = true ↔ headVersion m = v ∧ headCount m ≤ pairedListMax ∧
      n = blobHead + headCount m * entrySize := by
  simp [layoutOk, and_assoc]

theorem length_le_of_layoutOk {v : UInt8} {b : Bytes} (h : layoutOk v b b.length = true) :
    b.length ≤ blobSize := by
  obtain ⟨-, hcount, hlen⟩ := layoutOk_iff.mp h
  rw [hlen]
  exact Nat.add_le_add_left (Nat.mul_le_mul_right _ hcount) _

section Memory

variable {b rest : Bytes}

theorem headVersion_append (h : blobHead ≤ b.length) : headVersion (b ++ rest) = headVersion b := by
  have hlen : 48 ≤ b.length := h
  simp only [headVersion, List.getD_eq_getElem?_getD]
  rw [List.getElem?_append_left (by omega)]

theorem headCount_append (h : blobHead ≤ b.length) : headCount (b ++ rest) = headCount b := by
  have hlen : 48 ≤ b.length := h
  simp only [headCount, List.getD_eq_getElem?_getD]
  rw [List.getElem?_append_left (by omega)]

theorem headOwner_append (h : blobHead ≤ b.length) : headOwner (b ++ rest) = headOwner b := by
  have hlen : 48 ≤ b.length := h
  rw [headOwner, slice_append_of_le (by omega), headOwner]

theorem layoutOk_append (v : UInt8) (b rest : Bytes) :
    layoutOk v (b ++ rest) b.length = layoutOk v b b.length := by
  by_cases h : blobHead ≤ b.length
  · simp only [layoutOk, headVersion_append h, headCount_append h]
  · rw [Bool.eq_iff_iff, layoutOk_iff, layoutOk_iff]
    constructor <;> intro hl <;> omega

theorem entryAt_append {v : UInt8} (h : layoutOk v b b.length = true) {i : Nat}
    (hi : i < headCount b) : entryAt (b ++ rest) i = entryAt b i := by
  obtain ⟨-, -, hlen⟩ := layoutOk_iff.mp h
  have hle : (i + 1) * entrySize ≤ headCount b * entrySize := Nat.mul_le_mul_right _ hi
  rw [Nat.add_mul] at hle
  exact slice_append_of_le (by omega) rest

theorem decodeEntry_cleared {m : Bytes} (h : Cleared m) : decodeEntry m = {} := by
  have hat : getLe (slice m 140 4) = 0 := ((h.slice 140 4).reverse).getBe_eq
  have hrole : getLe (slice m 144 1) = 0 := ((h.slice 144 1).reverse).getBe_eq
  simp only [decodeEntry, (h.slice _ _).cstr_eq, (h.slice _ _).fit_eq, hat, hrole]
  rfl

theorem decodeEntry_behind {v : UInt8} (h : layoutOk v b b.length = true) (hrest : Cleared rest)
    {i : Nat} (hi : headCount b ≤ i) : decodeEntry (entryAt (b ++ rest) i) = {} := by
  obtain ⟨-, -, hlen⟩ := layoutOk_iff.mp h
  have hle : headCount b * entrySize ≤ i * entrySize := Nat.mul_le_mul_right _ hi
  rw [entryAt, slice_append_right (by omega)]
  exact decodeEntry_cleared (hrest.slice _ _)

end Memory

theorem ofEntries_range (ownerSub : Bytes) (n : Nat) (f : Nat → PairedEntry) :
    PairedBlob.ofEntries ownerSub ((List.range n).map f) =
      { ownerSub := ownerSub, count := n, entries := fun i => if i < n then f i else {} } := by
  have hentries : (fun i => ((List.range n).map f).getD i {}) =
      fun i => if i < n then f i else {} := by
    funext i
    rw [List.getD_eq_getElem?_getD, List.getElem?_map]
    split_ifs with hi
    · simp [hi]
    · simp [Nat.le_of_not_lt hi]
  simp only [PairedBlob.ofEntries, hentries, List.length_map, List.length_range]

theorem nvsGetBlob_ok {b buf : Bytes} (h : b.length ≤ buf.length) :
    nvsGetBlob (some b) buf = (.ok, b ++ buf.drop b.length, b.length) := by
  rw [nvsGetBlob, if_neg (by omega)]

theorem nvsGetBlob_long {b buf : Bytes} (h : buf.length < b.length) :
    nvsGetBlob (some b) buf = (.invalidLength, buf, b.length) := by
  rw [nvsGetBlob, if_pos h]

theorem migrateV2_some {b : Bytes} (hlen : b.length ≤ blobSize) (allocOk : Bool) :
    migrateV2 allocOk (some b) =
      if allocOk && layoutOk 2 b b.length then
        some (.ofEntries (headOwner b) ((v2Entries b).map migrateV2Entry))
      else none := by
  rw [migrateV2, nvsGetBlob_ok (by rwa [List.length_replicate])]
  generalize (List.replicate blobSize 0).drop b.length = rest
  simp only [layoutOk_append, beq_self_eq_true, Bool.and_true]
  split_ifs with h
  · have hlayout : layoutOk 2 b b.length = true := (Bool.and_eq_true_iff.mp h).2
    have hhead : blobHead ≤ b.length := by
      rw [(layoutOk_iff.mp hlayout).2.2]
      omega
    rw [headOwner_append hhead, headCount_append hhead, v2Entries, List.map_map,
      ofEntries_range]
    congr 2
    funext i
    split_ifs with hi
    · rw [entryAt_append hlayout hi]
      rfl
    · rfl
  · rfl

theorem migrateV2_long {b : Bytes} (hlen : blobSize < b.length) (allocOk : Bool) :
    migrateV2 allocOk (some b) = none := by
  rw [migrateV2, nvsGetBlob_long (by rwa [List.length_replicate])]
  simp

theorem length_v2Entries (b : Bytes) : (v2Entries b).length = headCount b := by
  rw [v2Entries, List.length_map, List.length_range]

theorem nvsLoad_readBlob_v2 {b : Bytes} (h : layoutOk 2 b b.length = true) :
    nvsLoad (some (readBlob b)) =
      (.ofEntries (headOwner b) ((v2Entries b).map migrateV2Entry), true) := by
  obtain ⟨hver, hcount, -⟩ := layoutOk_iff.mp h
  have h3 : ¬layoutOk blobVersion b b.length = true := fun h3 => by
    rw [(layoutOk_iff.mp h3).1] at hver
    cases hver
  rw [readBlob, if_neg h3, if_pos h, nvsLoad, if_pos (by rwa [length_v2Entries])]

theorem nvsLoad_readBlob_v3 {b : Bytes} (h : layoutOk blobVersion b b.length = true) :
    nvsLoad (some (readBlob b)) =
      (.ofEntries (headOwner b)
        ((List.range (headCount b)).map fun i => decodeEntry (entryAt b i)), false) := by
  rw [readBlob, if_pos h, nvsLoad, if_pos]
  rw [List.length_map, List.length_range]
  exact (layoutOk_iff.mp h).2.1

theorem nvsLoad_readBlob_unusable {b : Bytes} (h3 : layoutOk blobVersion b b.length = false)
    (h2 : layoutOk 2 b b.length = false) : nvsLoad (some (readBlob b)) = ({}, false) := by
  rw [readBlob, if_neg (Bool.eq_false_iff.mp h3), if_neg (Bool.eq_false_iff.mp h2), nvsLoad]

theorem cleared_behind {b : Bytes} (h : blobHead ≤ b.length) (n : Nat) :
    Cleared ((blobVersion :: List.replicate n 0).drop b.length) := by
  -- the cleared memory of the list has a version, which every blob with a head overwrites
  obtain ⟨k, hk⟩ : ∃ k, b.length = k + 1 := ⟨b.length - 1, by have : 48 ≤ b.length := h; omega⟩
  rw [hk, List.drop_succ_cons]
  exact fun x hx => cleared_replicate n x (List.mem_of_mem_drop hx)

theorem blobHead_le_of_layoutOk {v : UInt8} {b : Bytes} (h : layoutOk v b b.length = true) :
    blobHead ≤ b.length := by
  rw [(layoutOk_iff.mp h).2.2]
  exact Nat.le_add_right _ _

/-- The load from bytes is the load of what the bytes are, unless there is no memory for an old
blob. -/
theorem nvsLoadBytes_some {allocOk : Bool} {b : Bytes}
    (halloc : allocOk = true ∨ layoutOk 2 b b.length = false) :
    nvsLoadBytes allocOk (some b) = nvsLoad (some (readBlob b)) := by
  have hbuf : (blobVersion :: List.replicate (blobSize - 1) 0).length = blobSize := by
    rw [List.length_cons, List.length_replicate]
    rfl
  by_cases hlen : b.length ≤ blobSize
  · have hclear := fun h => cleared_behind (b := b) h (blobSize - 1)
    rw [nvsLoadBytes, nvsGetBlob_ok (by rwa [hbuf]), migrateV2_some hlen]
    generalize (blobVersion :: List.replicate (blobSize - 1) 0).drop b.length = rest at hclear ⊢
    cases h2 : layoutOk 2 b b.length with
    | true =>
      have hver : headVersion (b ++ rest) = 2 := by
        rw [headVersion_append (blobHead_le_of_layoutOk h2)]
        exact (layoutOk_iff.mp h2).1
      have hok : allocOk = true := halloc.resolve_right (by simp [h2])
      rw [nvsLoad_readBlob_v2 h2]
      simp [hver, hok]
    | false =>
      cases h3 : layoutOk blobVersion b b.length with
      | true =>
        have hhead := blobHead_le_of_layoutOk h3
        rw [nvsLoad_readBlob_v3 h3, ofEntries_range]
        simp only [Bool.and_false, Bool.false_eq_true, if_false, ite_self, beq_self_eq_true,
          Bool.true_and, layoutOk_append, h3, if_true, headOwner_append hhead,
          headCount_append hhead]
        congr 2
        funext i
        split_ifs with hi
        · rw [entryAt_append h3 hi]
        · exact decodeEntry_behind h3 (hclear hhead) (Nat.le_of_not_lt hi)
      | false =>
        rw [nvsLoad_readBlob_unusable h3 h2]
        simp [layoutOk_append, h3]
  · have hlong : blobSize < b.length := Nat.lt_of_not_le hlen
    have hnot : ∀ v, layoutOk v b b.length = false := fun v =>
      Bool.eq_false_iff.mpr fun h => hlen (length_le_of_layoutOk h)
    rw [nvsLoad_readBlob_unusable (hnot _) (hnot _), nvsLoadBytes,
      nvsGetBlob_long (by rwa [hbuf]), migrateV2_long hlong]
    simp

/-! ## Storing and loading -/

structure PairedEntry.Fits (e : PairedEntry) : Prop where
  sub_len : e.userSub.length ≤ pairedSubMax
  sub_nul : (0 : UInt8) ∉ e.userSub
  email_len : e.userEmail.length ≤ pairedEmailMax
  email_nul : (0 : UInt8) ∉ e.userEmail
  pairedAt_lt : e.pairedAt < 256 ^ 4

theorem PairedRole.ofByte_byte (r : PairedRole) : PairedRole.ofByte r.byte = r := by
  cases r <;> rfl

theorem length_fit {n : Nat} (b : Bytes) : (Block.fit n b).1.length = n := (Block.fit n b).2

theorem length_encodeEntry (e : PairedEntry) : (encodeEntry e).length = entrySize := by
  have hlenk : e.key.1.length = 32 := e.key.2
  simp [encodeEntry, length_fit, length_putLe, hlenk, pairedSubMax, pairedEmailMax]

theorem decodeEntry_encodeEntry {e : PairedEntry} (h : e.Fits) :
    decodeEntry (encodeEntry e) = e := by
  have hlens : (Block.fit (pairedSubMax + 1) e.userSub).1.length = 41 := length_fit _
  have hlene : (Block.fit (pairedEmailMax + 1) e.userEmail).1.length = 65 := length_fit _
  have hlenk : e.key.1.length = 32 := e.key.2
  have hsub : slice (encodeEntry e) 0 41 = (Block.fit (pairedSubMax + 1) e.userSub).1 :=
    slice_flatten (i := 0) rfl rfl hlens.symm
  have hemail : slice (encodeEntry e) 41 65 = (Block.fit (pairedEmailMax + 1) e.userEmail).1 :=
    slice_flatten (i := 1) rfl (by simp [hlens]) hlene.symm
  have hkey : slice (encodeEntry e) 106 32 = e.key.1 :=
    slice_flatten (i := 2) rfl (by simp [hlens, hlene]) hlenk.symm
  have hat : slice (encodeEntry e) 140 4 = putLe 4 e.pairedAt :=
    slice_flatten (i := 4) rfl (by simp [hlens, hlene, hlenk]) (length_putLe _ _).symm
  have hrole : slice (encodeEntry e) 144 1 = [e.role.byte] :=
    slice_flatten (i := 5) rfl (by simp [hlens, hlene, hlenk, length_putLe]) rfl
  have hbyte : (getLe [e.role.byte]).toUInt8 = e.role.byte := by
    cases e.role <;> rfl
  simp only [decodeEntry, hsub, hemail, hkey, hat, hrole, hbyte,
    cstr_fit (Nat.le_succ_of_le h.sub_len) h.sub_nul,
    cstr_fit (Nat.le_succ_of_le h.email_len) h.email_nul, fit_val_self,
    getLe_putLe h.pairedAt_lt, PairedRole.ofByte_byte]

structure PairedBlob.Storable (l : PairedBlob) : Prop where
  count_le : l.count ≤ pairedListMax
  clear : ∀ r, l.count ≤ r → l.entries r = {}
  owner_len : l.ownerSub.length ≤ pairedSubMax
  owner_nul : (0 : UInt8) ∉ l.ownerSub
  fits : ∀ r < l.count, (l.entries r).Fits
  distinct : ∀ r < l.count, ∀ k < l.count,
    (l.entries r).userSub.take pairedSubMax = (l.entries k).userSub.take pairedSubMax → r = k

theorem length_encodeHead (count : Nat) (ownerSub : Bytes) :
    (encodeHead count ownerSub).length = blobHead := by
  simp [encodeHead, length_fit]

section Encoded

variable {l : PairedBlob} {rest : Bytes}

theorem headCount_encodeHead (h : l.count ≤ pairedListMax) :
    headCount (encodeHead l.count l.ownerSub ++ rest) = l.count := by
  have hlt : l.count < 2 ^ 8 := lt_of_le_of_lt h (by decide)
  change (UInt8.ofNat l.count).toNat = l.count
  rw [UInt8.toNat_ofNat', Nat.mod_eq_of_lt hlt]

theorem headOwner_encodeHead (hlen : l.ownerSub.length ≤ pairedSubMax)
    (hnul : (0 : UInt8) ∉ l.ownerSub) :
    headOwner (encodeHead l.count l.ownerSub ++ rest) = l.ownerSub := by
  have hslice : slice (encodeHead l.count l.ownerSub) 4 41 =
      (Block.fit (pairedSubMax + 1) l.ownerSub).1 :=
    slice_flatten (i := 3) rfl rfl (length_fit _).symm
  rw [headOwner_append (length_encodeHead _ _).ge, headOwner, hslice,
    cstr_fit (Nat.le_succ_of_le hlen) hnul]

theorem readBlob_nvsBytes (h : l.Storable) : (nvsBytes l).map readBlob = l.stored := by
  by_cases hc : l.count = 0
  · rw [nvsBytes, PairedBlob.stored, if_pos hc, if_pos hc]
    rfl
  · have hlen : ∀ g ∈ l.accounts.map encodeEntry, g.length = entrySize := by
      intro g hg
      obtain ⟨e, -, rfl⟩ := List.mem_map.mp hg
      exact length_encodeEntry e
    have hcount : headCount (encodeHead l.count l.ownerSub ++
        (l.accounts.map encodeEntry).flatten) = l.count := headCount_encodeHead h.count_le
    have haccounts := length_accounts l
    have hlayout : layoutOk blobVersion
        (encodeHead l.count l.ownerSub ++ (l.accounts.map encodeEntry).flatten)
        (encodeHead l.count l.ownerSub ++ (l.accounts.map encodeEntry).flatten).length = true := by
      refine layoutOk_iff.mpr ⟨rfl, by rw [hcount]; exact h.count_le, ?_⟩
      rw [hcount, List.length_append, length_encodeHead, List.length_flatten,
        sum_length_array hlen, List.length_map, haccounts]
    rw [nvsBytes, PairedBlob.stored, if_neg hc, if_neg hc, Option.map_some, readBlob,
      if_pos hlayout, hcount, headOwner_encodeHead h.owner_len h.owner_nul]
    congr 2
    -- row `i` of the blob is the encoding of row `i` of the list
    refine List.map_congr_left fun i hi => ?_
    have hi := List.mem_range.mp hi
    have hrow : (l.accounts.map encodeEntry)[i]? = some (encodeEntry (l.entries i)) := by
      rw [List.getElem?_map, PairedBlob.accounts, Dense.getElem?_toList, if_pos hi]
      rfl
    rw [entryAt, slice_append_right (by rw [length_encodeHead]; exact Nat.le_add_right _ _),
      length_encodeHead, Nat.add_sub_cancel_left, slice_array hlen hrow,
      decodeEntry_encodeEntry (h.fits i hi)]

theorem layoutOk_nvsBytes {b : Bytes} (h : nvsBytes l = some b) :
    layoutOk 2 b b.length = false := by
  rw [Bool.eq_false_iff]
  intro h2
  have hver := (layoutOk_iff.mp h2).1
  unfold nvsBytes at h
  split at h
  · cases h
  · cases h
    cases hver

theorem nvsLoadBytes_nvsBytes (h : l.Storable) (howner : l.count = 0 → l.ownerSub = [])
    (allocOk : Bool) : nvsLoadBytes allocOk (nvsBytes l) = (l, false) := by
  rw [← nvsLoad_stored h.count_le h.clear howner, ← readBlob_nvsBytes h]
  rcases hb : nvsBytes l with _ | b
  · rfl
  · exact nvsLoadBytes_some (.inr (layoutOk_nvsBytes hb))

end Encoded

/-! ## Every list that the operations can make -/

abbrev CText := {text : Bytes // (0 : UInt8) ∉ text}

structure ListState where
  list : PairedBlob := {}
  nvs : Option StoredList := none

inductive ListOp
  | init
  | add (userSub userEmail : CText) (key : Block pairedKeyLen) (pairedAt : UInt32)
  | remove (index : Nat)
  | rotate (freshKey : Block pairedKeyLen)
  | clear

def listStep (s : ListState) : ListOp → ListState
  | .init =>
    let r := pairedListInit .ok s.nvs
    { list := r.1, nvs := r.2 }
  | .add userSub userEmail key pairedAt =>
    let r := pairedListAdd .ok s.list s.nvs userSub.1 userEmail.1 key pairedAt.toNat
    { list := r.list, nvs := r.nvs }
  | .remove index =>
    let r := pairedListRemove .ok s.list s.nvs index
    { list := r.2.1, nvs := r.2.2 }
  | .rotate freshKey =>
    let r := pairedListRotateOwnerKey .ok s.list s.nvs freshKey
    { list := r.2.1, nvs := r.2.2 }
  | .clear =>
    let r := pairedListClear .ok s.nvs
    { list := r.2.1, nvs := r.2.2 }

def KeepsRow (t : Step ListState ListOp) : Prop :=
  ∀ index, t.event = .remove index → ¬(t.before.list.count = 1 ∧ index = 0)

structure ListState.Kept (s : ListState) : Prop where
  storable : s.list.Storable
  synced : s.nvs = s.list.stored
  ownerless : s.list.count = 0 → s.list.ownerSub = []

section Ops

variable {l : PairedBlob} {r : Nat}

theorem PairedBlob.Storable.empty : ({} : PairedBlob).Storable where
  count_le := Nat.zero_le _
  clear _ _ := rfl
  owner_len := Nat.zero_le _
  owner_nul := List.not_mem_nil
  fits _ h := absurd h (Nat.not_lt_zero _)
  distinct _ h := absurd h (Nat.not_lt_zero _)

theorem PairedEntry.Fits.touch {e : PairedEntry} (h : e.Fits) (userEmail : CText)
    (pairedAt : UInt32) (role : PairedRole) :
    (e.touch userEmail.1 pairedAt.toNat role).Fits where
  sub_len := h.sub_len
  sub_nul := h.sub_nul
  email_len := by
    simp only [PairedEntry.touch]
    split
    · exact List.length_take_le ..
    · exact h.email_len
  email_nul := by
    simp only [PairedEntry.touch]
    split
    · exact fun hmem => userEmail.2 (List.mem_of_mem_take hmem)
    · exact h.email_nul
  pairedAt_lt := pairedAt.toNat_lt

theorem length_ownerAfter (h : l.Storable) (userSub : CText) :
    (ownerAfter l userSub.1).length ≤ pairedSubMax ∧ (0 : UInt8) ∉ ownerAfter l userSub.1 := by
  unfold ownerAfter
  split
  · exact ⟨List.length_take_le .., fun hmem => userSub.2 (List.mem_of_mem_take hmem)⟩
  · exact ⟨h.owner_len, h.owner_nul⟩

theorem PairedBlob.Storable.refreshed (h : l.Storable) (userSub userEmail : CText)
    (pairedAt : UInt32) (hr : r < l.count) :
    (l.refreshed userSub.1 userEmail.1 pairedAt.toNat r).Storable where
  count_le := h.count_le
  clear k hk := by
    have hne : k ≠ r := by
      rintro rfl
      exact absurd hr (Nat.not_lt.mpr hk)
    simp only [PairedBlob.refreshed, Function.update_of_ne hne]
    exact h.clear k hk
  owner_len := (length_ownerAfter h userSub).1
  owner_nul := (length_ownerAfter h userSub).2
  fits k hk := by
    by_cases hne : k = r
    · subst hne
      simp only [PairedBlob.refreshed, Function.update_self]
      exact (h.fits k hr).touch userEmail pairedAt _
    · simp only [PairedBlob.refreshed, Function.update_of_ne hne]
      exact h.fits k hk
  distinct a ha b hb := by
    have hsub : ∀ k, ((l.refreshed userSub.1 userEmail.1 pairedAt.toNat r).entries k).userSub =
        (l.entries k).userSub := by
      intro k
      by_cases hne : k = r
      · subst hne
        simp only [PairedBlob.refreshed, Function.update_self, PairedEntry.touch]
      · simp only [PairedBlob.refreshed, Function.update_of_ne hne]
    rw [hsub, hsub]
    exact h.distinct a ha b hb

theorem PairedBlob.Storable.appended (h : l.Storable) (userSub userEmail : CText)
    (key : Block pairedKeyLen) (pairedAt : UInt32) (hnew : findLocked l userSub.1 = none)
    (hroom : l.count < pairedListMax) :
    (l.appended userSub.1 userEmail.1 key pairedAt.toNat).Storable where
  count_le := hroom
  clear k hk := by
    have hne : k ≠ l.count := Nat.ne_of_gt hk
    simp only [PairedBlob.appended, Function.update_of_ne hne]
    exact h.clear k (Nat.le_of_succ_le hk)
  owner_len := (length_ownerAfter h userSub).1
  owner_nul := (length_ownerAfter h userSub).2
  fits k hk := by
    by_cases hne : k = l.count
    · subst hne
      simp only [PairedBlob.appended, Function.update_self]
      refine PairedEntry.Fits.touch ⟨List.length_take_le .., ?_, Nat.zero_le _, ?_, ?_⟩
        userEmail pairedAt _
      · exact fun hmem => userSub.2 (List.mem_of_mem_take hmem)
      · exact List.not_mem_nil
      · exact Nat.zero_lt_succ _
    · simp only [PairedBlob.appended, Function.update_of_ne hne]
      exact h.fits k (Nat.lt_of_le_of_ne (Nat.le_of_lt_succ hk) hne)
  distinct a ha b hb hab := by
    have hold : ∀ k < l.count,
        ((l.appended userSub.1 userEmail.1 key pairedAt.toNat).entries k).userSub =
          (l.entries k).userSub := fun k hk => by
      simp only [PairedBlob.appended, Function.update_of_ne (Nat.ne_of_lt hk)]
    have hlast : ((l.appended userSub.1 userEmail.1 key pairedAt.toNat).entries
        l.count).userSub.take pairedSubMax = userSub.1.take pairedSubMax := by
      simp only [PairedBlob.appended, Function.update_self, PairedEntry.touch, copyField,
        Nat.add_sub_cancel, List.take_take, Nat.min_self]
    have hother := findLocked_eq_none.mp hnew
    rcases Nat.lt_succ_iff_lt_or_eq.mp ha with ha | rfl <;>
      rcases Nat.lt_succ_iff_lt_or_eq.mp hb with hb | rfl
    · rw [hold a ha, hold b hb] at hab
      exact h.distinct a ha b hb hab
    · rw [hold a ha, hlast] at hab
      exact absurd hab (hother a ha)
    · rw [hlast, hold b hb] at hab
      exact absurd hab.symm (hother b hb)
    · rfl

theorem PairedBlob.Storable.dropRow (h : l.Storable) (hr : r < l.count) :
    (l.dropRow r).Storable where
  count_le := (Nat.sub_le _ _).trans h.count_le
  clear k hk := Dense.removeAt_clear hr h.clear k hk
  owner_len := h.owner_len
  owner_nul := h.owner_nul
  fits k hk := by
    rw [dropRow_row hr hk]
    exact h.fits _ (rowBefore_lt hk)
  distinct a ha b hb hab := by
    rw [dropRow_row hr ha, dropRow_row hr hb] at hab
    exact rowBefore_inj (h.distinct _ (rowBefore_lt ha) _ (rowBefore_lt hb) hab)

theorem PairedBlob.Storable.rekeyed (h : l.Storable) (hr : r < l.count)
    (key : Block pairedKeyLen) : (l.rekeyed r key).Storable := by
  have hrow : ∀ k, ((l.rekeyed r key).entries k).userSub = (l.entries k).userSub ∧
      ((l.entries k).Fits → ((l.rekeyed r key).entries k).Fits) := by
    intro k
    by_cases hne : k = r
    · subst hne
      simp only [PairedBlob.rekeyed, Function.update_self]
      exact ⟨trivial, fun hf => ⟨hf.1, hf.2, hf.3, hf.4, hf.5⟩⟩
    · simp only [PairedBlob.rekeyed, Function.update_of_ne hne]
      exact ⟨trivial, id⟩
  refine ⟨h.count_le, fun k hk => ?_, h.owner_len, h.owner_nul, fun k hk => ?_,
    fun a ha b hb hab => ?_⟩
  · have hne : k ≠ r := by
      rintro rfl
      exact absurd hr (Nat.not_lt.mpr hk)
    simp only [PairedBlob.rekeyed, Function.update_of_ne hne]
    exact h.clear k hk
  · exact (hrow k).2 (h.fits k hk)
  · rw [(hrow a).1, (hrow b).1] at hab
    exact h.distinct a ha b hb hab

theorem KeepsRow.step {s : ListState} {op : ListOp} (h : s.Kept)
    (hop : KeepsRow ⟨s, op, listStep s op⟩) : (listStep s op).Kept := by
  cases op with
  | init =>
    have hinit : pairedListInit .ok s.nvs = (s.list, s.list.stored) := by
      simp only [pairedListInit, h.synced,
        nvsLoad_stored h.storable.count_le h.storable.clear h.ownerless, dedupeAccountsLocked,
        dedupeRows_eq_self h.storable.distinct, Bool.false_or, bne_self_eq_false,
        Bool.false_eq_true, if_false]
    simp only [listStep, hinit]
    exact ⟨h.storable, rfl, h.ownerless⟩
  | add userSub userEmail key pairedAt =>
    rcases pairedListAdd_cases .ok s.nvs userSub.1 userEmail.1 key pairedAt.toNat
      h.storable.clear with ⟨-, hl, hnvs⟩ | ⟨r, -, hfind, hadd⟩ | ⟨-, hfind, hroom, hadd⟩
    · simp only [listStep, hl, hnvs rfl]
      exact ⟨h.storable, h.synced, h.ownerless⟩
    · have hr := findLocked_lt hfind
      simp only [listStep, hadd]
      refine ⟨h.storable.refreshed userSub userEmail pairedAt hr, rfl, fun h0 => ?_⟩
      exact absurd hr (by rw [show s.list.count = 0 from h0]; exact Nat.not_lt_zero r)
    · simp only [listStep, hadd]
      exact ⟨h.storable.appended userSub userEmail key pairedAt hfind hroom, rfl,
        fun h0 => absurd h0 (Nat.succ_ne_zero _)⟩
  | remove index =>
    by_cases hr : index < s.list.count
    · simp only [listStep, pairedListRemove_of_lt hr]
      refine ⟨h.storable.dropRow hr, rfl, fun h0 => ?_⟩
      -- the row was the only one
      have h0 : s.list.count - 1 = 0 := h0
      have hone : s.list.count = 1 := by omega
      exact absurd ⟨hone, by omega⟩ (hop index rfl)
    · simp only [listStep, pairedListRemove, if_pos (Nat.le_of_not_lt hr)]
      exact h
  | rotate freshKey =>
    rcases hrot : pairedListRotateOwnerKey .ok s.list s.nvs freshKey with ⟨ok, l', nvs'⟩
    simp only [listStep, hrot]
    rcases pairedListRotateOwnerKey_cases hrot with ⟨rfl, hnvs⟩ | ⟨r, hr, -, rfl, rfl⟩
    · obtain rfl : nvs' = s.nvs := hnvs.resolve_right (fun hne => hne rfl)
      exact ⟨h.storable, h.synced, h.ownerless⟩
    · exact ⟨h.storable.rekeyed hr freshKey, rfl, h.ownerless⟩
  | clear => exact ⟨.empty, rfl, fun _ => rfl⟩

theorem run_kept {ops : List ListOp} (hops : ∀ t ∈ trace listStep {} ops, KeepsRow t) :
    (run listStep {} ops).Kept :=
  trace_induction (Q := fun _ s => s.Kept) ⟨.empty, rfl, fun _ => rfl⟩
    (fun _ _ _ h hop => hop.step h) ops hops

end Ops

/-! ## One row for each account -/

section Dedupe

variable {l : PairedBlob} {i : Nat}

def sameAccount (a b : PairedEntry) : Bool := strncmpEq pairedSubMax a.userSub b.userSub

theorem dedupeRow_accounts {j n : Nat} (hij : i < j) (hn : l.count - j ≤ n) :
    (dedupeRow i j n l).accounts = l.accounts.take j ++
      (l.accounts.drop j).filter fun e => sameAccount e (l.entries i) = false := by
  induction n generalizing j l with
  | zero =>
    have hend : l.accounts.length ≤ j := by
      rw [length_accounts]
      omega
    rw [dedupeRow, List.take_of_length_le hend, List.drop_of_length_le hend]
    simp
  | succ n ih =>
    rw [dedupeRow]
    split
    · next hj =>
      have hdrop : l.accounts.drop j = l.entries j :: l.accounts.drop (j + 1) :=
        Dense.drop_toList hj
      split
      · next hs =>
        have hi : (l.dropRow j).entries i = l.entries i := dropRow_entries_lt hj hij
        have hcount : (l.dropRow j).count = l.count - 1 := rfl
        have hsame : sameAccount (l.entries j) (l.entries i) = true := hs
        rw [ih hij (by omega), hi, accounts_dropRow hj, hdrop, List.filter_cons, if_neg]
        · rw [List.eraseIdx_eq_take_drop_succ]
          have hlen : (l.accounts.take j).length = j := by
            rw [List.length_take, length_accounts]
            omega
          rw [List.take_append_of_le_length hlen.ge, List.take_of_length_le hlen.le,
            List.drop_append_of_le_length hlen.ge, List.drop_of_length_le hlen.le, List.nil_append]
        · simp [hsame]
      · next hs =>
        have hsame : sameAccount (l.entries j) (l.entries i) = false := Bool.eq_false_iff.mpr hs
        have htake : l.accounts.take (j + 1) = l.accounts.take j ++ [l.entries j] := by
          rw [List.take_add, hdrop, List.take_succ_cons, List.take_zero]
        rw [ih (Nat.lt_succ_of_lt hij) (by omega), htake, hdrop, List.filter_cons, if_pos]
        · simp
        · simp [hsame]
    · next hj =>
      have hend : l.accounts.length ≤ j := by
        rw [length_accounts]
        omega
      rw [List.take_of_length_le hend, List.drop_of_length_le hend]
      simp

theorem dedupeRow_ownerSub (i j n : Nat) (l : PairedBlob) :
    (dedupeRow i j n l).ownerSub = l.ownerSub := by
  induction n generalizing j l with
  | zero => rfl
  | succ n ih =>
    rw [dedupeRow]
    split
    · split
      · exact ih _ _
      · exact ih _ _
    · rfl

theorem dedupeRows_accounts {n : Nat} (hn : l.count - i ≤ n) :
    (dedupeRows i n l).accounts =
      l.accounts.take i ++ (l.accounts.drop i).eraseDupsBy sameAccount := by
  induction n generalizing i l with
  | zero =>
    have hend : l.accounts.length ≤ i := by
      rw [length_accounts]
      omega
    rw [dedupeRows, List.take_of_length_le hend, List.drop_of_length_le hend]
    simp
  | succ n ih =>
    rw [dedupeRows]
    split
    · next hi =>
      have hdrop : l.accounts.drop i = l.entries i :: l.accounts.drop (i + 1) :=
        Dense.drop_toList hi
      have htake : l.accounts.take (i + 1) = l.accounts.take i ++ [l.entries i] := by
        rw [List.take_add, hdrop, List.take_succ_cons, List.take_zero]
      have hlen : (l.accounts.take (i + 1)).length = i + 1 := by
        rw [List.length_take, length_accounts]
        omega
      have hrow := dedupeRow_accounts (l := l) (j := i + 1) (n := l.count) (Nat.lt_succ_self i)
        (Nat.sub_le _ _)
      have hcount : (dedupeRow i (i + 1) l.count l).count ≤ l.count := by
        have hle := List.length_filter_le
          (fun e => decide (sameAccount e (l.entries i) = false)) (l.accounts.drop (i + 1))
        rw [List.length_drop, length_accounts] at hle
        rw [← length_accounts, hrow, List.length_append, hlen]
        omega
      rw [ih (by omega), hrow, List.take_append_of_le_length hlen.ge,
        List.take_of_length_le hlen.le, List.drop_append_of_le_length hlen.ge,
        List.drop_of_length_le hlen.le, List.nil_append, htake, hdrop, List.eraseDupsBy_cons,
        List.append_assoc, List.singleton_append]
    · next hi =>
      have hend : l.accounts.length ≤ i := by
        rw [length_accounts]
        omega
      rw [List.take_of_length_le hend, List.drop_of_length_le hend]
      simp

theorem dedupeRows_ownerSub (i n : Nat) (l : PairedBlob) :
    (dedupeRows i n l).ownerSub = l.ownerSub := by
  induction n generalizing i l with
  | zero => rfl
  | succ n ih =>
    rw [dedupeRows]
    split
    · rw [ih, dedupeRow_ownerSub]
    · rfl

theorem dedupeAccountsLocked_accounts (l : PairedBlob) :
    (dedupeAccountsLocked l).accounts = l.accounts.eraseDupsBy sameAccount := by
  rw [dedupeAccountsLocked, dedupeRows_accounts (Nat.sub_le _ _), List.take_zero,
    List.nil_append, List.drop_zero]

end Dedupe

/-! ## The upgrade -/

section Upgrade

variable {b m : Bytes}

/-- A blob of the older firmware: version, count and length go together, every text ends in its
array, and an entry has the role of its account. -/
structure WellFormedV2 (b : Bytes) : Prop where
  layout : layoutOk 2 b b.length = true
  owner_nul : (0 : UInt8) ∈ slice b 4 41
  sub_nul : ∀ i < headCount b, (0 : UInt8) ∈ slice (entryAt b i) 0 41
  install_nul : ∀ i < headCount b, (0 : UInt8) ∈ slice (entryAt b i) 41 33
  name_nul : ∀ i < headCount b, (0 : UInt8) ∈ slice (entryAt b i) 74 33
  role : ∀ e ∈ v2Entries b, e.role = roleFor (headOwner b) e.userSub

theorem length_cstr_lt {t : Bytes} (h : (0 : UInt8) ∈ t) : (cstr t).length < t.length := by
  have htake := congrArg List.length (take_length_cstr h)
  rw [List.length_take, List.length_append, List.length_singleton] at htake
  omega

theorem length_cstr_slice {off len : Nat} (h : (0 : UInt8) ∈ slice m off (len + 1)) :
    (cstr (slice m off (len + 1))).length ≤ len :=
  Nat.le_of_lt_succ (lt_of_lt_of_le (length_cstr_lt h) (length_slice_le _ _ _))

theorem WellFormedV2.sub_len (h : WellFormedV2 b) {e : PairedEntryV2} (he : e ∈ v2Entries b) :
    e.userSub.length ≤ pairedSubMax := by
  obtain ⟨i, hi, rfl⟩ := List.mem_map.mp he
  exact length_cstr_slice (h.sub_nul i (List.mem_range.mp hi))

theorem WellFormedV2.name_len (h : WellFormedV2 b) {e : PairedEntryV2} (he : e ∈ v2Entries b) :
    e.displayName.length ≤ pairedEmailMax := by
  obtain ⟨i, hi, rfl⟩ := List.mem_map.mp he
  exact (length_cstr_slice (h.name_nul i (List.mem_range.mp hi))).trans (by decide)

def PairedEntryV2.upgraded (e : PairedEntryV2) : PairedEntry :=
  { userSub := e.userSub, userEmail := e.displayName, key := e.key, pairedAt := e.pairedAt
    role := e.role }

theorem migrateV2Entry_eq (h : WellFormedV2 b) {e : PairedEntryV2} (he : e ∈ v2Entries b) :
    migrateV2Entry e = e.upgraded := by
  simp only [migrateV2Entry, PairedEntryV2.upgraded, copyField, Nat.add_sub_cancel,
    List.take_of_length_le (h.name_len he)]

theorem accounts_ofEntries (ownerSub : Bytes) (es : List PairedEntry) :
    (PairedBlob.ofEntries ownerSub es).accounts = es := by
  apply List.ext_getElem?
  intro i
  rw [PairedBlob.accounts, Dense.getElem?_toList]
  simp only [PairedBlob.ofEntries, List.getD_eq_getElem?_getD]
  split_ifs with hi
  · simp [hi]
  · simp [Nat.le_of_not_lt hi]

theorem pairedListInitBytes_v2 (h : WellFormedV2 b) :
    (pairedListInitBytes true (some b)).1.ownerSub = headOwner b ∧
      (pairedListInitBytes true (some b)).1.accounts =
        ((v2Entries b).eraseDupsBy fun d e => d.userSub == e.userSub).map (·.upgraded) := by
  have hmap : (v2Entries b).map migrateV2Entry = (v2Entries b).map (·.upgraded) :=
    List.map_congr_left fun e he => migrateV2Entry_eq h he
  have hload : nvsLoadBytes true (some b) = _ :=
    (nvsLoadBytes_some (.inl rfl)).trans (nvsLoad_readBlob_v2 h.layout)
  have hlist : (pairedListInitBytes true (some b)).1 =
      dedupeAccountsLocked (.ofEntries (headOwner b) ((v2Entries b).map (·.upgraded))) := by
    rw [pairedListInitBytes, hload, hmap]
  have hsame : ∀ d ∈ v2Entries b, ∀ e ∈ v2Entries b,
      sameAccount d.upgraded e.upgraded = (d.userSub == e.userSub) := by
    intro d hd e he
    change (d.userSub.take pairedSubMax == e.userSub.take pairedSubMax) = _
    rw [List.take_of_length_le (h.sub_len hd), List.take_of_length_le (h.sub_len he)]
  rw [hlist]
  refine ⟨dedupeRows_ownerSub _ _ _, ?_⟩
  rw [dedupeAccountsLocked_accounts, accounts_ofEntries, Dense.eraseDupsBy_map hsame]

theorem pairedListInitBytes_unusable (h3 : layoutOk blobVersion b b.length = false)
    (h2 : layoutOk 2 b b.length = false) (allocOk : Bool) :
    (pairedListInitBytes allocOk (some b)).1 = {} := by
  have hload : nvsLoadBytes allocOk (some b) = ({}, false) :=
    (nvsLoadBytes_some (.inr h2)).trans (nvsLoad_readBlob_unusable h3 h2)
  rw [pairedListInitBytes, hload]
  rfl

end Upgrade

/-- A list made by operations of which none takes the only row out is loaded as it was stored;
an older blob becomes the first entry of each of its accounts, with its label; and a blob of
neither layout is an empty list. -/
theorem paired_list_survives_reboot (ops : List ListOp)
    (hops : ∀ t ∈ trace listStep {} ops, KeepsRow t) (b : Bytes) (allocOk : Bool) :
    (let s := run listStep {} ops
     s.nvs = (nvsBytes s.list).map readBlob ∧
       nvsLoadBytes allocOk (nvsBytes s.list) = (s.list, false)) ∧
    (WellFormedV2 b →
      let l := (pairedListInitBytes true (some b)).1
      l.ownerSub = headOwner b ∧
        l.accounts =
          ((v2Entries b).eraseDupsBy fun d e => d.userSub == e.userSub).map (·.upgraded)) ∧
    (layoutOk blobVersion b b.length = false → layoutOk 2 b b.length = false →
      (pairedListInitBytes allocOk (some b)).1 = {}) := by
  refine ⟨?_, fun h => pairedListInitBytes_v2 h,
    fun h3 h2 => pairedListInitBytes_unusable h3 h2 allocOk⟩
  have h := run_kept hops
  exact ⟨h.synced.trans (readBlob_nvsBytes h.storable).symm,
    nvsLoadBytes_nvsBytes h.storable h.ownerless allocOk⟩

def textA : CText := ⟨ascii "a", by decide⟩

def textB : CText := ⟨ascii "b", by decide⟩

def pairTwoRemoveOne : List ListOp :=
  [.add textA textA (.zero _) 1, .add textB textA (.zero _) 2, .remove 1, .init]

def phoneV2 (install name : String) (pairedAt : UInt8) : Bytes :=
  (Block.fit 41 (ascii "a")).1 ++ (Block.fit 33 (ascii install)).1 ++
    (Block.fit 33 (ascii name)).1 ++ (Block.fit 33 (ascii "key")).1 ++
      [pairedAt, 0, 0, 0, 2, 0, 0, 0]

def twoPhonesV2 : Bytes :=
  [2, 2, 0, 0] ++ (Block.fit 44 (ascii "a")).1 ++ phoneV2 "i1" "Phone" 1 ++ phoneV2 "i2" "Tablet" 2

theorem twoPhonesV2_wellFormed : WellFormedV2 twoPhonesV2 where
  layout := by decide +kernel
  owner_nul := by decide +kernel
  sub_nul := by decide +kernel
  install_nul := by decide +kernel
  name_nul := by decide +kernel
  role := by decide +kernel

theorem paired_list_survives_reboot_sample :
    (let s := run listStep {} pairTwoRemoveOne
     s.list.count = 1 ∧ nvsLoadBytes true (nvsBytes s.list) = (s.list, false)) ∧
    ((v2Entries twoPhonesV2).length = 2 ∧
      (pairedListInitBytes true (some twoPhonesV2)).1.accounts.map (·.userEmail) =
        [ascii "Phone"]) ∧
    (pairedListInitBytes true (some [1, 0])).1 = {} := by
  have hkeeps : ∀ t ∈ trace listStep {} pairTwoRemoveOne, KeepsRow t := by
    rintro t ht index hevent ⟨-, rfl⟩
    obtain ⟨pre, post, hes, -⟩ := mem_trace ht
    have hmem : ListOp.remove 0 ∈ pairTwoRemoveOne := by
      rw [hes, hevent]
      exact List.mem_append_right _ List.mem_cons_self
    simp [pairTwoRemoveOne] at hmem
  obtain ⟨⟨-, hload⟩, hupgrade, -⟩ :=
    paired_list_survives_reboot pairTwoRemoveOne hkeeps twoPhonesV2 true
  obtain ⟨-, -, hempty⟩ := paired_list_survives_reboot pairTwoRemoveOne hkeeps [1, 0] true
  refine ⟨⟨by decide +kernel, hload⟩, ⟨by decide +kernel, ?_⟩, hempty (by decide) (by decide)⟩
  rw [(hupgrade twoPhonesV2_wellFormed).2]
  decide +kernel

def pairRemove : List ListOp := [.add textA textA (.zero _) 1, .remove 0]

/-- The owner of a list without rows is in RAM and not in flash: the next account to pair is a
user before a restart and the owner after it. -/
theorem reboot_gives_ownership :
    let s := run listStep {} pairRemove
    let l := (nvsLoadBytes true (nvsBytes s.list)).1
    l.ownerSub ≠ s.list.ownerSub ∧
      (pairedListAdd .ok s.list s.nvs textB.1 [] (.zero _) 2).enrolled.map (·.role) = some .user ∧
      (pairedListAdd .ok l s.nvs textB.1 [] (.zero _) 2).enrolled.map (·.role) = some .owner := by
  decide +kernel

end CyThing
