import CyThing.Security.OwnerCommandsDefs
import CyThing.Security.PairedListStorage
import CyThing.Security.EncFrameBuffers
import CyThing.Lib.TextLine
import CyThing.Sample

/-! What `LIST` says of the paired list, and how the script reads it. Both fields of a line that
come from an account are base64, so that the commas of the line are the ones the device wrote. -/

namespace CyThing
open CLib

/-! ## The lines -/

def pairedText (e : PairedEntry) : Bytes :=
  ascii "PAIRED:" ++ Base64.encode e.userSub ++ ascii "," ++ Base64.encode e.userEmail ++
    ascii "," ++ decimal e.pairedAt ++ ascii "," ++ roleText e.role

def pairendText (count : Nat) : Bytes := ascii "PAIREND:" ++ decimal count

def listLines (P : Platform) (l : PairedBlob) : List Bytes :=
  l.accounts.map (pairedLine P) ++ [snprintf 24 (pairendText l.count)]

abbrev listLineSize : Nat := 8 + b64Max pairedSubMax + b64Max pairedEmailMax + 2 + 10 + 1 + 6

def snprintfAt {size : Nat} (b : Block size) (pos : Nat) (text : Bytes) : Option (Block size) :=
  memcpy b pos (snprintf (size - pos) text ++ [0])

/-- How `handle_list` fills `line`, and the string in it; `none` when a write leaves the
buffer. -/
def pairedLineBuffer (line : Block listLineSize) (e : PairedEntry) : Option Bytes :=
  (snprintfAt line 0 (ascii "PAIRED:")).bind fun line =>
    (base64EncodeAt line 7 e.userSub).bind fun r =>
      let pos := 7 + r.2
      (memcpy r.1 pos [44]).bind fun line =>
        (base64EncodeAt line (pos + 1) e.userEmail).bind fun r =>
          let pos := pos + 1 + r.2
          (snprintfAt r.1 pos (ascii "," ++ decimal e.pairedAt ++ ascii "," ++
            roleText e.role)).map fun line => cstr line.1

structure Client.ListRow.Shows (r : Client.ListRow) (e : PairedEntry) : Prop where
  sub_eq : r.sub = e.userSub
  email_eq : r.email = e.userEmail
  at_eq : r.at_ = decimal e.pairedAt ∧ digitsValue r.at_ = e.pairedAt
  role_eq : r.role = (if e.role = .owner then ascii "owner" else ascii "user")

/-! ## Nothing is cut -/

section Lengths

variable {e : PairedEntry}

theorem length_encode_le {b : Bytes} {n : Nat} (h : b.length ≤ n) :
    (Base64.encode b).length + 1 ≤ b64Max n := by
  rw [Base64.length_encode]
  show (b.length + 2) / 3 * 4 + 1 ≤ (n + 2) / 3 * 4 + 1
  omega

theorem length_roleText_le (r : PairedRole) : (roleText r).length ≤ 5 := by
  cases r <;> decide

theorem PairedEntry.Fits.length_fields (h : e.Fits) :
    (Base64.encode e.userSub).length ≤ 56 ∧ (Base64.encode e.userEmail).length ≤ 88 ∧
      (decimal e.pairedAt).length ≤ 10 ∧ (roleText e.role).length ≤ 5 := by
  have hsub : (Base64.encode e.userSub).length + 1 ≤ 57 := length_encode_le h.sub_len
  have hemail : (Base64.encode e.userEmail).length + 1 ≤ 89 := length_encode_le h.email_len
  have hat : (decimal e.pairedAt).length ≤ 10 :=
    length_decimal_le (by decide) (h.pairedAt_lt.trans (by decide))
  exact ⟨by omega, by omega, hat, length_roleText_le e.role⟩

theorem PairedEntry.Fits.length_pairedText (h : e.Fits) : (pairedText e).length < listLineSize := by
  obtain ⟨hsub, hemail, hat, hrole⟩ := h.length_fields
  have hlit : (ascii "PAIRED:").length = 7 ∧ (ascii ",").length = 1 := by decide
  show (pairedText e).length < 173
  simp only [pairedText, List.length_append]
  omega

theorem PairedEntry.Fits.pairedLine_eq (h : e.Fits) {P : Platform}
    (henc : P.base64Encode = Base64.encode) : pairedLine P e = pairedText e := by
  rw [pairedLine, henc]
  exact List.take_of_length_le (Nat.le_sub_one_of_lt h.length_pairedText)

theorem snprintf_pairend {count : Nat} (h : count ≤ pairedListMax) :
    snprintf 24 (pairendText count) = pairendText count := by
  have hcount : count ≤ 16 := h
  have hdigits : (decimal count).length ≤ 2 := length_decimal_le (by decide) (by omega)
  have hlit : (ascii "PAIREND:").length = 8 := by decide
  apply List.take_of_length_le
  rw [pairendText, List.length_append]
  omega

end Lengths

/-! ## The buffer -/

theorem exists_snprintfAt {size : Nat} {b : Block size} {text : Bytes} (data : Bytes)
    (h : b.1.take text.length = text) (hroom : text.length + data.length < size) :
    ∃ b' rest, snprintfAt b text.length data = some b' ∧ b'.1 = text ++ data ++ 0 :: rest := by
  have hwhole : snprintf (size - text.length) data = data :=
    List.take_of_length_le (by omega)
  obtain ⟨b', hcopy, htake⟩ := exists_memcpy_append (data ++ [0]) h
    (by rw [List.length_append, List.length_singleton]; omega)
  refine ⟨b', b'.1.drop (text ++ (data ++ [0])).length, ?_, ?_⟩
  · rw [snprintfAt, hwhole, hcopy]
  · have hsplit := List.take_append_drop (text ++ (data ++ [0])).length b'.1
    rw [htake] at hsplit
    rw [← hsplit]
    simp

theorem zero_notMem_pairedText (e : PairedEntry) : 0 ∉ pairedText e := by
  have hencode : ∀ b, 0 ∉ Base64.encode b := Base64.not_mem_encode rfl (by decide)
  have hdigits : 0 ∉ decimal e.pairedAt := not_mem_decimal (by decide) _
  have hrole : 0 ∉ roleText e.role := by
    cases e.role <;> decide
  have hlit : 0 ∉ ascii "PAIRED:" ∧ 0 ∉ ascii "," := by decide
  simp only [pairedText, List.mem_append, not_or]
  exact ⟨⟨⟨⟨⟨⟨⟨hlit.1, hencode _⟩, hlit.2⟩, hencode _⟩, hlit.2⟩, hdigits⟩, hlit.2⟩, hrole⟩

theorem PairedEntry.Fits.pairedLineBuffer_eq {e : PairedEntry} (h : e.Fits)
    (line : Block listLineSize) : pairedLineBuffer line e = some (pairedText e) := by
  obtain ⟨hsub, hemail, hat, hrole⟩ := h.length_fields
  have hsublen : e.userSub.length ≤ 40 := h.sub_len
  have hemaillen : e.userEmail.length ≤ 64 := h.email_len
  have hsize : listLineSize = 173 := rfl
  have hpre : (ascii "PAIRED:").length = 7 := rfl
  have hempty : line.1.take ([] : Bytes).length = [] := rfl
  -- the text so far, one write after the other
  obtain ⟨b₁, rest₁, h₁, t₁⟩ := exists_snprintfAt (ascii "PAIRED:") hempty
    (by rw [hpre, hsize]; decide)
  have t₁' : b₁.1.take (ascii "PAIRED:").length = ascii "PAIRED:" := by
    rw [t₁, List.nil_append, List.take_left]
  obtain ⟨b₂, h₂, t₂⟩ := exists_base64EncodeAt e.userSub t₁'
    (by simp only [hpre, hsize, b64Max]; omega)
  obtain ⟨b₃, h₃, t₃⟩ := exists_memcpy_append [44] t₂
    (by simp only [List.length_append, List.length_singleton, hpre, hsize]; omega)
  obtain ⟨b₄, h₄, t₄⟩ := exists_base64EncodeAt e.userEmail t₃
    (by simp only [List.length_append, List.length_singleton, hpre, hsize, b64Max]; omega)
  obtain ⟨b₅, rest₅, h₅, t₅⟩ := exists_snprintfAt
    (ascii "," ++ decimal e.pairedAt ++ ascii "," ++ roleText e.role) t₄ (by
      have hcomma : (ascii ",").length = 1 := rfl
      simp only [List.length_append, List.length_singleton, hpre, hsize, hcomma]
      omega)
  simp only [List.length_append, List.length_singleton, List.length_nil, hpre] at h₁ h₂ h₃ h₄ h₅
  have hline : b₅.1 = pairedText e ++ 0 :: rest₅ := by
    rw [t₅]
    simp only [pairedText, List.append_assoc]
    rfl
  simp only [pairedLineBuffer, h₁, h₂, h₃, h₄, h₅, Option.bind_some, Option.map_some, hline,
    cstr_append_zero, cstr_eq_self (zero_notMem_pairedText e)]

/-! ## Reading the lines -/

theorem listRow_pairedText (e : PairedEntry) :
    Client.listRow (pairedText e) =
      some ⟨e.userSub, e.userEmail, decimal e.pairedAt, roleText e.role⟩ := by
  have hfields : (pairedText e).drop (ascii "PAIRED:").length = [44].intercalate
      [Base64.encode e.userSub, Base64.encode e.userEmail, decimal e.pairedAt,
        roleText e.role] := by
    have hcomma : ascii "," = [44] := rfl
    simp only [pairedText, List.append_assoc, List.drop_left]
    simp [List.intercalate, List.intersperse, hcomma]
  have hsplit : ((pairedText e).drop (ascii "PAIRED:").length).splitOn 44 =
      [Base64.encode e.userSub, Base64.encode e.userEmail, decimal e.pairedAt,
        roleText e.role] := by
    rw [hfields]
    apply List.splitOn_intercalate
    · have hdigits : 44 ∉ decimal e.pairedAt := not_mem_decimal (by decide) _
      have hrole : 44 ∉ roleText e.role := by
        cases e.role <;> decide
      simp [Base64.comma_notMem_encode, hdigits, hrole]
    · exact List.cons_ne_nil _ _
  simp only [Client.listRow, hsplit, Base64.decode_encode, Option.bind_some, Option.map_some]

theorem cmdList_pairedText (e : PairedEntry) (replies : List Bytes) :
    Client.cmdList (pairedText e :: replies) = (Client.cmdList replies).map fun r =>
      (⟨e.userSub, e.userEmail, decimal e.pairedAt, roleText e.role⟩ :: r.1, r.2) := by
  have hpre : hasPrefix (pairedText e) (ascii "PAIRED:") = true := by
    simp only [hasPrefix_iff, pairedText, List.append_assoc]
    exact List.prefix_append ..
  have hend : hasPrefix (pairedText e) (ascii "PAIREND:") = false := rfl
  rw [Client.cmdList, hend, hpre, listRow_pairedText]
  rfl

theorem cmdList_listed (es : List PairedEntry) (count : Nat) :
    ∃ rows, Client.cmdList (es.map pairedText ++ [pairendText count]) = some (rows, decimal count) ∧
      List.Forall₂ Client.ListRow.Shows rows es := by
  induction es with
  | nil =>
    have hend : hasPrefix (pairendText count) (ascii "PAIREND:") = true :=
      hasPrefix_iff.mpr (List.prefix_append ..)
    refine ⟨[], ?_, .nil⟩
    rw [List.map_nil, List.nil_append, Client.cmdList, if_pos hend, pairendText, List.drop_left]
  | cons e es ih =>
    obtain ⟨rows, hrows, hshows⟩ := ih
    refine ⟨⟨e.userSub, e.userEmail, decimal e.pairedAt, roleText e.role⟩ :: rows, ?_,
      .cons ⟨rfl, rfl, ⟨rfl, digitsValue_decimal _⟩, rfl⟩ hshows⟩
    rw [List.map_cons, List.cons_append, cmdList_pairedText, hrows]
    rfl

def PairedEntry.withoutKey (e : PairedEntry) : PairedEntry := { e with key := .zero pairedKeyLen }

theorem pairedLine_withoutKey (P : Platform) (e : PairedEntry) :
    pairedLine P e.withoutKey = pairedLine P e := rfl

/-- `LIST` sends one line for each entry and then their number, none of them cut and each as the
code's buffer holds it. The script reads the entries back from them in order. Lists that differ
in their keys only give the same lines. -/
theorem list_reads_back (P : Platform) (henc : P.base64Encode = Base64.encode) (w : World)
    (sock : Nat) (hcount : w.list.count ≤ pairedListMax) (hfits : ∀ e ∈ w.list.accounts, e.Fits) :
    handleList P w sock =
        (listLines P w.list).foldl (fun w line => securitySendLine P w sock line) w ∧
      listLines P w.list = w.list.accounts.map pairedText ++ [pairendText w.list.count] ∧
      (∀ e ∈ w.list.accounts, ∀ line, pairedLineBuffer line e = some (pairedText e)) ∧
      (∃ rows, Client.cmdList (listLines P w.list) = some (rows, decimal w.list.count) ∧
        List.Forall₂ Client.ListRow.Shows rows w.list.accounts) ∧
      ∀ l : PairedBlob, l.count = w.list.count →
        l.accounts.map PairedEntry.withoutKey = w.list.accounts.map PairedEntry.withoutKey →
          listLines P l = listLines P w.list := by
  have hlines : listLines P w.list =
      w.list.accounts.map pairedText ++ [pairendText w.list.count] := by
    rw [listLines, snprintf_pairend hcount]
    congr 1
    exact List.map_congr_left fun e he => (hfits e he).pairedLine_eq henc
  refine ⟨?_, hlines, fun e he line => (hfits e he).pairedLineBuffer_eq line, ?_,
    fun l hl hsame => ?_⟩
  · rw [handleList, listLines, List.foldl_append, List.foldl_map]
    rfl
  · rw [hlines]
    exact cmdList_listed _ _
  · have hkeyless : ∀ es : List PairedEntry,
        es.map (pairedLine P) = (es.map PairedEntry.withoutKey).map (pairedLine P) := by
      intro es
      rw [List.map_map]
      exact List.map_congr_left fun e _ => (pairedLine_withoutKey P e).symm
    rw [listLines, listLines, hl, hkeyless, hsame, ← hkeyless]

namespace Sample

def listedWorld : World :=
  { list := .ofEntries (ascii "owner")
      [⟨ascii "owner", ascii "a,b", .fit 32 [7], 1700000000, .owner⟩,
        ⟨ascii "user", [], .fit 32 [8], 0, .user⟩] }

theorem listedWorld_fits : ∀ e ∈ listedWorld.list.accounts, e.Fits := by
  have hall : ∀ e ∈ listedWorld.list.accounts, e.userSub.length ≤ 40 ∧ 0 ∉ e.userSub ∧
      e.userEmail.length ≤ 64 ∧ 0 ∉ e.userEmail ∧ e.pairedAt < 256 ^ 4 := by
    decide
  intro e he
  obtain ⟨hsub, hsubnul, hemail, hemailnul, hat⟩ := hall e he
  exact ⟨hsub, hsubnul, hemail, hemailnul, hat⟩

theorem list_reads_back_two :
    listedWorld.list.count ≤ pairedListMax ∧
      ∃ rows, Client.cmdList (listLines platform listedWorld.list) = some (rows, ascii "2") ∧
        List.Forall₂ Client.ListRow.Shows rows listedWorld.list.accounts := by
  have h := list_reads_back platform rfl listedWorld 5 (by decide) listedWorld_fits
  exact ⟨by decide, h.2.2.2.1⟩

end Sample

end CyThing
