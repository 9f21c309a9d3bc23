import CyThing.Security.LocalAuthDefs
import CyThing.Sample

/-! The lines `ENROLL` accepts. `handle_enroll` cuts a trailing `,replace`, counts the commas
that are left and decodes that many fields; a field that the decoder accepts is never seven
characters long, so the literal is not mistaken for one. -/

namespace CyThing
open CLib

/-! ## The grammar -/

structure CleanText (max : Nat) (text : Bytes) : Prop where
  ne_nil : text ≠ []
  length_le : text.length ≤ max
  clean : ∀ c ∈ text, 32 ≤ c ∧ c ≠ 127

structure FieldOf (P : Platform) (field value : Bytes) : Prop where
  no_comma : 44 ∉ field
  decodes : P.base64Decode field = some value

inductive InstallPart (P : Platform) : Bytes → Prop
  | absent : InstallPart P []
  | present {field value : Bytes} (h : FieldOf P field value)
      (hlen : value.length ≤ pairedSubMax + 1) : InstallPart P (ascii "," ++ field)

def ReplacePart (text : Bytes) : Prop := text = [] ∨ text = ascii ",replace"

structure EnrollLine (P : Platform) (line sub label : Bytes) : Prop where
  sub_clean : CleanText pairedSubMax sub
  label_clean : CleanText pairedEmailMax label
  shape : ∃ s l inst rep, FieldOf P s sub ∧ FieldOf P l label ∧ InstallPart P inst ∧
    ReplacePart rep ∧ line = enrollPrefix ++ s ++ ascii "," ++ l ++ inst ++ rep

/-! ## The code's helpers -/

section Helpers

variable {P : Platform} {text field value : Bytes} {size : Nat}

theorem toCstr_eq_some {b : Bytes} : toCstr b (size + 1) = some text ↔
    text = b ∧ CleanText size b := by
  unfold toCstr
  split_ifs with hlen hbad
  · simp only [false_iff, not_and]
    intro _ h
    have := h.length_le
    have := List.length_pos_iff.mpr h.ne_nil
    omega
  · simp only [false_iff, not_and]
    intro _ h
    obtain ⟨c, hc, hctl⟩ := List.any_eq_true.mp hbad
    have := h.clean c hc
    grind
  · simp only [Option.some.injEq]
    constructor
    · rintro rfl
      refine ⟨rfl, ?_, by omega, ?_⟩
      · rintro rfl
        exact hlen (Or.inl rfl)
      · intro c hc
        have hno : ¬(c < 32 || c == 127) = true := fun h => hbad (List.any_eq_true.mpr ⟨c, hc, h⟩)
        grind
    · rintro ⟨rfl, -⟩
      rfl

theorem decodeFieldList_singleton {ds : List Bytes} :
    decodeFieldList P [size] text = some ds ↔
      ∃ d, FieldOf P text d ∧ d.length ≤ size ∧ ds = [d] := by
  unfold decodeFieldList
  by_cases hc : 44 ∈ text
  · rw [if_pos hc]
    simp only [reduceCtorEq, false_iff, not_exists, not_and]
    intro d h
    exact absurd hc h.no_comma
  · rw [if_neg hc, Option.map_eq_some_iff]
    constructor
    · rintro ⟨d, hd, rfl⟩
      obtain ⟨hdec, hlen⟩ := decodeInto_eq_some.mp hd
      exact ⟨d, ⟨hc, hdec⟩, hlen, rfl⟩
    · rintro ⟨d, hd, hlen, rfl⟩
      exact ⟨d, decodeInto_eq_some.mpr ⟨hd.decodes, hlen⟩, rfl⟩

theorem decodeFieldList_cons {size' : Nat} {sizes : List Nat} {ds : List Bytes} :
    decodeFieldList P (size :: size' :: sizes) text = some ds ↔
      ∃ field rest d ds', text = field ++ 44 :: rest ∧ FieldOf P field d ∧ d.length ≤ size ∧
        decodeFieldList P (size' :: sizes) rest = some ds' ∧ ds = d :: ds' := by
  rw [decodeFieldList]
  · constructor
    · intro h
      rcases hs : splitFirst 44 text with _ | ⟨field, rest⟩
      · rw [hs] at h
        cases h
      · simp only [hs] at h
        obtain ⟨htext, hno⟩ := splitFirst_eq_some.mp hs
        rcases hd : P.decodeInto size field with _ | d
        · rw [hd] at h
          cases h
        · simp only [hd] at h
          obtain ⟨ds', hds', rfl⟩ := Option.map_eq_some_iff.mp h
          obtain ⟨hdec, hlen⟩ := decodeInto_eq_some.mp hd
          exact ⟨field, rest, d, ds', htext, ⟨hno, hdec⟩, hlen, hds', rfl⟩
    · rintro ⟨field, rest, d, ds', rfl, hfield, hlen, hds', rfl⟩
      have hs : splitFirst 44 (field ++ 44 :: rest) = some (field, rest) :=
        splitFirst_eq_some.mpr ⟨rfl, hfield.no_comma⟩
      have hd : P.decodeInto size field = some d := decodeInto_eq_some.mpr ⟨hfield.decodes, hlen⟩
      simp only [hs, hd, hds', Option.map_some]
  · exact fun h => List.cons_ne_nil _ _ h

end Helpers

/-! ## Lines without the literal -/

section Body

variable {P : Platform} {line text sub label : Bytes}

def EnrollBody (P : Platform) (text sub label : Bytes) : Prop :=
  ∃ s l inst, FieldOf P s sub ∧ FieldOf P l label ∧ InstallPart P inst ∧
    text = s ++ 44 :: (l ++ inst)

theorem FieldOf.count {field value : Bytes} (h : FieldOf P field value) :
    field.count 44 = 0 := List.count_eq_zero.mpr h.no_comma

theorem texts_eq_some {d e : Bytes} :
    (match toCstr d (pairedSubMax + 1), toCstr e (pairedEmailMax + 1) with
      | some sub, some email => some (sub, email)
      | _, _ => none) = some (sub, label) ↔
    (d = sub ∧ e = label) ∧ CleanText pairedSubMax sub ∧ CleanText pairedEmailMax label := by
  constructor
  · intro h
    split at h
    · next hd he =>
      obtain ⟨rfl, hd⟩ := toCstr_eq_some.mp hd
      obtain ⟨rfl, he⟩ := toCstr_eq_some.mp he
      cases h
      exact ⟨⟨rfl, rfl⟩, hd, he⟩
    · cases h
  · rintro ⟨⟨rfl, rfl⟩, hd, he⟩
    rw [toCstr_eq_some.mpr ⟨rfl, hd⟩, toCstr_eq_some.mpr ⟨rfl, he⟩]

abbrev enrollSizes : List Nat := [pairedSubMax + 1, pairedEmailMax + 1, pairedSubMax + 1]

theorem parseEnroll_eq_some (hline : dropReplace line = enrollPrefix ++ text) :
    parseEnroll P line = some (sub, label) ↔
      (text.count 44 = 1 ∨ text.count 44 = 2) ∧
      (∃ ds, decodeFieldList P (enrollSizes.take (text.count 44 + 1)) text =
        some (sub :: label :: ds)) ∧
      CleanText pairedSubMax sub ∧ CleanText pairedEmailMax label := by
  unfold parseEnroll
  rw [hline]
  by_cases htext : text = []
  · subst htext
    simp [countFields]
  have hlong : ¬(enrollPrefix ++ text).length ≤ enrollPrefix.length := by
    have := List.length_pos_iff.mpr htext
    simp only [List.length_append]
    omega
  have hcount : countFields (enrollPrefix ++ text) enrollPrefix = text.count 44 + 1 := by
    rw [countFields, if_neg hlong, List.drop_left]
  have hdecode : ∀ sizes, decodeFields P (enrollPrefix ++ text) enrollPrefix sizes =
      decodeFieldList P sizes text := by
    intro sizes
    rw [decodeFields, if_neg hlong, List.drop_left]
  simp only [hcount, hdecode]
  by_cases hn : text.count 44 = 1 ∨ text.count 44 = 2
  · rw [if_neg (by omega)]
    simp only [hn, true_and]
    rcases decodeFieldList P (enrollSizes.take (text.count 44 + 1)) text with _ | ds
    · simp
    · rcases ds with _ | ⟨d, _ | ⟨e, ds⟩⟩
      · simp
      · simp
      · exact texts_eq_some.trans (by simp [and_assoc])
  · rw [if_pos (by omega)]
    simp [hn]

theorem enrollBody_iff (hsub : CleanText pairedSubMax sub)
    (hlabel : CleanText pairedEmailMax label) :
    (text.count 44 = 1 ∨ text.count 44 = 2) ∧
      (∃ ds, decodeFieldList P (enrollSizes.take (text.count 44 + 1)) text =
        some (sub :: label :: ds)) ↔ EnrollBody P text sub label := by
  -- the commas say how many fields there are, and all of them have to decode
  constructor
  · rintro ⟨hn | hn, ds, hds⟩
    · rw [hn] at hds
      obtain ⟨s, l, d, ds', rfl, hs, -, hrest, he⟩ := decodeFieldList_cons.mp hds
      obtain ⟨e, hl, -, rfl⟩ := decodeFieldList_singleton.mp hrest
      cases he
      exact ⟨s, l, [], hs, hl, .absent, by rw [List.append_nil]⟩
    · rw [hn] at hds
      obtain ⟨s, rest, d, ds', rfl, hs, -, hrest, he⟩ := decodeFieldList_cons.mp hds
      obtain ⟨l, t, e, ds'', rfl, hl, -, hlast, rfl⟩ := decodeFieldList_cons.mp hrest
      obtain ⟨v, ht, hlen, rfl⟩ := decodeFieldList_singleton.mp hlast
      cases he
      exact ⟨s, l, 44 :: t, hs, hl, .present ht hlen, rfl⟩
  · rintro ⟨s, l, inst, hs, hl, hinst, rfl⟩
    have hcount : (s ++ 44 :: (l ++ inst)).count 44 = inst.count 44 + 1 := by
      simp [hs.count, hl.count]
    have hsfit : sub.length ≤ pairedSubMax + 1 := hsub.length_le.trans (Nat.le_succ _)
    have hlfit : label.length ≤ pairedEmailMax + 1 := hlabel.length_le.trans (Nat.le_succ _)
    rw [hcount]
    cases hinst with
    | absent =>
      refine ⟨Or.inl rfl, [], ?_⟩
      apply decodeFieldList_cons.mpr
      refine ⟨s, l, sub, [label], by rw [List.append_nil], hs, hsfit, ?_, rfl⟩
      exact decodeFieldList_singleton.mpr ⟨label, hl, hlfit, rfl⟩
    | @present t v ht hlen =>
      have hone : (ascii "," ++ t).count 44 = 1 := by
        show (44 :: t).count 44 = 1
        rw [List.count_cons_self, ht.count]
      rw [hone]
      refine ⟨Or.inr rfl, [v], ?_⟩
      apply decodeFieldList_cons.mpr
      refine ⟨s, l ++ 44 :: t, sub, [label, v], rfl, hs, hsfit, ?_, rfl⟩
      apply decodeFieldList_cons.mpr
      refine ⟨l, t, label, [v], rfl, hl, hlfit, ?_, rfl⟩
      exact decodeFieldList_singleton.mpr ⟨v, ht, hlen, rfl⟩

theorem EnrollBody.last_field (h : EnrollBody P text sub label) :
    ∃ front t v, text = front ++ 44 :: t ∧ FieldOf P t v := by
  obtain ⟨s, l, inst, -, hl, hinst, rfl⟩ := h
  cases hinst with
  | absent => exact ⟨s, l, label, by rw [List.append_nil], hl⟩
  | @present t v ht _ => exact ⟨s ++ 44 :: l, t, v, by simp; rfl, ht⟩

end Body

/-! ## The literal -/

section Literal

variable {P : Platform} {line text sub label : Bytes}

theorem last_comma_unique {a b s t : Bytes} (h : a ++ 44 :: s = b ++ 44 :: t) (hs : 44 ∉ s)
    (ht : 44 ∉ t) : s = t := by
  have hrev := congrArg List.reverse h
  simp only [List.reverse_append, List.reverse_cons, List.append_assoc] at hrev
  have h1 : splitFirst 44 (s.reverse ++ 44 :: a.reverse) = some (s.reverse, a.reverse) :=
    splitFirst_eq_some.mpr ⟨rfl, by simpa using hs⟩
  have h2 : splitFirst 44 (t.reverse ++ 44 :: b.reverse) = some (t.reverse, b.reverse) :=
    splitFirst_eq_some.mpr ⟨rfl, by simpa using ht⟩
  have heq : s.reverse ++ 44 :: a.reverse = t.reverse ++ 44 :: b.reverse := hrev
  rw [heq, h2] at h1
  have hst : t.reverse = s.reverse := (Prod.mk.inj (Option.some.inj h1)).1
  exact (List.reverse_injective hst).symm

theorem EnrollBody.not_replace (hpad : ∀ t b, P.base64Decode t = some b → 4 ∣ t.length)
    (h : EnrollBody P text sub label) :
    hasSuffix (enrollPrefix ++ text) (ascii ",replace") = false := by
  -- the last field would have seven characters, which is no length of a base64 text
  obtain ⟨front, t, v, rfl, ht⟩ := h.last_field
  rw [Bool.eq_false_iff]
  intro hsuf
  obtain ⟨init, hinit⟩ := List.isSuffixOf_iff_suffix.mp hsuf
  have hreplace : ascii "replace" = t := by
    refine last_comma_unique (a := init) (b := enrollPrefix ++ front) ?_ (by decide) ht.no_comma
    rw [List.append_assoc]
    exact hinit
  have := hpad t v ht.decodes
  rw [← hreplace] at this
  revert this
  decide

theorem enrollPrefix_ne_nil : enrollPrefix ≠ [] := by decide

theorem dropReplace_of_suffix (h : line ≠ []) :
    dropReplace (line ++ ascii ",replace") = line := by
  have hpos : 0 < line.length := List.length_pos_iff.mpr h
  have hsuf : hasSuffix (line ++ ascii ",replace") (ascii ",replace") = true :=
    List.isSuffixOf_iff_suffix.mpr (List.suffix_append ..)
  have hlen : (line ++ ascii ",replace").length = line.length + 8 := List.length_append
  unfold dropReplace
  rw [if_pos ⟨by omega, hsuf⟩, hlen, Nat.add_sub_cancel, List.take_left]

theorem dropReplace_eq_self (h : hasSuffix line (ascii ",replace") = false) :
    dropReplace line = line := by
  unfold dropReplace
  rw [if_neg]
  simp [h]

theorem dropReplace_enroll (text : Bytes) :
    ∃ body rep, ReplacePart rep ∧ text = body ++ rep ∧
      dropReplace (enrollPrefix ++ text) = enrollPrefix ++ body := by
  -- the command itself has no comma, so what is cut off comes after it
  rcases hsuf : hasSuffix (enrollPrefix ++ text) (ascii ",replace") with _ | _
  · exact ⟨text, [], Or.inl rfl, (List.append_nil _).symm, dropReplace_eq_self hsuf⟩
  · obtain ⟨init, hinit⟩ := List.isSuffixOf_iff_suffix.mp hsuf
    rcases List.append_eq_append_iff.mp hinit with ⟨c, hpre, hc⟩ | ⟨body, rfl, rfl⟩
    · cases c with
      | nil =>
        have htext : text = ascii ",replace" := hc.symm
        subst htext
        exact ⟨[], _, Or.inr rfl, rfl, dropReplace_of_suffix enrollPrefix_ne_nil⟩
      | cons x c =>
        have hx : 44 = x := (List.cons.inj hc).1
        have hmem : 44 ∈ enrollPrefix := by simp [hpre, hx]
        exact absurd hmem (by decide)
    · refine ⟨body, ascii ",replace", Or.inr rfl, rfl, ?_⟩
      rw [← List.append_assoc]
      exact dropReplace_of_suffix (List.append_ne_nil_of_left_ne_nil enrollPrefix_ne_nil _)

theorem parseEnroll_iff (hpad : ∀ t b, P.base64Decode t = some b → 4 ∣ t.length) :
    parseEnroll P (enrollPrefix ++ text) = some (sub, label) ↔
      EnrollLine P (enrollPrefix ++ text) sub label := by
  constructor
  · intro h
    obtain ⟨body, rep, hrep, rfl, hdrop⟩ := dropReplace_enroll text
    obtain ⟨hn, hds, hsub, hlabel⟩ := (parseEnroll_eq_some hdrop).mp h
    obtain ⟨s, l, inst, hs, hl, hinst, rfl⟩ := (enrollBody_iff hsub hlabel).mp ⟨hn, hds⟩
    refine ⟨hsub, hlabel, s, l, inst, rep, hs, hl, hinst, hrep, ?_⟩
    simp only [List.append_assoc, List.cons_append]
    rfl
  · rintro ⟨hsub, hlabel, s, l, inst, rep, hs, hl, hinst, hrep, heq⟩
    have hbody : EnrollBody P (s ++ 44 :: (l ++ inst)) sub label := ⟨s, l, inst, hs, hl, hinst, rfl⟩
    have hline : enrollPrefix ++ text = enrollPrefix ++ (s ++ 44 :: (l ++ inst)) ++ rep := by
      rw [heq]
      simp only [List.append_assoc, List.cons_append]
      rfl
    have hdrop : dropReplace (enrollPrefix ++ text) = enrollPrefix ++ (s ++ 44 :: (l ++ inst)) := by
      rw [hline]
      rcases hrep with rfl | rfl
      · rw [List.append_nil]
        exact dropReplace_eq_self (hbody.not_replace hpad)
      · exact dropReplace_of_suffix (List.append_ne_nil_of_left_ne_nil enrollPrefix_ne_nil _)
    obtain ⟨hn, hds⟩ := (enrollBody_iff hsub hlabel).mpr hbody
    exact (parseEnroll_eq_some hdrop).mpr ⟨hn, hds, hsub, hlabel⟩

end Literal

/-! ## `handle_enroll` -/

section Handler

variable {P : Platform} {env : Env} {w : World} {i : Slot} {sock : Nat} {line : Bytes}

def enrollCall (P : Platform) (w : World) (sock : Nat) (line : Bytes) : Option (Bytes × Bytes) :=
  if hasPrefix line enrollPrefix then
    match localSessionFind w.pool sock with
    | none => none
    | some i =>
      if (w.pool i).state ≠ .pakeOk ∨ (w.pool i).rxEncrypted = false then none
      else parseEnroll P line
  else none

def enrollAccount (P : Platform) (env : Env) (w : World) (i : Slot) (sock : Nat)
    (sub label : Bytes) : World :=
  let r := pairedListAdd (env.listFate 0) w.list w.nvsList sub label
    (.fit pairedKeyLen env.kAccount) (unixOrZero env.unix)
  let x := w.setList r.list r.nvs
  match r.enrolled with
  | none => sendErr P x sock (ascii "FULL")
  | some e =>
    let x := x.setSession i
      { w.pool i with pairedIndex := some e.index, role := sessionRole e.role }
    let x := securitySendLine P x sock
      (ascii "ENROLLED:" ++ P.base64Encode e.key.1 ++ ascii "," ++ roleText e.role)
    x.pushEvent env (ascii "paired") sub (roleText e.role)

structure OnlySends (w w' : World) : Prop where
  list : w'.list = w.list
  nvsList : w'.nvsList = w.nvsList
  events : w'.events = w.events
  sessions : ∀ j, { w'.pool j with txCtr := (w.pool j).txCtr } = w.pool j

theorem OnlySends.refl (w : World) : OnlySends w w := ⟨rfl, rfl, rfl, fun _ => rfl⟩

theorem onlySends_encFrameSeal (plain : Bytes) :
    OnlySends w (encFrameSeal P w i sock plain) := by
  have hsessions : ∀ n j, { Function.update w.pool i { w.pool i with txCtr := n } j with
      txCtr := (w.pool j).txCtr } = w.pool j := by
    intro n j
    by_cases hj : j = i
    · subst hj
      rw [Function.update_self]
    · rw [Function.update_of_ne hj]
  unfold encFrameSeal
  dsimp only
  split
  · exact ⟨rfl, rfl, rfl, hsessions _⟩
  · exact ⟨rfl, rfl, rfl, hsessions _⟩

theorem onlySends_sendErr (code : Bytes) : OnlySends w (sendErr P w sock code) := by
  unfold sendErr securitySendLine encFrameSend
  repeat' split
  · exact ⟨rfl, rfl, rfl, fun _ => rfl⟩
  · dsimp only
    split_ifs
    · exact ⟨rfl, rfl, rfl, fun _ => rfl⟩
    · exact OnlySends.refl w
    · exact onlySends_encFrameSeal _
  · exact ⟨rfl, rfl, rfl, fun _ => rfl⟩

theorem localAuthHandleLine_enroll (hi : localSessionFind w.pool sock = some i)
    (hpre : hasPrefix line enrollPrefix = true) :
    localAuthHandleLine P env w sock line = some (handleEnroll P env w i sock line) := by
  simp only [localAuthHandleLine, hpre, hi, Bool.not_true, Bool.false_and, Bool.false_eq_true,
    if_false, if_true]

theorem enroll_accepts_grammar (P : Platform) (env : Env) (w : World) (i : Slot) (sock : Nat)
    (line : Bytes) (hpad : ∀ t b, P.base64Decode t = some b → 4 ∣ t.length)
    (hi : localSessionFind w.pool sock = some i) (hstate : (w.pool i).state = .pakeOk)
    (henc : (w.pool i).rxEncrypted = true) :
    (∀ sub label, enrollCall P w sock line = some (sub, label) ↔ EnrollLine P line sub label) ∧
    (∀ sub label, EnrollLine P line sub label →
      localAuthHandleLine P env w sock line = some (enrollAccount P env w i sock sub label)) ∧
    (hasPrefix line enrollPrefix = true → (∀ sub label, ¬EnrollLine P line sub label) →
      localAuthHandleLine P env w sock line = some (sendErr P w sock (ascii "BADFMT")) ∧
        OnlySends w (sendErr P w sock (ascii "BADFMT"))) := by
  have hgo : ¬((w.pool i).state ≠ .pakeOk ∨ (w.pool i).rxEncrypted = false) := by
    simp [hstate, henc]
  have hiff : ∀ sub label,
      enrollCall P w sock line = some (sub, label) ↔ EnrollLine P line sub label := by
    intro sub label
    unfold enrollCall
    split_ifs with hpre
    · obtain ⟨text, rfl⟩ := hasPrefix_iff.mp hpre
      simp only [hi, if_neg hgo]
      exact parseEnroll_iff hpad
    · simp only [false_iff]
      rintro ⟨-, -, s, l, inst, rep, -, -, -, -, rfl⟩
      apply hpre
      rw [hasPrefix_iff]
      simp only [List.append_assoc]
      exact List.prefix_append ..
  refine ⟨hiff, ?_, ?_⟩
  · intro sub label hline
    have hcall := (hiff sub label).mpr hline
    unfold enrollCall at hcall
    split_ifs at hcall with hpre
    simp only [hi, if_neg hgo] at hcall
    rw [localAuthHandleLine_enroll hi hpre]
    simp only [handleEnroll, if_neg hgo, hcall]
    rfl
  · intro hpre hno
    have hcall : parseEnroll P line = none := by
      rcases hparse : parseEnroll P line with _ | ⟨sub, label⟩
      · rfl
      · refine absurd ((hiff sub label).mp ?_) (hno sub label)
        simp only [enrollCall, hpre, hi, if_neg hgo, if_true, hparse]
    refine ⟨?_, onlySends_sendErr _⟩
    rw [localAuthHandleLine_enroll hi hpre]
    simp only [handleEnroll, if_neg hgo, hcall]

end Handler

namespace Sample

theorem localSessionMax_pos : 0 < localSessionMax := by decide

def pakePhone : World :=
  { pool := Function.update localSessionInit ⟨0, localSessionMax_pos⟩
      { sock := some 5, state := .pakeOk, rxEncrypted := true } }

theorem enroll_accepts_grammar_replace :
    let line := ascii "ENROLL:" ++ b64 "owner" ++ ascii "," ++ b64 "o@x" ++ ascii ",replace"
    enrollCall platform pakePhone 5 line = some (ascii "owner", ascii "o@x") ∧
      EnrollLine platform line (ascii "owner") (ascii "o@x") := by
  intro line
  have hcall : enrollCall platform pakePhone 5 line = some (ascii "owner", ascii "o@x") := by
    decide +kernel
  obtain ⟨hiff, -, -⟩ := enroll_accepts_grammar platform {} pakePhone 0 5 line
    (fun _ _ h => Base64.dvd_length_of_decode h) (by decide) rfl rfl
  exact ⟨hcall, (hiff _ _).mp hcall⟩

end Sample

end CyThing
