import Camex.ConnectPage

/-!
# Two decoders of a value

The app collects bytes and decodes them at the end, the page decodes each run of escapes. They agree on every string
without lone surrogates whose escapes are ASCII.

* `asciiEscapes`: what is not two hexadecimal digits of ASCII behind a `%` is no escape to `Character.digit` either;
* `decodeBytes_char`, `decodeLoop_char`: a character that is no `%`; `hexOctets_bytes`, `bytes_hexOctets`: the bytes
  behind the first of a character;
* `decode_eq`: the two decoders, `escapesTaken_ascii`: the escapes that the app takes.
-/

namespace Camex

open Lib ConnectPage

/-- Read from the left, the first `%` without two hexadecimal digits of ASCII behind it is not followed by two digits of
another script. -/
def asciiEscapes : Utf16 → Bool
  | [] => true
  | ch :: s =>
    if ch = 37 then
      match s with
      | h :: l :: s =>
        if isHex h && isHex l then asciiEscapes s else !((characterDigit h).isSome && (characterDigit l).isSome)
      | _ => true
    else asciiEscapes s

/-- The digits of the escapes that `decode` takes in a string without lone surrogates. -/
def escapesTaken : Utf16 → List (UInt16 × UInt16)
  | [] => []
  | ch :: s =>
    if ch = 37 then
      match s with
      | h :: l :: s => if (characterDigit h).isSome && (characterDigit l).isSome then (h, l) :: escapesTaken s else []
      | _ => []
    else escapesTaken s

/-! ## Digits -/

theorem isHex_toNat {u : UInt16} (h : isHex u = true) : u.toNat < 0x80 := by
  unfold isHex isDecimal at h
  simp only [Bool.or_eq_true, Bool.and_eq_true, decide_eq_true_eq, UInt16.le_iff_toNat_le] at h
  have h₁ : (57 : UInt16).toNat = 57 := rfl
  have h₂ : (70 : UInt16).toNat = 70 := rfl
  have h₃ : (102 : UInt16).toNat = 102 := rfl
  omega

theorem characterDigit_hex {u : UInt16} (h : isHex u = true) : ∃ v, characterDigit u = some v ∧ hexValue u = some v := by
  have hall : ∀ k : Fin 128, isHex (UInt16.ofNat k.val) = true →
      (characterDigit (UInt16.ofNat k.val)).isSome = true ∧
        hexValue (UInt16.ofNat k.val) = characterDigit (UInt16.ofNat k.val) := by
    decide +kernel
  have hu := hall ⟨u.toNat, isHex_toNat h⟩
  simp only [UInt16.ofNat_toNat] at hu
  obtain ⟨hsome, heq⟩ := hu h
  obtain ⟨v, hv⟩ := Option.isSome_iff_exists.mp hsome
  exact ⟨v, hv, heq.trans hv⟩

theorem hexValue_isHex {u : UInt16} {v : ℕ} (h : hexValue u = some v) : isHex u = true := by
  unfold hexValue at h
  unfold isHex
  split at h
  · rename_i hdecimal
    rw [hdecimal, Bool.true_or, Bool.true_or]
  split at h
  · rename_i hupper
    simp [hupper]
  split at h
  · rename_i hlower
    simp [hlower]
  · cases h

theorem hexOctet_isHex {h l : UInt16} {b : UInt8} (ho : hexOctet h l = some b) : isHex h = true ∧ isHex l = true := by
  unfold hexOctet at ho
  cases hh : hexValue h with
  | none =>
    rw [hh] at ho
    cases ho
  | some hi =>
    cases hl : hexValue l with
    | none =>
      rw [hh, hl] at ho
      cases ho
    | some lo => exact ⟨hexValue_isHex hh, hexValue_isHex hl⟩

theorem escape_both {h l : UInt16} (hh : isHex h = true) (hl : isHex l = true) : ∃ hi lo,
    characterDigit h = some hi ∧ characterDigit l = some lo ∧ hexOctet h l = some (UInt8.ofNat (hi * 16 + lo)) := by
  obtain ⟨hi, hhi, hvhi⟩ := characterDigit_hex hh
  obtain ⟨lo, hlo, hvlo⟩ := characterDigit_hex hl
  refine ⟨hi, lo, hhi, hlo, ?_⟩
  unfold hexOctet
  rw [hvhi, hvlo]

theorem decodeBytes_percent (h l : UInt16) (s : Utf16) : ConnectLink.decodeBytes (37 :: h :: l :: s) =
    (characterDigit h).bind fun hi => (characterDigit l).bind fun lo =>
      (ConnectLink.decodeBytes s).map (UInt8.ofNat (hi * 16 + lo) :: ·) := by
  conv_lhs => unfold ConnectLink.decodeBytes
  rw [if_pos rfl]
  dsimp only
  cases characterDigit h with
  | none => rfl
  | some hi => cases characterDigit l <;> rfl

theorem hexOctets_percent (j : ℕ) (h l : UInt16) (s : Utf16) : hexOctets (j + 1) (37 :: h :: l :: s) =
    (hexOctet h l).bind fun b => (hexOctets j s).map fun r => (b :: r.1, r.2) := by
  cases ho : hexOctet h l <;> simp [hexOctets, ho]

theorem decodeBytes_escape {h l : UInt16} {b : UInt8} (ho : hexOctet h l = some b) (s : Utf16) :
    ConnectLink.decodeBytes (37 :: h :: l :: s) = (ConnectLink.decodeBytes s).map (b :: ·) := by
  obtain ⟨hh, hl⟩ := hexOctet_isHex ho
  obtain ⟨hi, lo, hhi, hlo, heq⟩ := escape_both hh hl
  rw [ho] at heq
  cases heq
  rw [decodeBytes_percent, hhi, hlo]
  rfl

theorem escapesTaken_percent (h l : UInt16) (s : Utf16) : escapesTaken (37 :: h :: l :: s) =
    if (characterDigit h).isSome && (characterDigit l).isSome then (h, l) :: escapesTaken s else [] := rfl

theorem escapesTaken_ascii (w : Utf16) :
    asciiEscapes w = true ↔ ∀ e ∈ escapesTaken w, isHex e.1 = true ∧ isHex e.2 = true := by
  fun_induction asciiEscapes w with
  | case1 => simp [escapesTaken]
  | case2 h l s hhex ih =>
    rw [Bool.and_eq_true] at hhex
    obtain ⟨hi, lo, hhi, hlo, -⟩ := escape_both hhex.1 hhex.2
    rw [escapesTaken_percent, hhi, hlo, ih]
    simp [hhex]
  | case3 h l s hhex =>
    rw [escapesTaken_percent]
    cases (characterDigit h).isSome && (characterDigit l).isSome with
    | false => simp
    | true =>
      refine ⟨fun hno => absurd hno (by decide), fun hall => ?_⟩
      have hboth := hall (h, l) (List.mem_cons_self ..)
      exact absurd (Bool.and_eq_true_iff.mpr hboth) hhex
  | case4 s hshort =>
    have hnone : escapesTaken (37 :: s) = [] := by
      cases s with
      | nil => rfl
      | cons h s =>
        cases s with
        | nil => rfl
        | cons l s => exact (hshort h l s rfl).elim
    simp [hnone]
  | case5 ch s hne ih =>
    have hstep : escapesTaken (ch :: s) = escapesTaken s := (escapesTaken.eq_def _).trans (if_neg hne)
    rw [hstep, ih]

/-! ## Characters as they are -/

theorem asciiEscapes_char {c : Char} (hc : c.toNat ≠ 37) (s : Utf16) :
    asciiEscapes (utf16Char c ++ s) = asciiEscapes s := by
  have hne : ∀ u ∈ utf16Char c, u ≠ 37 := fun u hu => utf16Char_ne (by decide) hc hu
  generalize utf16Char c = us at hne ⊢
  induction us with
  | nil => rfl
  | cons u us ih =>
    have hstep : asciiEscapes (u :: (us ++ s)) = asciiEscapes (us ++ s) :=
      (asciiEscapes.eq_def _).trans (if_neg (hne u (List.mem_cons_self ..)))
    exact hstep.trans (ih fun v hv => hne v (List.mem_cons_of_mem _ hv))

theorem decodeLoop_char {c : Char} (hc : c.toNat ≠ 37) (fuel : ℕ) (s : Utf16) :
    decodeLoop ((utf16Char c).length + fuel) (utf16Char c ++ s) = (decodeLoop fuel s).map (utf16Char c ++ ·) := by
  have hne : ∀ u ∈ utf16Char c, u ≠ 37 := fun u hu => utf16Char_ne (by decide) hc hu
  generalize utf16Char c = us at hne ⊢
  induction us with
  | nil =>
    rw [List.length_nil, Nat.zero_add, List.nil_append]
    simp
  | cons u us ih =>
    have hstep : decodeLoop ((us.length + fuel) + 1) (u :: (us ++ s)) =
        (decodeLoop (us.length + fuel) (us ++ s)).map (u :: ·) := if_pos (hne u (List.mem_cons_self ..))
    rw [List.length_cons, Nat.add_right_comm, List.cons_append, hstep,
      ih fun v hv => hne v (List.mem_cons_of_mem _ hv), Option.map_map]
    rfl

theorem decodeBytes_char {c : Char} (hc : c.toNat ≠ 37) (cs : List Char) :
    ConnectLink.decodeBytes (utf16 (c :: cs)) =
      (ConnectLink.decodeBytes (utf16 cs)).map (String.utf8EncodeChar c ++ ·) := by
  rw [utf16_cons]
  rcases utf16Char_cases c with ⟨u, hu, hnat, hno⟩ | ⟨hbig, hi, lo, hu, hhi, hlo, hpair⟩
  · have hne : u ≠ 37 := utf16Char_ne (by decide) hc (by rw [hu]; exact List.mem_singleton_self u)
    rw [hu, List.singleton_append]
    by_cases hlow : u < 0x80
    · have hlow' : u.toNat < 0x80 := UInt16.lt_iff_toNat_lt.mp hlow
      have hone : String.utf8EncodeChar c = [UInt8.ofNat u.toNat] := by
        rw [utf8EncodeChar_eq, if_pos (by omega), hnat]
      rw [hone]
      exact (ConnectLink.decodeBytes.eq_def _).trans ((if_neg hne).trans (if_pos hlow))
    · have hhigh : isHighSurrogate u = false := by
        rw [Bool.eq_false_iff, Ne, isHighSurrogate_iff]
        rw [Bool.eq_false_iff, Ne, isSurrogate_iff] at hno
        omega
      refine (ConnectLink.decodeBytes.eq_def _).trans ((if_neg hne).trans ((if_neg hlow).trans ?_))
      cases hrest : utf16 cs with
      | nil =>
        dsimp only
        rw [hno, if_neg (by decide), hnat, Char.ofNat_toNat]
        simp [ConnectLink.decodeBytes]
      | cons v s =>
        dsimp only
        rw [hhigh, Bool.false_and, if_neg (by decide), hno, if_neg (by decide), hnat, Char.ofNat_toNat]
  · have hne : hi ≠ 37 := utf16Char_ne (by decide) hc (by rw [hu]; exact List.mem_cons_self ..)
    have hlow : ¬ hi < 0x80 := by
      rw [isHighSurrogate_iff] at hhi
      rw [UInt16.lt_iff_toNat_lt, not_lt]
      exact le_trans (by decide) hhi.1
    rw [hu]
    refine (ConnectLink.decodeBytes.eq_def _).trans ((if_neg hne).trans ((if_neg hlow).trans ?_))
    change (if isHighSurrogate hi && isLowSurrogate lo then (ConnectLink.decodeBytes (utf16 cs)).map
      (String.utf8EncodeChar (Char.ofNat (pairPoint hi lo)) ++ ·) else _) = _
    rw [hhi, hlo, if_pos (by decide), hpair, Char.ofNat_toNat]

/-! ## Escapes -/

/-- Two hexadecimal digits and what is behind them, in a string without lone surrogates. -/
theorem utf16_hex {cs : List Char} {h l : UInt16} {s : Utf16} (hs : utf16 cs = h :: l :: s) (hh : isHex h = true)
    (hl : isHex l = true) : ∃ cs', s = utf16 cs' := by
  obtain ⟨ds, rfl, hds⟩ := utf16_ascii hs (isHex_toNat hh)
  obtain ⟨es, rfl, hes⟩ := utf16_ascii hds.symm (isHex_toNat hl)
  exact ⟨es, hes⟩

theorem asciiEscapes_escape {h l : UInt16} {s : Utf16} (hh : isHex h = true) (hl : isHex l = true) :
    asciiEscapes (37 :: h :: l :: s) = asciiEscapes s := by
  have hstep : asciiEscapes (37 :: h :: l :: s) = if isHex h && isHex l then asciiEscapes s else
      !((characterDigit h).isSome && (characterDigit l).isSome) := rfl
  rw [hstep, hh, hl]
  rfl

theorem utf16_percent {c : Char} (hc : c.toNat = 37) (cs : List Char) : utf16 (c :: cs) = 37 :: utf16 cs := by
  have hchar : c = '%' := by rw [← Char.ofNat_toNat c, hc]
  rw [hchar]
  rfl

theorem percent_cases (cs : List Char) :
    (∃ h l ds, utf16 cs = h :: l :: utf16 ds ∧ isHex h = true ∧ isHex l = true) ∨
      ∀ h l s, utf16 cs = h :: l :: s → (isHex h && isHex l) = false := by
  by_cases hex : ∃ h l s, utf16 cs = h :: l :: s ∧ (isHex h && isHex l) = true
  · obtain ⟨h, l, s, hs, hboth⟩ := hex
    rw [Bool.and_eq_true] at hboth
    obtain ⟨ds, rfl⟩ := utf16_hex hs hboth.1 hboth.2
    exact Or.inl ⟨h, l, ds, hs, hboth⟩
  · refine Or.inr fun h l s hs => ?_
    rw [Bool.eq_false_iff]
    exact fun hboth => hex ⟨h, l, s, hs, hboth⟩

/-- A `%` that begins no escape of ASCII: both decoders stop. -/
theorem decode_stops {s : Utf16} (hascii : asciiEscapes (37 :: s) = true)
    (hno : ∀ h l s', s = h :: l :: s' → (isHex h && isHex l) = false) (fuel : ℕ) :
    ConnectLink.decodeBytes (37 :: s) = none ∧ decodeLoop fuel (37 :: s) = none := by
  have hloop : ∀ s', decodeLoop 0 (37 :: s') = none := fun _ => rfl
  match s with
  | [] => exact ⟨rfl, by cases fuel <;> rfl⟩
  | [_] => exact ⟨rfl, by cases fuel <;> rfl⟩
  | h :: l :: s =>
    have hhex := hno h l s rfl
    have hdigits : ((characterDigit h).isSome && (characterDigit l).isSome) = false := by
      have hstep : asciiEscapes (37 :: h :: l :: s) = if isHex h && isHex l then asciiEscapes s else
          !((characterDigit h).isSome && (characterDigit l).isSome) := rfl
      rw [hstep, hhex, if_neg (by decide), Bool.not_eq_true'] at hascii
      exact hascii
    constructor
    · rw [decodeBytes_percent]
      cases hh : characterDigit h with
      | none => rfl
      | some hi =>
        cases hl : characterDigit l with
        | none => rfl
        | some lo =>
          rw [hh, hl] at hdigits
          cases hdigits
    · cases fuel with
      | zero => rfl
      | succ fuel =>
        cases ho : hexOctet h l with
        | none =>
          unfold decodeLoop
          rw [if_neg (by decide)]
          dsimp only
          rw [ho]
        | some b =>
          obtain ⟨hh, hl⟩ := hexOctet_isHex ho
          rw [hh, hl] at hhex
          cases hhex

theorem hexOctets_bytes {j : ℕ} {cs : List Char} {bs : Bytes} {s : Utf16}
    (h : hexOctets j (utf16 cs) = some (bs, s)) (hascii : asciiEscapes (utf16 cs) = true) :
    ∃ ds, s = utf16 ds ∧ asciiEscapes (utf16 ds) = true ∧ (utf16 ds).length ≤ (utf16 cs).length ∧ bs.length = j ∧
      ConnectLink.decodeBytes (utf16 cs) = (ConnectLink.decodeBytes (utf16 ds)).map (bs ++ ·) := by
  induction j generalizing cs bs s with
  | zero =>
    cases h
    exact ⟨cs, rfl, hascii, le_refl _, rfl, by simp⟩
  | succ j ih =>
    unfold hexOctets at h
    split at h
    · rename_i hi lo rest hrest
      cases ho : hexOctet hi lo with
      | none =>
        rw [ho] at h
        cases h
      | some b =>
        rw [ho] at h
        dsimp only at h
        obtain ⟨⟨more, tail⟩, hmore, heq⟩ := Option.map_eq_some_iff.mp h
        cases heq
        obtain ⟨hh, hl⟩ := hexOctet_isHex ho
        obtain ⟨ds, rfl, hds⟩ := utf16_ascii hrest (by decide)
        obtain ⟨es, rfl⟩ := utf16_hex hds.symm hh hl
        rw [hrest] at hascii ⊢
        rw [asciiEscapes_escape hh hl] at hascii
        obtain ⟨fs, rfl, hfs, hlen, hj, hbytes⟩ := ih hmore hascii
        refine ⟨fs, rfl, hfs, ?_, by rw [List.length_cons, hj], ?_⟩
        · rw [List.length_cons, List.length_cons, List.length_cons]
          omega
        · rw [decodeBytes_escape ho, hbytes, Option.map_map]
          rfl
    · cases h

/-- Bytes that are not the first of a character come from escapes. -/
theorem bytes_hexOctets {cs : List Char} {bs raw : Bytes}
    (h : ConnectLink.decodeBytes (utf16 cs) = some (bs ++ raw)) (hbs : ∀ t ∈ bs, isContinuation t = true)
    (hascii : asciiEscapes (utf16 cs) = true) :
    ∃ ds, hexOctets bs.length (utf16 cs) = some (bs, utf16 ds) ∧
      ConnectLink.decodeBytes (utf16 ds) = some raw ∧ asciiEscapes (utf16 ds) = true ∧
      (utf16 ds).length ≤ (utf16 cs).length := by
  induction bs generalizing cs with
  | nil => exact ⟨cs, rfl, h, hascii, le_refl _⟩
  | cons t bs ih =>
    obtain ⟨ht, hmore⟩ := List.forall_mem_cons.mp hbs
    cases cs with
    | nil => cases h
    | cons c cs =>
      by_cases hc : c.toNat = 37
      · rw [utf16_percent hc] at h hascii ⊢
        rcases percent_cases cs with ⟨hi, lo, ds, hcs, hh, hl⟩ | hno
        · obtain ⟨vh, vl, -, -, ho⟩ := escape_both hh hl
          rw [hcs, decodeBytes_escape ho] at h
          rw [hcs, asciiEscapes_escape hh hl] at hascii
          obtain ⟨rest, hrest, heq⟩ := Option.map_eq_some_iff.mp h
          obtain ⟨rfl, rfl⟩ := List.cons.inj heq
          obtain ⟨es, hoctets, hbytes, hes, hlen⟩ := ih hrest hmore hascii
          refine ⟨es, ?_, hbytes, hes, ?_⟩
          · rw [List.length_cons, hcs, hexOctets_percent, ho, Option.bind_some, hoctets]
            rfl
          · rw [hcs, List.length_cons, List.length_cons, List.length_cons]
            omega
        · rw [(decode_stops hascii hno 0).1] at h
          cases h
      · -- a character as it is begins with a first byte
        rw [decodeBytes_char hc] at h
        obtain ⟨rest, -, heq⟩ := Option.map_eq_some_iff.mp h
        obtain ⟨b, more, hchar, hfirst, -⟩ := utf8EncodeChar_shape c
        rw [hchar] at heq
        obtain ⟨rfl, -⟩ := List.cons.inj heq
        rw [ht] at hfirst
        cases hfirst

/-! ## The two decoders -/

/-- What the page makes of an escape of the byte `b`. -/
theorem decodeLoop_escape {h l : UInt16} {b : UInt8} (ho : hexOctet h l = some b) (fuel : ℕ) (s : Utf16) :
    decodeLoop (fuel + 1) (37 :: h :: l :: s) =
      if leadingOnes b = 0 then (decodeLoop fuel s).map (UInt16.ofNat b.toNat :: ·)
      else if leadingOnes b = 1 ∨ 4 < leadingOnes b then none
      else
        match hexOctets (leadingOnes b - 1) s with
        | none => none
        | some (more, s) =>
          match utf8Point (b :: more) with
          | none => none
          | some v => (decodeLoop fuel s).map (utf16Char v ++ ·) := by
  conv_lhs => unfold decodeLoop
  rw [if_neg (by decide)]
  dsimp only
  rewrite [ho]
  rfl

theorem char_ascii {v : ℕ} (h : v < 0x80) : (Char.ofNat v).toNat = v := by
  obtain ⟨c, hc⟩ := char_of_nat (v := v) (Or.inl (by omega))
  rw [← hc, Char.ofNat_toNat]

/-- A byte below `0x80` is a character. -/
theorem byte_ascii {b : UInt8} (h : b.toNat < 0x80) : utf16Char (Char.ofNat b.toNat) = [UInt16.ofNat b.toNat] ∧
    String.utf8EncodeChar (Char.ofNat b.toNat) = [b] := by
  have hnat := char_ascii h
  constructor
  · unfold utf16Char
    rw [hnat, if_pos (by omega)]
  · rw [utf8EncodeChar_eq, hnat, if_pos (by omega), UInt8.ofNat_toNat]

theorem leadingOnes_zero : ∀ b : UInt8, leadingOnes b = 0 ↔ b.toNat < 0x80 := forall_byte (by decide +kernel)

theorem utf16_length_cons (c : Char) (cs : List Char) : (utf16 cs).length < (utf16 (c :: cs)).length := by
  rw [utf16_cons, List.length_append]
  rcases utf16Char_cases c with ⟨u, hu, -⟩ | ⟨-, hi, lo, hu, -⟩ <;> rw [hu] <;> simp

/-- What the page decodes, the app has as UTF-8. -/
theorem bytes_of_decodeLoop {cs : List Char} (hascii : asciiEscapes (utf16 cs) = true) {fuel : ℕ}
    (hfuel : (utf16 cs).length ≤ fuel) {v : Utf16} (h : decodeLoop fuel (utf16 cs) = some v) :
    ∃ ds, v = utf16 ds ∧ ConnectLink.decodeBytes (utf16 cs) = some (utf8 ds) := by
  -- by induction on the length: an escape takes the rest of its character with it
  induction hn : (utf16 cs).length using Nat.strong_induction_on generalizing cs fuel v with
  | _ n ih =>
    subst hn
    cases cs with
    | nil =>
      cases fuel <;> cases h <;> exact ⟨[], rfl, rfl⟩
    | cons c cs =>
      by_cases hc : c.toNat = 37
      · rw [utf16_percent hc] at h hascii ih hfuel ⊢
        rcases percent_cases cs with ⟨hi, lo, ds, hcs, hh, hl⟩ | hno
        · obtain ⟨vh, vl, -, -, ho⟩ := escape_both hh hl
          rw [hcs] at h hascii ih hfuel ⊢
          obtain ⟨fuel, rfl⟩ : ∃ k, fuel = k + 1 := ⟨fuel - 1, by rw [List.length_cons] at hfuel; omega⟩
          rw [asciiEscapes_escape hh hl] at hascii
          rw [decodeLoop_escape ho] at h
          rw [decodeBytes_escape ho]
          generalize UInt8.ofNat (vh * 16 + vl) = b at h ⊢
          rw [List.length_cons, List.length_cons, List.length_cons] at hfuel ih
          split at h
          · rename_i hone
            obtain ⟨w, hw, rfl⟩ := Option.map_eq_some_iff.mp h
            obtain ⟨es, rfl, hes⟩ := ih _ (by omega) hascii (by omega) hw rfl
            obtain ⟨hunit, hbyte⟩ := byte_ascii ((leadingOnes_zero b).mp hone)
            refine ⟨Char.ofNat b.toNat :: es, ?_, ?_⟩
            · rw [utf16_cons, hunit]
              rfl
            · rw [hes, utf8_cons, hbyte]
              rfl
          · split at h
            · cases h
            · cases hoctets : hexOctets (leadingOnes b - 1) (utf16 ds) with
              | none =>
                rw [hoctets] at h
                cases h
              | some r =>
                obtain ⟨more, rest⟩ := r
                rw [hoctets] at h
                dsimp only at h
                obtain ⟨es, rfl, hes, hlen, -, hbytes⟩ := hexOctets_bytes hoctets hascii
                cases hpoint : utf8Point (b :: more) with
                | none =>
                  rw [hpoint] at h
                  cases h
                | some d =>
                  rw [hpoint] at h
                  obtain ⟨w, hw, rfl⟩ := Option.map_eq_some_iff.mp h
                  obtain ⟨fs, rfl, hfs⟩ := ih _ (by omega) hes (by omega) hw rfl
                  refine ⟨d :: fs, rfl, ?_⟩
                  rw [hbytes, hfs, utf8_cons, utf8Point_iff.mp hpoint]
                  rfl
        · rw [(decode_stops hascii hno fuel).2] at h
          cases h
      · have hlen := utf16_length_cons c cs
        rw [utf16_cons, asciiEscapes_char hc] at hascii
        rw [utf16_cons, List.length_append] at hfuel
        obtain ⟨more, rfl⟩ : ∃ k, fuel = (utf16Char c).length + k := ⟨fuel - (utf16Char c).length, by omega⟩
        rw [utf16_cons, decodeLoop_char hc] at h
        obtain ⟨w, hw, rfl⟩ := Option.map_eq_some_iff.mp h
        obtain ⟨es, rfl, hes⟩ := ih _ hlen hascii (by omega) hw rfl
        refine ⟨c :: es, rfl, ?_⟩
        rw [decodeBytes_char hc, hes]
        rfl

/-- What is UTF-8 to the app, the page decodes. -/
theorem decodeLoop_of_bytes {cs : List Char} (hascii : asciiEscapes (utf16 cs) = true) {fuel : ℕ}
    (hfuel : (utf16 cs).length ≤ fuel) {ds : List Char}
    (h : ConnectLink.decodeBytes (utf16 cs) = some (utf8 ds)) : decodeLoop fuel (utf16 cs) = some (utf16 ds) := by
  induction hn : (utf16 cs).length using Nat.strong_induction_on generalizing cs fuel ds with
  | _ n ih =>
    subst hn
    cases cs with
    | nil =>
      have hnil : utf8 [] = utf8 ds := Option.some.inj h
      rw [← utf8_injective hnil]
      cases fuel <;> rfl
    | cons c cs =>
      by_cases hc : c.toNat = 37
      · rw [utf16_percent hc] at h hascii ih hfuel ⊢
        rcases percent_cases cs with ⟨hi, lo, es, hcs, hh, hl⟩ | hno
        · obtain ⟨vh, vl, -, -, ho⟩ := escape_both hh hl
          rw [hcs] at h hascii ih hfuel ⊢
          obtain ⟨fuel, rfl⟩ : ∃ k, fuel = k + 1 := ⟨fuel - 1, by rw [List.length_cons] at hfuel; omega⟩
          rw [asciiEscapes_escape hh hl] at hascii
          rw [decodeBytes_escape ho] at h
          rw [decodeLoop_escape ho]
          generalize UInt8.ofNat (vh * 16 + vl) = b at h ⊢
          rw [List.length_cons, List.length_cons, List.length_cons] at hfuel ih
          obtain ⟨raw, hraw, heq⟩ := Option.map_eq_some_iff.mp h
          cases ds with
          | nil => cases heq
          | cons d ds =>
            obtain ⟨b', bs, hd, -, hcont, hone | ⟨hlead, htwo, hfour, -⟩⟩ := utf8EncodeChar_shape d
            · obtain ⟨hlead, rfl, hnat, -⟩ := hone
              rw [utf8_cons, hd] at heq
              obtain ⟨rfl, rfl⟩ := List.cons.inj heq
              obtain ⟨hunit, -⟩ := byte_ascii ((leadingOnes_zero b).mp hlead)
              rw [hnat, Char.ofNat_toNat] at hunit
              rw [if_pos hlead, ih _ (by omega) hascii (by omega) hraw rfl, utf16_cons, hunit, hnat]
              rfl
            · rw [utf8_cons, hd] at heq
              obtain ⟨rfl, rfl⟩ := List.cons.inj heq
              obtain ⟨fs, hoctets, hbytes, hfs, hlen⟩ := bytes_hexOctets hraw hcont hascii
              have hpoint : utf8Point (b :: bs) = some d := utf8Point_iff.mpr hd
              rw [if_neg (by omega), if_neg (by omega), hlead, Nat.add_sub_cancel, hoctets]
              dsimp only
              rw [hpoint, ih _ (by omega) hfs (by omega) hbytes rfl]
              rfl
        · rw [(decode_stops hascii hno 0).1] at h
          cases h
      · have hlen := utf16_length_cons c cs
        rw [utf16_cons, asciiEscapes_char hc] at hascii
        rw [utf16_cons, List.length_append] at hfuel
        obtain ⟨more, rfl⟩ : ∃ k, fuel = (utf16Char c).length + k := ⟨fuel - (utf16Char c).length, by omega⟩
        rw [decodeBytes_char hc] at h
        obtain ⟨raw, hraw, heq⟩ := Option.map_eq_some_iff.mp h
        cases ds with
        | nil =>
          obtain ⟨b, bs, hchar, -⟩ := utf8EncodeChar_shape c
          rw [hchar] at heq
          cases heq
        | cons d ds =>
          obtain ⟨rfl, rfl⟩ := utf8_head heq
          rw [utf16_cons, decodeLoop_char hc, ih _ hlen hascii (by omega) hraw rfl]
          rfl

/-- **The two decoders agree** on strings whose escapes are ASCII. -/
theorem decode_eq (utf : Charset) {cs : List Char} (hascii : asciiEscapes (utf16 cs) = true) :
    ConnectLink.decode utf (utf16 cs) = decodeURIComponent (utf16 cs) := by
  unfold ConnectLink.decode decodeURIComponent
  cases hbytes : ConnectLink.decodeBytes (utf16 cs) with
  | none =>
    cases hloop : decodeLoop (utf16 cs).length (utf16 cs) with
    | none => rfl
    | some v =>
      obtain ⟨ds, -, hds⟩ := bytes_of_decodeLoop hascii (le_refl _) hloop
      rw [hbytes] at hds
      cases hds
  | some raw =>
    dsimp only
    split
    · rename_i hutf
      rw [← hutf] at hbytes
      exact (decodeLoop_of_bytes hascii (le_refl _) hbytes).symm
    · rename_i hutf
      cases hloop : decodeLoop (utf16 cs).length (utf16 cs) with
      | none => rfl
      | some v =>
        obtain ⟨ds, -, hds⟩ := bytes_of_decodeLoop hascii (le_refl _) hloop
        rw [hbytes] at hds
        cases hds
        rw [utf.newString_utf8] at hutf
        exact absurd rfl hutf

end Camex
