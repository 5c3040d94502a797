import Camex.Lib.CString

/-!
# Characters, UTF-8 and UTF-16

* `utf8`, `utf16`: the two encodings; `points`: what a sequence of UTF-16 units holds, with lone surrogates;
* `utf8Point`: the character that some bytes encode, `utf8Point_iff`; `utf8Decode`: all of them;
* `leadingOnes_utf8`, `Continuation`: the first byte of a character and the others.
-/

namespace Camex.Lib

def utf8 (cs : List Char) : Bytes := cs.flatMap String.utf8EncodeChar

theorem char_of_nat {v : ℕ} (h : v.isValidChar) : ∃ c : Char, c.toNat = v := by
  refine ⟨Char.ofNatAux v h, ?_⟩
  rfl

theorem utf8EncodeChar_eq (c : Char) :
    String.utf8EncodeChar c =
      if c.toNat ≤ 0x7f then [UInt8.ofNat c.toNat]
      else if c.toNat ≤ 0x7ff then [UInt8.ofNat (c.toNat / 64 % 0x20 + 0xc0), UInt8.ofNat (c.toNat % 0x40 + 0x80)]
      else if c.toNat ≤ 0xffff then
        [UInt8.ofNat (c.toNat / 4096 % 0x10 + 0xe0), UInt8.ofNat (c.toNat / 64 % 0x40 + 0x80),
          UInt8.ofNat (c.toNat % 0x40 + 0x80)]
      else
        [UInt8.ofNat (c.toNat / 262144 % 0x08 + 0xf0), UInt8.ofNat (c.toNat / 4096 % 0x40 + 0x80),
          UInt8.ofNat (c.toNat / 64 % 0x40 + 0x80), UInt8.ofNat (c.toNat % 0x40 + 0x80)] := rfl

theorem utf8_cons (c : Char) (cs : List Char) : utf8 (c :: cs) = String.utf8EncodeChar c ++ utf8 cs := rfl

/-! ## UTF-16 -/

abbrev Utf16 := List UInt16

/-- The units of a character: itself, or a pair of surrogates. -/
def utf16Char (c : Char) : Utf16 :=
  if c.toNat < 0x10000 then [UInt16.ofNat c.toNat]
  else [UInt16.ofNat (0xd800 + (c.toNat - 0x10000) / 0x400), UInt16.ofNat (0xdc00 + (c.toNat - 0x10000) % 0x400)]

def utf16 (cs : List Char) : Utf16 := cs.flatMap utf16Char

theorem utf16_cons (c : Char) (cs : List Char) : utf16 (c :: cs) = utf16Char c ++ utf16 cs := rfl

def isHighSurrogate (u : UInt16) : Bool := 0xd800 ≤ u && u ≤ 0xdbff

def isLowSurrogate (u : UInt16) : Bool := 0xdc00 ≤ u && u ≤ 0xdfff

def isSurrogate (u : UInt16) : Bool := 0xd800 ≤ u && u ≤ 0xdfff

def pairPoint (hi lo : UInt16) : ℕ := 0x10000 + (hi.toNat - 0xd800) * 0x400 + (lo.toNat - 0xdc00)

/-- The characters of a string; `none` is a lone surrogate. -/
def points : Utf16 → List (Option Char)
  | [] => []
  | u :: s =>
    match s with
    | [] => [if isSurrogate u then none else some (Char.ofNat u.toNat)]
    | lo :: s' =>
      if isHighSurrogate u && isLowSurrogate lo then some (Char.ofNat (pairPoint u lo)) :: points s'
      else (if isSurrogate u then none else some (Char.ofNat u.toNat)) :: points (lo :: s')

theorem isHighSurrogate_iff {u : UInt16} : isHighSurrogate u = true ↔ 0xd800 ≤ u.toNat ∧ u.toNat ≤ 0xdbff := by
  simp [isHighSurrogate, UInt16.le_iff_toNat_le]

theorem isLowSurrogate_iff {u : UInt16} : isLowSurrogate u = true ↔ 0xdc00 ≤ u.toNat ∧ u.toNat ≤ 0xdfff := by
  simp [isLowSurrogate, UInt16.le_iff_toNat_le]

theorem isSurrogate_iff {u : UInt16} : isSurrogate u = true ↔ 0xd800 ≤ u.toNat ∧ u.toNat ≤ 0xdfff := by
  simp [isSurrogate, UInt16.le_iff_toNat_le]

theorem char_range (c : Char) : c.toNat < 0xd800 ∨ 0xdfff < c.toNat ∧ c.toNat < 0x110000 := c.valid

/-- A character is one unit that is no surrogate, or a pair of surrogates. -/
theorem utf16Char_cases (c : Char) :
    (∃ u : UInt16, utf16Char c = [u] ∧ u.toNat = c.toNat ∧ isSurrogate u = false) ∨
      0x10000 ≤ c.toNat ∧ ∃ hi lo : UInt16, utf16Char c = [hi, lo] ∧ isHighSurrogate hi = true ∧
        isLowSurrogate lo = true ∧ pairPoint hi lo = c.toNat := by
  have hc := char_range c
  have hunit : ∀ v, v < 0x10000 → (UInt16.ofNat v).toNat = v := fun v hv => UInt16.toNat_ofNat_of_lt' hv
  unfold utf16Char
  split
  · rename_i hlow
    refine Or.inl ⟨_, rfl, hunit _ hlow, ?_⟩
    rw [Bool.eq_false_iff, Ne, isSurrogate_iff, hunit _ hlow]
    omega
  · refine Or.inr ⟨by omega, _, _, rfl, ?_, ?_, ?_⟩
    · rw [isHighSurrogate_iff, hunit _ (by omega)]
      omega
    · rw [isLowSurrogate_iff, hunit _ (by omega)]
      omega
    · unfold pairPoint
      rw [hunit _ (by omega), hunit _ (by omega)]
      omega

theorem char_of_toNat (c : Char) : Char.ofNat c.toNat = c := Char.ofNat_toNat c

theorem points_utf16 (cs : List Char) : points (utf16 cs) = cs.map some := by
  induction cs with
  | nil => rfl
  | cons c cs ih =>
    rw [utf16_cons]
    rcases utf16Char_cases c with ⟨u, hu, hnat, hno⟩ | ⟨-, hi, lo, hu, hhi, hlo, hpair⟩
    · have hhigh : isHighSurrogate u = false := by
        rw [Bool.eq_false_iff, Ne, isHighSurrogate_iff]
        rw [Bool.eq_false_iff, Ne, isSurrogate_iff] at hno
        omega
      rw [hu, List.singleton_append]
      unfold points
      cases hrest : utf16 cs with
      | nil =>
        rw [hrest] at ih
        dsimp only
        rw [hno, if_neg (by decide), hnat, Char.ofNat_toNat, List.map_cons, ← ih]
        rfl
      | cons v s =>
        dsimp only
        rw [hhigh, Bool.false_and, if_neg (by decide), hno, if_neg (by decide), hnat, Char.ofNat_toNat, ← hrest, ih]
        rfl
    · rw [hu]
      unfold points
      dsimp only [List.cons_append, List.nil_append]
      rw [hhi, hlo, if_pos (by decide), hpair, Char.ofNat_toNat, ih]
      rfl

theorem utf16_injective {cs ds : List Char} (h : utf16 cs = utf16 ds) : cs = ds := by
  have hpoints := congrArg points h
  rw [points_utf16, points_utf16] at hpoints
  exact List.map_injective_iff.mpr (Option.some_injective _) hpoints

/-- What begins with a unit of ASCII begins with that character. -/
theorem utf16_ascii {cs : List Char} {u : UInt16} {s : Utf16} (h : utf16 cs = u :: s) (hu : u.toNat < 0x80) :
    ∃ cs', cs = Char.ofNat u.toNat :: cs' ∧ s = utf16 cs' := by
  cases cs with
  | nil => cases h
  | cons c cs =>
    rw [utf16_cons] at h
    rcases utf16Char_cases c with ⟨v, hv, hnat, -⟩ | ⟨-, hi, lo, hv, hhi, -, -⟩
    · rw [hv, List.singleton_append, List.cons.injEq] at h
      obtain ⟨rfl, rfl⟩ := h
      exact ⟨cs, by rw [hnat, Char.ofNat_toNat], rfl⟩
    · rw [hv, List.cons_append, List.cons.injEq] at h
      rw [isHighSurrogate_iff, h.1] at hhi
      omega

theorem utf16Char_ne {c : Char} {a : UInt16} (ha : a.toNat < 0x80) (hc : c.toNat ≠ a.toNat) {u : UInt16}
    (hu : u ∈ utf16Char c) : u ≠ a := by
  rintro rfl
  rcases utf16Char_cases c with ⟨v, hv, hnat, -⟩ | ⟨-, hi, lo, hv, hhi, hlo, -⟩
  · rw [hv, List.mem_singleton] at hu
    rw [← hu] at hnat
    exact hc hnat.symm
  · rw [isHighSurrogate_iff] at hhi
    rw [isLowSurrogate_iff] at hlo
    rw [hv, List.mem_cons, List.mem_singleton] at hu
    rcases hu with rfl | rfl <;> omega

theorem utf16Char_ascii {c : Char} {a : UInt16} (ha : a.toNat < 0x80) (hc : c.toNat = a.toNat) : utf16Char c = [a] := by
  unfold utf16Char
  rw [hc, if_pos (by omega), UInt16.ofNat_toNat]

/-- A string split at a unit of ASCII is the text split at its character. -/
theorem splitOnP_utf16 {a : UInt16} (ha : a.toNat < 0x80) (cs : List Char) :
    (utf16 cs).splitOnP (· == a) = (cs.splitOnP fun c => c.toNat == a.toNat).map utf16 := by
  have hchar : ∀ (us s : Utf16), (∀ u ∈ us, u ≠ a) →
      (us ++ s).splitOnP (· == a) = (s.splitOnP (· == a)).modifyHead (us ++ ·) := by
    intro us s hus
    induction us with
    | nil =>
      cases hsplit : s.splitOnP (· == a) <;> simp [hsplit]
    | cons u us ih =>
      obtain ⟨hu, hus⟩ := List.forall_mem_cons.mp hus
      rw [List.cons_append, List.splitOnP_cons_eq_if_modifyHead, if_neg (by simpa using hu), ih hus,
        List.modifyHead_modifyHead]
      rfl
  induction cs with
  | nil => rfl
  | cons c cs ih =>
    rw [utf16_cons, List.splitOnP_cons_eq_if_modifyHead]
    by_cases hc : c.toNat = a.toNat
    · rw [utf16Char_ascii ha hc, List.singleton_append, List.splitOnP_cons_eq_if_modifyHead, if_pos (by simp),
        if_pos (by simpa using hc), ih]
      rfl
    · rw [hchar _ _ fun u hu => utf16Char_ne ha hc hu, ih, if_neg (by simpa using hc)]
      cases cs.splitOnP fun c => c.toNat == a.toNat <;> rfl

theorem dropWhile_utf16 {a : UInt16} (ha : a.toNat < 0x80) (cs : List Char) :
    ∃ ds, ((utf16 cs).dropWhile (· ≠ a)).drop 1 = utf16 ds := by
  induction cs with
  | nil => exact ⟨[], rfl⟩
  | cons c cs ih =>
    rw [utf16_cons]
    by_cases hc : c.toNat = a.toNat
    · refine ⟨cs, ?_⟩
      rw [utf16Char_ascii ha hc, List.singleton_append, List.dropWhile_cons_of_neg (by simp)]
      rfl
    · rw [List.dropWhile_append_of_pos fun u hu => by simpa using utf16Char_ne ha hc hu]
      exact ih

/-! ## UTF-8 -/

/-- A byte that is not the first of its character. -/
def isContinuation (b : UInt8) : Bool := 0x80 ≤ b && b ≤ 0xbf

/-- The bits that are set before the first that is not. -/
def leadingOnes (b : UInt8) : ℕ :=
  if b < 0x80 then 0 else if b < 0xc0 then 1 else if b < 0xe0 then 2 else if b < 0xf0 then 3 else if b < 0xf8 then 4
  else if b < 0xfc then 5 else if b < 0xfe then 6 else if b < 0xff then 7 else 8

/-- The character that these bytes are the encoding of. -/
def utf8Point (bs : Bytes) : Option Char :=
  (bs.toByteArray.utf8DecodeChar? 0).filter fun c => String.utf8EncodeChar c = bs

theorem utf8Point_iff {bs : Bytes} {c : Char} : utf8Point bs = some c ↔ String.utf8EncodeChar c = bs := by
  unfold utf8Point
  rw [Option.filter_eq_some_iff, decide_eq_true_eq]
  refine ⟨And.right, fun h => ⟨?_, h⟩⟩
  have hdecode := ByteArray.utf8DecodeChar?_utf8EncodeChar_append (b := ByteArray.empty) (c := c)
  rw [h] at hdecode
  simpa using hdecode

theorem leadingOnes_range : ∀ b : UInt8, (b.toNat < 0x80 → leadingOnes b = 0 ∧ isContinuation b = false) ∧
    (0xc0 ≤ b.toNat ∧ b.toNat < 0xe0 → leadingOnes b = 2 ∧ isContinuation b = false) ∧
    (0xe0 ≤ b.toNat ∧ b.toNat < 0xf0 → leadingOnes b = 3 ∧ isContinuation b = false) ∧
    (0xf0 ≤ b.toNat ∧ b.toNat < 0xf8 → leadingOnes b = 4 ∧ isContinuation b = false) ∧
    (0x80 ≤ b.toNat ∧ b.toNat < 0xc0 → isContinuation b = true) :=
  forall_byte (by decide +kernel)

/-- The first byte of a character says how many follow, and these are no first bytes. -/
theorem utf8EncodeChar_shape (c : Char) : ∃ b bs, String.utf8EncodeChar c = b :: bs ∧ isContinuation b = false ∧
    (∀ t ∈ bs, isContinuation t = true) ∧ (leadingOnes b = 0 ∧ bs = [] ∧ b.toNat = c.toNat ∧ c.toNat < 0x80 ∨
      leadingOnes b = bs.length + 1 ∧ 2 ≤ leadingOnes b ∧ leadingOnes b ≤ 4 ∧ 0x80 ≤ c.toNat) := by
  have hbyte : ∀ v, v < 256 → (UInt8.ofNat v).toNat = v := fun v hv => UInt8.toNat_ofNat_of_lt' hv
  have htail : ∀ v, isContinuation (UInt8.ofNat (v % 0x40 + 0x80)) = true := fun v =>
    (leadingOnes_range _).2.2.2.2 (by rw [hbyte _ (by omega)]; omega)
  have hmore : ∀ v, ∀ bs : Bytes, (∀ t ∈ bs, isContinuation t = true) →
      ∀ t ∈ UInt8.ofNat (v % 0x40 + 0x80) :: bs, isContinuation t = true :=
    fun v bs hbs => List.forall_mem_cons.mpr ⟨htail v, hbs⟩
  have hnil : ∀ t ∈ ([] : Bytes), isContinuation t = true := fun t ht => absurd ht List.not_mem_nil
  rw [utf8EncodeChar_eq]
  split
  · rename_i hone
    obtain ⟨hlead, hfirst⟩ := (leadingOnes_range (UInt8.ofNat c.toNat)).1 (by rw [hbyte _ (by omega)]; omega)
    exact ⟨_, _, rfl, hfirst, hnil, Or.inl ⟨hlead, rfl, hbyte _ (by omega), by omega⟩⟩
  split
  · obtain ⟨hlead, hfirst⟩ := (leadingOnes_range (UInt8.ofNat (c.toNat / 64 % 0x20 + 0xc0))).2.1
      (by rw [hbyte _ (by omega)]; omega)
    exact ⟨_, _, rfl, hfirst, hmore _ _ hnil, Or.inr ⟨hlead, by omega, by omega, by omega⟩⟩
  split
  · obtain ⟨hlead, hfirst⟩ := (leadingOnes_range (UInt8.ofNat (c.toNat / 4096 % 0x10 + 0xe0))).2.2.1
      (by rw [hbyte _ (by omega)]; omega)
    exact ⟨_, _, rfl, hfirst, hmore _ _ (hmore _ _ hnil), Or.inr ⟨hlead, by omega, by omega, by omega⟩⟩
  · obtain ⟨hlead, hfirst⟩ := (leadingOnes_range (UInt8.ofNat (c.toNat / 262144 % 0x08 + 0xf0))).2.2.2.1
      (by rw [hbyte _ (by omega)]; omega)
    exact ⟨_, _, rfl, hfirst, hmore _ _ (hmore _ _ (hmore _ _ hnil)), Or.inr ⟨hlead, by omega, by omega, by omega⟩⟩

/-- A character is read from the front of its bytes. -/
theorem utf8_head {c d : Char} {r s : Bytes} (h : String.utf8EncodeChar c ++ r = String.utf8EncodeChar d ++ s) :
    c = d ∧ r = s := by
  have hdecode : ∀ (c : Char) (r : Bytes), (String.utf8EncodeChar c ++ r).toByteArray.utf8DecodeChar? 0 = some c := by
    intro c r
    rw [List.toByteArray_append]
    exact ByteArray.utf8DecodeChar?_utf8EncodeChar_append
  have hc := hdecode c r
  rw [h, hdecode d s] at hc
  cases hc
  exact ⟨rfl, List.append_cancel_left h⟩

theorem utf8_injective {cs ds : List Char} (h : utf8 cs = utf8 ds) : cs = ds := by
  induction cs generalizing ds with
  | nil =>
    cases ds with
    | nil => rfl
    | cons d ds =>
      obtain ⟨b, bs, hd, -⟩ := utf8EncodeChar_shape d
      rw [utf8_cons, hd] at h
      cases h
  | cons c cs ih =>
    cases ds with
    | nil =>
      obtain ⟨b, bs, hc, -⟩ := utf8EncodeChar_shape c
      rw [utf8_cons, hc] at h
      cases h
    | cons d ds =>
      rw [utf8_cons, utf8_cons] at h
      obtain ⟨rfl, hrest⟩ := utf8_head h
      rw [ih hrest]

/-- The characters that these bytes are the encoding of. -/
def utf8Decode (bs : Bytes) : Option (List Char) := bs.toByteArray.utf8Decode?.map Array.toList

theorem utf8Decode_utf8 (cs : List Char) : utf8Decode (utf8 cs) = some cs := by
  unfold utf8Decode
  rw [show (utf8 cs).toByteArray = cs.utf8Encode from rfl, List.utf8Decode?_utf8Encode]
  rfl

theorem utf8_append (cs ds : List Char) : utf8 (cs ++ ds) = utf8 cs ++ utf8 ds := List.flatMap_append

/-- Each byte as the character of the same value. -/
def latin1 (bs : Bytes) : List Char := bs.map fun b => Char.ofNat b.toNat

theorem latin1_toNat (b : UInt8) : (Char.ofNat b.toNat).toNat = b.toNat := by
  have hb := b.toNat_lt
  unfold Char.ofNat
  rw [dif_pos (Or.inl (by omega))]
  rfl

theorem utf8_latin1 {bs : Bytes} (h : ∀ b ∈ bs, b < 0x80) : utf8 (latin1 bs) = bs := by
  induction bs with
  | nil => rfl
  | cons b bs ih =>
    obtain ⟨hb, hbs⟩ := List.forall_mem_cons.mp h
    have hb : b.toNat < 0x80 := UInt8.lt_iff_toNat_lt.mp hb
    change String.utf8EncodeChar (Char.ofNat b.toNat) ++ utf8 (latin1 bs) = b :: bs
    rw [ih hbs, utf8EncodeChar_eq, latin1_toNat, if_pos (by omega), UInt8.ofNat_toNat]
    rfl

end Camex.Lib
