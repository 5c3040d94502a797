import Camex.Safety.NameText

/-!
# Display names

`camex_name_valid` accepts exactly the UTF-8 of characters that are no control characters, up to its length, and reads
nothing behind the string.

* `utf8Char_encoded`: one turn takes the bytes of one character;
* `nameLoopAt_eq`: the loop on the string in memory;
* `nameValid_right`: both for every string.
-/

namespace Camex

open Lib

/-! ## What is accepted -/

theorem tail_bits (cp k : ℕ) (bs : CStr) :
    utf8Tail cp (UInt8.ofNat (k % 0x40 + 0x80) :: bs) = utf8Tail (cp * 64 + k % 0x40) bs := by
  have hall : ∀ j : Fin 64, UInt8.ofNat (j.val + 0x80) &&& 0xc0 = 0x80 ∧
      (UInt8.ofNat (j.val + 0x80) &&& 0x3f).toNat = j.val := by
    decide +kernel
  obtain ⟨hmark, hbits⟩ := hall ⟨k % 64, Nat.mod_lt _ (by decide)⟩
  conv_lhs => unfold utf8Tail
  rw [if_neg (not_not.mpr hmark)]
  exact congrArg (fun v => utf8Tail (cp * 64 + v) bs) hbits

theorem utf8Tail_nil (cp : ℕ) : utf8Tail cp [] = some cp := rfl

/-- The checks at the end of a turn let a character through. -/
theorem checks_of_nameChar {c : Char} (hc : NameChar c) {len : ℕ} (h3 : len = 3 → 0x800 ≤ c.toNat)
    (h4 : len = 4 → 0x10000 ≤ c.toNat) (hmulti : 0x80 ≤ c.toNat) :
    ¬ ((len = 3 ∧ c.toNat < 0x800) ∨ (len = 4 ∧ c.toNat < 0x10000) ∨ 0x10ffff < c.toNat ∨
      (0xd800 ≤ c.toNat ∧ c.toNat ≤ 0xdfff) ∨ (0x80 ≤ c.toNat ∧ c.toNat ≤ 0x9f)) := by
  obtain ⟨-, -, hc1⟩ := hc
  have hmax := char_range c
  omega

/-- What a first byte says: the length of the character and its first bits. -/
def StartsWith (b : UInt8) (len bits : ℕ) : Prop :=
  (0xc2 ≤ b.toNat ∧ b.toNat ≤ 0xdf ∧ len = 2 ∧ bits = b.toNat - 0xc0) ∨
    (0xe0 ≤ b.toNat ∧ b.toNat ≤ 0xef ∧ len = 3 ∧ bits = b.toNat - 0xe0) ∨
    0xf0 ≤ b.toNat ∧ b.toNat ≤ 0xf4 ∧ len = 4 ∧ bits = b.toNat - 0xf0

theorem utf8Char_several {c : Char} (hc : NameChar c) {b : UInt8} {bs : CStr} {len bits : ℕ}
    (hfirst : StartsWith b len bits) (hlen : bs.length = len - 1) (htail : utf8Tail bits bs = some c.toNat)
    (h3 : len = 3 → 0x800 ≤ c.toNat) (h4 : len = 4 → 0x10000 ≤ c.toNat) (hmulti : 0x80 ≤ c.toNat) (rest : CStr) :
    utf8Char (b :: bs ++ rest) = some len := by
  obtain ⟨h2, h3', h4'⟩ := @first_byte b
  have hbits : (if 0xc2 ≤ b ∧ b ≤ 0xdf then some (2, (b &&& 0x1f).toNat)
      else if 0xe0 ≤ b ∧ b ≤ 0xef then some (3, (b &&& 0x0f).toNat)
      else if 0xf0 ≤ b ∧ b ≤ 0xf4 then some (4, (b &&& 0x07).toNat) else none) = some (len, bits) := by
    simp only [UInt8.le_iff_toNat_le] at h2 h3' h4' ⊢
    have hc2 : (0xc2 : UInt8).toNat = 0xc2 := rfl
    have hdf : (0xdf : UInt8).toNat = 0xdf := rfl
    have he0 : (0xe0 : UInt8).toNat = 0xe0 := rfl
    have hef : (0xef : UInt8).toNat = 0xef := rfl
    have hf0 : (0xf0 : UInt8).toNat = 0xf0 := rfl
    have hf4 : (0xf4 : UInt8).toNat = 0xf4 := rfl
    rw [hc2, hdf] at h2 ⊢
    rw [he0, hef] at h3' ⊢
    rw [hf0, hf4] at h4' ⊢
    rcases hfirst with ⟨hlow, hhigh, hl, hv⟩ | ⟨hlow, hhigh, hl, hv⟩ | ⟨hlow, hhigh, hl, hv⟩
    · rw [hl, hv, if_pos (by omega), h2 (by omega)]
    · rw [hl, hv, if_neg (by omega), if_pos (by omega), h3' (by omega)]
    · rw [hl, hv, if_neg (by omega), if_neg (by omega), if_pos (by omega), h4' (by omega)]
  have hhigh : ¬ b < 0x80 := by
    rw [UInt8.lt_iff_toNat_lt, show (0x80 : UInt8).toNat = 0x80 from rfl]
    rcases hfirst with ⟨hlow, -⟩ | ⟨hlow, -⟩ | ⟨hlow, -⟩ <;> omega
  unfold utf8Char
  dsimp only [List.cons_append]
  rw [if_neg hhigh, hbits]
  dsimp only
  rw [if_neg (by rw [List.length_append]; omega), ← hlen, List.take_left, htail]
  dsimp only
  rw [if_neg (checks_of_nameChar hc h3 h4 hmulti)]

/-- One turn of the loop takes the bytes of a character. -/
theorem utf8Char_encoded {c : Char} (hc : NameChar c) (rest : CStr) :
    utf8Char (String.utf8EncodeChar c ++ rest) = some (String.utf8EncodeChar c).length := by
  have hmax := char_range c
  have hbyte : ∀ v, v < 256 → (UInt8.ofNat v).toNat = v := fun v hv => UInt8.toNat_ofNat_of_lt' hv
  rw [utf8EncodeChar_eq]
  split
  · rename_i h
    obtain ⟨hlow, hdel, -⟩ := hc
    have hb := hbyte c.toNat (by omega)
    unfold utf8Char
    dsimp only [List.cons_append]
    rw [if_pos (by rw [UInt8.lt_iff_toNat_lt, hb]; exact Nat.lt_of_le_of_lt h (by decide)), if_neg]
    · rfl
    · rw [not_or, UInt8.not_lt, UInt8.le_iff_toNat_le, ← UInt8.toNat_inj, hb]
      exact ⟨hlow, hdel⟩
  split
  · have hb := hbyte (c.toNat / 64 % 0x20 + 0xc0) (by omega)
    have hcp : (c.toNat / 64 % 0x20 + 0xc0 - 0xc0) * 64 + c.toNat % 0x40 = c.toNat := by omega
    refine utf8Char_several hc (Or.inl ⟨by omega, by omega, rfl, rfl⟩) rfl ?_ (by omega) (by omega) (by omega) rest
    rw [hb, tail_bits, utf8Tail_nil, hcp]
  split
  · have hb := hbyte (c.toNat / 4096 % 0x10 + 0xe0) (by omega)
    have hcp : ((c.toNat / 4096 % 0x10 + 0xe0 - 0xe0) * 64 + c.toNat / 64 % 0x40) * 64 + c.toNat % 0x40 =
        c.toNat := by omega
    refine utf8Char_several hc (Or.inr (Or.inl ⟨by omega, by omega, rfl, rfl⟩)) rfl ?_ (by omega) (by omega) (by omega)
      rest
    rw [hb, tail_bits, tail_bits, utf8Tail_nil, hcp]
  · have hb := hbyte (c.toNat / 262144 % 0x08 + 0xf0) (by omega)
    have hcp : (((c.toNat / 262144 % 0x08 + 0xf0 - 0xf0) * 64 + c.toNat / 4096 % 0x40) * 64 +
        c.toNat / 64 % 0x40) * 64 + c.toNat % 0x40 = c.toNat := by omega
    refine utf8Char_several hc (Or.inr (Or.inr ⟨by omega, by omega, rfl, rfl⟩)) rfl ?_ (by omega) (by omega) (by omega)
      rest
    rw [hb, tail_bits, tail_bits, tail_bits, utf8Tail_nil, hcp]

theorem nameLoop_encoded {cs : List Char} (hcs : ∀ c ∈ cs, NameChar c) {fuel : ℕ} (hfuel : (utf8 cs).length ≤ fuel) :
    nameLoop fuel (utf8 cs) = true := by
  induction cs generalizing fuel with
  | nil => cases fuel <;> rfl
  | cons c cs ih =>
    obtain ⟨hc, hcs⟩ := List.forall_mem_cons.mp hcs
    rw [utf8_cons, List.length_append] at hfuel
    rw [utf8_cons]
    have hchar := utf8Char_encoded hc (utf8 cs)
    obtain ⟨b, more, hb, -⟩ := utf8EncodeChar_shape c
    cases fuel with
    | zero =>
      rw [hb, List.length_cons] at hfuel
      omega
    | succ fuel =>
      have hrest := @ih hcs fuel (by rw [hb, List.length_cons] at hfuel; omega)
      rw [hb, List.cons_append] at hchar ⊢
      unfold nameLoop
      rw [hchar]
      dsimp only
      rw [← List.cons_append, List.drop_left]
      exact hrest

/-- **A display name** is UTF-8 without control characters that has the right length. -/
theorem camexNameValid_encoded (name : CStr) : camexNameValid name = true ↔
    1 ≤ name.length ∧ name.length ≤ CAMEX_NAME_MAX ∧ ∃ cs, name = utf8 cs ∧ ∀ c ∈ cs, NameChar c := by
  constructor
  · intro h
    have hchars := camexNameValid_chars h
    unfold camexNameValid at h
    rw [Bool.and_eq_true, decide_eq_true_eq] at h
    exact ⟨List.length_pos_iff.mpr h.1.1, h.1.2, hchars⟩
  · rintro ⟨hpos, hmax, cs, rfl, hcs⟩
    unfold camexNameValid
    rw [Bool.and_eq_true, decide_eq_true_eq]
    exact ⟨⟨List.length_pos_iff.mp hpos, hmax⟩, nameLoop_encoded hcs (le_refl _)⟩

/-! ## What is read -/

theorem readByte_drop {text : CStr} {p : ℕ} (hp : p ≤ text.length) :
    readByte text p = some ((text.drop p).headD 0) := by
  unfold readByte
  rcases Nat.lt_or_eq_of_le hp with hlt | heq
  · rw [if_pos hlt, List.getElem?_eq_getElem hlt, List.drop_eq_getElem_cons hlt]
    rfl
  · rw [if_neg (by omega), if_pos heq, List.drop_of_length_le (by omega)]
    rfl

/-- The loop over the tail stops at the NUL. -/
theorem utf8TailAt_eq {name : CStr} (more cp p : ℕ) (hp : p ≤ name.length) :
    utf8TailAt name p more cp =
      some (if (name.drop p).length < more then none else utf8Tail cp ((name.drop p).take more)) := by
  induction more generalizing cp p with
  | zero =>
    rw [if_neg (Nat.not_lt_zero _), List.take_zero]
    rfl
  | succ more ih =>
    unfold utf8TailAt
    rw [readByte_drop hp]
    dsimp only
    cases hdrop : name.drop p with
    | nil =>
      rw [if_pos (show ([] : CStr).length < more + 1 from Nat.succ_pos _)]
      rfl
    | cons b bs =>
      have hbs : name.drop (p + 1) = bs := by rw [← List.drop_drop, hdrop]; rfl
      have hlen := congrArg List.length hdrop
      rw [List.length_drop, List.length_cons] at hlen
      rw [ih _ _ (by omega), hbs, List.take_succ_cons, List.length_cons]
      conv_rhs => unfold utf8Tail
      rw [List.headD_cons]
      by_cases hb : b &&& 0xc0 ≠ 0x80
      · rw [if_pos hb, if_pos hb, ite_self]
      · rw [if_neg hb, if_neg hb]
        congr 1
        by_cases hroom : bs.length < more
        · rw [if_pos hroom, if_pos (by omega)]
        · rw [if_neg hroom, if_neg (by omega)]

/-- The loop reads nothing behind the NUL and answers what the list does. -/
theorem nameLoopAt_eq {name : CStr} (hnul : ∀ b ∈ name, b ≠ 0) (fuel g p : ℕ) (hp : p ≤ name.length)
    (hfuel : name.length - p < fuel) (hg : name.length - p ≤ g) :
    nameLoopAt name fuel p = some (nameLoop g (name.drop p)) := by
  induction fuel generalizing g p with
  | zero => omega
  | succ fuel ih =>
    unfold nameLoopAt
    rw [readByte_drop hp]
    dsimp only
    cases hdrop : name.drop p with
    | nil =>
      rw [List.headD_nil, if_pos rfl]
      cases g <;> rfl
    | cons b bs =>
      have hlen := congrArg List.length hdrop
      rw [List.length_drop, List.length_cons] at hlen
      have hb : b ≠ 0 := hnul b (List.mem_of_mem_drop (hdrop ▸ List.mem_cons_self))
      have hrest : ∀ k, name.drop (p + k) = (b :: bs).drop k := fun k => by rw [← List.drop_drop, hdrop]
      rw [List.headD_cons, if_neg hb]
      cases g with
      | zero => omega
      | succ g =>
        unfold nameLoop utf8Char
        dsimp only
        by_cases hascii : b < 0x80
        · rw [if_pos hascii, if_pos hascii]
          by_cases hctl : b < 0x20 ∨ b = 0x7f
          · rw [if_pos hctl, if_pos hctl]
          · rw [if_neg hctl, if_neg hctl, ih g (p + 1) (by omega) (by omega) (by omega), hrest]
        · rw [if_neg hascii, if_neg hascii]
          cases hfirst : (if 0xc2 ≤ b ∧ b ≤ 0xdf then some (2, (b &&& 0x1f).toNat)
            else if 0xe0 ≤ b ∧ b ≤ 0xef then some (3, (b &&& 0x0f).toNat)
            else if 0xf0 ≤ b ∧ b ≤ 0xf4 then some (4, (b &&& 0x07).toNat)
            else none : Option (ℕ × ℕ)) with
          | none => rfl
          | some first =>
            obtain ⟨len, cp⟩ := first
            have hmulti : 2 ≤ len := by
              split_ifs at hfirst <;> cases hfirst <;> decide
            dsimp only
            rw [utf8TailAt_eq _ _ _ (by omega), hrest, List.drop_succ_cons, List.drop_zero]
            by_cases hroom : bs.length < len - 1
            · rw [if_pos hroom, if_pos hroom]
            · rw [if_neg hroom, if_neg hroom]
              cases utf8Tail cp (bs.take (len - 1)) with
              | none => rfl
              | some cp =>
                dsimp only
                split
                · rfl
                · rw [ih g (p + len) (by omega) (by omega) (by omega), hrest]

/-- `camex_name_valid` on a string in memory. -/
structure NameValidRight (name : CStr) : Prop where
  reads : camexNameValidAt name = some (camexNameValid name)
  accepts : camexNameValid name = true ↔
    1 ≤ name.length ∧ name.length ≤ CAMEX_NAME_MAX ∧ ∃ cs, name = utf8 cs ∧ ∀ c ∈ cs, NameChar c

/-- **`camex_name_valid` is right** for every string, and stays in it. -/
theorem nameValid_right {name : CStr} (hnul : ∀ b ∈ name, b ≠ 0) : NameValidRight name := by
  refine ⟨?_, camexNameValid_encoded name⟩
  unfold camexNameValidAt camexNameValid
  by_cases h : name.length = 0 ∨ CAMEX_NAME_MAX < name.length
  · rw [if_pos h]
    have hno : ¬ (name ≠ [] ∧ name.length ≤ CAMEX_NAME_MAX) := by
      rintro ⟨hne, hmax⟩
      have := List.length_pos_iff.mpr hne
      omega
    rw [decide_eq_false hno, Bool.false_and]
  · rw [not_or] at h
    have hyes : name ≠ [] ∧ name.length ≤ CAMEX_NAME_MAX := ⟨List.length_pos_iff.mp (by omega), by omega⟩
    rw [if_neg (not_or.mpr h), decide_eq_true hyes, Bool.true_and,
      nameLoopAt_eq hnul _ name.length 0 (Nat.zero_le _) (by omega) (by omega), List.drop_zero]

/-- A name whose last character is cut off. -/
theorem nameValid_right_cut : NameValidRight [0x41, 0xe2, 0x82] ∧ camexNameValidAt [0x41, 0xe2, 0x82] = some false :=
  ⟨nameValid_right (by simp), by decide +kernel⟩

end Camex
