import Camex.Lib.Unicode
import Camex.NginxMap

/-!
# Display names

What `camex_name_valid` accepts is UTF-8 of characters that are no control characters.

* `utf8Char_spec`: one turn of its loop reads one character;
* `camexNameValid_chars`: a name is the encoding of such characters; `name_bytes`: what its bytes can be.
-/

namespace Camex

open Lib

def NameChar (c : Char) : Prop := 0x20 ≤ c.toNat ∧ c.toNat ≠ 0x7f ∧ ¬ (0x80 ≤ c.toNat ∧ c.toNat ≤ 0x9f)

theorem tail_byte (b : UInt8) (h : b &&& 0xc0 = 0x80) :
    ∃ k, k < 64 ∧ (b &&& 0x3f).toNat = k ∧ b = UInt8.ofNat (k % 0x40 + 0x80) := by
  have hall : ∀ k : Fin 256, UInt8.ofNat k.val &&& 0xc0 = 0x80 →
      UInt8.ofNat k.val = UInt8.ofNat ((UInt8.ofNat k.val &&& 0x3f).toNat % 0x40 + 0x80) := by decide +kernel
  have hlt : (b &&& 0x3f).toNat < 64 := by
    rw [UInt8.toNat_and]
    exact Nat.lt_of_le_of_lt Nat.and_le_right (by decide)
  have hb := hall ⟨b.toNat, b.toNat_lt⟩
  simp only [UInt8.ofNat_toNat] at hb
  exact ⟨_, hlt, rfl, hb h⟩

/-- The bytes behind the first give six bits each. -/
theorem utf8Tail_cons {cp r : ℕ} {b : UInt8} {bs : CStr} (h : utf8Tail cp (b :: bs) = some r) :
    ∃ k, k < 64 ∧ b = UInt8.ofNat (k % 0x40 + 0x80) ∧ utf8Tail (cp * 64 + k) bs = some r := by
  unfold utf8Tail at h
  split at h
  · cases h
  · rename_i hb
    rw [not_not] at hb
    obtain ⟨k, hk, hval, heq⟩ := tail_byte b hb
    rw [hval] at h
    exact ⟨k, hk, heq, h⟩

theorem byte_of_nat {b : UInt8} {v : ℕ} (hv : v < 256) (h : b.toNat = v) : b = UInt8.ofNat v := by
  apply UInt8.toNat.inj
  rw [h, UInt8.toNat_ofNat_of_lt' hv]

theorem first_byte {b : UInt8} :
    (0xc2 ≤ b ∧ b ≤ 0xdf → (b &&& 0x1f).toNat = b.toNat - 0xc0) ∧
      (0xe0 ≤ b ∧ b ≤ 0xef → (b &&& 0x0f).toNat = b.toNat - 0xe0) ∧
      (0xf0 ≤ b ∧ b ≤ 0xf4 → (b &&& 0x07).toNat = b.toNat - 0xf0) := by
  have hall : ∀ k : Fin 256,
      (0xc2 ≤ UInt8.ofNat k.val ∧ UInt8.ofNat k.val ≤ 0xdf → (UInt8.ofNat k.val &&& 0x1f).toNat = k.val - 0xc0) ∧
      (0xe0 ≤ UInt8.ofNat k.val ∧ UInt8.ofNat k.val ≤ 0xef → (UInt8.ofNat k.val &&& 0x0f).toNat = k.val - 0xe0) ∧
      (0xf0 ≤ UInt8.ofNat k.val ∧ UInt8.ofNat k.val ≤ 0xf4 → (UInt8.ofNat k.val &&& 0x07).toNat = k.val - 0xf0) := by
    decide +kernel
  have hb := hall ⟨b.toNat, b.toNat_lt⟩
  simpa only [UInt8.ofNat_toNat] using hb

/-- The last steps of a turn: `cp` is a character that a name may have. -/
theorem nameChar_of_checks {len cp : ℕ} (h : ¬ ((len = 3 ∧ cp < 0x800) ∨ (len = 4 ∧ cp < 0x10000) ∨ 0x10ffff < cp ∨
    (0xd800 ≤ cp ∧ cp ≤ 0xdfff) ∨ (0x80 ≤ cp ∧ cp ≤ 0x9f))) (hcp : 0x80 ≤ cp) :
    ∃ c : Char, c.toNat = cp ∧ NameChar c := by
  obtain ⟨c, hc⟩ := char_of_nat (v := cp) (by unfold Nat.isValidChar; omega)
  exact ⟨c, hc, by omega, by omega, by omega⟩

theorem utf8Tail_two {cp r : ℕ} {bs : CStr} (hlen : ¬ bs.length < 1) (h : utf8Tail cp (bs.take 1) = some r) :
    ∃ k, k < 64 ∧ bs = UInt8.ofNat (k % 0x40 + 0x80) :: bs.drop 1 ∧ r = cp * 64 + k := by
  cases bs with
  | nil => exact absurd Nat.zero_lt_one hlen
  | cons x bs =>
    obtain ⟨k, hk, hx, hrest⟩ := utf8Tail_cons h
    refine ⟨k, hk, by rw [← hx]; rfl, ?_⟩
    exact (Option.some.inj hrest).symm

theorem utf8Tail_three {cp r : ℕ} {bs : CStr} (hlen : ¬ bs.length < 2) (h : utf8Tail cp (bs.take 2) = some r) :
    ∃ k l, k < 64 ∧ l < 64 ∧
      bs = UInt8.ofNat (k % 0x40 + 0x80) :: UInt8.ofNat (l % 0x40 + 0x80) :: bs.drop 2 ∧
      r = (cp * 64 + k) * 64 + l := by
  cases bs with
  | nil => exact absurd Nat.zero_lt_two hlen
  | cons x bs =>
    obtain ⟨k, hk, hx, hrest⟩ := utf8Tail_cons h
    obtain ⟨l, hl, hbs, hr⟩ := utf8Tail_two (by rw [List.length_cons] at hlen; omega) hrest
    refine ⟨k, l, hk, hl, ?_, hr⟩
    rw [← hx, List.drop_succ_cons, ← hbs]

theorem utf8Tail_four {cp r : ℕ} {bs : CStr} (hlen : ¬ bs.length < 3) (h : utf8Tail cp (bs.take 3) = some r) :
    ∃ k l m, k < 64 ∧ l < 64 ∧ m < 64 ∧
      bs = UInt8.ofNat (k % 0x40 + 0x80) :: UInt8.ofNat (l % 0x40 + 0x80) :: UInt8.ofNat (m % 0x40 + 0x80) ::
        bs.drop 3 ∧
      r = ((cp * 64 + k) * 64 + l) * 64 + m := by
  cases bs with
  | nil => exact absurd (by decide : 0 < 3) hlen
  | cons x bs =>
    obtain ⟨k, hk, hx, hrest⟩ := utf8Tail_cons h
    obtain ⟨l, m, hl, hm, hbs, hr⟩ := utf8Tail_three (by rw [List.length_cons] at hlen; omega) hrest
    refine ⟨k, l, m, hk, hl, hm, ?_, hr⟩
    rw [← hx, List.drop_succ_cons, ← hbs]

/-- **One turn of the loop reads one character.** -/
theorem utf8Char_spec {p : CStr} {len : ℕ} (h : utf8Char p = some len) :
    ∃ c, NameChar c ∧ 0 < len ∧ p = String.utf8EncodeChar c ++ p.drop len := by
  cases p with
  | nil => cases h
  | cons b bs =>
    simp only [utf8Char] at h
    split at h
    · rename_i hb
      split at h
      · cases h
      · rename_i hctl
        cases h
        rw [UInt8.lt_iff_toNat_lt] at hb
        have hb : b.toNat < 128 := hb
        rw [not_or, UInt8.not_lt, UInt8.le_iff_toNat_le] at hctl
        obtain ⟨hlow, hdel⟩ := hctl
        have hlow : 32 ≤ b.toNat := hlow
        obtain ⟨c, hc⟩ := char_of_nat (v := b.toNat) (Or.inl (by omega))
        have hne : b.toNat ≠ 127 := fun he => hdel (UInt8.toNat.inj he)
        refine ⟨c, ⟨by omega, by omega, by omega⟩, by decide, ?_⟩
        rw [utf8EncodeChar_eq, if_pos (by omega), hc, UInt8.ofNat_toNat]
        rfl
    · simp only [UInt8.le_iff_toNat_le] at h
      have hfirst := first_byte (b := b)
      simp only [UInt8.le_iff_toNat_le] at hfirst
      obtain ⟨hf2, hf3, hf4⟩ := hfirst
      have hlt := b.toNat_lt
      split at h
      · cases h
      · rename_i l cp hsome
        split at h
        · cases h
        · rename_i hroom
          split at h
          · cases h
          · rename_i r htail
            split at h
            · cases h
            · rename_i hchecks
              cases h
              split at hsome
              · -- two bytes
                rename_i hb
                cases hsome
                obtain ⟨k, hk, hbs, hr⟩ := utf8Tail_two hroom htail
                rw [hf2 hb] at hr
                have hb2 : 194 ≤ b.toNat ∧ b.toNat ≤ 223 := hb
                obtain ⟨c, hc, hname⟩ := nameChar_of_checks hchecks (by omega)
                refine ⟨c, hname, by decide, ?_⟩
                have hfirst : b = UInt8.ofNat (c.toNat / 64 % 0x20 + 0xc0) := byte_of_nat (by omega) (by omega)
                have hk' : k % 0x40 = c.toNat % 0x40 := by omega
                rw [hk'] at hbs
                rw [utf8EncodeChar_eq, if_neg (by omega), if_pos (by omega), ← hfirst]
                exact congrArg _ hbs
              · split at hsome
                · -- three bytes
                  rename_i hb
                  cases hsome
                  obtain ⟨k, m, hk, hm, hbs, hr⟩ := utf8Tail_three hroom htail
                  rw [hf3 hb] at hr
                  have hb2 : 224 ≤ b.toNat ∧ b.toNat ≤ 239 := hb
                  obtain ⟨c, hc, hname⟩ := nameChar_of_checks hchecks (by omega)
                  refine ⟨c, hname, by decide, ?_⟩
                  have hfirst : b = UInt8.ofNat (c.toNat / 4096 % 0x10 + 0xe0) := byte_of_nat (by omega) (by omega)
                  have hk' : k % 0x40 = c.toNat / 64 % 0x40 := by omega
                  have hm' : m % 0x40 = c.toNat % 0x40 := by omega
                  rw [hk', hm'] at hbs
                  rw [utf8EncodeChar_eq, if_neg (by omega), if_neg (by omega), if_pos (by omega), ← hfirst]
                  exact congrArg _ hbs
                · split at hsome
                  · -- four bytes
                    rename_i hb
                    cases hsome
                    obtain ⟨k, m, o, hk, hm, ho, hbs, hr⟩ := utf8Tail_four hroom htail
                    rw [hf4 hb] at hr
                    have hb2 : 240 ≤ b.toNat ∧ b.toNat ≤ 244 := hb
                    obtain ⟨c, hc, hname⟩ := nameChar_of_checks hchecks (by omega)
                    refine ⟨c, hname, by decide, ?_⟩
                    have hfirst : b = UInt8.ofNat (c.toNat / 262144 % 0x08 + 0xf0) :=
                      byte_of_nat (by omega) (by omega)
                    have hk' : k % 0x40 = c.toNat / 4096 % 0x40 := by omega
                    have hm' : m % 0x40 = c.toNat / 64 % 0x40 := by omega
                    have ho' : o % 0x40 = c.toNat % 0x40 := by omega
                    rw [hk', hm', ho'] at hbs
                    rw [utf8EncodeChar_eq, if_neg (by omega), if_neg (by omega), if_neg (by omega), ← hfirst]
                    exact congrArg _ hbs
                  · cases hsome

theorem nameLoop_chars {fuel : ℕ} {p : CStr} (h : nameLoop fuel p = true) :
    ∃ cs, p = utf8 cs ∧ ∀ c ∈ cs, NameChar c := by
  induction fuel generalizing p with
  | zero =>
    cases p with
    | nil => exact ⟨[], rfl, by rintro c ⟨⟩⟩
    | cons b p => cases h
  | succ fuel ih =>
    cases p with
    | nil => exact ⟨[], rfl, by rintro c ⟨⟩⟩
    | cons b p =>
      unfold nameLoop at h
      split at h
      · cases h
      · rename_i len hchar
        obtain ⟨c, hc, -, hp⟩ := utf8Char_spec hchar
        obtain ⟨cs, hrest, hcs⟩ := ih h
        refine ⟨c :: cs, ?_, List.forall_mem_cons.mpr ⟨hc, hcs⟩⟩
        rw [hp, hrest]
        rfl

/-- **A name is UTF-8 of characters that are no control characters.** -/
theorem camexNameValid_chars {name : CStr} (h : camexNameValid name = true) :
    ∃ cs, name = utf8 cs ∧ ∀ c ∈ cs, NameChar c := by
  unfold camexNameValid at h
  rw [Bool.and_eq_true] at h
  exact nameLoop_chars h.2

theorem nameChar_bytes {c : Char} (hc : NameChar c) {b : UInt8} (hb : b ∈ String.utf8EncodeChar c) :
    0x20 ≤ b.toNat ∧ b.toNat ≠ 0x7f ∧ b.toNat ≤ 0xf7 := by
  obtain ⟨hlow, hdel, -⟩ := hc
  have hsmall : ∀ v, v < 256 → (UInt8.ofNat v).toNat = v := fun v hv => UInt8.toNat_ofNat_of_lt' hv
  rw [utf8EncodeChar_eq] at hb
  split at hb
  · rw [List.mem_singleton.mp hb, hsmall _ (by omega)]
    omega
  · split at hb
    · simp only [List.mem_cons, List.not_mem_nil, or_false] at hb
      rcases hb with rfl | rfl <;> rw [hsmall _ (by omega)] <;> omega
    · split at hb
      · simp only [List.mem_cons, List.not_mem_nil, or_false] at hb
        rcases hb with rfl | rfl | rfl <;> rw [hsmall _ (by omega)] <;> omega
      · simp only [List.mem_cons, List.not_mem_nil, or_false] at hb
        rcases hb with rfl | rfl | rfl | rfl <;> rw [hsmall _ (by omega)] <;> omega

theorem name_bytes {name : CStr} (h : camexNameValid name = true) {b : UInt8} (hb : b ∈ name) :
    0x20 ≤ b.toNat ∧ b.toNat ≠ 0x7f ∧ b.toNat ≤ 0xf7 := by
  obtain ⟨cs, rfl, hcs⟩ := camexNameValid_chars h
  obtain ⟨c, hc, hb⟩ := List.mem_flatMap.mp hb
  exact nameChar_bytes (hcs c hc) hb

end Camex
