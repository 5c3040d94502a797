import Mathlib.Data.List.Basic
import Mathlib.Data.List.TakeWhile
import Mathlib.Tactic.IntervalCases

/-!
# C strings: bytes without the terminating NUL

`CStr` is the bytes of a C string before its NUL. Here are the library calls the sources use on
them, in the C locale and with a 64-bit `long`:

* `strcaseeq` (`strcasecmp(..) == 0`), an equivalence (`strcaseeq_refl`, `.symm`, `.trans`);
* `store` (`snprintf(dst, size, "%s", src)`), `tokens` (`strtok_r`), `beforeByte` and `afterByte`
  (`strchr`);
* `natText` (`%u`) with its unfolding `natText_eq`, and `strtol`, `strtoul`.
-/

namespace Camex.Lib

abbrev Bytes := List UInt8

abbrev CStr := List UInt8

def ascii (s : String) : CStr := s.toList.map fun c => UInt8.ofNat c.toNat

theorem forall_byte {p : UInt8 → Prop} (h : ∀ k : Fin 256, p (UInt8.ofNat k.val)) (b : UInt8) : p b := by
  have hb := h ⟨b.toNat, b.toNat_lt⟩
  simpa only [UInt8.ofNat_toNat] using hb

/-! ## Comparison -/

/-- `tolower` of the C locale. -/
def toLower (b : UInt8) : UInt8 := if 65 ≤ b ∧ b ≤ 90 then b + 32 else b

/-- `strcasecmp(a, b) == 0`. -/
def strcaseeq (a b : CStr) : Bool := a.map toLower == b.map toLower

theorem strcaseeq_iff {a b : CStr} : strcaseeq a b = true ↔ a.map toLower = b.map toLower := by
  simp [strcaseeq]

@[simp] theorem strcaseeq_refl (a : CStr) : strcaseeq a a = true := by simp [strcaseeq]

theorem strcaseeq_comm (a b : CStr) : strcaseeq a b = strcaseeq b a := by
  rw [Bool.eq_iff_iff, strcaseeq_iff, strcaseeq_iff]
  exact eq_comm

theorem strcaseeq_symm {a b : CStr} (h : strcaseeq a b = true) : strcaseeq b a = true := by
  rwa [strcaseeq_comm]

theorem strcaseeq_trans {a b c : CStr} (h₁ : strcaseeq a b = true) (h₂ : strcaseeq b c = true) :
    strcaseeq a c = true := by
  rw [strcaseeq_iff] at *
  exact h₁.trans h₂

/-- Equal strings can be exchanged in a comparison. -/
theorem strcaseeq_congr_right {a b : CStr} (h : strcaseeq a b = true) (c : CStr) :
    strcaseeq c a = strcaseeq c b := by
  rw [strcaseeq_iff] at h
  simp [strcaseeq, h]

theorem strcaseeq_nil {a : CStr} : strcaseeq a [] = true ↔ a = [] := by
  simp [strcaseeq_iff]

/-! ## Copies and cuts -/

/-- `snprintf(dst, size, "%s", src)`. -/
def store (size : ℕ) (src : CStr) : CStr := src.take (size - 1)

theorem store_of_lt {size : ℕ} {src : CStr} (h : src.length < size) : store size src = src :=
  List.take_of_length_le (by omega)

def untilNul (buf : Bytes) : CStr := buf.takeWhile (· ≠ 0)

/-- A string that fits is put into a buffer: its bytes, the NUL, and what was behind. -/
def putString (buf : Bytes) (src : CStr) : Bytes := src ++ 0 :: buf.drop (src.length + 1)

theorem untilNul_putString {src : CStr} (h : ∀ b ∈ src, b ≠ 0) (buf : Bytes) :
    untilNul (putString buf src) = src := by
  unfold untilNul putString
  rw [List.takeWhile_append_of_pos (by simpa using h)]
  simp

theorem untilNul_ne_zero (buf : Bytes) : ∀ b ∈ untilNul buf, b ≠ 0 := fun b hb => by
  simpa using List.mem_takeWhile_imp hb

/-- What stands before the first `b`, all of it when there is none. -/
def beforeByte (b : UInt8) (s : CStr) : CStr := s.takeWhile (· ≠ b)

/-- `strchr(s, b) + 1`: what stands behind the first `b`. -/
def afterByte (b : UInt8) : CStr → Option CStr
  | [] => none
  | c :: s => if c = b then some s else afterByte b s

theorem afterByte_some {b : UInt8} {s rest : CStr} (h : afterByte b s = some rest) :
    s = beforeByte b s ++ b :: rest := by
  induction s with
  | nil => cases h
  | cons c s ih =>
    unfold afterByte at h
    split at h
    · rename_i hc
      rw [← Option.some.inj h, hc, beforeByte, List.takeWhile_cons_of_neg (by simp), List.nil_append]
    · rename_i hc
      have hbefore : beforeByte b (c :: s) = c :: beforeByte b s := List.takeWhile_cons_of_pos (by simpa using hc)
      rw [hbefore, List.cons_append, ← ih h]

/-- The tokens of `strtok_r`: the non-empty pieces between the delimiters. -/
def tokens (isDelim : UInt8 → Bool) (s : CStr) : List CStr :=
  (s.splitOnP isDelim).filter (· ≠ [])

section Tokens

variable {isDelim : UInt8 → Bool}

/-- A delimiter separates the tokens on its two sides. -/
theorem tokens_append_cons (s t : CStr) {d : UInt8} (hd : isDelim d = true) :
    tokens isDelim (s ++ d :: t) = tokens isDelim s ++ tokens isDelim t := by
  unfold tokens
  rw [List.splitOnP_append_cons s t hd, List.filter_append]

theorem tokens_append {s t : CStr} (ht : t = [] ∨ ∃ d u, t = d :: u ∧ isDelim d = true) :
    tokens isDelim (s ++ t) = tokens isDelim s ++ tokens isDelim t := by
  rcases ht with rfl | ⟨d, u, rfl, hd⟩
  · rw [List.append_nil, show tokens isDelim [] = [] by simp [tokens], List.append_nil]
  · have := tokens_append_cons [] u hd
    rw [List.nil_append, show tokens isDelim [] = [] by simp [tokens], List.nil_append] at this
    rw [tokens_append_cons s u hd, this]

theorem tokens_fields (s : CStr) {fields : List CStr}
    (h : ∀ f ∈ fields, ∃ d u, f = d :: u ∧ isDelim d = true) :
    tokens isDelim (s ++ fields.flatten) = tokens isDelim s ++ fields.flatMap (tokens isDelim) := by
  induction fields generalizing s with
  | nil => simp
  | cons f fs ih =>
    obtain ⟨hf, hfs⟩ := List.forall_mem_cons.mp h
    obtain ⟨d, u, rfl, hd⟩ := hf
    rw [List.flatten_cons, List.flatMap_cons, ← List.append_assoc, ih _ hfs,
      tokens_append (Or.inr ⟨d, u, rfl, hd⟩), List.append_assoc]

theorem tokens_word {s : CStr} (hs : s ≠ []) (h : ∀ b ∈ s, isDelim b = false) :
    tokens isDelim s = [s] := by
  unfold tokens
  rw [List.splitOnP_eq_singleton h]
  simp [hs]

theorem splitOnP_noDelim (s : CStr) : ∀ t ∈ s.splitOnP isDelim, ∀ b ∈ t, isDelim b = false := by
  induction s with
  | nil => simp
  | cons c s ih =>
    rw [List.splitOnP_cons_eq_if_modifyHead]
    split
    · intro t ht
      rcases List.mem_cons.mp ht with rfl | ht
      · exact nofun
      · exact ih t ht
    · rename_i hc
      obtain ⟨t₀, ts, hts⟩ := List.exists_cons_of_ne_nil (List.splitOnP_ne_nil isDelim s)
      rw [hts] at ih ⊢
      intro t ht
      rcases List.mem_cons.mp ht with rfl | ht
      · intro b hb
        rcases List.mem_cons.mp hb with rfl | hb
        · simpa using hc
        · exact ih t₀ List.mem_cons_self b hb
      · exact ih t (List.mem_cons_of_mem _ ht)

theorem tokens_noDelim {s t : CStr} (h : t ∈ tokens isDelim s) : ∀ b ∈ t, isDelim b = false :=
  splitOnP_noDelim s t (List.mem_of_mem_filter h)

theorem splitOnP_subset (s : CStr) : ∀ t ∈ s.splitOnP isDelim, ∀ b ∈ t, b ∈ s := by
  induction s with
  | nil => simp
  | cons c s ih =>
    rw [List.splitOnP_cons_eq_if_modifyHead]
    split
    · intro t ht b hb
      rcases List.mem_cons.mp ht with rfl | ht
      · cases hb
      · exact List.mem_cons_of_mem _ (ih t ht b hb)
    · obtain ⟨t₀, ts, hts⟩ := List.exists_cons_of_ne_nil (List.splitOnP_ne_nil isDelim s)
      rw [hts] at ih ⊢
      intro t ht b hb
      rcases List.mem_cons.mp ht with rfl | ht
      · rcases List.mem_cons.mp hb with rfl | hb
        · exact List.mem_cons_self
        · exact List.mem_cons_of_mem _ (ih t₀ List.mem_cons_self b hb)
      · exact List.mem_cons_of_mem _ (ih t (List.mem_cons_of_mem _ ht) b hb)

theorem tokens_subset {s t : CStr} (h : t ∈ tokens isDelim s) : ∀ b ∈ t, b ∈ s :=
  splitOnP_subset s t (List.mem_of_mem_filter h)

end Tokens

/-! ## Numbers -/

def digit (d : ℕ) : UInt8 := UInt8.ofNat (48 + d)

def natTextAux : ℕ → ℕ → CStr
  | 0, _ => []
  | f + 1, n => if n < 10 then [digit n] else natTextAux f (n / 10) ++ [digit (n % 10)]

/-- `%u`. -/
def natText (n : ℕ) : CStr := natTextAux (n + 1) n

theorem natTextAux_fuel (n : ℕ) : ∀ f g, n < f → n < g → natTextAux f n = natTextAux g n := by
  induction n using Nat.strong_induction_on with
  | _ n ih =>
    intro f g hf hg
    obtain ⟨f, rfl⟩ : ∃ k, f = k + 1 := ⟨f - 1, by omega⟩
    obtain ⟨g, rfl⟩ : ∃ k, g = k + 1 := ⟨g - 1, by omega⟩
    unfold natTextAux
    split
    · rfl
    · rw [ih (n / 10) (by omega) f g (by omega) (by omega)]

theorem natText_eq (n : ℕ) :
    natText n = if n < 10 then [digit n] else natText (n / 10) ++ [digit (n % 10)] := by
  unfold natText
  rw [natTextAux]
  split
  · rfl
  · rw [natTextAux_fuel (n / 10) n (n / 10 + 1) (by omega) (by omega)]

def isDigit (b : UInt8) : Bool := 48 ≤ b && b ≤ 57

theorem isDigit_digit {d : ℕ} (hd : d < 10) : isDigit (digit d) = true := by
  interval_cases d <;> rfl

theorem digit_toNat {d : ℕ} (hd : d < 10) : (digit d).toNat = 48 + d := by
  interval_cases d <;> rfl

theorem natText_isDigit (n : ℕ) : ∀ b ∈ natText n, isDigit b = true := by
  induction n using Nat.strong_induction_on with
  | _ n ih =>
    rw [natText_eq]
    split
    · intro b hb
      rw [List.mem_singleton.mp hb]
      exact isDigit_digit (by omega)
    · intro b hb
      rcases List.mem_append.mp hb with hb | hb
      · exact ih (n / 10) (by omega) b hb
      · rw [List.mem_singleton.mp hb]
        exact isDigit_digit (by omega)

theorem natText_ne_nil (n : ℕ) : natText n ≠ [] := by
  rw [natText_eq]
  split <;> simp

/-- A number below `10 ^ k` has at most `k` digits. -/
theorem natText_length {k n : ℕ} (hk : 0 < k) (h : n < 10 ^ k) : (natText n).length ≤ k := by
  induction k generalizing n with
  | zero => exact absurd hk (lt_irrefl 0)
  | succ k ih =>
    rw [natText_eq]
    split
    · exact Nat.succ_le_succ (Nat.zero_le k)
    · rename_i hn
      have hk' : 0 < k := by
        rcases Nat.eq_zero_or_pos k with rfl | hk'
        · omega
        · exact hk'
      have := ih (n := n / 10) hk' (by rw [pow_succ] at h; omega)
      rw [List.length_append, List.length_singleton]
      omega

/-- `isspace` of the C locale. -/
def isSpace (b : UInt8) : Bool := b == 32 || (9 ≤ b && b ≤ 13)

def digitsValue (s : CStr) : ℕ := s.foldl (fun v b => v * 10 + (b.toNat - 48)) 0

/-- The sign, the digits and the rest a number conversion sees; `none` without a digit. -/
def scanNumber (s : CStr) : Option (Bool × CStr × CStr) :=
  let s := s.dropWhile isSpace
  let signed := match s with
    | c :: r => if c = 45 then (true, r) else if c = 43 then (false, r) else (false, s)
    | [] => (false, s)
  let ds := signed.2.takeWhile isDigit
  if ds = [] then none else some (signed.1, ds, signed.2.dropWhile isDigit)

/-- `strtol` base 10: the value and what `end` points to. Out of the range of `long` the C value is
clipped and `errno` set; the callers refuse both, and every value that large. -/
def strtol (s : CStr) : Option (ℤ × CStr) :=
  (scanNumber s).map fun (neg, ds, rest) =>
    (if neg then -(digitsValue ds : ℤ) else (digitsValue ds : ℤ), rest)

theorem strtol_digits {s : CStr} (hne : s ≠ []) (h : ∀ b ∈ s, isDigit b = true) :
    strtol s = some ((digitsValue s : ℤ), []) := by
  obtain ⟨c, r, rfl⟩ := List.exists_cons_of_ne_nil hne
  have hc := h c List.mem_cons_self
  have hspace : isSpace c = false := by
    unfold isDigit at hc
    unfold isSpace
    simp only [Bool.and_eq_true, decide_eq_true_eq, UInt8.le_iff_toNat_le] at hc
    have hlow : 48 ≤ c.toNat := hc.1
    simp only [Bool.or_eq_false_iff, Bool.and_eq_false_iff, beq_eq_false_iff_ne, decide_eq_false_iff_not,
      UInt8.le_iff_toNat_le]
    refine ⟨fun he => ?_, Or.inr fun hle => ?_⟩
    · rw [he] at hlow
      exact absurd hlow (by decide)
    · have hle : c.toNat ≤ 13 := hle
      omega
  have hminus : c ≠ 45 := fun he => by rw [he] at hc; exact absurd hc (by decide)
  have hplus : c ≠ 43 := fun he => by rw [he] at hc; exact absurd hc (by decide)
  have hskip : (c :: r).dropWhile isSpace = c :: r := by
    rw [List.dropWhile_cons_of_neg]
    simp [hspace]
  have htake : (c :: r).takeWhile isDigit = c :: r := List.takeWhile_eq_self_iff.mpr h
  have hdrop : (c :: r).dropWhile isDigit = [] := List.dropWhile_eq_nil_iff.mpr h
  have hscan : scanNumber (c :: r) = some (false, c :: r, []) := by
    unfold scanNumber
    simp only [hskip, hminus, hplus, if_false, htake, hdrop]
    rfl
  unfold strtol
  rw [hscan]
  rfl

theorem digitsValue_append_digit (s : CStr) {d : ℕ} (hd : d < 10) :
    digitsValue (s ++ [digit d]) = digitsValue s * 10 + d := by
  unfold digitsValue
  rw [List.foldl_append, List.foldl_cons, List.foldl_nil, digit_toNat hd]
  omega

theorem digitsValue_natText (n : ℕ) : digitsValue (natText n) = n := by
  induction n using Nat.strong_induction_on with
  | _ n ih =>
    rw [natText_eq]
    split
    · rename_i hn
      have h := digitsValue_append_digit [] hn
      rw [List.nil_append] at h
      rw [h]
      exact Nat.zero_add n
    · rw [digitsValue_append_digit _ (by omega), ih (n / 10) (by omega)]
      omega

theorem strtol_natText (n : ℕ) : strtol (natText n) = some ((n : ℤ), []) := by
  rw [strtol_digits (natText_ne_nil n) (natText_isDigit n), digitsValue_natText]

/-- A number that is read to its end is blanks, a sign and digits. -/
theorem scanNumber_bytes {s ds : CStr} {neg : Bool} (h : scanNumber s = some (neg, ds, [])) :
    ∀ b ∈ s, isSpace b = true ∨ b = 43 ∨ b = 45 ∨ isDigit b = true := by
  intro b hb
  have hparts : b ∈ s.takeWhile isSpace ∨ b ∈ s.dropWhile isSpace := by
    rw [← List.mem_append, List.takeWhile_append_dropWhile]
    exact hb
  rcases hparts with hb | hb
  · exact Or.inl (List.mem_takeWhile_imp hb)
  · unfold scanNumber at h
    generalize s.dropWhile isSpace = t at h hb
    have hdigits : ∀ x : Bool × CStr, (if x.2.takeWhile isDigit = [] then none
        else some (x.1, x.2.takeWhile isDigit, x.2.dropWhile isDigit)) = some (neg, ds, []) →
        ∀ b ∈ x.2, isDigit b = true := by
      intro x hx
      split at hx
      · cases hx
      · exact List.dropWhile_eq_nil_iff.mp (congrArg (fun x => x.2.2) (Option.some.inj hx))
    cases t with
    | nil => cases hb
    | cons c r =>
      have h := hdigits _ h
      dsimp only at h
      by_cases hminus : c = 45
      · rw [if_pos hminus] at h
        rcases List.mem_cons.mp hb with rfl | hb
        · exact Or.inr (Or.inr (Or.inl hminus))
        · exact Or.inr (Or.inr (Or.inr (h b hb)))
      · rw [if_neg hminus] at h
        by_cases hplus : c = 43
        · rw [if_pos hplus] at h
          rcases List.mem_cons.mp hb with rfl | hb
          · exact Or.inr (Or.inl hplus)
          · exact Or.inr (Or.inr (Or.inr (h b hb)))
        · rw [if_neg hplus] at h
          exact Or.inr (Or.inr (Or.inr (h b hb)))

theorem strtol_bytes {s : CStr} {v : ℤ} (h : strtol s = some (v, [])) :
    ∀ b ∈ s, isSpace b = true ∨ b = 43 ∨ b = 45 ∨ isDigit b = true := by
  unfold strtol at h
  obtain ⟨⟨neg, ds, rest⟩, hscan, hvalue⟩ := Option.map_eq_some_iff.mp h
  have hrest : rest = [] := congrArg Prod.snd hvalue
  rw [hrest] at hscan
  exact scanNumber_bytes hscan

/-- `strtoul` base 10: clipped at the largest value, a sign negates modulo `2^64`. -/
def strtoul (s : CStr) : Option (ℕ × CStr) :=
  (scanNumber s).map fun (neg, ds, rest) =>
    (if 2 ^ 64 ≤ digitsValue ds then 2 ^ 64 - 1
     else if neg then (2 ^ 64 - digitsValue ds) % 2 ^ 64 else digitsValue ds, rest)

example : strtol (ascii " -12x") = some (-12, ascii "x") := by decide

example : tokens isSpace (ascii " VER=2  MODE=AUTO ") = [ascii "VER=2", ascii "MODE=AUTO"] := by
  decide

end Camex.Lib
