import Camex.Lib.CString

/-!
# Addresses and option texts (`util.c`)

An IPv4 address is the number its four bytes spell, so `htonl` and `ntohl` are the identity here
and `ip_be` is an `Ip`. `inetPton` follows the C library's dotted-decimal parser, `ipText` is
`inet_ntop`; `inetPton_ipText` is their round trip, `inetPton_some` its converse, `cidrIp_text` the one of the
`address/prefix` texts the server builds.
-/

namespace Camex

open Lib

abbrev Ip := BitVec 32

/-- `time_t`; `difftime` is exact on it. -/
abbrev Time := ℤ

/-! ## Dotted decimal -/

/-- The state of `inet_pton`: octets begun, a digit of the last one seen, its value, and the octets
before it as one number. -/
structure PtonState where
  octets : ℕ
  sawDigit : Bool
  cur : ℕ
  done : ℕ
  deriving DecidableEq

def ptonStep (st : PtonState) (ch : UInt8) : Option PtonState :=
  if isDigit ch then
    let new := st.cur * 10 + (ch.toNat - 48)
    if st.sawDigit && st.cur == 0 then none
    else if 255 < new then none
    else if st.sawDigit then some { st with cur := new }
    else if 4 < st.octets + 1 then none
    else some { st with cur := new, octets := st.octets + 1, sawDigit := true }
  else if ch = 46 && st.sawDigit then
    if st.octets = 4 then none
    else some { st with done := st.done * 256 + st.cur, cur := 0, sawDigit := false }
  else none

/-- `inet_pton(AF_INET, ..)`. -/
def inetPton (s : CStr) : Option Ip :=
  match s.foldlM ptonStep ⟨0, false, 0, 0⟩ with
  | some st => if st.octets < 4 then none else some (BitVec.ofNat 32 (st.done * 256 + st.cur))
  | none => none

/-- `inet_ntop`, `ip_text()`. -/
def ipText (ip : Ip) : CStr :=
  natText (ip.toNat / 2 ^ 24) ++ 46 :: (natText (ip.toNat / 2 ^ 16 % 256) ++
    46 :: (natText (ip.toNat / 2 ^ 8 % 256) ++ 46 :: natText (ip.toNat % 256)))

theorem ptonStep_first {k d done : ℕ} (hk : k < 4) (hd : d < 10) :
    ptonStep ⟨k, false, 0, done⟩ (digit d) = some ⟨k + 1, true, d, done⟩ := by
  simp only [ptonStep, isDigit_digit hd, digit_toNat hd]
  have : ¬ 255 < d := by omega
  have : ¬ 4 < k + 1 := by omega
  simp_all

theorem ptonStep_more {k d v done : ℕ} (hv : v ≠ 0) (hd : d < 10) (h : v * 10 + d ≤ 255) :
    ptonStep ⟨k, true, v, done⟩ (digit d) = some ⟨k, true, v * 10 + d, done⟩ := by
  simp only [ptonStep, isDigit_digit hd, digit_toNat hd]
  have : ¬ 255 < v * 10 + d := by omega
  simp_all

theorem ptonStep_dot {k v done : ℕ} (hk : k < 4) :
    ptonStep ⟨k, true, v, done⟩ 46 = some ⟨k, false, 0, done * 256 + v⟩ := by
  have : k ≠ 4 := by omega
  simp [ptonStep, isDigit, this]

theorem foldlM_natText_octet {k b done : ℕ} (hk : k < 4) (hb : b < 256) :
    (natText b).foldlM ptonStep ⟨k, false, 0, done⟩ = some ⟨k + 1, true, b, done⟩ := by
  rw [natText_eq]
  split
  · rename_i h
    simp [ptonStep_first hk h]
  · rename_i h
    rw [natText_eq]
    split
    · rename_i h'
      simp only [List.singleton_append, List.foldlM_cons, List.foldlM_nil,
        ptonStep_first hk h', Option.bind_eq_bind, Option.bind_some]
      rw [ptonStep_more (by omega) (by omega) (by omega)]
      simp only [Option.bind_some, Option.pure_def, Option.some.injEq, PtonState.mk.injEq, true_and,
        and_true]
      omega
    · rename_i h'
      rw [natText_eq, if_pos (by omega : b / 10 / 10 < 10)]
      simp only [List.cons_append, List.nil_append, List.foldlM_cons, List.foldlM_nil,
        ptonStep_first hk (by omega : b / 10 / 10 < 10), Option.bind_eq_bind, Option.bind_some]
      rw [ptonStep_more (by omega) (by omega) (by omega)]
      simp only [Option.bind_some]
      rw [ptonStep_more (by omega) (by omega) (by omega)]
      simp only [Option.bind_some, Option.pure_def, Option.some.injEq, PtonState.mk.injEq, true_and,
        and_true]
      omega

theorem inetPton_ipText (ip : Ip) : inetPton (ipText ip) = some ip := by
  have hlt := ip.isLt
  unfold inetPton ipText
  simp only [List.foldlM_append, List.foldlM_cons, Option.bind_eq_bind, Option.bind_some,
    foldlM_natText_octet (by decide : 0 < 4) (by omega : ip.toNat / 2 ^ 24 < 256),
    ptonStep_dot (by decide : 0 + 1 < 4),
    foldlM_natText_octet (by decide : 0 + 1 < 4) (by omega : ip.toNat / 2 ^ 16 % 256 < 256),
    ptonStep_dot (by decide : 0 + 1 + 1 < 4),
    foldlM_natText_octet (by decide : 0 + 1 + 1 < 4) (by omega : ip.toNat / 2 ^ 8 % 256 < 256),
    ptonStep_dot (by decide : 0 + 1 + 1 + 1 < 4),
    foldlM_natText_octet (by decide : 0 + 1 + 1 + 1 < 4) (by omega : ip.toNat % 256 < 256)]
  simp only [Nat.reduceAdd, Nat.lt_irrefl, if_false, Option.some.injEq]
  apply BitVec.eq_of_toNat_eq
  rw [BitVec.toNat_ofNat, Nat.mod_eq_of_lt] <;> omega

/-! ## No other text -/

theorem digit_of_isDigit {b : UInt8} (h : isDigit b = true) : digit (b.toNat - 48) = b ∧ b.toNat - 48 < 10 := by
  unfold isDigit at h
  simp only [Bool.and_eq_true, decide_eq_true_eq, UInt8.le_iff_toNat_le] at h
  have h48 : (48 : UInt8).toNat = 48 := rfl
  have h57 : (57 : UInt8).toNat = 57 := rfl
  refine ⟨?_, by omega⟩
  unfold digit
  apply UInt8.toNat.inj
  rw [UInt8.toNat_ofNat']
  omega

def dotted (os : List ℕ) : CStr := os.flatMap fun o => natText o ++ [46]

/-- What `inet_pton` has read: `os` are the octets that are done. -/
structure PtonRead (t : CStr) (st : PtonState) (os : List ℕ) : Prop where
  text : t = dotted os ++ if st.sawDigit then natText st.cur else []
  octets : st.octets = os.length + if st.sawDigit then 1 else 0
  done : st.done = os.foldl (fun v o => v * 256 + o) 0
  small : ∀ o ∈ os, o < 256
  cur : st.cur < 256
  fresh : st.sawDigit = false → st.cur = 0 ∧ st.octets < 4
  most : st.octets ≤ 4

theorem PtonRead.step {t : CStr} {st st' : PtonState} {os : List ℕ} {b : UInt8} (h : PtonRead t st os)
    (hstep : ptonStep st b = some st') : ∃ os', PtonRead (t ++ [b]) st' os' := by
  obtain ⟨octets, saw, cur, done⟩ := st
  have ⟨htext, hoctets, hdone, hsmall, hcur, hfresh, hmost⟩ := h
  dsimp only at htext hoctets hdone hcur hfresh hmost
  unfold ptonStep at hstep
  dsimp only at hstep
  by_cases hdigit : isDigit b = true
  · obtain ⟨hb, hlt⟩ := digit_of_isDigit hdigit
    rw [if_pos hdigit] at hstep
    cases saw with
    | true =>
      simp only [Bool.true_and, beq_iff_eq, if_true] at hstep
      split at hstep
      · cases hstep
      · rename_i hne
        split at hstep
        · cases hstep
        · rename_i hle
          cases hstep
          refine ⟨os, ?_, hoctets, hdone, hsmall, by dsimp only; omega, nofun, hmost⟩
          have hnat : natText (cur * 10 + (b.toNat - 48)) = natText cur ++ [b] := by
            rw [natText_eq, if_neg (by omega), show (cur * 10 + (b.toNat - 48)) / 10 = cur by omega,
              show (cur * 10 + (b.toNat - 48)) % 10 = b.toNat - 48 by omega, hb]
          simp only [htext, if_true, hnat, List.append_assoc]
    | false =>
      obtain ⟨rfl, hlt4⟩ := hfresh rfl
      simp only [Bool.false_and, Bool.false_eq_true, if_false, Nat.zero_mul, Nat.zero_add] at hstep hoctets
      rw [if_neg (by omega), if_neg (by omega)] at hstep
      cases hstep
      refine ⟨os, ?_, by dsimp only; rw [if_pos rfl]; omega, hdone, hsmall, by dsimp only; omega, nofun,
        by dsimp only; omega⟩
      have hnat : natText (b.toNat - 48) = [b] := by rw [natText_eq, if_pos hlt, hb]
      simp only [htext, Bool.false_eq_true, if_false, List.append_nil, if_true, hnat]
  · rw [if_neg hdigit] at hstep
    split at hstep
    · rename_i hdot
      simp only [Bool.and_eq_true, decide_eq_true_eq] at hdot
      obtain ⟨rfl, rfl⟩ := hdot
      split at hstep
      · cases hstep
      · rename_i hne
        cases hstep
        simp only [if_true] at hoctets htext
        refine ⟨os ++ [cur], ?_, ?_, ?_, ?_, by dsimp only; omega, fun _ => ⟨rfl, by dsimp only; omega⟩,
          hmost⟩
        · simp [htext, dotted]
        · simp [hoctets]
        · simp [hdone]
        · intro o ho
          rcases List.mem_append.mp ho with ho | ho
          · exact hsmall o ho
          · rw [List.mem_singleton.mp ho]
            exact hcur
    · cases hstep

theorem PtonRead.run {s t : CStr} {st st' : PtonState} {os : List ℕ} (h : PtonRead t st os)
    (hrun : s.foldlM ptonStep st = some st') : ∃ os', PtonRead (t ++ s) st' os' := by
  induction s generalizing t st os with
  | nil =>
    cases hrun
    exact ⟨os, by rwa [List.append_nil]⟩
  | cons b s ih =>
    rw [List.foldlM_cons] at hrun
    obtain ⟨st₁, hstep, hrest⟩ := Option.bind_eq_some_iff.mp hrun
    obtain ⟨os₁, h₁⟩ := h.step hstep
    rw [List.append_cons]
    exact ih h₁ hrest

/-- **`inet_pton` accepts no other text of an address** than the one `inet_ntop` gives. -/
theorem inetPton_some {s : CStr} {ip : Ip} (h : inetPton s = some ip) : s = ipText ip := by
  unfold inetPton at h
  split at h
  · rename_i st hrun
    split at h
    · cases h
    · rename_i hfour
      have h0 : PtonRead [] ⟨0, false, 0, 0⟩ [] :=
        ⟨rfl, rfl, rfl, nofun, by decide, fun _ => ⟨rfl, by decide⟩, by decide⟩
      obtain ⟨os, hread⟩ := h0.run hrun
      have hsaw : st.sawDigit = true := by
        by_contra hno
        have := (hread.fresh (by simpa using hno)).2
        omega
      have hoctets := hread.octets
      have hmost := hread.most
      rw [if_pos hsaw] at hoctets
      obtain ⟨a, b, c, rfl⟩ : ∃ a b c, os = [a, b, c] := List.length_eq_three.mp (by omega)
      have hcur := hread.cur
      have ha := hread.small a (by simp)
      have hb := hread.small b (by simp)
      have hc := hread.small c (by simp)
      have hdone : st.done = (a * 256 + b) * 256 + c := by
        rw [hread.done]
        simp
      have hval : ip.toNat = ((a * 256 + b) * 256 + c) * 256 + st.cur := by
        rw [← Option.some.inj h, BitVec.toNat_ofNat, Nat.mod_eq_of_lt (by omega), hdone]
      have htext := hread.text
      rw [List.nil_append, if_pos hsaw] at htext
      unfold ipText
      rw [htext, hval, show (((a * 256 + b) * 256 + c) * 256 + st.cur) / 2 ^ 24 = a by omega,
        show (((a * 256 + b) * 256 + c) * 256 + st.cur) / 2 ^ 16 % 256 = b by omega,
        show (((a * 256 + b) * 256 + c) * 256 + st.cur) / 2 ^ 8 % 256 = c by omega,
        show (((a * 256 + b) * 256 + c) * 256 + st.cur) % 256 = st.cur by omega]
      simp [dotted]
  · cases h

/-! ## Option texts -/

/-- `copy_option`: refused when empty or too long for `dest`. -/
def copyOption (size : ℕ) (value : CStr) : Option CStr :=
  if value = [] ∨ size ≤ value.length then none else some value

/-- `token_value`: the value behind `key=`. -/
def tokenValue (key : CStr) (valueSize : ℕ) (token : CStr) : Option CStr :=
  if (key ++ [61]).isPrefixOf token then copyOption valueSize (token.drop (key.length + 1)) else none

/-- `parse_local_cidr`: the address text and the netmask. -/
def parseLocalCidr (cidr : CStr) : Option (CStr × Ip) :=
  if cidr = [] ∨ 32 ≤ cidr.length then none
  else
    match afterByte 47 cidr with
    | none => none
    | some rest =>
      let buffer := beforeByte 47 cidr
      if buffer = [] ∨ rest = [] then none
      else
        match inetPton buffer with
        | none => none
        | some _ =>
          match strtol rest with
          | some (prefixLen, []) =>
            if prefixLen < 0 ∨ 32 < prefixLen then none
            else
              let mask : Ip := if prefixLen = 0 then 0 else
                BitVec.allOnes 32 <<< (32 - prefixLen.toNat)
              if 16 ≤ buffer.length then none else some (buffer, mask)
          | _ => none

/-- The address of a `local_cidr`, as the server reads it: `parse_local_cidr` and `inet_pton`. -/
def cidrIp (cidr : CStr) : Option Ip :=
  match parseLocalCidr cidr with
  | some (ip, _) => inetPton ip
  | none => none

/-! ## The texts the server builds -/

/-- An address text is digits and dots, at most 15 of them. -/
theorem ipText_shape (ip : Ip) :
    (ipText ip).length ≤ 15 ∧ ipText ip ≠ [] ∧ ∀ b ∈ ipText ip, isDigit b = true ∨ b = 46 := by
  have hlt : ip.toNat < 2 ^ 32 := ip.isLt
  have hlen : ∀ v, v < 256 → (natText v).length ≤ 3 := fun v hv =>
    natText_length (by decide) (by omega)
  have h₁ := hlen (ip.toNat / 2 ^ 24) (by omega)
  have h₂ := hlen (ip.toNat / 2 ^ 16 % 256) (by omega)
  have h₃ := hlen (ip.toNat / 2 ^ 8 % 256) (by omega)
  have h₄ := hlen (ip.toNat % 256) (by omega)
  refine ⟨?_, by simp [ipText], fun b hb => ?_⟩
  · simp only [ipText, List.length_append, List.length_cons]
    omega
  · simp only [ipText, List.mem_append, List.mem_cons] at hb
    rcases hb with hb | hb | hb | hb | hb | hb | hb
    all_goals first
      | exact Or.inr hb
      | exact Or.inl (natText_isDigit _ b hb)

theorem beforeByte_append {b : UInt8} {s : CStr} (hs : b ∉ s) (t : CStr) :
    beforeByte b (s ++ b :: t) = s ∧ afterByte b (s ++ b :: t) = some t := by
  induction s with
  | nil => simp [beforeByte, afterByte]
  | cons c s ih =>
    rw [List.mem_cons, not_or] at hs
    obtain ⟨h₁, h₂⟩ := ih hs.2
    have hc : c ≠ b := Ne.symm hs.1
    refine ⟨?_, ?_⟩
    · unfold beforeByte at h₁ ⊢
      rw [List.cons_append, List.takeWhile_cons_of_pos (by simpa using hc), h₁]
    · rw [List.cons_append, afterByte, if_neg hc, h₂]

theorem strtol_prefix : ∀ k < 33, strtol (natText k) = some ((k : ℤ), []) := by decide

/-- **The address of a text `address/prefix`** is the one it was made from. -/
theorem cidrIp_text (ip : Ip) {k : ℕ} (hk : k ≤ 32) : cidrIp (ipText ip ++ 47 :: natText k) = some ip := by
  obtain ⟨hlen, hne, hchars⟩ := ipText_shape ip
  have hslash : (47 : UInt8) ∉ ipText ip := fun h => by
    rcases hchars 47 h with h | h <;> exact absurd h (by decide)
  obtain ⟨hbefore, hafter⟩ := beforeByte_append hslash (natText k)
  have hklen := natText_length (k := 2) (n := k) (by decide) (by omega)
  have hfits : ¬ (ipText ip ++ 47 :: natText k = [] ∨ 32 ≤ (ipText ip ++ 47 :: natText k).length) := by
    simp only [List.append_eq_nil_iff, reduceCtorEq, and_false, false_or, List.length_append,
      List.length_cons]
    omega
  have hparse : ∃ mask, parseLocalCidr (ipText ip ++ 47 :: natText k) = some (ipText ip, mask) := by
    unfold parseLocalCidr
    rw [if_neg hfits, hafter, hbefore]
    dsimp only
    rw [if_neg (by simp [hne, natText_ne_nil]), inetPton_ipText, strtol_prefix k (by omega)]
    dsimp only
    rw [if_neg (by omega), if_neg (by omega)]
    exact ⟨_, rfl⟩
  obtain ⟨mask, hmask⟩ := hparse
  unfold cidrIp
  rw [hmask]
  exact inetPton_ipText ip

end Camex
