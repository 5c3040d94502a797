import Camex.Keys
import Camex.Safety.ConnectAlike

/-!
# Keys in base64

* `Padded`: characters of base64 with up to two `=` at the end, `base64Bytes` what they are;
* `keyBase64DecodeFrom_padded`, `keyBase64DecodeFrom_refused`: the loop of the decoder over a text;
* `keyBase64Groups_padded`: what the encoder makes;
* `keyParseB64_iff`: the texts of keys, `ascii_texts`: one text in C and in Java;
* `base64Keys_right`: the round trip, what is accepted, and the keys of the app.
-/

namespace Camex

open Lib ConnectPage

/-! ## Characters -/

/-- `[A-Za-z0-9+/]`, of a byte. -/
def isSextet (b : UInt8) : Bool := isBase64 b.toUInt16

theorem b64Value_table (b : UInt8) :
    (isSextet b = true → b64Value b = sextet b.toUInt16) ∧ (isSextet b = false → b64Value b = -1) := by
  have hall : ∀ k : Fin 256, (isSextet (UInt8.ofNat k) = true → b64Value (UInt8.ofNat k) =
      sextet (UInt8.ofNat k).toUInt16) ∧ (isSextet (UInt8.ofNat k) = false → b64Value (UInt8.ofNat k) = -1) := by
    decide +kernel
  have hb := hall ⟨b.toNat, b.toNat_lt⟩
  rwa [UInt8.ofNat_toNat] at hb

theorem b64Char_table (v : ℕ) : isSextet (b64Char v) = true ∧ sextet (b64Char v).toUInt16 = v % 64 := by
  have hall : ∀ k : Fin 64, isSextet (b64Chars.getD k 0) = true ∧ sextet (b64Chars.getD k 0).toUInt16 = k := by
    decide +kernel
  have hmask : v &&& 0x3f = v % 64 := Nat.and_two_pow_sub_one_eq_mod v 6
  unfold b64Char
  rw [hmask]
  exact hall ⟨v % 64, Nat.mod_lt v (by decide)⟩

theorem isSextet_spec {b : UInt8} (h : isSextet b = true) :
    b64Value b = sextet b.toUInt16 ∧ sextet b.toUInt16 < 64 ∧ b ≠ 61 := by
  obtain ⟨hlt, hne⟩ := isBase64_sextet h
  refine ⟨(b64Value_table b).1 h, hlt, ?_⟩
  rintro rfl
  exact hne rfl

theorem b64Value_neg {b : UInt8} (h : isSextet b ≠ true) : b64Value b = -1 :=
  (b64Value_table b).2 (Bool.eq_false_iff.mpr h)

/-! ## Texts -/

/-- Characters of base64, then up to two `=`. -/
def Padded (s : CStr) : Prop :=
  ∃ body pad, pad ≤ 2 ∧ s = body ++ List.replicate pad 61 ∧ ∀ b ∈ body, isSextet b = true

def unpadded (s : CStr) : Utf16 := (s.filter (· ≠ 61)).map (·.toUInt16)

def base64Bytes (s : CStr) : Bytes := atobGroups (unpadded s)

theorem padded_cons {a : UInt8} {s : CStr} (hs : 2 ≤ s.length) : Padded (a :: s) ↔ isSextet a = true ∧ Padded s := by
  constructor
  · rintro ⟨body, pad, hpad, heq, hbody⟩
    cases body with
    | nil =>
      have hlen := congrArg List.length heq
      simp at hlen
      omega
    | cons x body =>
      obtain ⟨rfl, rfl⟩ := List.cons.inj heq
      exact ⟨hbody _ List.mem_cons_self, body, pad, hpad, rfl, fun b hb => hbody b (List.mem_cons_of_mem _ hb)⟩
  · rintro ⟨ha, body, pad, hpad, rfl, hbody⟩
    exact ⟨a :: body, pad, hpad, rfl, List.forall_mem_cons.mpr ⟨ha, hbody⟩⟩

theorem padded_two {c d : UInt8} : Padded [c, d] ↔
    isSextet c = true ∧ (isSextet d = true ∨ d = 61) ∨ c = 61 ∧ d = 61 := by
  constructor
  · rintro ⟨body, pad, -, heq, hbody⟩
    cases body with
    | nil =>
      have hmem : ∀ x ∈ [c, d], x = 61 := by
        rw [heq]
        exact fun x hx => List.eq_of_mem_replicate hx
      exact Or.inr ⟨hmem c (by simp), hmem d (by simp)⟩
    | cons x body =>
      obtain ⟨rfl, htail⟩ := List.cons.inj heq
      refine Or.inl ⟨hbody _ List.mem_cons_self, ?_⟩
      cases body with
      | nil =>
        have hmem : d ∈ List.replicate pad 61 := by
          have htail' : [d] = List.replicate pad 61 := htail
          rw [← htail']
          exact List.mem_singleton.mpr rfl
        exact Or.inr (List.eq_of_mem_replicate hmem)
      | cons y body =>
        obtain ⟨rfl, -⟩ := List.cons.inj htail
        exact Or.inl (hbody _ (List.mem_cons_of_mem _ List.mem_cons_self))
  · rintro (⟨hc, hd | rfl⟩ | ⟨rfl, rfl⟩)
    · exact ⟨[c, d], 0, by decide, rfl, by simp [hc, hd]⟩
    · exact ⟨[c], 1, by decide, rfl, by simp [hc]⟩
    · exact ⟨[], 2, by decide, rfl, by simp⟩

theorem unpadded_cons {a : UInt8} (ha : isSextet a = true) (s : CStr) :
    unpadded (a :: s) = a.toUInt16 :: unpadded s := by
  unfold unpadded
  rw [List.filter_cons_of_pos (by simpa using (isSextet_spec ha).2.2), List.map_cons]

theorem unpadded_pad (s : CStr) : unpadded (61 :: s) = unpadded s := by
  unfold unpadded
  rw [List.filter_cons_of_neg (by decide)]

theorem atobGroups_length (l : Utf16) : (atobGroups l).length = l.length * 3 / 4 := by
  fun_induction atobGroups l with
  | case1 a b c d s ih =>
    simp only [List.length_cons, ih]
    omega
  | case2 => simp
  | case3 => simp
  | case4 l h₁ h₂ h₃ =>
    rcases l with _ | ⟨a, _ | ⟨b, _ | ⟨c, _ | ⟨d, s⟩⟩⟩⟩
    · rfl
    · simp
    · exact (h₃ a b rfl).elim
    · exact (h₂ a b c rfl).elim
    · exact (h₁ a b c d s rfl).elim

theorem base64Bytes_length {s : CStr} (hpadded : Padded s) (hlen : s.length % 4 = 0) :
    (base64Bytes s).length = s.length / 4 * 3 - s.count 61 := by
  obtain ⟨body, pad, hpad, rfl, hbody⟩ := hpadded
  have hnone : body.count 61 = 0 := by
    rw [List.count_eq_zero]
    exact fun h => (isSextet_spec (hbody _ h)).2.2 rfl
  have hunpadded : unpadded (body ++ List.replicate pad 61) = body.map (·.toUInt16) := by
    unfold unpadded
    rw [List.filter_append, List.filter_eq_self.mpr fun b hb => by simpa using (isSextet_spec (hbody b hb)).2.2,
      List.filter_eq_nil_iff.mpr fun b hb => by simpa using List.eq_of_mem_replicate hb, List.append_nil]
  unfold base64Bytes
  rw [hunpadded, atobGroups_length, List.length_map, List.count_append, hnone, List.count_replicate_self]
  rw [List.length_append, List.length_replicate] at hlen ⊢
  omega

/-! ## The decoder -/

theorem putBytes_eq {n : ℕ} {out : Bytes} (h : out.length ≤ n) (bs : Bytes) :
    putBytes n out bs = ((out ++ bs).take n, decide (out.length + bs.length ≤ n)) := by
  induction bs generalizing out with
  | nil =>
    unfold putBytes
    rw [List.append_nil, List.take_of_length_le h, decide_eq_true (by simpa using h)]
  | cons b bs ih =>
    unfold putBytes
    by_cases hfull : n ≤ out.length
    · have hlen : out.length = n := by omega
      rw [if_pos hfull, List.take_left' hlen, decide_eq_false (by simp only [List.length_cons]; omega)]
    · rw [if_neg hfull, ih (by simp; omega)]
      simp [Nat.add_comm, Nat.add_left_comm]

def storeGroup (n : ℕ) (bs : Bytes) (rest : CStr) (out : Bytes) : Option ℕ × Bytes :=
  if out.length + bs.length ≤ n then keyBase64DecodeFrom n rest (out ++ bs) else (none, (out ++ bs).take n)

theorem storeGroup_eq {n : ℕ} {out : Bytes} (h : out.length ≤ n) (bs : Bytes) (rest : CStr) :
    (if (putBytes n out bs).2 then keyBase64DecodeFrom n rest (putBytes n out bs).1 else (none, (putBytes n out bs).1)) =
      storeGroup n bs rest out := by
  rw [putBytes_eq h]
  unfold storeGroup
  dsimp only
  by_cases hfits : out.length + bs.length ≤ n
  · rw [decide_eq_true hfits, if_pos rfl, if_pos hfits, List.take_of_length_le (by simpa using hfits)]
  · rw [decide_eq_false hfits, if_neg Bool.false_ne_true, if_neg hfits]

theorem groupBytes_full {a b c d : ℕ} (hb : b < 64) (hc : c < 64) (hd : d < 64) :
    groupBytes a b c d =
      [UInt8.ofNat (a * 4 + b / 16), UInt8.ofNat (b * 16 + c / 4), UInt8.ofNat (c * 64 + d)] := by
  have hcd : c <<< 6 ||| d = c * 2 ^ 6 + d := by
    rw [← Nat.shiftLeft_add_eq_or_of_lt (show d < 2 ^ 6 from hd), Nat.shiftLeft_eq]
  have hbcd : b <<< 12 ||| (c <<< 6 ||| d) = b * 2 ^ 12 + (c * 2 ^ 6 + d) := by
    rw [hcd, ← Nat.shiftLeft_add_eq_or_of_lt (show c * 2 ^ 6 + d < 2 ^ 12 by omega), Nat.shiftLeft_eq]
  have hv : a <<< 18 ||| b <<< 12 ||| c <<< 6 ||| d = a * 2 ^ 18 + (b * 2 ^ 12 + (c * 2 ^ 6 + d)) := by
    rw [Nat.or_assoc, Nat.or_assoc, hbcd,
      ← Nat.shiftLeft_add_eq_or_of_lt (show b * 2 ^ 12 + (c * 2 ^ 6 + d) < 2 ^ 18 by omega), Nat.shiftLeft_eq]
  unfold groupBytes
  simp only [Int.toNat_natCast, hv, Nat.shiftRight_eq_div_pow, Int.natCast_nonneg, if_true]
  refine congrArg₂ _ (ofNat_congr ?_) (congrArg₂ _ (ofNat_congr ?_) (congrArg₂ _ (ofNat_congr ?_) rfl)) <;> omega

theorem groupBytes_two {a b c : ℕ} (hb : b < 64) (hc : c < 64) :
    groupBytes a b c (-2) = [UInt8.ofNat (a * 4 + b / 16), UInt8.ofNat (b * 16 + c / 4)] := by
  have htake : groupBytes a b c (-2) = (groupBytes a b c (0 : ℕ)).take 2 := by simp [groupBytes]
  rw [htake, groupBytes_full hb hc (by decide)]
  rfl

theorem groupBytes_one {a b : ℕ} (hb : b < 64) : groupBytes a b (-2) (-2) = [UInt8.ofNat (a * 4 + b / 16)] := by
  have htake : groupBytes a b (-2) (-2) = (groupBytes a b (0 : ℕ) (0 : ℕ)).take 1 := by simp [groupBytes]
  rw [htake, groupBytes_full hb (by decide) (by decide)]
  rfl

/-- The third character and the fourth may be a `=`, in the last group. -/
structure GoodGroup (a b c d : UInt8) (rest : CStr) : Prop where
  first : isSextet a = true
  second : isSextet b = true
  third : isSextet c = true ∨ c = 61
  fourth : isSextet d = true ∨ d = 61
  order : c = 61 → d = 61
  last : d = 61 → rest = []

theorem keyBase64DecodeFrom_group {a b c d : UInt8} {rest : CStr} (h : GoodGroup a b c d rest) {n : ℕ} {out : Bytes}
    (hout : out.length ≤ n) :
    keyBase64DecodeFrom n (a :: b :: c :: d :: rest) out = storeGroup n (base64Bytes [a, b, c, d]) rest out := by
  obtain ⟨ha, hat, -⟩ := isSextet_spec h.first
  obtain ⟨hb, hbt, -⟩ := isSextet_spec h.second
  have hlast := h.last
  unfold keyBase64DecodeFrom base64Bytes
  dsimp only
  rw [ha, hb, unpadded_cons h.first, unpadded_cons h.second]
  rcases h.third with hc | rfl
  · obtain ⟨hcv, hct, hcne⟩ := isSextet_spec hc
    rw [if_neg hcne, hcv, unpadded_cons hc]
    rcases h.fourth with hd | rfl
    · obtain ⟨hdv, hdt, hdne⟩ := isSextet_spec hd
      rw [if_neg hdne, hdv, unpadded_cons hd, if_neg (by omega), storeGroup_eq hout, groupBytes_full hbt hct hdt]
      rfl
    · rw [if_pos rfl, unpadded_pad, if_neg (by simp [hlast rfl]), storeGroup_eq hout, groupBytes_two hbt hct]
      rfl
  · have hd := h.order rfl
    subst hd
    rw [if_pos rfl, unpadded_pad, unpadded_pad, if_neg (by simp [hlast rfl]), storeGroup_eq hout,
      groupBytes_one hbt]
    rfl

theorem keyBase64DecodeFrom_bad {a b c d : UInt8} {rest : CStr} (h : ¬ GoodGroup a b c d rest) (n : ℕ) (out : Bytes) :
    keyBase64DecodeFrom n (a :: b :: c :: d :: rest) out = (none, out) := by
  unfold keyBase64DecodeFrom
  dsimp only
  refine if_pos ?_
  by_contra hgood
  simp only [not_or, not_and] at hgood
  obtain ⟨ha, hb, hc, hd, horder, hrest⟩ := hgood
  have hsextet : ∀ x : UInt8, b64Value x ≠ -1 → isSextet x = true := by
    intro x hx
    by_contra hno
    exact hx (b64Value_neg hno)
  have hchar : ∀ x : UInt8, (if x = 61 then (-2 : ℤ) else b64Value x) ≠ -1 → isSextet x = true ∨ x = 61 := by
    intro x hx
    by_cases heq : x = 61
    · exact Or.inr heq
    · rw [if_neg heq] at hx
      exact Or.inl (hsextet x hx)
  have hpad : ∀ x : UInt8, (if x = 61 then (-2 : ℤ) else b64Value x) = -2 ↔ x = 61 := by
    intro x
    refine ⟨fun hx => ?_, fun hx => if_pos hx⟩
    by_contra heq
    rw [if_neg heq] at hx
    by_cases hs : isSextet x = true
    · have := (isSextet_spec hs).1
      omega
    · rw [b64Value_neg hs] at hx
      cases hx
  rw [hpad, not_ne_iff, hpad] at horder
  rw [hpad, hpad, not_ne_iff] at hrest
  exact h ⟨hsextet a (by omega), hsextet b (by omega), hchar c hc, hchar d hd, horder, fun hd => hrest (Or.inr hd)⟩

theorem padded_group {a b c d : UInt8} {rest : CStr} (hlen : rest.length % 4 = 0) :
    Padded (a :: b :: c :: d :: rest) ↔ GoodGroup a b c d rest ∧ (rest = [] ∨ Padded rest) := by
  cases rest with
  | nil =>
    rw [padded_cons (by simp), padded_cons (by simp), padded_two]
    constructor
    · rintro ⟨ha, hb, ⟨hc, hd⟩ | ⟨rfl, rfl⟩⟩
      · exact ⟨⟨ha, hb, Or.inl hc, hd, fun h => absurd h (isSextet_spec hc).2.2, fun _ => rfl⟩, Or.inl rfl⟩
      · exact ⟨⟨ha, hb, Or.inr rfl, Or.inr rfl, fun _ => rfl, fun _ => rfl⟩, Or.inl rfl⟩
    · rintro ⟨h, -⟩
      refine ⟨h.first, h.second, ?_⟩
      rcases h.third with hc | hc
      · exact Or.inl ⟨hc, h.fourth⟩
      · exact Or.inr ⟨hc, h.order hc⟩
  | cons e rest =>
    have hrest : 4 ≤ (e :: rest).length := by
      rw [List.length_cons] at hlen ⊢
      omega
    rw [padded_cons (by simp only [List.length_cons]; omega), padded_cons (by simp only [List.length_cons]; omega),
      padded_cons (by simp only [List.length_cons]; omega), padded_cons (by omega)]
    constructor
    · rintro ⟨ha, hb, hc, hd, hpadded⟩
      exact ⟨⟨ha, hb, Or.inl hc, Or.inl hd, fun h => absurd h (isSextet_spec hc).2.2,
        fun h => absurd h (isSextet_spec hd).2.2⟩, Or.inr hpadded⟩
    · rintro ⟨h, hpadded⟩
      have hd : d ≠ 61 := fun hd => List.cons_ne_nil _ _ (h.last hd)
      exact ⟨h.first, h.second, h.third.resolve_right fun hc => hd (h.order hc), h.fourth.resolve_right hd,
        hpadded.resolve_left (List.cons_ne_nil _ _)⟩

theorem base64Bytes_group {a b c d : UInt8} {rest : CStr} (h : GoodGroup a b c d rest) :
    base64Bytes (a :: b :: c :: d :: rest) = base64Bytes [a, b, c, d] ++ base64Bytes rest := by
  by_cases hd : d = 61
  · rw [h.last hd]
    exact (List.append_nil _).symm
  · have hc : isSextet c = true := h.third.resolve_right fun hc => hd (h.order hc)
    have hd' : isSextet d = true := h.fourth.resolve_right hd
    unfold base64Bytes
    rw [unpadded_cons h.first, unpadded_cons h.second, unpadded_cons hc, unpadded_cons hd', unpadded_cons h.first,
      unpadded_cons h.second, unpadded_cons hc, unpadded_cons hd']
    rfl

/-- Texts of whole groups. -/
theorem groups_induction {P : CStr → Prop} (nil : P [])
    (group : ∀ a b c d rest, rest.length % 4 = 0 → P rest → P (a :: b :: c :: d :: rest)) :
    ∀ (m : ℕ) (s : CStr), s.length = 4 * m → P s := by
  intro m
  induction m with
  | zero =>
    intro s hs
    rw [List.length_eq_zero_iff.mp hs]
    exact nil
  | succ m ih =>
    intro s hs
    rcases s with _ | ⟨a, _ | ⟨b, _ | ⟨c, _ | ⟨d, rest⟩⟩⟩⟩
    · cases hs
    · simp at hs; omega
    · simp at hs; omega
    · simp at hs; omega
    · have hrest : rest.length = 4 * m := by
        simp only [List.length_cons] at hs
        omega
      exact group a b c d rest (by omega) (ih rest hrest)

/-- What the loop answers: a text is stored as far as there is room for it, anything else is refused. -/
structure Decodes (n : ℕ) (s : CStr) (out : Bytes) : Prop where
  padded : s = [] ∨ Padded s → keyBase64DecodeFrom n s out =
    (if out.length + (base64Bytes s).length ≤ n then some (out.length + (base64Bytes s).length) else none,
      (out ++ base64Bytes s).take n)
  refused : ¬ (s = [] ∨ Padded s) → (keyBase64DecodeFrom n s out).1 = none
  bounded : (keyBase64DecodeFrom n s out).2.length ≤ n

theorem decodes {n m : ℕ} {s : CStr} (hs : s.length = 4 * m) {out : Bytes} (hout : out.length ≤ n) :
    Decodes n s out := by
  refine @groups_induction (fun s => ∀ {out : Bytes}, out.length ≤ n → Decodes n s out) ?_ ?_ m s hs out hout
  · intro out hout
    have hnil : keyBase64DecodeFrom n [] out = (some out.length, out) := rfl
    refine ⟨fun _ => ?_, fun hno => absurd (Or.inl rfl) hno, hout⟩
    have hbytes : base64Bytes [] = [] := rfl
    rw [hnil, hbytes, List.append_nil, List.take_of_length_le hout, List.length_nil, Nat.add_zero, if_pos hout]
  · intro a b c d rest hrest ih out hout
    by_cases hgood : GoodGroup a b c d rest
    · have hlen : (out ++ base64Bytes [a, b, c, d]).length = out.length + (base64Bytes [a, b, c, d]).length :=
        List.length_append
      have hbytes := base64Bytes_group hgood
      have hstep : keyBase64DecodeFrom n (a :: b :: c :: d :: rest) out = storeGroup n (base64Bytes [a, b, c, d]) rest out :=
        keyBase64DecodeFrom_group hgood hout
      unfold storeGroup at hstep
      by_cases hfits : out.length + (base64Bytes [a, b, c, d]).length ≤ n
      · have htail := @ih (out ++ base64Bytes [a, b, c, d]) (by rw [hlen]; exact hfits)
        rw [if_pos hfits] at hstep
        constructor
        · intro hpadded
          have hrest' : rest = [] ∨ Padded rest := by
            rcases hpadded with h | h
            · cases h
            · exact ((padded_group hrest).mp h).2
          rw [hstep, htail.padded hrest', hbytes, hlen, List.length_append, List.append_assoc, Nat.add_assoc]
        · intro hno
          rw [hstep]
          refine htail.refused fun h => hno (Or.inr ((padded_group hrest).mpr ⟨hgood, h⟩))
        · rw [hstep]
          exact htail.bounded
      · rw [if_neg hfits] at hstep
        constructor
        · intro _
          rw [hstep, hbytes, if_neg (by rw [List.length_append]; omega), ← List.append_assoc,
            @List.take_append_of_le_length _ (out ++ base64Bytes [a, b, c, d]) (base64Bytes rest) n
              (by rw [hlen]; omega)]
        · intro _
          rw [hstep]
        · rw [hstep]
          exact List.length_take_le _ _
    · have hstep : keyBase64DecodeFrom n (a :: b :: c :: d :: rest) out = (none, out) :=
        keyBase64DecodeFrom_bad hgood n out
      constructor
      · intro hpadded
        rcases hpadded with h | h
        · cases h
        · exact absurd ((padded_group hrest).mp h).1 hgood
      · intro _
        rw [hstep]
      · rw [hstep]
        exact hout

def Base64Text (s : CStr) : Prop := s ≠ [] ∧ s.length % 4 = 0 ∧ Padded s

/-- **What is accepted.** -/
theorem keyBase64Decode_eq {s : CStr} (h : Base64Text s) (n : ℕ) : keyBase64Decode s n =
    (if (base64Bytes s).length ≤ n then some (base64Bytes s).length else none, (base64Bytes s).take n) := by
  obtain ⟨hne, hlen, hpadded⟩ := h
  have hpos : s.length ≠ 0 := fun h0 => hne (List.length_eq_zero_iff.mp h0)
  have hdecodes := @decodes n (s.length / 4) s (by omega) [] (Nat.zero_le _)
  unfold keyBase64Decode
  rw [if_neg (by omega), hdecodes.padded (Or.inr hpadded)]
  simp

theorem keyBase64Decode_refused {s : CStr} (h : ¬ Base64Text s) (n : ℕ) : (keyBase64Decode s n).1 = none := by
  unfold keyBase64Decode
  split
  · rfl
  · rename_i hlen
    have hdecodes := @decodes n (s.length / 4) s (by omega) [] (Nat.zero_le _)
    have hne : s ≠ [] := fun hnil => hlen (Or.inl (by rw [hnil]; rfl))
    refine hdecodes.refused fun hpadded => h ⟨hne, by omega, hpadded.resolve_left hne⟩

theorem keyBase64Decode_bounded (s : CStr) (n : ℕ) : (keyBase64Decode s n).2.length ≤ n := by
  unfold keyBase64Decode
  split
  · exact Nat.zero_le _
  · exact (@decodes n (s.length / 4) s (by omega) [] (Nat.zero_le _)).bounded

/-! ## The encoder -/

theorem packed (a b c : UInt8) :
    a.toNat <<< 16 ||| b.toNat <<< 8 ||| c.toNat = a.toNat * 2 ^ 16 + (b.toNat * 2 ^ 8 + c.toNat) := by
  have hb := b.toNat_lt
  have hc := c.toNat_lt
  have hlow : b.toNat <<< 8 ||| c.toNat = b.toNat * 2 ^ 8 + c.toNat := by
    rw [← Nat.shiftLeft_add_eq_or_of_lt hc, Nat.shiftLeft_eq]
  rw [Nat.or_assoc, hlow, ← Nat.shiftLeft_add_eq_or_of_lt (show b.toNat * 2 ^ 8 + c.toNat < 2 ^ 16 by omega),
    Nat.shiftLeft_eq]

theorem ofNat_modByte {x : ℕ} {b : UInt8} (h : x % 256 = b.toNat) : UInt8.ofNat x = b := by
  apply UInt8.toNat.inj
  simpa using h

/-- Four characters of a number of three bytes. -/
theorem encoded_full (a b c : UInt8) {v : ℕ} (hv : v = a.toNat * 2 ^ 16 + (b.toNat * 2 ^ 8 + c.toNat)) :
    base64Bytes [b64Char (v >>> 18), b64Char (v >>> 12), b64Char (v >>> 6), b64Char v] = [a, b, c] := by
  have ha := a.toNat_lt
  have hb := b.toNat_lt
  have hc := c.toNat_lt
  unfold base64Bytes
  rw [unpadded_cons (b64Char_table _).1, unpadded_cons (b64Char_table _).1, unpadded_cons (b64Char_table _).1,
    unpadded_cons (b64Char_table _).1]
  unfold atobGroups
  rw [(b64Char_table _).2, (b64Char_table _).2, (b64Char_table _).2, (b64Char_table _).2]
  simp only [Nat.shiftRight_eq_div_pow]
  refine congrArg₂ _ (ofNat_modByte ?_) (congrArg₂ _ (ofNat_modByte ?_) (congrArg₂ _ (ofNat_modByte ?_) rfl)) <;> omega

theorem encoded_two (a b : UInt8) {v : ℕ} (hv : v = a.toNat * 2 ^ 16 + b.toNat * 2 ^ 8) :
    base64Bytes [b64Char (v >>> 18), b64Char (v >>> 12), b64Char (v >>> 6), 61] = [a, b] := by
  have ha := a.toNat_lt
  have hb := b.toNat_lt
  unfold base64Bytes
  rw [unpadded_cons (b64Char_table _).1, unpadded_cons (b64Char_table _).1, unpadded_cons (b64Char_table _).1,
    unpadded_pad]
  change atobGroups [_, _, _] = _
  unfold atobGroups
  rw [(b64Char_table _).2, (b64Char_table _).2, (b64Char_table _).2]
  simp only [Nat.shiftRight_eq_div_pow]
  refine congrArg₂ _ (ofNat_modByte ?_) (congrArg₂ _ (ofNat_modByte ?_) rfl) <;> omega

theorem encoded_one (a : UInt8) {v : ℕ} (hv : v = a.toNat * 2 ^ 16) :
    base64Bytes [b64Char (v >>> 18), b64Char (v >>> 12), 61, 61] = [a] := by
  have ha := a.toNat_lt
  unfold base64Bytes
  rw [unpadded_cons (b64Char_table _).1, unpadded_cons (b64Char_table _).1, unpadded_pad, unpadded_pad]
  change atobGroups [_, _] = _
  unfold atobGroups
  rw [(b64Char_table _).2, (b64Char_table _).2]
  simp only [Nat.shiftRight_eq_div_pow]
  refine congrArg₂ _ (ofNat_modByte ?_) rfl
  omega

theorem goodGroup_full (v w x y : ℕ) (rest : CStr) : GoodGroup (b64Char v) (b64Char w) (b64Char x) (b64Char y) rest :=
  ⟨(b64Char_table v).1, (b64Char_table w).1, Or.inl (b64Char_table x).1, Or.inl (b64Char_table y).1,
    fun h => absurd h (isSextet_spec (b64Char_table x).1).2.2, fun h => absurd h (isSextet_spec (b64Char_table y).1).2.2⟩

/-- What the loop of the encoder makes. -/
structure Encodes (x : Bytes) : Prop where
  length : (keyBase64Groups x).length = (x.length + 2) / 3 * 4
  padded : keyBase64Groups x = [] ∨ Padded (keyBase64Groups x)
  bytes : base64Bytes (keyBase64Groups x) = x

theorem encodes (x : Bytes) : Encodes x := by
  fun_induction keyBase64Groups x with
  | case1 => exact ⟨rfl, Or.inl rfl, rfl⟩
  | case2 a v =>
    have hgroup : keyBase64Groups [a] = [b64Char (v >>> 18), b64Char (v >>> 12), 61, 61] := rfl
    have hgood : GoodGroup (b64Char (v >>> 18)) (b64Char (v >>> 12)) 61 61 [] :=
      ⟨(b64Char_table _).1, (b64Char_table _).1, Or.inr rfl, Or.inr rfl, fun _ => rfl, fun _ => rfl⟩
    refine ⟨by rw [hgroup]; simp, Or.inr ?_, ?_⟩ <;> rw [hgroup]
    · exact (padded_group rfl).mpr ⟨hgood, Or.inl rfl⟩
    · exact encoded_one a (Nat.shiftLeft_eq _ _)
  | case3 a b v =>
    have hgroup : keyBase64Groups [a, b] = [b64Char (v >>> 18), b64Char (v >>> 12), b64Char (v >>> 6), 61] := rfl
    have hgood : GoodGroup (b64Char (v >>> 18)) (b64Char (v >>> 12)) (b64Char (v >>> 6)) 61 [] :=
      ⟨(b64Char_table _).1, (b64Char_table _).1, Or.inl (b64Char_table _).1, Or.inr rfl, fun _ => rfl, fun _ => rfl⟩
    refine ⟨by rw [hgroup]; simp, Or.inr ?_, ?_⟩ <;> rw [hgroup]
    · exact (padded_group rfl).mpr ⟨hgood, Or.inl rfl⟩
    · exact encoded_two a b (by simpa using packed a b 0)
  | case4 a b c rest v ih =>
    have hgroup : keyBase64Groups (a :: b :: c :: rest) = b64Char (v >>> 18) :: b64Char (v >>> 12) ::
      b64Char (v >>> 6) :: b64Char v :: keyBase64Groups rest := rfl
    have hgood := goodGroup_full (v >>> 18) (v >>> 12) (v >>> 6) v (keyBase64Groups rest)
    refine ⟨?_, Or.inr ?_, ?_⟩ <;> rw [hgroup]
    · simp only [List.length_cons, ih.length]
      omega
    · exact (padded_group (by rw [ih.length, Nat.mul_mod_left])).mpr ⟨hgood, ih.padded⟩
    · rw [base64Bytes_group hgood, encoded_full a b c (packed a b c), ih.bytes]
      rfl

theorem keyBase64Groups_text {x : Bytes} (hx : x ≠ []) : Base64Text (keyBase64Groups x) := by
  have h := encodes x
  have hpos : 0 < x.length := List.length_pos_iff.mpr hx
  have hne : keyBase64Groups x ≠ [] := by
    intro hnil
    have hlen := h.length
    rw [hnil, List.length_nil] at hlen
    omega
  exact ⟨hne, by rw [h.length, Nat.mul_mod_left], h.padded.resolve_left hne⟩

/-! ## Keys -/

def KeyText (s : CStr) : Prop := ∃ l : CStr, l.length = 43 ∧ (∀ b ∈ l, isSextet b = true) ∧ s = l ++ [61]

theorem keyText_iff {s : CStr} : KeyText s ↔ Base64Text s ∧ (base64Bytes s).length = KEY_LEN := by
  constructor
  · rintro ⟨l, hlen, hl, rfl⟩
    have htext : Base64Text (l ++ [61]) :=
      ⟨by simp, by simp [hlen], l, 1, by decide, rfl, hl⟩
    have hnone : l.count 61 = 0 := by
      rw [List.count_eq_zero]
      exact fun h => (isSextet_spec (hl _ h)).2.2 rfl
    refine ⟨htext, ?_⟩
    rw [base64Bytes_length htext.2.2 htext.2.1, List.count_append, hnone]
    simp [hlen, KEY_LEN]
  · rintro ⟨⟨-, hmod, hpadded⟩, hbytes⟩
    rw [base64Bytes_length hpadded hmod] at hbytes
    obtain ⟨l, pad, hpad, rfl, hl⟩ := hpadded
    have hnone : l.count 61 = 0 := by
      rw [List.count_eq_zero]
      exact fun h => (isSextet_spec (hl _ h)).2.2 rfl
    rw [List.count_append, hnone, List.count_replicate_self, List.length_append, List.length_replicate] at hbytes
    rw [List.length_append, List.length_replicate] at hmod
    unfold KEY_LEN at hbytes
    have hone : pad = 1 := by omega
    subst hone
    exact ⟨l, by omega, hl, rfl⟩

theorem keyBase64Int_small {o : ℕ} (h : o < 2 ^ 31) : keyBase64Int (some o) = o := by
  unfold keyBase64Int
  rw [Option.elim_some, Int.bmod_def, Int.emod_eq_of_lt (by omega) (by omega), if_pos (by omega)]

theorem keyParseB64_iff {s : CStr} {key : Bytes} : keyParseB64 s = some key ↔ KeyText s ∧ key = base64Bytes s := by
  rw [keyText_iff]
  unfold keyParseB64
  by_cases htext : Base64Text s
  · rw [keyBase64Decode_eq htext]
    dsimp only
    by_cases hlen : (base64Bytes s).length = KEY_LEN
    · have hroom : (base64Bytes s).length ≤ KEY_LEN + 3 := by omega
      rw [if_pos hroom, hlen, if_pos (keyBase64Int_small (by decide)), List.take_of_length_le hroom,
        List.take_of_length_le hlen.le]
      simp [htext, eq_comm]
    · rw [if_neg]
      · simp [hlen]
      · split
        · rename_i hroom
          unfold KEY_LEN at hroom
          rw [keyBase64Int_small (by omega)]
          exact_mod_cast hlen
        · decide
  · rw [if_neg (by rw [keyBase64Decode_refused htext]; decide)]
    simp [htext]

/-! ## The app -/

def asciiChars (s : CStr) : List Char := s.map fun b => Char.ofNat b.toNat

theorem ascii_texts {s : CStr} (h : ∀ b ∈ s, b.toNat < 0x80) :
    utf8 (asciiChars s) = s ∧ utf16 (asciiChars s) = s.map (·.toUInt16) := by
  induction s with
  | nil => exact ⟨rfl, rfl⟩
  | cons b s ih =>
    obtain ⟨hbytes, hunits⟩ := ih fun x hx => h x (List.mem_cons_of_mem _ hx)
    have hb := h b List.mem_cons_self
    have hvalid : b.toNat.isValidChar := Or.inl (by omega)
    have hnat : (Char.ofNat b.toNat).toNat = b.toNat := by
      obtain ⟨c, hc⟩ := char_of_nat hvalid
      rw [← hc, char_of_toNat]
    have hcons : asciiChars (b :: s) = Char.ofNat b.toNat :: asciiChars s := rfl
    constructor
    · rw [hcons, utf8_cons, hbytes, utf8EncodeChar_eq, hnat, if_pos (by omega), UInt8.ofNat_toNat]
      rfl
    · rw [hcons, utf16_cons, hunits, utf16Char_ascii (a := b.toUInt16) (by simpa using hb) (by simpa using hnat)]
      rfl

theorem isSextet_ascii {b : UInt8} (h : isSextet b = true) : b.toNat < 0x80 := by
  have hall : ∀ k : Fin 256, isSextet (UInt8.ofNat k) = true → (UInt8.ofNat k).toNat < 0x80 := by decide +kernel
  have hb := hall ⟨b.toNat, b.toNat_lt⟩
  rw [UInt8.ofNat_toNat] at hb
  exact hb h

theorem keyText_ascii {s : CStr} (h : KeyText s) : ∀ b ∈ s, b.toNat < 0x80 := by
  obtain ⟨l, -, hl, rfl⟩ := h
  intro b hb
  rcases List.mem_append.mp hb with hb | hb
  · exact isSextet_ascii (hl b hb)
  · rw [List.mem_singleton.mp hb]
    decide

theorem isBase64_low {u : UInt16} (h : isBase64 u = true) : u.toNat < 0x80 := by
  unfold isBase64 isAlnum isDecimal at h
  simp only [Bool.or_eq_true, Bool.and_eq_true, decide_eq_true_eq, UInt16.le_iff_toNat_le, beq_iff_eq,
    ← UInt16.toNat_inj] at h
  have h₁ : (57 : UInt16).toNat = 57 := rfl
  have h₂ : (90 : UInt16).toNat = 90 := rfl
  have h₃ : (122 : UInt16).toNat = 122 := rfl
  have h₄ : (43 : UInt16).toNat = 43 := rfl
  have h₅ : (47 : UInt16).toNat = 47 := rfl
  omega

theorem keyMatches_iff {v : Utf16} : keyMatches v = true ↔ ∃ s, KeyText s ∧ v = s.map (·.toUInt16) := by
  unfold keyMatches
  rw [Bool.and_eq_true, Bool.and_eq_true, decide_eq_true_eq, beq_iff_eq]
  constructor
  · rintro ⟨⟨hlen, hchars⟩, hlast⟩
    obtain ⟨l, rfl⟩ := List.getLast?_eq_some_iff.mp hlast
    have hl : l.length = 43 := by simpa using hlen
    rw [List.take_append_of_le_length (by omega), List.take_of_length_le (by omega), List.all_eq_true] at hchars
    have hback : ∀ u ∈ l, (UInt8.ofNat u.toNat).toUInt16 = u := by
      intro u hu
      have hlow := isBase64_low (hchars u hu)
      apply UInt16.toNat.inj
      rw [UInt8.toNat_toUInt16, UInt8.toNat_ofNat_of_lt' (show u.toNat < 256 by omega)]
    have hmap : (l.map fun u => UInt8.ofNat u.toNat).map (·.toUInt16) = l := by
      rw [List.map_map]
      exact (List.map_congr_left hback).trans (List.map_id l)
    refine ⟨(l.map fun u => UInt8.ofNat u.toNat) ++ [61], ⟨_, by simpa using hl, ?_, rfl⟩, ?_⟩
    · intro b hb
      obtain ⟨u, hu, rfl⟩ := List.mem_map.mp hb
      unfold isSextet
      rw [hback u hu]
      exact hchars u hu
    · rw [List.map_append, hmap]
      rfl
  · rintro ⟨s, ⟨l, hlen, hl, rfl⟩, rfl⟩
    have hmap : (l.map (·.toUInt16)).length = 43 := by rw [List.length_map, hlen]
    rw [List.map_append]
    refine ⟨⟨by simp [hlen], ?_⟩, by simp⟩
    rw [List.take_append_of_le_length hmap.ge, List.take_of_length_le hmap.le, List.all_eq_true]
    intro u hu
    obtain ⟨b, hb, rfl⟩ := List.mem_map.mp hu
    exact hl b hb

theorem base64_eq {s : CStr} (h : KeyText s) : ConnectLink.base64 (s.map (·.toUInt16)) = base64Bytes s := by
  obtain ⟨l, hlen, hl, rfl⟩ := h
  have hunpadded : unpadded (l ++ [61]) = l.map (·.toUInt16) := by
    unfold unpadded
    rw [List.filter_append, List.filter_eq_self.mpr fun b hb => by simpa using (isSextet_spec (hl b hb)).2.2]
    simp
  have hloop := @base64Loop_atob 10 (l.map (·.toUInt16)) (by rw [List.length_map, hlen]) (by
    intro u hu
    obtain ⟨b, hb, rfl⟩ := List.mem_map.mp hu
    exact hl b hb) 0
  unfold ConnectLink.base64 base64Bytes
  rw [hunpadded, List.map_append]
  exact hloop.1

theorem isKey_iff {s : CStr} (h : KeyText s) :
    ConnectLink.isKey (s.map (·.toUInt16)) = true ↔ base64Bytes s ≠ List.replicate KEY_LEN 0 := by
  have hlen : (base64Bytes s).length = 32 := (keyText_iff.mp h).2
  have hmatch : keyMatches (s.map (·.toUInt16)) = true := keyMatches_iff.mpr ⟨s, h, rfl⟩
  unfold ConnectLink.isKey
  rw [hmatch, base64_eq h, decide_eq_true hlen, Bool.true_and, Bool.true_and, List.any_eq_true]
  rw [ne_eq, List.eq_replicate_iff]
  simp [hlen, KEY_LEN]

/-- The texts of the app's pattern that are the all-zero key. -/
def ZeroKeyText (v : Utf16) : Prop := keyMatches v = true ∧ ConnectLink.base64 v = List.replicate KEY_LEN 0

/-- Keys in base64. -/
structure Base64KeysRight : Prop where
  roundTrip : ∀ (x : Bytes) (encSize decSize : ℕ), x ≠ [] → (x.length + 2) / 3 * 4 < encSize → x.length ≤ decSize →
    ∃ text, keyBase64Encode x encSize = some text ∧ text.length < encSize ∧
      keyBase64Decode text decSize = (some x.length, x)
  accepts : ∀ (s : CStr) (n : ℕ), (keyBase64Decode s n).1.isSome ↔
    (s ≠ [] ∧ s.length % 4 = 0 ∧ Padded s) ∧ s.length / 4 * 3 - s.count 61 ≤ n
  returns : ∀ (s : CStr) (n : ℕ), n < 2 ^ 31 →
    keyBase64Int (keyBase64Decode s n).1 = (keyBase64Decode s n).1.elim (-1) fun o => (o : ℤ)
  bounded : ∀ (s : CStr) (n : ℕ), (keyBase64Decode s n).2.length ≤ n
  parses : ∀ (s : CStr) (key : Bytes), keyParseB64 s = some key ↔ ∃ n, keyBase64Decode s n = (some 32, key)
  app : ∀ (cs : List Char) (key : Bytes), keyParseB64 (utf8 cs) = some key ↔
    (ConnectLink.isKey (utf16 cs) = true ∨ ZeroKeyText (utf16 cs)) ∧ key = ConnectLink.base64 (utf16 cs)
  texts : (∀ s key, keyParseB64 s = some key → ∃ cs, s = utf8 cs) ∧
    ∀ v, ConnectLink.isKey v = true → ∃ cs, v = utf16 cs

theorem keyBase64Decode_isSome {s : CStr} {n : ℕ} :
    (keyBase64Decode s n).1.isSome ↔ Base64Text s ∧ (base64Bytes s).length ≤ n := by
  by_cases htext : Base64Text s
  · rw [keyBase64Decode_eq htext]
    by_cases hfits : (base64Bytes s).length ≤ n <;> simp [htext, hfits]
  · simp [keyBase64Decode_refused htext, htext]

/-- A text of 32 bytes is a key, and nothing else is one. -/
theorem keyParseB64_decodes {s : CStr} {key : Bytes} :
    keyParseB64 s = some key ↔ ∃ n, keyBase64Decode s n = (some 32, key) := by
  rw [keyParseB64_iff, keyText_iff]
  constructor
  · rintro ⟨⟨htext, hlen⟩, rfl⟩
    refine ⟨KEY_LEN, ?_⟩
    rw [keyBase64Decode_eq htext, if_pos hlen.le, List.take_of_length_le hlen.le, hlen]
    rfl
  · rintro ⟨n, hdecode⟩
    have hsome : (keyBase64Decode s n).1.isSome := by rw [hdecode]; rfl
    obtain ⟨htext, hfits⟩ := keyBase64Decode_isSome.mp hsome
    rw [keyBase64Decode_eq htext, if_pos hfits, List.take_of_length_le hfits] at hdecode
    obtain ⟨hlen, hkey⟩ := Prod.mk.inj hdecode
    exact ⟨⟨htext, Option.some.inj hlen⟩, hkey.symm⟩

/-- A key's text in C is the app's. -/
theorem keyParseB64_app {cs : List Char} {key : Bytes} : keyParseB64 (utf8 cs) = some key ↔
    (ConnectLink.isKey (utf16 cs) = true ∨ ZeroKeyText (utf16 cs)) ∧ key = ConnectLink.base64 (utf16 cs) := by
  rw [keyParseB64_iff]
  constructor
  · rintro ⟨htext, rfl⟩
    obtain ⟨hbytes, hunits⟩ := ascii_texts (keyText_ascii htext)
    have hcs : utf16 cs = (utf8 cs).map (·.toUInt16) := by rw [← hunits, utf8_injective hbytes]
    rw [hcs, base64_eq htext]
    refine ⟨?_, rfl⟩
    by_cases hzero : base64Bytes (utf8 cs) = List.replicate KEY_LEN 0
    · exact Or.inr ⟨keyMatches_iff.mpr ⟨_, htext, rfl⟩, (base64_eq htext).trans hzero⟩
    · exact Or.inl ((isKey_iff htext).mpr hzero)
  · rintro ⟨hkey, rfl⟩
    have hmatch : keyMatches (utf16 cs) = true := by
      rcases hkey with hkey | hkey
      · unfold ConnectLink.isKey at hkey
        rw [Bool.and_eq_true, Bool.and_eq_true] at hkey
        exact hkey.1.1
      · exact hkey.1
    obtain ⟨s, htext, hs⟩ := keyMatches_iff.mp hmatch
    obtain ⟨hbytes, hunits⟩ := ascii_texts (keyText_ascii htext)
    have hcs : utf8 cs = s := by rw [← hbytes, utf16_injective (hs.trans hunits.symm)]
    rw [hcs, hs]
    exact ⟨htext, base64_eq htext⟩

/-- **A key is the same bytes to `camex` and to the app.** -/
theorem base64Keys_right : Base64KeysRight := by
  constructor
  · intro x encSize decSize hx henc hdec
    have h := encodes x
    have htext := keyBase64Groups_text hx
    refine ⟨keyBase64Groups x, ?_, by rw [h.length]; exact henc, ?_⟩
    · unfold keyBase64Encode
      rw [if_neg (by omega)]
    · rw [keyBase64Decode_eq htext, h.bytes, if_pos hdec, List.take_of_length_le hdec]
  · intro s n
    rw [keyBase64Decode_isSome]
    unfold Base64Text
    refine and_congr_right fun htext => ?_
    rw [base64Bytes_length htext.2.2 htext.2.1]
  · intro s n hn
    by_cases htext : Base64Text s
    · rw [keyBase64Decode_eq htext]
      by_cases hfits : (base64Bytes s).length ≤ n
      · rw [if_pos hfits, keyBase64Int_small (by omega), Option.elim_some]
      · rw [if_neg hfits, Option.elim_none]
        unfold keyBase64Int
        rw [Option.elim_none]
    · rw [keyBase64Decode_refused htext, Option.elim_none]
      unfold keyBase64Int
      rw [Option.elim_none]
  · exact keyBase64Decode_bounded
  · exact fun s key => keyParseB64_decodes
  · exact fun cs key => keyParseB64_app
  · refine ⟨fun s key h => ?_, fun v h => ?_⟩
    · exact ⟨asciiChars s, (ascii_texts (keyText_ascii (keyParseB64_iff.mp h).1)).1.symm⟩
    · unfold ConnectLink.isKey at h
      rw [Bool.and_eq_true, Bool.and_eq_true] at h
      obtain ⟨s, htext, rfl⟩ := keyMatches_iff.mp h.1.1
      exact ⟨asciiChars s, (ascii_texts (keyText_ascii htext)).2.symm⟩

end Camex
