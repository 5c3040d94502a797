import Mathlib.Data.List.Induction
import Camex.Safety.ConnectDecode

/-!
# The app and the page read a link alike

* `IsLast`: the last pair of a key, what both keep of the repeated ones;
* `atob_eq`, `isKey_eq`, `valid_take`: the checks of a value agree, key by key;
* `held_foldl`, `rejected_foldl`: the settings that the app has behind the last field;
* `links_alike_iff`: a fragment is read alike exactly when its escapes are ASCII; `not_links_alike`.
-/

namespace Camex

open Lib ConnectPage

/-! ## Pairs -/

/-- A pair whose key has no later one. -/
def IsLast {α : Type} (l : List (Utf16 × α)) (f : Utf16 × α) : Prop :=
  ∃ before after, l = before ++ f :: after ∧ ∀ g ∈ after, g.1 ≠ f.1

theorem isLast_append {α : Type} {l : List (Utf16 × α)} {x f : Utf16 × α} :
    IsLast (l ++ [x]) f ↔ f = x ∨ f.1 ≠ x.1 ∧ IsLast l f := by
  constructor
  · rintro ⟨before, after, heq, hafter⟩
    rcases List.eq_nil_or_concat after with rfl | ⟨init, y, rfl⟩
    · obtain ⟨-, hx⟩ := List.append_inj' heq rfl
      exact Or.inl (List.cons.inj hx).1.symm
    · rw [List.concat_eq_append] at heq hafter
      rw [← List.cons_append, ← List.append_assoc] at heq
      obtain ⟨hl, hx⟩ := List.append_inj' heq rfl
      have hy : x = y := (List.cons.inj hx).1
      refine Or.inr ⟨?_, before, init, hl, fun g hg => hafter g (List.mem_append_left _ hg)⟩
      rw [hy]
      exact (hafter y (List.mem_append_right _ (List.mem_singleton_self y))).symm
  · rintro (rfl | ⟨hne, before, after, rfl, hafter⟩)
    · exact ⟨l, [], rfl, by simp⟩
    · refine ⟨before, after ++ [x], by simp, fun g hg => ?_⟩
      rcases List.mem_append.mp hg with hg | hg
      · exact hafter g hg
      · rw [List.mem_singleton.mp hg]
        exact hne.symm

theorem isLast_cons {α : Type} {l : List (Utf16 × α)} {x f : Utf16 × α} :
    IsLast (x :: l) f ↔ f = x ∧ (∀ g ∈ l, g.1 ≠ x.1) ∨ IsLast l f := by
  constructor
  · rintro ⟨before, after, heq, hafter⟩
    cases before with
    | nil =>
      obtain ⟨rfl, rfl⟩ := List.cons.inj heq
      exact Or.inl ⟨rfl, hafter⟩
    | cons y before =>
      obtain ⟨-, rfl⟩ := List.cons.inj heq
      exact Or.inr ⟨before, after, rfl, hafter⟩
  · rintro (⟨rfl, hl⟩ | ⟨before, after, rfl, hafter⟩)
    · exact ⟨[], l, rfl, hl⟩
    · exact ⟨x :: before, after, rfl, hafter⟩

/-- The app keeps the last of a key. -/
theorem mem_split (utf : Charset) (fragment : Utf16) (f : Utf16 × Option Utf16) :
    f ∈ ConnectLink.split utf fragment ↔ IsLast ((fragmentPairs fragment).map fun pair =>
      (pairKey pair, ConnectLink.decode utf (pairValue pair))) f := by
  unfold ConnectLink.split
  induction fragmentPairs fragment using List.reverseRecOn generalizing f with
  | nil => simp [IsLast]
  | append_singleton pairs pair ih =>
    rw [List.foldl_append, List.foldl_cons, List.foldl_nil, List.map_append, List.map_singleton, isLast_append,
      List.mem_append, List.mem_singleton, List.mem_filter, decide_eq_true_eq, ih]
    exact ⟨fun h => h.symm.imp_right And.symm, fun h => (h.imp_right And.symm).symm⟩

theorem mem_lastFields {l : List (Utf16 × Option Utf16)} {f : Utf16 × Option Utf16} :
    f ∈ lastFields l ↔ f.1 ≠ units "__proto__" ∧ IsLast l f := by
  induction l with
  | nil => simp [lastFields, IsLast]
  | cons x l ih =>
    rw [isLast_cons]
    unfold lastFields
    split
    · rename_i hdrop
      rw [ih]
      refine and_congr_right fun hproto => ⟨Or.inr, fun h => h.resolve_left ?_⟩
      rintro ⟨rfl, hlast⟩
      rcases hdrop with hp | hany
      · exact hproto hp
      · obtain ⟨g, hg, heq⟩ := List.any_eq_true.mp hany
        exact hlast g hg (beq_iff_eq.mp heq)
    · rename_i hkeep
      rw [not_or] at hkeep
      rw [List.mem_cons, ih]
      constructor
      · rintro (rfl | ⟨hproto, hlast⟩)
        · refine ⟨hkeep.1, Or.inl ⟨rfl, fun g hg heq => hkeep.2 ?_⟩⟩
          exact List.any_eq_true.mpr ⟨g, hg, beq_iff_eq.mpr heq⟩
        · exact ⟨hproto, Or.inr hlast⟩
      · rintro ⟨hproto, ⟨rfl, -⟩ | hlast⟩
        · exact Or.inl rfl
        · exact Or.inr ⟨hproto, hlast⟩

/-! ## Keys -/

/-- `[A-Za-z0-9+/]`. -/
def isBase64 (u : UInt16) : Bool := isAlnum u || u == 43 || u == 47

theorem isBase64_sextet {u : UInt16} (h : isBase64 u = true) : sextet u < 64 ∧ u ≠ 61 := by
  have hlow : u.toNat < 128 := by
    unfold isBase64 isAlnum isDecimal at h
    simp only [Bool.or_eq_true, Bool.and_eq_true, decide_eq_true_eq, UInt16.le_iff_toNat_le, beq_iff_eq,
      ← UInt16.toNat_inj] at h
    have h₁ : (57 : UInt16).toNat = 57 := rfl
    have h₂ : (90 : UInt16).toNat = 90 := rfl
    have h₃ : (122 : UInt16).toNat = 122 := rfl
    have h₄ : (43 : UInt16).toNat = 43 := rfl
    have h₅ : (47 : UInt16).toNat = 47 := rfl
    omega
  have hall : ∀ k : Fin 128, isBase64 (UInt16.ofNat k.val) = true →
      sextet (UInt16.ofNat k.val) < 64 ∧ UInt16.ofNat k.val ≠ 61 := by
    decide +kernel
  have hu := hall ⟨u.toNat, hlow⟩
  simp only [UInt16.ofNat_toNat] at hu
  exact hu h

theorem shift_or {bits a : ℕ} (ha : a < 64) : bits <<< 6 ||| a = bits * 64 + a := by
  rw [← Nat.shiftLeft_add_eq_or_of_lt (show a < 2 ^ 6 from ha), Nat.shiftLeft_eq]

theorem base64Loop_step {u : UInt16} (hu : isBase64 u = true) (bits n : ℕ) (s : Utf16) :
    base64Loop bits n (u :: s) =
      if 8 ≤ n + 6 then UInt8.ofNat ((bits * 64 + sextet u) % 2 ^ 32 / 2 ^ (n + 6 - 8)) ::
        base64Loop ((bits * 64 + sextet u) % 2 ^ 32) (n + 6 - 8) s
      else base64Loop ((bits * 64 + sextet u) % 2 ^ 32) (n + 6) s := by
  obtain ⟨hlt, hne⟩ := isBase64_sextet hu
  conv_lhs => unfold base64Loop
  rw [if_neg hne]
  change (if 8 ≤ n + 6 then UInt8.ofNat (((bits <<< 6 ||| sextet u) % 2 ^ 32) >>> (n + 6 - 8)) :: base64Loop
    ((bits <<< 6 ||| sextet u) % 2 ^ 32) (n + 6 - 8) s else base64Loop ((bits <<< 6 ||| sextet u) % 2 ^ 32) (n + 6) s) = _
  rw [shift_or hlt, Nat.shiftRight_eq_div_pow]

theorem ofNat_congr {x y : ℕ} (h : x % 256 = y % 256) : UInt8.ofNat x = UInt8.ofNat y := by
  apply UInt8.toNat.inj
  simpa using h

/-- Three characters are two bytes to the app, whatever bits are left from before. -/
theorem base64Loop_three {a b c : UInt16} (ha : isBase64 a = true) (hb : isBase64 b = true) (hc : isBase64 c = true)
    (bits : ℕ) (s : Utf16) : ∃ bits', bits' % 4 = sextet c % 4 ∧ base64Loop bits 0 (a :: b :: c :: s) =
      UInt8.ofNat (sextet a * 4 + sextet b / 16) :: UInt8.ofNat (sextet b * 16 + sextet c / 4) ::
        base64Loop bits' 2 s := by
  have hat := (isBase64_sextet ha).1
  have hbt := (isBase64_sextet hb).1
  have hct := (isBase64_sextet hc).1
  rw [base64Loop_step ha, if_neg (by decide), base64Loop_step hb, if_pos (by decide), base64Loop_step hc,
    if_pos (by decide)]
  refine ⟨_, ?_, congrArg₂ _ (ofNat_congr ?_) (congrArg₂ _ (ofNat_congr ?_) rfl)⟩ <;> omega

theorem base64Loop_four {a b c d : UInt16} (ha : isBase64 a = true) (hb : isBase64 b = true) (hc : isBase64 c = true)
    (hd : isBase64 d = true) (bits : ℕ) (s : Utf16) : ∃ bits', base64Loop bits 0 (a :: b :: c :: d :: s) =
      UInt8.ofNat (sextet a * 4 + sextet b / 16) :: UInt8.ofNat (sextet b * 16 + sextet c / 4) ::
        UInt8.ofNat (sextet c * 64 + sextet d) :: base64Loop bits' 0 s := by
  have hdt := (isBase64_sextet hd).1
  obtain ⟨bits', hlow, hthree⟩ := base64Loop_three ha hb hc bits (d :: s)
  rw [hthree, base64Loop_step hd, if_pos (by decide)]
  refine ⟨_, congrArg _ (congrArg _ (congrArg₂ _ (ofNat_congr ?_) rfl))⟩
  omega

/-- **The app decodes what the page does.** -/
theorem base64Loop_atob {m : ℕ} {l : Utf16} (hlen : l.length = 4 * m + 3) (h : ∀ u ∈ l, isBase64 u = true)
    (bits : ℕ) : base64Loop bits 0 (l ++ [61]) = atobGroups l ∧ (atobGroups l).length = 3 * m + 2 := by
  induction m generalizing l bits with
  | zero =>
    match l, hlen with
    | [a, b, c], _ =>
      simp only [List.forall_mem_cons] at h
      obtain ⟨bits', -, hthree⟩ := base64Loop_three h.1 h.2.1 h.2.2.1 bits [61]
      exact ⟨hthree, rfl⟩
  | succ m ih =>
    match l, hlen with
    | a :: b :: c :: d :: l, hlen =>
      simp only [List.forall_mem_cons] at h
      obtain ⟨ha, hb, hc, hd, hl⟩ := h
      obtain ⟨bits', hfour⟩ := base64Loop_four ha hb hc hd bits (l ++ [61])
      simp only [List.length_cons] at hlen
      obtain ⟨hrest, hcount⟩ := ih (by omega) hl bits'
      constructor
      · rw [List.cons_append, List.cons_append, List.cons_append, List.cons_append, hfour, hrest]
        rfl
      · simp only [atobGroups, List.length_cons, hcount]
        omega

theorem isKey_eq (k : Utf16) : ConnectLink.isKey k = key k := by
  unfold ConnectLink.isKey key
  cases hmatch : keyMatches k with
  | false => rfl
  | true =>
    unfold keyMatches at hmatch
    rw [Bool.and_eq_true, Bool.and_eq_true, decide_eq_true_eq, beq_iff_eq] at hmatch
    obtain ⟨⟨hlen, hchars⟩, hlast⟩ := hmatch
    obtain ⟨l, rfl⟩ := List.getLast?_eq_some_iff.mp hlast
    have hl : l.length = 43 := by simpa using hlen
    rw [List.take_append_of_le_length (by omega), List.take_of_length_le (by omega)] at hchars
    obtain ⟨hbytes, hcount⟩ := base64Loop_atob (m := 10) hl (List.all_eq_true.mp hchars) 0
    unfold ConnectLink.base64 atob
    rw [hbytes, List.dropLast_concat, hcount]
    rfl

/-! ## Texts -/

theorem trim_eq_iff {p : UInt16 → Bool} {v : Utf16} :
    v = ((v.dropWhile p).reverse.dropWhile p).reverse ↔ v.head?.any p = false ∧ v.getLast?.any p = false := by
  have hfront : v.dropWhile p = v ↔ v.head?.any p = false := by
    cases v with
    | nil => simp
    | cons u v => simp
  have hback : (v.reverse.dropWhile p).reverse = v ↔ v.getLast?.any p = false := by
    rw [← List.head?_reverse, List.reverse_eq_iff]
    cases v.reverse with
    | nil => simp
    | cons u v => simp
  constructor
  · intro h
    have hlen : v.length ≤ (v.dropWhile p).length := by
      calc v.length = ((v.dropWhile p).reverse.dropWhile p).reverse.length := congrArg _ h
        _ ≤ (v.dropWhile p).length := by
          rw [List.length_reverse]
          have hle := (List.dropWhile_sublist (l := (v.dropWhile p).reverse) p).length_le
          rwa [List.length_reverse] at hle
    have hwhole : v.dropWhile p = v := (List.dropWhile_sublist p).eq_of_length_le hlen
    rw [hwhole] at h
    exact ⟨hfront.mp hwhole, hback.mp h.symm⟩
  · rintro ⟨hhead, hlast⟩
    rw [hfront.mpr hhead, hback.mpr hlast]

theorem getBytes_utf16 (cs : List Char) : getBytes (utf16 cs) = utf8 cs := by
  unfold getBytes
  rw [points_utf16, List.flatMap_map]
  rfl

theorem uriBytes_utf16 (cs : List Char) : uriBytes (utf16 cs) = some (utf8 cs) := by
  unfold uriBytes
  rw [points_utf16]
  have hall : (cs.map some).mapM id = some cs := by
    induction cs with
    | nil => rfl
    | cons c cs ih => simp [ih]
  rw [hall]
  rfl

theorem plainChars_eq (v : Utf16) : ConnectLink.plainChars v = !v.any isRefused := by
  unfold ConnectLink.plainChars
  rw [List.not_any_eq_all_not]
  refine congrArg v.all (funext fun u => congrArg (! ·) ?_)
  unfold isRefused
  refine congrArg (· || isSurrogate u) (congrArg (· || u == 0x7f) ?_)
  rw [Bool.eq_iff_iff, decide_eq_true_eq, decide_eq_true_eq, UInt16.lt_iff_toNat_lt, UInt16.le_iff_toNat_le]
  exact Nat.lt_succ_iff

/-- Of the units that neither refuses, both trim the blank. -/
theorem isBlank_eq {u : UInt16} (h : isRefused u = false) : isBlank u = decide (u ≤ 0x20) := by
  unfold isRefused at h
  rw [Bool.or_eq_false_iff, Bool.or_eq_false_iff, decide_eq_false_iff_not] at h
  have hlow := h.1.1
  unfold isBlank
  rw [Bool.eq_iff_iff, Bool.or_eq_true, Bool.and_eq_true, decide_eq_true_eq, decide_eq_true_eq, beq_iff_eq,
    decide_eq_true_eq, ← UInt16.toNat_inj, UInt16.le_iff_toNat_le, UInt16.le_iff_toNat_le, UInt16.le_iff_toNat_le]
  rw [UInt16.le_iff_toNat_le] at hlow
  have h₁ : (0x1f : UInt16).toNat = 31 := rfl
  have h₂ : (13 : UInt16).toNat = 13 := rfl
  have h₃ : (32 : UInt16).toNat = 32 := rfl
  omega

/-- The ends of a string without refused units. -/
theorem ends_eq {v : Utf16} (h : v.any isRefused = false) :
    v.head?.any isBlank = v.head?.any (fun u => decide (u ≤ 0x20)) ∧
      v.getLast?.any isBlank = v.getLast?.any fun u => decide (u ≤ 0x20) := by
  have hmem : ∀ u ∈ v, isBlank u = decide (u ≤ 0x20) := fun u hu =>
    isBlank_eq (by simpa using List.any_eq_false.mp h u hu)
  constructor
  · cases hv : v.head? with
    | none => rfl
    | some u => exact hmem u (List.mem_of_head? hv)
  · cases hv : v.getLast? with
    | none => rfl
    | some u => exact hmem u (List.mem_of_getLast? hv)

theorem pskOk_refused {v : Utf16} (h : v.any isRefused = true) : ConnectLink.pskOk v = false := by
  unfold ConnectLink.pskOk
  rw [plainChars_eq, h]
  split <;> rfl

theorem psk_alike (cs : List Char) : validPsk (utf16 cs) = some (ConnectLink.pskOk (utf16 cs)) := by
  unfold validPsk
  rw [uriBytes_utf16]
  cases hany : (utf16 cs).any isRefused with
  | true =>
    rw [pskOk_refused hany]
    simp
  | false =>
    obtain ⟨hhead, hlast⟩ := ends_eq hany
    have htrim : utf16 cs ≠ javaTrim (utf16 cs) ↔
        (utf16 cs).head?.any isBlank = true ∨ (utf16 cs).getLast?.any isBlank = true := by
      unfold javaTrim
      rw [Ne, trim_eq_iff, hhead, hlast, not_and_or, Bool.not_eq_false, Bool.not_eq_false]
    unfold ConnectLink.pskOk
    rw [plainChars_eq, hany, getBytes_utf16]
    simp only [htrim, isKey_eq]
    by_cases hends : utf16 cs = [] ∨ (utf16 cs).head?.any isBlank = true ∨ (utf16 cs).getLast?.any isBlank = true
    · rw [if_pos hends, if_pos (hends.imp_right Or.inl)]
    · rw [if_neg hends]
      by_cases hlen : 128 ≤ (utf8 cs).length
      · rw [if_pos (Or.inl hlen), if_pos (Or.inr (Or.inr hlen))]
      · have hno : ¬ (utf16 cs = [] ∨ ((utf16 cs).head?.any isBlank = true ∨ (utf16 cs).getLast?.any isBlank = true) ∨
            128 ≤ (utf8 cs).length) := by
          rintro (h | h | h)
          · exact hends (Or.inl h)
          · exact hends (Or.inr h)
          · exact hlen h
        rw [if_neg hno, if_neg (show ¬ (128 ≤ (utf8 cs).length ∨ false = true) by simp [hlen]),
          if_neg (show ¬ (!!false) = true by decide)]
        split
        · rfl
        · split <;> rfl

theorem name_alike (cs : List Char) : validName (utf16 cs) = some (ConnectLink.nameOk (utf16 cs)) := by
  unfold validName ConnectLink.nameOk
  rw [uriBytes_utf16, getBytes_utf16, plainChars_eq]
  cases hany : (utf16 cs).any isRefused with
  | true =>
    simp only [Bool.not_true, Bool.and_false]
    split <;> split <;> rfl
  | false =>
    obtain ⟨hhead, hlast⟩ := ends_eq hany
    have htrim : utf16 cs = trimBlanks (utf16 cs) ↔ utf16 cs = javaTrim (utf16 cs) := by
      unfold javaTrim trimBlanks
      rw [trim_eq_iff, trim_eq_iff, hhead, hlast]
    simp only [ne_eq, htrim]
    by_cases hends : utf16 cs = [] ∨ ¬ utf16 cs = javaTrim (utf16 cs)
    · rw [if_pos hends, if_pos (hends.imp_right Or.inl)]
    · rw [if_neg hends]
      by_cases hlen : 31 < (utf8 cs).length
      · rw [if_pos (Or.inr (Or.inr hlen))]
        simpa using hlen
      · rw [if_neg (by rintro (h | h | h); exacts [hends (Or.inl h), hends (Or.inr h), hlen h])]
        simpa using hlen

/-! ## Fields -/

def knownKeys : List Utf16 := ["h", "p", "t", "k", "s", "n", "m", "a", "r"].map units

theorem range_number (v : Utf16) (lo hi : ℕ) :
    (ConnectLink.range v lo hi).isSome = (number v).any fun n => decide (lo ≤ n) && decide (n ≤ hi) := by
  unfold ConnectLink.range number
  split
  · rw [Option.any_some]
    split
    · rename_i hrange
      simp [hrange]
    · rename_i hrange
      rw [Option.isSome_none, eq_comm, Bool.eq_false_iff, Ne, Bool.and_eq_true, decide_eq_true_eq, decide_eq_true_eq]
      exact hrange
  · rfl

/-- A check that leaves the settings alone when it fails. -/
theorem ite_snd {p : Prop} [Decidable p] (c a : ConnectLink) :
    (if p then (c, false) else (a, true)).2 = !decide p := by
  by_cases hp : p <;> simp [hp]

theorem either_ne (v a b : Utf16) : (!decide (v ≠ a ∧ v ≠ b)) = (v == a || v == b) := by
  by_cases ha : v = a <;> by_cases hb : v = b <;> simp [ha, hb]

/-- **The checks of a field agree**, whatever the app has so far. -/
theorem valid_take {k : Utf16} (hk : k ∈ knownKeys) (c : ConnectLink) (cs : List Char) :
    valid k (some (utf16 cs)) = some (c.take k (some (utf16 cs))).2 := by
  unfold knownKeys at hk
  simp only [List.map_cons, List.map_nil, List.mem_cons, List.not_mem_nil, or_false] at hk
  rcases hk with rfl | rfl | rfl | rfl | rfl | rfl | rfl | rfl | rfl
  · have hstep : (c.take (units "h") (some (utf16 cs))).2 =
        (if 63 < (utf16 cs).length ∨ !hostMatches (utf16 cs) then (c, false) else
          ({ c with host := some (utf16 cs) }, true)).2 := rfl
    rw [hstep, ite_snd]
    refine congrArg some ?_
    cases hostMatches (utf16 cs) with
    | false => simp
    | true =>
      simp only [Bool.and_true, Bool.not_true, Bool.false_eq_true, or_false]
      rw [← decide_not]
      simp only [not_lt]
  · exact congrArg some (range_number (utf16 cs) 1 65535).symm
  · have hstep : (c.take (units "t") (some (utf16 cs))).2 =
        (if utf16 cs ≠ units "udp" ∧ utf16 cs ≠ units "tcp" then (c, false) else
          ({ c with transport := some (utf16 cs) }, true)).2 := rfl
    rw [hstep, ite_snd]
    exact congrArg some (either_ne _ _ _).symm
  · have hstep : (c.take (units "k") (some (utf16 cs))).2 =
        (if !ConnectLink.isKey (utf16 cs) then (c, false) else ({ c with pubkey := some (utf16 cs) }, true)).2 := rfl
    rw [hstep, ite_snd, isKey_eq]
    refine congrArg some ?_
    cases key (utf16 cs) <;> rfl
  · have hstep : (c.take (units "s") (some (utf16 cs))).2 =
        (if !ConnectLink.pskOk (utf16 cs) then (c, false) else ({ c with psk := some (utf16 cs) }, true)).2 := rfl
    rw [hstep, ite_snd]
    refine (psk_alike cs).trans (congrArg some ?_)
    cases ConnectLink.pskOk (utf16 cs) <;> rfl
  · have hstep : (c.take (units "n") (some (utf16 cs))).2 =
        (if !ConnectLink.nameOk (utf16 cs) then (c, false) else ({ c with name := some (utf16 cs) }, true)).2 := rfl
    rw [hstep, ite_snd]
    refine (name_alike cs).trans (congrArg some ?_)
    cases ConnectLink.nameOk (utf16 cs) <;> rfl
  · exact congrArg some (range_number (utf16 cs) 576 9000).symm
  · refine congrArg some ?_
    have hrange := range_number (utf16 cs) 0 3600
    simp only [Nat.zero_le, decide_true, Bool.true_and] at hrange
    exact hrange.symm
  · have hstep : (c.take (units "r") (some (utf16 cs))).2 =
        (if utf16 cs ≠ units "0" ∧ utf16 cs ≠ units "1" then (c, false) else
          ({ c with fullTunnel := some (utf16 cs == units "1") }, true)).2 := rfl
    rw [hstep, ite_snd]
    exact congrArg some (either_ne _ _ _).symm

/-! ## The settings of the app -/

/-- What the app holds for a key. -/
inductive Held
  | text (v : Utf16)
  | number (n : ℕ)
  | flag (b : Bool)
  deriving DecidableEq

def ConnectLink.held (c : ConnectLink) (k : Utf16) : Option Held :=
  if k = units "h" then c.host.map .text
  else if k = units "p" then c.port.map .number
  else if k = units "t" then c.transport.map .text
  else if k = units "k" then c.pubkey.map .text
  else if k = units "s" then c.psk.map .text
  else if k = units "n" then c.name.map .text
  else if k = units "m" then c.mtu.map .number
  else if k = units "a" then c.keepalive.map .number
  else if k = units "r" then c.fullTunnel.map .flag
  else none

/-- The value of a key as the app holds it: a text, a number, or whether it is 1. -/
def heldOf (k v : Utf16) : Held :=
  if [units "p", units "m", units "a"].contains k then .number (decimalValue v)
  else if k = units "r" then .flag (v == units "1")
  else .text v

theorem range_isSome {v : Utf16} {lo hi : ℕ} (h : (ConnectLink.range v lo hi).isSome = true) :
    ConnectLink.range v lo hi = some (decimalValue v) := by
  unfold ConnectLink.range at h ⊢
  split
  · rename_i hmatch
    rw [if_pos hmatch] at h
    split
    · rfl
    · rename_i hrange
      rw [if_neg hrange] at h
      cases h
  · rename_i hmatch
    rw [if_neg hmatch] at h
    cases h

theorem ite_fst {p : Prop} [Decidable p] {c a : ConnectLink} (h : (if p then (c, false) else (a, true)).2 = true) :
    (if p then (c, false) else (a, true)).1 = a := by
  by_cases hp : p
  · rw [if_pos hp] at h
    cases h
  · rw [if_neg hp]

theorem take_held {k : Utf16} (hk : k ∈ knownKeys) {c : ConnectLink} {v : Utf16}
    (h : (c.take k (some v)).2 = true) : (c.take k (some v)).1.held k = some (heldOf k v) := by
  have hset : ∀ {p : Prop} [Decidable p] {a : ConnectLink} {k : Utf16}, a.held k = some (heldOf k v) →
      (if p then (c, false) else (a, true)).2 = true →
      (if p then (c, false) else (a, true)).1.held k = some (heldOf k v) :=
    fun ha htaken => (congrArg (ConnectLink.held · _) (ite_fst htaken)).trans ha
  unfold knownKeys at hk
  simp only [List.map_cons, List.map_nil, List.mem_cons, List.not_mem_nil, or_false] at hk
  rcases hk with rfl | rfl | rfl | rfl | rfl | rfl | rfl | rfl | rfl
  · exact hset (a := { c with host := some v }) rfl h
  · exact congrArg (Option.map Held.number) (range_isSome h)
  · exact hset (a := { c with transport := some v }) rfl h
  · exact hset (a := { c with pubkey := some v }) rfl h
  · exact hset (a := { c with psk := some v }) rfl h
  · exact hset (a := { c with name := some v }) rfl h
  · exact congrArg (Option.map Held.number) (range_isSome h)
  · exact congrArg (Option.map Held.number) (range_isSome h)
  · exact hset (a := { c with fullTunnel := some (v == units "1") }) rfl h

/-- What `take` may do: nothing, or set the field of its key. -/
inductive TakeStep (c : ConnectLink) (k : Utf16) : ConnectLink → Prop
  | nothing : TakeStep c k c
  | host (x) (h : k = units "h") : TakeStep c k { c with host := x }
  | port (x) (h : k = units "p") : TakeStep c k { c with port := x }
  | transport (x) (h : k = units "t") : TakeStep c k { c with transport := x }
  | pubkey (x) (h : k = units "k") : TakeStep c k { c with pubkey := x }
  | psk (x) (h : k = units "s") : TakeStep c k { c with psk := x }
  | name (x) (h : k = units "n") : TakeStep c k { c with name := x }
  | mtu (x) (h : k = units "m") : TakeStep c k { c with mtu := x }
  | keepalive (x) (h : k = units "a") : TakeStep c k { c with keepalive := x }
  | fullTunnel (x) (h : k = units "r") : TakeStep c k { c with fullTunnel := x }

theorem takeStep_ite {p : Prop} [Decidable p] {c a : ConnectLink} {k : Utf16} (h : TakeStep c k a) :
    TakeStep c k (if p then (c, false) else (a, true)).1 := by
  split
  · exact .nothing
  · exact h

theorem take_step (c : ConnectLink) (k : Utf16) (v : Option Utf16) : TakeStep c k (c.take k v).1 := by
  unfold ConnectLink.take
  cases v with
  | none => exact .nothing
  | some v =>
    dsimp only
    split
    · exact takeStep_ite (.host _ ‹_›)
    split
    · exact .port _ ‹_›
    split
    · exact takeStep_ite (.transport _ ‹_›)
    split
    · exact takeStep_ite (.pubkey _ ‹_›)
    split
    · exact takeStep_ite (.psk _ ‹_›)
    split
    · exact takeStep_ite (.name _ ‹_›)
    split
    · exact .mtu _ ‹_›
    split
    · exact .keepalive _ ‹_›
    split
    · exact takeStep_ite (.fullTunnel _ ‹_›)
    · exact .nothing

/-- A field leaves the others alone. -/
theorem take_held_ne {k k' : Utf16} (hne : k' ≠ k) (c : ConnectLink) (v : Option Utf16) :
    (c.take k' v).1.held k = c.held k := by
  have hkey : ∀ {a : Utf16}, k' = a → ¬ k = a := fun ha hk => hne (ha.trans hk.symm)
  have hstep := take_step c k' v
  generalize (c.take k' v).1 = d at hstep ⊢
  cases hstep with
  | nothing => rfl
  | host x h => rw [ConnectLink.held, ConnectLink.held, if_neg (hkey h), if_neg (hkey h)]
  | port x h => rw [ConnectLink.held, ConnectLink.held, if_neg (hkey h), if_neg (hkey h)]
  | transport x h => rw [ConnectLink.held, ConnectLink.held, if_neg (hkey h), if_neg (hkey h)]
  | pubkey x h => rw [ConnectLink.held, ConnectLink.held, if_neg (hkey h), if_neg (hkey h)]
  | psk x h => rw [ConnectLink.held, ConnectLink.held, if_neg (hkey h), if_neg (hkey h)]
  | name x h => rw [ConnectLink.held, ConnectLink.held, if_neg (hkey h), if_neg (hkey h)]
  | mtu x h => rw [ConnectLink.held, ConnectLink.held, if_neg (hkey h), if_neg (hkey h)]
  | keepalive x h => rw [ConnectLink.held, ConnectLink.held, if_neg (hkey h), if_neg (hkey h)]
  | fullTunnel x h => rw [ConnectLink.held, ConnectLink.held, if_neg (hkey h), if_neg (hkey h)]

theorem take_rejected (c : ConnectLink) (k : Utf16) (v : Option Utf16) : (c.take k v).1.rejected = c.rejected := by
  have hstep := take_step c k v
  generalize (c.take k v).1 = d at hstep ⊢
  cases hstep <;> rfl

/-- A field that is not taken leaves its key without a value. -/
theorem take_held_none {k : Utf16} (hk : k ∈ knownKeys) {c : ConnectLink} {v : Option Utf16}
    (h : (c.take k v).2 = false) (hc : c.held k = none) : (c.take k v).1.held k = none := by
  cases v with
  | none => exact hc
  | some v =>
    have hset : ∀ {p : Prop} [Decidable p] {a : ConnectLink}, (if p then (c, false) else (a, true)).2 = false →
        (if p then (c, false) else (a, true)).1 = c := by
      intro p _ a hno
      by_cases hp : p
      · rw [if_pos hp]
      · rw [if_neg hp] at hno
        cases hno
    unfold knownKeys at hk
    simp only [List.map_cons, List.map_nil, List.mem_cons, List.not_mem_nil, or_false] at hk
    rcases hk with rfl | rfl | rfl | rfl | rfl | rfl | rfl | rfl | rfl
    · exact (congrArg (ConnectLink.held · _) (hset (a := { c with host := some v }) h)).trans hc
    · exact congrArg (Option.map Held.number) (Option.isSome_eq_false_iff.mp h |> Option.isNone_iff_eq_none.mp)
    · exact (congrArg (ConnectLink.held · _) (hset (a := { c with transport := some v }) h)).trans hc
    · exact (congrArg (ConnectLink.held · _) (hset (a := { c with pubkey := some v }) h)).trans hc
    · exact (congrArg (ConnectLink.held · _) (hset (a := { c with psk := some v }) h)).trans hc
    · exact (congrArg (ConnectLink.held · _) (hset (a := { c with name := some v }) h)).trans hc
    · exact congrArg (Option.map Held.number) (Option.isSome_eq_false_iff.mp h |> Option.isNone_iff_eq_none.mp)
    · exact congrArg (Option.map Held.number) (Option.isSome_eq_false_iff.mp h |> Option.isNone_iff_eq_none.mp)
    · exact (congrArg (ConnectLink.held · _) (hset (a := { c with fullTunnel := some (v == units "1") }) h)).trans hc

theorem known_key : ∀ k ∈ knownKeys, ConnectLink.isKnown k = true := by decide

theorem take_none (c : ConnectLink) (k : Utf16) : (c.take k none).2 = !ConnectLink.isKnown k := rfl

theorem addField_held (c : ConnectLink) (f : Utf16 × Option Utf16) (k : Utf16) :
    (c.addField f).held k = (c.take f.1 f.2).1.held k := by
  unfold ConnectLink.addField
  split <;> rfl

theorem addField_rejected (c : ConnectLink) (f : Utf16 × Option Utf16) :
    (c.addField f).rejected = c.rejected ++ if (c.take f.1 f.2).2 then [] else [f.1] := by
  unfold ConnectLink.addField
  split
  · rw [take_rejected, List.append_nil]
  · rw [← take_rejected c f.1 f.2]

theorem foldl_other {k : Utf16} {l : List (Utf16 × Option Utf16)} (h : ∀ g ∈ l, g.1 ≠ k) (c : ConnectLink) :
    (l.foldl ConnectLink.addField c).held k = c.held k ∧
      (k ∈ (l.foldl ConnectLink.addField c).rejected ↔ k ∈ c.rejected) := by
  induction l generalizing c with
  | nil => exact ⟨rfl, Iff.rfl⟩
  | cons f l ih =>
    obtain ⟨hf, hl⟩ := List.forall_mem_cons.mp h
    obtain ⟨hheld, hrejected⟩ := ih hl (c.addField f)
    rw [List.foldl_cons]
    constructor
    · rw [hheld, addField_held, take_held_ne hf]
    · rw [hrejected, addField_rejected, List.mem_append]
      refine or_iff_left fun hmem => ?_
      split at hmem
      · cases hmem
      · exact hf (List.mem_singleton.mp hmem).symm

theorem empty_held (k : Utf16) : ConnectLink.empty.held k = none := by
  unfold ConnectLink.held
  repeat' split
  all_goals rfl

/-- **A field of the list** is held when it is taken, and rejected when it is not. -/
theorem field_read {l : List (Utf16 × Option Utf16)} (hdistinct : l.Pairwise fun f g => f.1 ≠ g.1) {k : Utf16}
    (hk : k ∈ knownKeys) {v : Option Utf16} (hmem : (k, v) ∈ l) {ok : Bool} (hok : ∀ c, (ConnectLink.take c k v).2 = ok) :
    (k ∈ (l.foldl ConnectLink.addField .empty).rejected ↔ ok = false) ∧
      (l.foldl ConnectLink.addField .empty).held k = if ok then v.map (heldOf k) else none := by
  obtain ⟨before, after, rfl⟩ := List.append_of_mem hmem
  rw [List.pairwise_append, List.pairwise_cons] at hdistinct
  obtain ⟨-, ⟨hafter, -⟩, hbefore⟩ := hdistinct
  obtain ⟨hheld₀, hrejected₀⟩ := foldl_other (k := k)
    (fun g hg => hbefore g hg (k, v) (List.mem_cons_self ..)) .empty
  rw [List.foldl_append, List.foldl_cons]
  generalize before.foldl ConnectLink.addField .empty = c at hheld₀ hrejected₀ ⊢
  obtain ⟨hheld, hrejected⟩ := foldl_other (fun g hg => (hafter g hg).symm) (c.addField (k, v))
  have hno : k ∉ c.rejected := fun hin => absurd (hrejected₀.mp hin) List.not_mem_nil
  rw [hheld, hrejected, addField_rejected, addField_held, hok c]
  rw [empty_held] at hheld₀
  cases ok with
  | false =>
    simp only [Bool.false_eq_true, if_false, List.mem_append, List.mem_singleton, iff_true]
    exact ⟨Or.inr trivial, take_held_none hk (hok c) hheld₀⟩
  | true =>
    simp only [if_true, List.append_nil, Bool.true_eq_false, iff_false]
    refine ⟨hno, ?_⟩
    cases v with
    | none =>
      have hknown : (ConnectLink.take c k none).2 = false := by
        rw [take_none, known_key k hk]
        rfl
      rw [hok c] at hknown
      cases hknown
    | some v => exact take_held hk (hok c)

theorem field_absent {l : List (Utf16 × Option Utf16)} {k : Utf16} (h : ∀ v, (k, v) ∉ l) :
    k ∉ (l.foldl ConnectLink.addField .empty).rejected ∧ (l.foldl ConnectLink.addField .empty).held k = none := by
  obtain ⟨hheld, hrejected⟩ := foldl_other (k := k) (fun g hg hk => h g.2 (by rw [← hk]; exact hg)) .empty
  exact ⟨fun hin => absurd (hrejected.mp hin) List.not_mem_nil, hheld.trans (empty_held k)⟩

theorem split_distinct (utf : Charset) (fragment : Utf16) :
    (ConnectLink.split utf fragment).Pairwise fun f g => f.1 ≠ g.1 := by
  unfold ConnectLink.split
  induction fragmentPairs fragment using List.reverseRecOn with
  | nil => exact List.Pairwise.nil
  | append_singleton pairs pair ih =>
    rw [List.foldl_append, List.foldl_cons, List.foldl_nil, List.pairwise_append]
    refine ⟨ih.filter _, List.pairwise_singleton _ _, fun f hf g hg => ?_⟩
    rw [List.mem_singleton.mp hg]
    exact of_decide_eq_true (List.mem_filter.mp hf).2

/-! ## A fragment -/

/-- `location.hash` of a page with this fragment. -/
def locationHash (fragment : Utf16) : Utf16 := if fragment = [] then [] else 35 :: fragment

/-- **The app and the page read a fragment alike**: they accept the same values of the known fields, hold the same of
them, report the same as malformed, and take no escape but of ASCII. -/
structure ReadAlike (utf : Charset) (fragment : Utf16) : Prop where
  accepted : ∀ k ∈ knownKeys, ∀ v,
    ((k, some v) ∈ fields (locationHash fragment) ∧ valid k (some v) = some true) ↔
      ((k, some v) ∈ ConnectLink.split utf fragment ∧ ∀ c, (ConnectLink.take c k (some v)).2 = true)
  held : ∀ k ∈ knownKeys, ∀ x, (ConnectLink.parseFields utf fragment).held k = some x ↔
    ∃ v, (k, some v) ∈ fields (locationHash fragment) ∧ valid k (some v) = some true ∧ x = heldOf k v
  rejected : ∀ k ∈ knownKeys, k ∈ (ConnectLink.parseFields utf fragment).rejected ↔
    ∃ v, (k, v) ∈ fields (locationHash fragment) ∧ valid k v = some false
  shown : match check (locationHash fragment) with
    | .threw => False
    | .noSettings => ∃ k ∈ [units "h", units "k", units "s"], ∀ v, (k, v) ∉ ConnectLink.split utf fragment
    | .malformed keys => ∀ k ∈ knownKeys, k ∈ keys ↔ k ∈ (ConnectLink.parseFields utf fragment).rejected
    | .ready _ => ∀ k ∈ knownKeys, k ∉ (ConnectLink.parseFields utf fragment).rejected
  escapes : ∀ pair ∈ fragmentPairs fragment, ∀ e ∈ escapesTaken (pairValue pair), isHex e.1 = true ∧ isHex e.2 = true

/-- The value of a pair has no lone surrogate when the fragment has none. -/
theorem pairValue_utf16 {text : List Char} {pair : Utf16} (h : pair ∈ fragmentPairs (utf16 text)) :
    ∃ cs, pairValue pair = utf16 cs := by
  unfold fragmentPairs at h
  have hmem := (List.mem_filter.mp h).1
  rw [splitOnP_utf16 (by decide)] at hmem
  obtain ⟨part, -, rfl⟩ := List.mem_map.mp hmem
  exact dropWhile_utf16 (by decide) part

theorem locationHash_fields (fragment : Utf16) : allFields (locationHash fragment) =
    (fragmentPairs fragment).map fun pair => (pairKey pair, decodeURIComponent (pairValue pair)) := by
  unfold allFields locationHash
  split
  · rename_i hnil
    rw [hnil]
    rfl
  · rfl

section Alike

variable {utf : Charset} {text : List Char}

/-- The values that are left: malformed, or without a lone surrogate. -/
theorem split_value {k : Utf16} {v : Option Utf16} (h : (k, v) ∈ ConnectLink.split utf (utf16 text)) :
    v = none ∨ ∃ cs, v = some (utf16 cs) := by
  obtain ⟨before, after, heq, -⟩ := (mem_split utf _ _).mp h
  have hmem : (k, v) ∈ (fragmentPairs (utf16 text)).map fun pair =>
      (pairKey pair, ConnectLink.decode utf (pairValue pair)) := by
    rw [heq]
    simp
  obtain ⟨pair, -, hpair⟩ := List.mem_map.mp hmem
  obtain ⟨-, rfl⟩ := Prod.mk.inj hpair
  unfold ConnectLink.decode
  split
  · exact Or.inl rfl
  · split
    · exact Or.inr ⟨_, rfl⟩
    · exact Or.inl rfl

theorem fields_split (hascii : ∀ pair ∈ fragmentPairs (utf16 text), asciiEscapes (pairValue pair) = true)
    (f : Utf16 × Option Utf16) : f ∈ fields (locationHash (utf16 text)) ↔
      f.1 ≠ units "__proto__" ∧ f ∈ ConnectLink.split utf (utf16 text) := by
  unfold fields
  rw [mem_lastFields, locationHash_fields, mem_split]
  have hsame : ((fragmentPairs (utf16 text)).map fun pair => (pairKey pair, decodeURIComponent (pairValue pair))) =
      (fragmentPairs (utf16 text)).map fun pair => (pairKey pair, ConnectLink.decode utf (pairValue pair)) := by
    refine List.map_congr_left fun pair hpair => ?_
    obtain ⟨cs, hcs⟩ := pairValue_utf16 hpair
    have hvalue := hascii pair hpair
    rw [hcs] at hvalue ⊢
    rw [decode_eq utf hvalue]
  rw [hsame]

theorem valid_field {k : Utf16} (hk : k ∈ knownKeys) {v : Option Utf16} (h : v = none ∨ ∃ cs, v = some (utf16 cs)) :
    ∃ ok, valid k v = some ok ∧ ∀ c, (ConnectLink.take c k v).2 = ok := by
  rcases h with rfl | ⟨cs, rfl⟩
  · refine ⟨false, rfl, fun c => ?_⟩
    rw [take_none, known_key k hk]
    rfl
  · refine ⟨(ConnectLink.empty.take k (some (utf16 cs))).2, valid_take hk .empty cs, fun c => ?_⟩
    exact Option.some.inj ((valid_take hk c cs).symm.trans (valid_take hk .empty cs))

theorem valid_some {k : Utf16} {v : Option Utf16} (h : v = none ∨ ∃ cs, v = some (utf16 cs)) :
    ∃ ok, valid k v = some ok := by
  rcases h with rfl | ⟨cs, rfl⟩
  · exact ⟨false, rfl⟩
  · unfold valid
    dsimp only
    rw [psk_alike, name_alike]
    repeat' split
    all_goals exact ⟨_, rfl⟩

theorem malformedKeys_eq {l : List (Utf16 × Option Utf16)} (h : ∀ f ∈ l, ∃ ok, valid f.1 f.2 = some ok) :
    malformedKeys l = some ((l.filter fun f => checked f.1 && valid f.1 f.2 == some false).map Prod.fst) := by
  induction l with
  | nil => rfl
  | cons f l ih =>
    obtain ⟨⟨ok, hok⟩, hl⟩ := List.forall_mem_cons.mp h
    unfold malformedKeys
    rw [ih hl, List.filter_cons, hok]
    cases checked f.1 <;> cases ok <;> rfl

/-- **What the page shows** of a fragment whose values the app reads alike. -/
theorem check_eq (hvalid : ∀ f ∈ fields (locationHash (utf16 text)), ∃ ok, valid f.1 f.2 = some ok) :
    match check (locationHash (utf16 text)) with
    | .threw => False
    | .noSettings => ∃ k ∈ [units "h", units "k", units "s"], ∀ v, (k, v) ∉ fields (locationHash (utf16 text))
    | .malformed keys => ∀ k ∈ knownKeys, k ∈ keys ↔
        ∃ v, (k, v) ∈ fields (locationHash (utf16 text)) ∧ valid k v = some false
    | .ready _ => ∀ k ∈ knownKeys, ¬ ∃ v, (k, v) ∈ fields (locationHash (utf16 text)) ∧ valid k v = some false := by
  have hchecked : ∀ k ∈ knownKeys, checked k = true := by decide
  have hkeys : ∀ k ∈ knownKeys, k ∈ ((fields (locationHash (utf16 text))).filter fun f =>
      checked f.1 && valid f.1 f.2 == some false).map Prod.fst ↔
        ∃ v, (k, v) ∈ fields (locationHash (utf16 text)) ∧ valid k v = some false := by
    intro k hk
    rw [List.mem_map]
    constructor
    · rintro ⟨⟨k', v⟩, hf, rfl⟩
      obtain ⟨hmem, hbad⟩ := List.mem_filter.mp hf
      exact ⟨v, hmem, beq_iff_eq.mp (Bool.and_eq_true_iff.mp hbad).2⟩
    · rintro ⟨v, hmem, hbad⟩
      refine ⟨(k, v), List.mem_filter.mpr ⟨hmem, ?_⟩, rfl⟩
      rw [hchecked k hk, hbad]
      rfl
  unfold check
  dsimp only
  rw [malformedKeys_eq hvalid]
  generalize fields (locationHash (utf16 text)) = l at hkeys ⊢
  cases hall : ["h", "k", "s"].all fun k => l.any fun x => x.1 == units k with
  | false =>
    rw [if_neg (by decide)]
    dsimp only
    obtain ⟨k, hk, hno⟩ := List.all_eq_false.mp hall
    refine ⟨units k, ?_, fun v hv => hno (List.any_eq_true.mpr ⟨_, hv, by simp⟩)⟩
    exact List.mem_map_of_mem (f := units) hk
  | true =>
    rw [if_pos rfl]
    cases hbad : (l.filter fun f => checked f.1 && valid f.1 f.2 == some false).map Prod.fst with
    | nil =>
      rw [hbad] at hkeys
      exact fun k hk hex => absurd ((hkeys k hk).mpr hex) List.not_mem_nil
    | cons bad more =>
      rw [hbad] at hkeys
      exact hkeys

/-- **Read alike exactly when the escapes are ASCII.** -/
theorem links_alike_iff (utf : Charset) (text : List Char) : ReadAlike utf (utf16 text) ↔
    ∀ pair ∈ fragmentPairs (utf16 text), asciiEscapes (pairValue pair) = true := by
  constructor
  · exact fun h pair hpair => (escapesTaken_ascii _).mpr (h.escapes pair hpair)
  · intro hascii
    have hsplit := @fields_split utf _ hascii
    have hproto : ∀ k ∈ knownKeys, k ≠ units "__proto__" := by decide
    have hmem : ∀ k ∈ knownKeys, ∀ v, (k, v) ∈ fields (locationHash (utf16 text)) ↔
        (k, v) ∈ ConnectLink.split utf (utf16 text) := fun k hk v =>
      (hsplit (k, v)).trans (and_iff_right (hproto k hk))
    have hread : ∀ k ∈ knownKeys, ∀ v, (k, v) ∈ ConnectLink.split utf (utf16 text) → ∃ ok, valid k v = some ok ∧
        (∀ c, (ConnectLink.take c k v).2 = ok) ∧
        (k ∈ (ConnectLink.parseFields utf (utf16 text)).rejected ↔ ok = false) ∧
        (ConnectLink.parseFields utf (utf16 text)).held k = if ok then v.map (heldOf k) else none := by
      intro k hk v hv
      obtain ⟨ok, hvalid, hok⟩ := valid_field hk (split_value hv)
      obtain ⟨hrejected, hheld⟩ := field_read (split_distinct utf (utf16 text)) hk hv hok
      exact ⟨ok, hvalid, hok, hrejected, hheld⟩
    have hrejected : ∀ k ∈ knownKeys, k ∈ (ConnectLink.parseFields utf (utf16 text)).rejected ↔
        ∃ v, (k, v) ∈ fields (locationHash (utf16 text)) ∧ valid k v = some false := by
      intro k hk
      constructor
      · intro hin
        by_contra hno
        have habsent : ∀ v, (k, v) ∉ ConnectLink.split utf (utf16 text) := by
          intro v hv
          obtain ⟨ok, hvalid, -, hrej, -⟩ := hread k hk v hv
          rw [hrej.mp hin] at hvalid
          exact hno ⟨v, (hmem k hk v).mpr hv, hvalid⟩
        exact (field_absent habsent).1 hin
      · rintro ⟨v, hv, hbad⟩
        obtain ⟨ok, hvalid, -, hrej, -⟩ := hread k hk v ((hmem k hk v).mp hv)
        rw [hbad] at hvalid
        exact hrej.mpr (Option.some.inj hvalid).symm
    have hvalid : ∀ f ∈ fields (locationHash (utf16 text)), ∃ ok, valid f.1 f.2 = some ok :=
      fun f hf => valid_some (split_value ((hsplit f).mp hf).2)
    refine ⟨?_, ?_, hrejected, ?_, fun pair hpair => (escapesTaken_ascii _).mp (hascii pair hpair)⟩
    · intro k hk v
      rw [hmem k hk]
      refine and_congr_right fun hv => ?_
      obtain ⟨ok, hval, hok, -⟩ := hread k hk _ hv
      rw [hval, Option.some.injEq]
      exact ⟨fun h c => (hok c).trans h, fun h => (hok .empty).symm.trans (h .empty)⟩
    · intro k hk x
      constructor
      · intro hx
        by_cases hex : ∃ v, (k, v) ∈ ConnectLink.split utf (utf16 text)
        · obtain ⟨v, hv⟩ := hex
          obtain ⟨ok, hval, -, -, hheld⟩ := hread k hk v hv
          rw [hx] at hheld
          cases ok with
          | false => cases hheld
          | true =>
            obtain ⟨w, rfl, hw⟩ := Option.map_eq_some_iff.mp hheld.symm
            exact ⟨w, (hmem k hk _).mpr hv, hval, hw.symm⟩
        · rw [not_exists] at hex
          have hnone := (field_absent hex).2
          unfold ConnectLink.parseFields at hx
          rw [hnone] at hx
          cases hx
      · rintro ⟨v, hv, hval, rfl⟩
        obtain ⟨ok, hval', -, -, hheld⟩ := hread k hk _ ((hmem k hk _).mp hv)
        rw [hval] at hval'
        rw [hheld, ← Option.some.inj hval']
        rfl
    · have hcheck := check_eq hvalid
      cases hshown : check (locationHash (utf16 text)) with
      | threw =>
        rw [hshown] at hcheck
        exact hcheck
      | noSettings =>
        rw [hshown] at hcheck
        obtain ⟨k, hk, hno⟩ := hcheck
        have hknown : ∀ k ∈ [units "h", units "k", units "s"], k ∈ knownKeys := by decide
        exact ⟨k, hk, fun v hv => hno v ((hmem k (hknown k hk) v).mpr hv)⟩
      | malformed keys =>
        rw [hshown] at hcheck
        exact fun k hk => (hcheck k hk).trans (hrejected k hk).symm
      | ready f =>
        rw [hshown] at hcheck
        exact fun k hk hin => hcheck k hk ((hrejected k hk).mp hin)

end Alike

/-! ## Another script -/

/-- A decoder: a byte that begins no character is replaced by U+FFFD. -/
def charsOf : ℕ → Bytes → List Char
  | 0, _ => []
  | fuel + 1, bs =>
    match bs with
    | [] => []
    | b :: more =>
      match (b :: more).toByteArray.utf8DecodeChar? 0 with
      | some c => c :: charsOf fuel ((b :: more).drop (String.utf8EncodeChar c).length)
      | none => Char.ofNat 0xfffd :: charsOf fuel more

theorem charsOf_utf8 {fuel : ℕ} {cs : List Char} (h : cs.length ≤ fuel) : charsOf fuel (utf8 cs) = cs := by
  induction cs generalizing fuel with
  | nil => cases fuel <;> rfl
  | cons c cs ih =>
    obtain ⟨fuel, rfl⟩ : ∃ k, fuel = k + 1 := ⟨fuel - 1, by rw [List.length_cons] at h; omega⟩
    rw [List.length_cons] at h
    obtain ⟨b, bs, hc, -⟩ := utf8EncodeChar_shape c
    have hdecode : (utf8 (c :: cs)).toByteArray.utf8DecodeChar? 0 = some c := by
      rw [utf8_cons, List.toByteArray_append]
      exact ByteArray.utf8DecodeChar?_utf8EncodeChar_append
    rw [utf8_cons, hc, List.cons_append] at hdecode ⊢
    unfold charsOf
    dsimp only
    rw [hdecode]
    dsimp only
    rw [hc, ← List.cons_append, List.drop_left, ih (by omega)]

def Charset.replacing : Charset where
  newString bs := charsOf bs.length bs
  newString_utf8 cs := charsOf_utf8 (by
    induction cs with
    | nil => exact Nat.le_refl 0
    | cons c cs ih =>
      obtain ⟨b, bs, hc, -⟩ := utf8EncodeChar_shape c
      rw [utf8_cons, hc, List.length_append, List.length_cons, List.length_cons]
      omega)

/-- The name `A` with the digits of its escape in fullwidth: the app takes it, to the page it is malformed. -/
theorem not_links_alike : ¬ ∀ (utf : Charset) (text : List Char), ReadAlike utf (utf16 text) := by
  intro hall
  have halike := hall .replacing ['n', '=', '%', '４', '１']
  have hbytes : ConnectLink.decodeBytes (pairValue (utf16 ['n', '=', '%', '４', '１'])) = some (utf8 ['A']) := by
    decide +kernel
  have hdecode : ConnectLink.decode .replacing (pairValue (utf16 ['n', '=', '%', '４', '１'])) = some (units "A") := by
    unfold ConnectLink.decode
    rw [hbytes]
    dsimp only
    rw [Charset.newString_utf8, if_pos rfl]
    rfl
  have hsplit : (units "n", some (units "A")) ∈ ConnectLink.split .replacing (utf16 ['n', '=', '%', '４', '１']) := by
    rw [mem_split, ← hdecode]
    exact ⟨[], [], by decide +kernel, by simp⟩
  have hpage := (halike.accepted (units "n") (by decide) (units "A")).mpr ⟨hsplit, fun c => rfl⟩
  exact absurd hpage.1 (by decide +kernel)

end Camex
