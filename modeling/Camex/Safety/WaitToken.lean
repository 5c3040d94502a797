import Mathlib.Data.List.Induction
import Mathlib.Data.List.Nodup
import Camex.WaitToken

/-!
# The token of `--wait` is read back

* `tokenPath_eq`, `tokenBytes_injective`: a path in the token is one text without a comma;
* `strtoullHex_hexText`: a fingerprint is read back;
* `waitToken_eq`: the token is its entries with commas between them;
* `tokenFindFrom_joined`, `tokenLostFrom_joined`: what the loops make of them;
* `waitToken_right`: the round trip.
-/

namespace Camex.Control

open Lib

/-! ## Paths -/

def tokenBytes (path : CStr) : CStr := path.flatMap tokenByte

theorem tokenByte_cases (b : UInt8) :
    (b = 44 ∧ tokenByte b = [37, 50, 67]) ∨ (b = 37 ∧ tokenByte b = [37, 50, 53]) ∨
      (b ≠ 44 ∧ b ≠ 37 ∧ tokenByte b = [b]) := by
  unfold tokenByte
  by_cases hcomma : b = 44
  · exact Or.inl ⟨hcomma, by rw [if_pos hcomma]; rfl⟩
  · by_cases hpercent : b = 37
    · exact Or.inr (Or.inl ⟨hpercent, by rw [if_neg hcomma, if_pos hpercent]; rfl⟩)
    · exact Or.inr (Or.inr ⟨hcomma, hpercent, by rw [if_neg hcomma, if_neg hpercent]⟩)

theorem tokenByte_length (b : UInt8) : (tokenByte b).length ≤ 3 := by
  rcases tokenByte_cases b with ⟨-, h⟩ | ⟨-, h⟩ | ⟨-, -, h⟩ <;> rw [h] <;> simp

theorem tokenBytes_length (path : CStr) : (tokenBytes path).length ≤ 3 * path.length := by
  induction path with
  | nil => exact le_refl _
  | cons b path ih =>
    have hb := tokenByte_length b
    have hcons : tokenBytes (b :: path) = tokenByte b ++ tokenBytes path := rfl
    rw [hcons, List.length_append, List.length_cons]
    omega

theorem comma_notMem_tokenBytes (path : CStr) : (44 : UInt8) ∉ tokenBytes path := by
  intro h
  obtain ⟨b, -, hb⟩ := List.mem_flatMap.mp h
  rcases tokenByte_cases b with ⟨-, he⟩ | ⟨-, he⟩ | ⟨hne, -, he⟩ <;> rw [he] at hb
  · exact absurd hb (by decide)
  · exact absurd hb (by decide)
  · exact hne (List.mem_singleton.mp hb).symm

theorem tokenBytes_injective {p q : CStr} (h : tokenBytes p = tokenBytes q) : p = q := by
  induction p generalizing q with
  | nil =>
    cases q with
    | nil => rfl
    | cons c q =>
      have hcons : tokenBytes (c :: q) = tokenByte c ++ tokenBytes q := rfl
      rw [hcons] at h
      rcases tokenByte_cases c with ⟨-, he⟩ | ⟨-, he⟩ | ⟨-, -, he⟩ <;> rw [he] at h <;> cases h
  | cons b p ih =>
    cases q with
    | nil =>
      have hcons : tokenBytes (b :: p) = tokenByte b ++ tokenBytes p := rfl
      rw [hcons] at h
      rcases tokenByte_cases b with ⟨-, he⟩ | ⟨-, he⟩ | ⟨-, -, he⟩ <;> rw [he] at h <;> cases h
    | cons c q =>
      have hconsb : tokenBytes (b :: p) = tokenByte b ++ tokenBytes p := rfl
      have hconsc : tokenBytes (c :: q) = tokenByte c ++ tokenBytes q := rfl
      rw [hconsb, hconsc] at h
      -- an escape begins with a `%`, and no byte that stays as it is is one
      rcases tokenByte_cases b with ⟨hb, he⟩ | ⟨hb, he⟩ | ⟨-, hb, he⟩ <;>
        rcases tokenByte_cases c with ⟨hc, hf⟩ | ⟨hc, hf⟩ | ⟨-, hc, hf⟩ <;> rw [he, hf] at h
      all_goals simp only [List.cons_append, List.nil_append, List.cons.injEq] at h
      · rw [hb, hc, ih h.2.2.2]
      · exact absurd h.2.2.1 (by decide)
      · exact absurd h.1.symm hc
      · exact absurd h.2.2.1 (by decide)
      · rw [hb, hc, ih h.2.2.2]
      · exact absurd h.1.symm hc
      · exact absurd h.1 hb
      · exact absurd h.1 hb
      · rw [h.1, ih h.2]

theorem tokenPathFrom_eq (size : ℕ) (out path : CStr) : tokenPathFrom size out path =
    if path ≠ [] ∧ size ≤ out.length + (tokenBytes path).length then none else some (out ++ tokenBytes path) := by
  induction path generalizing out with
  | nil => simp [tokenPathFrom, tokenBytes]
  | cons b path ih =>
    have hcons : tokenBytes (b :: path) = tokenByte b ++ tokenBytes path := rfl
    unfold tokenPathFrom
    rw [ih, hcons, List.length_append, List.length_append, List.append_assoc]
    by_cases hfits : size ≤ out.length + (tokenByte b).length
    · rw [if_pos hfits, if_pos ⟨List.cons_ne_nil _ _, by omega⟩]
    · rw [if_neg hfits]
      cases path with
      | nil => rw [if_neg (by simp), if_neg (by simpa [tokenBytes] using hfits)]
      | cons c path => simp [Nat.add_assoc]

theorem tokenPath_some {path enc : CStr} (h : tokenPath TOKEN_PATH_SIZE path = some enc) : enc = tokenBytes path := by
  unfold tokenPath at h
  rw [tokenPathFrom_eq] at h
  split at h
  · cases h
  · exact (Option.some.inj h).symm

theorem tokenPath_eq (p : ControlPath) : tokenPath TOKEN_PATH_SIZE p.text = some (tokenBytes p.text) := by
  have hlen := tokenBytes_length p.text
  have hfits := p.fits
  unfold tokenPath
  rw [tokenPathFrom_eq, if_neg]
  · rfl
  · unfold TOKEN_PATH_SIZE
    simp only [List.length_nil, not_and]
    omega

/-! ## Fingerprints -/

theorem hexDigit_spec {d : ℕ} (h : d < 16) : isHex (hexDigit d) = true ∧ hexValue (hexDigit d) = d ∧
    isSpace (hexDigit d) = false ∧ hexDigit d ≠ 45 ∧ hexDigit d ≠ 43 ∧ hexDigit d ≠ 44 ∧ hexDigit d ≠ 58 ∧
    toLower (hexDigit d) ≠ 120 := by
  have hall : ∀ d : Fin 16, isHex (hexDigit d) = true ∧ hexValue (hexDigit d) = d ∧
    isSpace (hexDigit d) = false ∧ hexDigit d ≠ 45 ∧ hexDigit d ≠ 43 ∧ hexDigit d ≠ 44 ∧ hexDigit d ≠ 58 ∧
    toLower (hexDigit d) ≠ 120 := by decide +kernel
  exact hall ⟨d, h⟩

def hexDigits (n x : ℕ) : CStr := (List.range n).map fun k => hexDigit (x / 16 ^ (n - 1 - k) % 16)

theorem hexDigits_succ (n x : ℕ) : hexDigits (n + 1) x = hexDigits n (x / 16) ++ [hexDigit (x % 16)] := by
  unfold hexDigits
  rw [List.range_succ, List.map_append, List.map_singleton]
  congr 1
  · refine List.map_congr_left fun k hk => ?_
    rw [List.mem_range] at hk
    rw [Nat.div_div_eq_div_mul, ← Nat.pow_succ']
    congr 4
    omega
  · simp

theorem mem_hexDigits {n x : ℕ} {b : UInt8} (h : b ∈ hexDigits n x) : ∃ d < 16, b = hexDigit d := by
  obtain ⟨k, -, rfl⟩ := List.mem_map.mp h
  exact ⟨_, Nat.mod_lt _ (by decide), rfl⟩

theorem hexDigits_value (n x : ℕ) : (hexDigits n x).foldl (fun v b => v * 16 + hexValue b) 0 = x % 16 ^ n := by
  induction n generalizing x with
  | zero => simp [hexDigits, Nat.mod_one]
  | succ n ih =>
    rw [hexDigits_succ, List.foldl_append, ih, List.foldl_cons, List.foldl_nil,
      (hexDigit_spec (Nat.mod_lt x (by decide))).2.1, Nat.pow_succ', Nat.mod_mul]
    omega

theorem hexText_eq (h : UInt64) : hexText h = hexDigits 16 h.toNat := rfl

theorem hexText_length (h : UInt64) : (hexText h).length = 16 := by
  rw [hexText_eq]
  simp [hexDigits]

theorem strtoullHex_hexText (h : UInt64) : strtoullHex (hexText h) = some (h.toNat, []) := by
  have hvalue := hexDigits_value 16 h.toNat
  rw [← hexText_eq, Nat.mod_eq_of_lt (show h.toNat < 16 ^ 16 from h.toNat_lt)] at hvalue
  have hdigits : ∀ b ∈ hexText h, ∃ d < 16, b = hexDigit d := fun b hb => mem_hexDigits (hexText_eq h ▸ hb)
  have hlen := hexText_length h
  generalize hexText h = s at hvalue hdigits hlen
  have hhex : ∀ b ∈ s, isHex b = true := by
    intro b hb
    obtain ⟨k, hk, rfl⟩ := hdigits b hb
    exact (hexDigit_spec hk).1
  cases s with
  | nil => cases hlen
  | cons a s =>
    cases s with
    | nil => cases hlen
    | cons x s =>
      obtain ⟨i, hi, rfl⟩ := hdigits a List.mem_cons_self
      obtain ⟨j, hj, rfl⟩ := hdigits x (List.mem_cons_of_mem _ List.mem_cons_self)
      obtain ⟨-, -, hspace, hminus, hplus, -⟩ := hexDigit_spec hi
      have hx := (hexDigit_spec hj).2.2.2.2.2.2.2
      have hall := List.takeWhile_eq_self_iff.mpr hhex
      have hnone := List.dropWhile_eq_nil_iff.mpr hhex
      unfold strtoullHex
      simp only [List.dropWhile_cons, hspace, hminus, hplus, Bool.false_eq_true, if_false]
      split
      · rename_i heq
        obtain ⟨-, htail⟩ := List.cons.inj heq
        obtain ⟨hsecond, -⟩ := List.cons.inj htail
        rw [hsecond] at hx
        simp only [hx, false_and, if_false, hall, hnone, hvalue, reduceCtorEq]
      · simp only [false_and, if_false, hall, hnone, hvalue, reduceCtorEq]

/-! ## Entries -/

/-- The servers that are printed, with their fingerprints. -/
def tokenEntries (ws : List Waiter) : List (ControlPath × UInt64) := ws.filterMap fun w => w.hash.map (w.path, ·)

def entryText (e : ControlPath × UInt64) : CStr := hexText e.2 ++ 58 :: tokenBytes e.1.text

/-- Entries with commas between them. -/
def joined : List (ControlPath × UInt64) → CStr
  | [] => []
  | [e] => entryText e
  | e :: e' :: es => entryText e ++ 44 :: joined (e' :: es)

theorem joined_append (es : List (ControlPath × UInt64)) (e : ControlPath × UInt64) :
    joined (es ++ [e]) = joined es ++ (if es = [] then [] else [44]) ++ entryText e := by
  induction es with
  | nil => rfl
  | cons d es ih =>
    cases es with
    | nil =>
      rw [if_neg (List.cons_ne_nil _ _)]
      exact (List.append_cons _ _ _)
    | cons d' es =>
      rw [if_neg (List.cons_ne_nil _ _)] at ih ⊢
      have hnext : joined (d :: d' :: es ++ [e]) = entryText d ++ 44 :: joined (d' :: es ++ [e]) := rfl
      rw [hnext, ih, joined]
      simp

theorem waitToken_eq (ws : List Waiter) :
    waitToken ws = if tokenEntries ws = [] then ascii "none" else joined (tokenEntries ws) := by
  have hloop : ws.foldl printWaiter ([], false) = (joined (tokenEntries ws), decide (tokenEntries ws ≠ [])) := by
    induction ws using List.reverseRecOn with
    | nil => rfl
    | append_singleton ws w ih =>
      rw [List.foldl_append, ih, List.foldl_cons, List.foldl_nil]
      unfold printWaiter tokenEntries
      rw [List.filterMap_append]
      cases hhash : w.hash with
      | none => simp [hhash]
      | some h =>
        dsimp only
        rw [tokenPath_eq]
        have hone : ([w].filterMap fun w => w.hash.map (w.path, ·)) = [(w.path, h)] := by simp [hhash]
        rw [hone, joined_append]
        dsimp only [entryText]
        refine Prod.ext ?_ (by simp)
        dsimp only
        rw [List.append_assoc (_ ++ _)]
        split <;> split <;> simp_all
  unfold waitToken
  rw [hloop]
  dsimp only
  by_cases h : tokenEntries ws = []
  · rw [h]
    rfl
  · rw [if_neg h, decide_eq_true h]
    simp

/-! ## Reading -/

theorem strchr_none {b : UInt8} {s : CStr} (h : b ∉ s) : strchr b s = none := by
  unfold strchr
  rw [List.findIdx?_eq_none_iff]
  intro x hx
  have hne : x ≠ b := by
    rintro rfl
    exact h hx
  simpa using hne

theorem strchr_append {b : UInt8} {s : CStr} (h : b ∉ s) (t : CStr) : strchr b (s ++ b :: t) = some s.length := by
  have hnone : s.findIdx? (· == b) = none := strchr_none h
  unfold strchr
  rw [List.findIdx?_append, hnone, List.findIdx?_cons]
  simp

theorem comma_notMem_entryText (e : ControlPath × UInt64) : (44 : UInt8) ∉ entryText e := by
  intro h
  unfold entryText at h
  rcases List.mem_append.mp h with h | h
  · obtain ⟨d, hd, heq⟩ := mem_hexDigits (hexText_eq e.2 ▸ h)
    exact (hexDigit_spec hd).2.2.2.2.2.1 heq.symm
  · rcases List.mem_cons.mp h with h | h
    · cases h
    · exact comma_notMem_tokenBytes _ h

theorem entryText_length (e : ControlPath × UInt64) : (entryText e).length = 17 + (tokenBytes e.1.text).length := by
  unfold entryText
  rw [List.length_append, hexText_length, List.length_cons]
  omega

/-- What a reader sees of a token that begins with an entry. -/
structure AtEntry (p : CStr) (e : ControlPath × UInt64) (rest : Option CStr) : Prop where
  ne_nil : p ≠ []
  elen : (strchr 44 p).getD p.length = (entryText e).length
  next : (strchr 44 p).map (fun c => p.drop (c + 1)) = rest
  colon : strchr 58 p = some 16
  hash : p.take 16 = hexText e.2
  path : ∀ path, entryHasPath p 16 (entryText e).length path = decide (tokenBytes e.1.text = path)

theorem atEntry (e : ControlPath × UInt64) (tail : CStr) (h : tail = [] ∨ ∃ r, tail = 44 :: r) :
    AtEntry (entryText e ++ tail) e (if tail = [] then none else some tail.tail) := by
  have hlen := entryText_length e
  have hcolon : (58 : UInt8) ∉ hexText e.2 := by
    intro h
    obtain ⟨d, hd, heq⟩ := mem_hexDigits (hexText_eq e.2 ▸ h)
    exact (hexDigit_spec hd).2.2.2.2.2.2.1 heq.symm
  have hshape : entryText e ++ tail = hexText e.2 ++ 58 :: (tokenBytes e.1.text ++ tail) := by
    simp [entryText]
  have hdrop : (entryText e ++ tail).drop 17 = tokenBytes e.1.text ++ tail := by
    rw [hshape, List.append_cons, List.drop_left' (by rw [List.length_append, hexText_length]; rfl)]
  refine ⟨by simp [entryText], ?_, ?_, ?_, ?_, fun path => ?_⟩
  · rcases h with rfl | ⟨r, rfl⟩
    · rw [List.append_nil, strchr_none (comma_notMem_entryText e)]
      rfl
    · rw [strchr_append (comma_notMem_entryText e)]
      rfl
  · rcases h with rfl | ⟨r, rfl⟩
    · rw [List.append_nil, strchr_none (comma_notMem_entryText e), if_pos rfl]
      rfl
    · rw [strchr_append (comma_notMem_entryText e), if_neg (List.cons_ne_nil _ _), Option.map_some, List.append_cons,
        List.drop_left' (by simp)]
      rfl
  · rw [hshape, strchr_append hcolon, hexText_length]
  · rw [hshape, List.take_left' (hexText_length _)]
  · unfold entryHasPath
    rw [hdrop, hlen, show 17 + (tokenBytes e.1.text).length - 16 - 1 = (tokenBytes e.1.text).length by omega]
    by_cases heq : tokenBytes e.1.text = path
    · rw [decide_eq_true heq, ← heq]
      simp
    · rw [decide_eq_false heq]
      by_cases hsame : (tokenBytes e.1.text).length = path.length
      · rw [← hsame, List.take_left]
        simpa using heq
      · simp [hsame]

def joinedTail (es : List (ControlPath × UInt64)) : CStr := if es = [] then [] else 44 :: joined es

theorem joined_cons (e : ControlPath × UInt64) (es : List (ControlPath × UInt64)) :
    joined (e :: es) = entryText e ++ joinedTail es := by
  cases es with
  | nil => simp [joined, joinedTail]
  | cons e' es => rfl

theorem joined_atEntry (e : ControlPath × UInt64) (es : List (ControlPath × UInt64)) :
    AtEntry (joined (e :: es)) e (if es = [] then none else some (joined es)) := by
  rw [joined_cons]
  have h := atEntry e (joinedTail es) (by
    unfold joinedTail
    split
    · exact Or.inl rfl
    · exact Or.inr ⟨_, rfl⟩)
  cases es with
  | nil => exact h
  | cons e' es => exact h

theorem joined_next (e : ControlPath × UInt64) (es : List (ControlPath × UInt64)) :
    (es = [] ∧ strchr 44 (joined (e :: es)) = none) ∨
      ∃ comma, strchr 44 (joined (e :: es)) = some comma ∧ (joined (e :: es)).drop (comma + 1) = joined es := by
  have hnext := (joined_atEntry e es).next
  cases hcomma : strchr 44 (joined (e :: es)) with
  | none =>
    rw [hcomma] at hnext
    split at hnext
    · exact Or.inl ⟨‹es = []›, rfl⟩
    · cases hnext
  | some comma =>
    rw [hcomma] at hnext
    split at hnext
    · cases hnext
    · exact Or.inr ⟨comma, rfl, Option.some.inj hnext⟩

theorem joined_length (es : List (ControlPath × UInt64)) : es.length ≤ (joined es).length := by
  induction es with
  | nil => exact le_refl _
  | cons e es ih =>
    have hlen := entryText_length e
    rw [joined_cons, List.length_append, List.length_cons]
    unfold joinedTail
    split
    · rename_i hnil
      rw [hnil]
      simp only [List.length_nil]
      omega
    · rw [List.length_cons]
      omega

/-- `token_find` answers the first entry with the path. -/
theorem tokenFindFrom_joined (path : CStr) (es : List (ControlPath × UInt64)) {fuel : ℕ} (hfuel : es.length < fuel) :
    tokenFindFrom path fuel (joined es) =
      (es.find? fun e => decide (tokenBytes e.1.text = path)).map Prod.snd := by
  induction es generalizing fuel with
  | nil =>
    cases fuel with
    | zero => omega
    | succ fuel => rfl
  | cons e es ih =>
    cases fuel with
    | zero => omega
    | succ fuel =>
      have hat := joined_atEntry e es
      have hlen := entryText_length e
      unfold tokenFindFrom
      rw [if_neg hat.ne_nil]
      dsimp only
      rw [hat.elen, hat.colon, hat.hash, strtoullHex_hexText]
      have hfound : ((some 16).any fun colon => decide (colon < (entryText e).length ∧ colon = 16) &&
          entryHasPath (joined (e :: es)) colon (entryText e).length path) = decide (tokenBytes e.1.text = path) := by
        rw [Option.any_some, hat.path]
        have hroom : 16 < (entryText e).length := by omega
        simp [hroom]
      rw [hfound]
      by_cases heq : tokenBytes e.1.text = path
      · rw [decide_eq_true heq, if_pos rfl, List.find?_cons_of_pos (by simpa using heq)]
        simp
      · rw [decide_eq_false heq, if_neg Bool.false_ne_true, List.find?_cons_of_neg (by simpa using heq)]
        rw [List.length_cons] at hfuel
        rcases joined_next e es with ⟨rfl, hlast⟩ | ⟨comma, hcomma, hdrop⟩
        · rw [hlast]
          rfl
        · rw [hcomma]
          dsimp only
          rw [hdrop]
          exact ih (by omega)

/-- `token_lost` looks for an entry that is none of the servers'. -/
theorem tokenLostFrom_joined (servers : List ControlPath) (es : List (ControlPath × UInt64)) {fuel : ℕ}
    (hfuel : es.length < fuel) : tokenLostFrom servers fuel (joined es) =
      es.any fun e => !(servers.any fun w => decide (tokenBytes e.1.text = tokenBytes w.text)) := by
  induction es generalizing fuel with
  | nil =>
    cases fuel with
    | zero => omega
    | succ fuel => rfl
  | cons e es ih =>
    cases fuel with
    | zero => omega
    | succ fuel =>
      have hat := joined_atEntry e es
      have hlen := entryText_length e
      unfold tokenLostFrom
      rw [if_neg hat.ne_nil]
      dsimp only
      rw [hat.elen, hat.colon]
      dsimp only
      rw [if_neg (by omega)]
      have hlisted : entryListed (joined (e :: es)) 16 (entryText e).length servers =
          servers.any fun w => decide (tokenBytes e.1.text = tokenBytes w.text) := by
        unfold entryListed
        refine List.any_congr rfl fun w => ?_
        rw [tokenPath_eq, Option.any_some, hat.path]
      rw [hlisted, List.any_cons]
      cases servers.any fun w => decide (tokenBytes e.1.text = tokenBytes w.text) with
      | false => rfl
      | true =>
        rw [Bool.not_true, if_neg Bool.false_ne_true, Bool.false_or]
        rw [List.length_cons] at hfuel
        rcases joined_next e es with ⟨rfl, hlast⟩ | ⟨comma, hcomma, hdrop⟩
        · rw [hlast]
          rfl
        · rw [hcomma]
          dsimp only
          rw [hdrop]
          exact ih (by omega)

/-! ## The round trip -/

/-- What is read from the token of some servers. -/
structure WaitTokenRight (ws : List Waiter) : Prop where
  finds : ∀ e ∈ tokenEntries ws, tokenFind (tokenArg (waitToken ws)) e.1.text = some e.2
  others : ∀ path, (∀ e ∈ tokenEntries ws, e.1.text ≠ path) → tokenFind (tokenArg (waitToken ws)) path = none
  lost : ∀ servers, tokenLost (tokenArg (waitToken ws)) servers = false ↔ ∀ e ∈ tokenEntries ws, e.1 ∈ servers

theorem tokenArg_waitToken (ws : List Waiter) : tokenArg (waitToken ws) = joined (tokenEntries ws) := by
  rw [waitToken_eq]
  cases hentries : tokenEntries ws with
  | nil => rfl
  | cons e es =>
    rw [if_neg (List.cons_ne_nil _ _)]
    have hlen : 17 ≤ (joined (e :: es)).length := by
      have := entryText_length e
      rw [joined_cons, List.length_append]
      omega
    refine if_neg fun h => ?_
    rcases h with h | h <;> rw [h] at hlen <;> exact absurd hlen (by decide)

theorem tokenFind_some {token path : CStr} {h : UInt64} (hfind : tokenFind token path = some h) :
    tokenFindFrom (tokenBytes path) (token.length + 1) token = some h := by
  unfold tokenFind at hfind
  split at hfind
  · cases hfind
  · rename_i enc henc
    rwa [← tokenPath_some henc]

theorem tokenEntries_distinct {ws : List Waiter} (h : (ws.map (·.path)).Nodup) :
    ((tokenEntries ws).map Prod.fst).Nodup := by
  refine h.sublist ?_
  unfold tokenEntries
  induction ws with
  | nil => exact .slnil
  | cons w ws ih =>
    have hrest := ih (List.nodup_cons.mp h).2
    rw [List.filterMap_cons, List.map_cons]
    cases w.hash with
    | none => exact hrest.cons _
    | some _ => exact hrest.cons_cons _

/-- **The token is read back**, whatever the paths of the servers. -/
theorem waitToken_right {ws : List Waiter} (h : (ws.map (·.path)).Nodup) : WaitTokenRight ws := by
  have hdistinct := tokenEntries_distinct h
  have hlen := joined_length (tokenEntries ws)
  have hloop : ∀ path, tokenFindFrom (tokenBytes path) ((joined (tokenEntries ws)).length + 1) (joined (tokenEntries ws)) =
      ((tokenEntries ws).find? fun e => decide (e.1.text = path)).map Prod.snd := by
    intro path
    rw [tokenFindFrom_joined _ _ (by omega)]
    congr 2
    funext e
    exact decide_eq_decide.mpr ⟨tokenBytes_injective, congrArg tokenBytes⟩
  constructor
  · intro e he
    unfold tokenFind
    rw [tokenPath_eq, tokenArg_waitToken]
    dsimp only
    rw [hloop]
    cases hfind : (tokenEntries ws).find? fun e' => decide (e'.1.text = e.1.text) with
    | none =>
      have := List.find?_eq_none.mp hfind e he
      simp at this
    | some e' =>
      have hsame : e'.1.text = e.1.text := by simpa using List.find?_some hfind
      have hpath : e'.1 = e.1 := by
        cases h' : e'.1
        cases h'' : e.1
        rw [h', h''] at hsame
        cases hsame
        rfl
      rw [List.inj_on_of_nodup_map hdistinct (List.mem_of_find?_eq_some hfind) he hpath]
      rfl
  · intro path hpath
    rw [tokenArg_waitToken]
    cases hfind : tokenFind (joined (tokenEntries ws)) path with
    | none => rfl
    | some h' =>
      have hsome := tokenFind_some hfind
      rw [hloop, Option.map_eq_some_iff] at hsome
      obtain ⟨e, he, -⟩ := hsome
      have heq : e.1.text = path := by simpa using List.find?_some he
      exact absurd heq (hpath e (List.mem_of_find?_eq_some he))
  · intro servers
    unfold tokenLost
    rw [tokenArg_waitToken, tokenLostFrom_joined _ _ (by omega), List.any_eq_false]
    refine forall₂_congr fun e _ => ?_
    rw [Bool.not_eq_true, Bool.not_eq_false', List.any_eq_true]
    constructor
    · rintro ⟨w, hw, heq⟩
      have htext := tokenBytes_injective (of_decide_eq_true heq)
      have hpath : e.1 = w := by
        cases h' : e.1
        cases w
        rw [h'] at htext
        cases htext
        rfl
      rwa [hpath]
    · exact fun hmem => ⟨e.1, hmem, decide_eq_true rfl⟩

/-- Two servers whose paths are no more than separators of the token. -/
theorem waitToken_right_separators : WaitTokenRight
    [⟨⟨ascii "a,b", by decide⟩, some 1, none, false⟩, ⟨⟨ascii "a:%2Cb", by decide⟩, none, some 2, false⟩] :=
  waitToken_right (by decide)

end Camex.Control
