import Camex.Lib.Unicode

/-!
# JSON

* `Json.Text`: the grammar of RFC 8259, a value and a text of it;
* `Json.read`: a reader of texts;
* `Json.Text.read_eq`: the reader reads every text of a value as that value.

A number is kept as it is written. An escape of a lone surrogate is no character and is in no text.
-/

namespace Camex.Lib

inductive Json
  | null
  | bool (b : Bool)
  | number (text : List Char)
  | string (value : List Char)
  | array (items : List Json)
  | object (members : List (List Char × Json))

namespace Json

def member (v : Json) (name : List Char) : Option Json :=
  match v with
  | .object members => members.lookup name
  | _ => none

/-! ## The grammar -/

def isBlank (c : Char) : Bool := c == ' ' || c == '\t' || c == '\n' || c == '\r'

/-- `ws`. -/
def Blank (w : List Char) : Prop := ∀ c ∈ w, isBlank c = true

/-- The characters that have an escape of their own, with it. -/
def escapes : List (Char × Char) :=
  [('\"', '\"'), ('\\', '\\'), ('/', '/'), ('b', '\x08'), ('f', '\x0c'), ('n', '\n'), ('r', '\r'), ('t', '\t')]

def hexDigit (c : Char) : Option ℕ :=
  if '0' ≤ c ∧ c ≤ '9' then some (c.toNat - 48)
  else if 'a' ≤ c ∧ c ≤ 'f' then some (c.toNat - 87)
  else if 'A' ≤ c ∧ c ≤ 'F' then some (c.toNat - 55)
  else none

/-- The unit of four hexadecimal digits, and what is behind them. -/
def hexUnit : List Char → Option (UInt16 × List Char)
  | a :: b :: c :: d :: s =>
    match hexDigit a, hexDigit b, hexDigit c, hexDigit d with
    | some a, some b, some c, some d => some (UInt16.ofNat (((a * 16 + b) * 16 + c) * 16 + d), s)
    | _, _, _, _ => none
  | _ => none

/-- `char`: how a character can stand in a string. -/
inductive CharText : Char → List Char → Prop
  | plain {c : Char} (hlow : 0x20 ≤ c.toNat) (hquote : c ≠ '\"') (hslash : c ≠ '\\') : CharText c [c]
  | escape {e c : Char} (h : (e, c) ∈ escapes) : CharText c ['\\', e]
  | unit {u : UInt16} {t : List Char} (ht : hexUnit t = some (u, [])) (hu : isSurrogate u = false) :
    CharText (Char.ofNat u.toNat) ('\\' :: 'u' :: t)
  | pair {hi lo : UInt16} {t t' : List Char} (ht : hexUnit t = some (hi, [])) (ht' : hexUnit t' = some (lo, []))
    (hhi : isHighSurrogate hi = true) (hlo : isLowSurrogate lo = true) :
    CharText (Char.ofNat (pairPoint hi lo)) ('\\' :: 'u' :: t ++ '\\' :: 'u' :: t')

/-- The characters between the quotes. -/
inductive CharsText : List Char → List Char → Prop
  | nil : CharsText [] []
  | cons {c : Char} {cs t r : List Char} (hc : CharText c t) (hcs : CharsText cs r) : CharsText (c :: cs) (t ++ r)

/-- How much of a number was read. -/
inductive NumberState
  | start
  | minus
  | zero
  | int
  | point
  | frac
  | e
  | sign
  | exp
  deriving DecidableEq

/-- A character of `number`: `[ minus ] int [ frac ] [ exp ]`. -/
def numberStep (q : NumberState) (c : Char) : Option NumberState :=
  if c.isDigit then
    match q with
    | .start | .minus => some (if c = '0' then .zero else .int)
    | .zero => none
    | .int => some .int
    | .point | .frac => some .frac
    | .e | .sign | .exp => some .exp
  else
    match q with
    | .start => if c = '-' then some .minus else none
    | .zero | .int => if c = '.' then some .point else if c = 'e' ∨ c = 'E' then some .e else none
    | .frac => if c = 'e' ∨ c = 'E' then some .e else none
    | .e => if c = '+' ∨ c = '-' then some .sign else none
    | .minus | .point | .sign | .exp => none

def NumberState.ends : NumberState → Bool
  | .zero | .int | .frac | .exp => true
  | _ => false

def isNumber (t : List Char) : Bool := (t.foldlM numberStep .start).any NumberState.ends

/-- A member of an object: its name and its value, and how they are written. -/
structure Member where
  name : List Char
  value : Json
  nameText : List Char
  valueText : List Char

/-- Texts with `c` between each two. -/
def separated {α : Type} (c : α) (ts : List (List α)) : List α := [c].intercalate ts

/-- **A text of a value**, with any blanks around it. -/
inductive Text : Json → List Char → Prop
  | blank {v : Json} {t w w' : List Char} (hw : Blank w) (hw' : Blank w') (h : Text v t) : Text v (w ++ t ++ w')
  | null : Text .null ['n', 'u', 'l', 'l']
  | true : Text (.bool true) ['t', 'r', 'u', 'e']
  | false : Text (.bool false) ['f', 'a', 'l', 's', 'e']
  | number {t : List Char} (h : isNumber t = Bool.true) : Text (.number t) t
  | string {cs t : List Char} (h : CharsText cs t) : Text (.string cs) ('\"' :: (t ++ ['\"']))
  | emptyArray {w : List Char} (hw : Blank w) : Text (.array []) ('[' :: (w ++ [']']))
  | array {items : List (Json × List Char)} (hne : items ≠ []) (h : ∀ i ∈ items, Text i.1 i.2) :
    Text (.array (items.map Prod.fst)) ('[' :: (separated ',' (items.map Prod.snd) ++ [']']))
  | emptyObject {w : List Char} (hw : Blank w) : Text (.object []) ('\x7b' :: (w ++ ['\x7d']))
  | object {members : List Member} (hne : members ≠ []) (hname : ∀ m ∈ members, Text (.string m.name) m.nameText)
    (h : ∀ m ∈ members, Text m.value m.valueText) :
    Text (.object (members.map fun m => (m.name, m.value)))
      ('\x7b' :: (separated ',' (members.map fun m => m.nameText ++ ':' :: m.valueText) ++ ['\x7d']))

/-! ## The reader -/

def skip (s : List Char) : List Char := s.dropWhile isBlank

def readEscape : List Char → Option (Char × List Char)
  | [] => none
  | e :: s =>
    if e = 'u' then
      match hexUnit s with
      | none => none
      | some (u, s) =>
        if isSurrogate u then
          match s with
          | x :: y :: s =>
            match hexUnit s with
            | none => none
            | some (lo, s) =>
              if x = '\\' ∧ y = 'u' ∧ isHighSurrogate u ∧ isLowSurrogate lo then some (Char.ofNat (pairPoint u lo), s)
              else none
          | _ => none
        else some (Char.ofNat u.toNat, s)
    else (escapes.lookup e).map fun c => (c, s)

def readChar : List Char → Option (Char × List Char)
  | [] => none
  | c :: s => if c = '\\' then readEscape s else if c.toNat < 0x20 then none else some (c, s)

/-- A string behind its first quote; `fuel`: more than the length of the text. -/
def readChars : ℕ → List Char → Option (List Char × List Char)
  | 0, _ => none
  | fuel + 1, s =>
    if s.head? = some '\"' then some ([], s.tail)
    else
      match readChar s with
      | none => none
      | some (c, s) => (readChars fuel s).map fun r => (c :: r.1, r.2)

def isNumberChar (c : Char) : Bool := c.isDigit || c == '-' || c == '+' || c == '.' || c == 'e' || c == 'E'

def readNumber (s : List Char) : Option (Json × List Char) :=
  if isNumber (s.takeWhile isNumberChar) then some (.number (s.takeWhile isNumberChar), s.dropWhile isNumberChar)
  else none

/-- A value that begins with this character and is no string, array or object. -/
def readAtom (c : Char) (s : List Char) : Option (Json × List Char) :=
  if c = 'n' then if s.take 3 = ['u', 'l', 'l'] then some (.null, s.drop 3) else none
  else if c = 't' then if s.take 3 = ['r', 'u', 'e'] then some (.bool true, s.drop 3) else none
  else if c = 'f' then if s.take 4 = ['a', 'l', 's', 'e'] then some (.bool false, s.drop 4) else none
  else readNumber (c :: s)

mutual

/-- A value with the blanks around it, and what is behind it; `fuel`: more than the length of the text. -/
def readValue : ℕ → List Char → Option (Json × List Char)
  | 0, _ => none
  | fuel + 1, s =>
    match skip s with
    | [] => none
    | c :: s =>
      (if c = '\"' then (readChars (s.length + 1) s).map fun r => (.string r.1, r.2)
        else if c = '[' then
          if (skip s).head? = some ']' then some (.array [], (skip s).tail)
          else (readItems fuel s).map fun r => (.array r.1, r.2)
        else if c = '\x7b' then
          if (skip s).head? = some '\x7d' then some (.object [], (skip s).tail)
          else (readMembers fuel s).map fun r => (.object r.1, r.2)
        else readAtom c s).map fun r => (r.1, skip r.2)

/-- The values of an array, to its end. -/
def readItems : ℕ → List Char → Option (List Json × List Char)
  | 0, _ => none
  | fuel + 1, s =>
    match readValue fuel s with
    | some (v, c :: s) =>
      if c = ']' then some ([v], s)
      else if c = ',' then (readItems fuel s).map fun r => (v :: r.1, r.2)
      else none
    | _ => none

def readMembers : ℕ → List Char → Option (List (List Char × Json) × List Char)
  | 0, _ => none
  | fuel + 1, s =>
    match readValue fuel s with
    | some (.string name, colon :: s) =>
      if colon = ':' then
        match readValue fuel s with
        | some (v, c :: s) =>
          if c = '\x7d' then some ([(name, v)], s)
          else if c = ',' then (readMembers fuel s).map fun r => ((name, v) :: r.1, r.2)
          else none
        | _ => none
      else none
    | _ => none

end

def read (s : List Char) : Option Json :=
  match readValue (s.length + 1) s with
  | some (v, []) => some v
  | _ => none

/-! ## Texts are read -/

theorem skip_append {w : List Char} (hw : Blank w) (s : List Char) : skip (w ++ s) = skip s :=
  List.dropWhile_append_of_pos hw

theorem skip_cons {c : Char} (hc : isBlank c = false) (s : List Char) : skip (c :: s) = c :: s :=
  List.dropWhile_cons_of_neg (by simp [hc])

/-- What is behind a value does not go on with a number. -/
def Ends (rest : List Char) : Prop := ∀ c, rest.head? = some c → isNumberChar c = false

theorem isBlank_cases {c : Char} (h : isBlank c = true) : c = ' ' ∨ c = '\t' ∨ c = '\n' ∨ c = '\r' := by
  simpa [isBlank, or_assoc] using h

theorem Ends.blank {w rest : List Char} (hw : Blank w) (h : Ends rest) : Ends (w ++ rest) := by
  cases w with
  | nil => exact h
  | cons c w =>
    intro d hd
    rw [List.cons_append, List.head?_cons, Option.some.injEq] at hd
    subst hd
    rcases isBlank_cases (hw c List.mem_cons_self) with rfl | rfl | rfl | rfl <;> rfl

theorem ends_cons {c : Char} (hc : isNumberChar c = false) (rest : List Char) : Ends (c :: rest) := by
  rintro d hd
  rw [List.head?_cons, Option.some.injEq] at hd
  rwa [← hd]

/-! ### Strings -/

theorem hexUnit_append {t : List Char} {u : UInt16} (h : hexUnit t = some (u, [])) (rest : List Char) :
    hexUnit (t ++ rest) = some (u, rest) := by
  unfold hexUnit at h
  split at h
  · rename_i a b c d s
    split at h
    · rename_i ha hb hc hd
      obtain ⟨hu, rfl⟩ := Prod.mk.inj (Option.some.inj h)
      show hexUnit (a :: b :: c :: d :: rest) = _
      unfold hexUnit
      dsimp only
      rw [ha, hb, hc, hd]
      dsimp only
      rw [hu]
    · cases h
  · cases h

theorem escapes_lookup {e c : Char} (h : (e, c) ∈ escapes) : e ≠ 'u' ∧ escapes.lookup e = some c := by
  simp only [escapes, List.mem_cons, Prod.mk.injEq, List.not_mem_nil, or_false] at h
  rcases h with ⟨rfl, rfl⟩ | ⟨rfl, rfl⟩ | ⟨rfl, rfl⟩ | ⟨rfl, rfl⟩ | ⟨rfl, rfl⟩ | ⟨rfl, rfl⟩ | ⟨rfl, rfl⟩ | ⟨rfl, rfl⟩ <;>
    exact ⟨by decide, by decide⟩

theorem CharText.read_eq {c : Char} {t : List Char} (h : CharText c t) (rest : List Char) :
    (t ++ rest).head? ≠ some '\"' ∧ readChar (t ++ rest) = some (c, rest) := by
  cases h with
  | plain hlow hquote hslash =>
    refine ⟨fun hhead => hquote (Option.some.inj hhead), ?_⟩
    unfold readChar
    dsimp only [List.cons_append, List.nil_append]
    rw [if_neg hslash, if_neg (by omega)]
  | escape h =>
    obtain ⟨hu, hlookup⟩ := escapes_lookup h
    refine ⟨by simp, ?_⟩
    unfold readChar
    dsimp only [List.cons_append, List.nil_append]
    rw [if_pos rfl]
    unfold readEscape
    dsimp only
    rw [if_neg hu, hlookup]
    rfl
  | unit ht hu =>
    refine ⟨by simp, ?_⟩
    unfold readChar
    dsimp only [List.cons_append]
    rw [if_pos rfl]
    unfold readEscape
    dsimp only
    rw [if_pos rfl, hexUnit_append ht]
    dsimp only
    rw [hu, if_neg Bool.false_ne_true]
  | @pair hi lo t t' ht ht' hhi hlo =>
    have hsurrogate : isSurrogate hi = true := by
      rw [isHighSurrogate_iff] at hhi
      rw [isSurrogate_iff]
      omega
    refine ⟨by simp, ?_⟩
    unfold readChar
    dsimp only [List.cons_append]
    rw [if_pos rfl, List.append_assoc]
    unfold readEscape
    dsimp only
    rw [if_pos rfl, hexUnit_append ht]
    dsimp only [List.cons_append]
    rw [hsurrogate, if_pos rfl, hexUnit_append ht']
    dsimp only
    rw [if_pos ⟨rfl, rfl, hhi, hlo⟩]

theorem CharText.length_pos {c : Char} {t : List Char} (h : CharText c t) : 0 < t.length := by
  cases h <;> simp

theorem CharsText.read_eq {cs t : List Char} (h : CharsText cs t) {rest : List Char} {fuel : ℕ} (hfuel : t.length < fuel) :
    readChars fuel (t ++ '\"' :: rest) = some (cs, rest) := by
  induction h generalizing fuel with
  | nil =>
    obtain ⟨fuel, rfl⟩ := Nat.exists_eq_add_of_lt hfuel
    rfl
  | @cons c cs t r hc _ ih =>
    cases fuel with
    | zero => exact absurd hfuel (Nat.not_lt_zero _)
    | succ fuel =>
      have hpos := hc.length_pos
      rw [List.length_append] at hfuel
      rw [List.append_assoc]
      obtain ⟨hquote, hread⟩ := hc.read_eq (r ++ '\"' :: rest)
      unfold readChars
      rw [if_neg hquote, hread]
      dsimp only
      rw [ih (by omega)]
      rfl

/-! ### Numbers -/

theorem numberStep_char {q q' : NumberState} {c : Char} (h : numberStep q c = some q') : isNumberChar c = true := by
  unfold numberStep at h
  unfold isNumberChar
  split at h
  · rename_i hdigit
    rw [hdigit]
    rfl
  · simp only [Bool.or_eq_true, beq_iff_eq]
    cases q with
    | minus | point | sign | exp => cases h
    | start | frac | e =>
      dsimp only at h
      split at h
      · rename_i hc
        tauto
      · cases h
    | zero | int =>
      dsimp only at h
      split at h
      · rename_i hc
        tauto
      · split at h
        · rename_i hc
          tauto
        · cases h

theorem foldlM_numberStep {t : List Char} {q q' : NumberState} (h : t.foldlM numberStep q = some q') :
    ∀ c ∈ t, isNumberChar c = true := by
  induction t generalizing q with
  | nil => exact fun c hc => absurd hc List.not_mem_nil
  | cons c t ih =>
    rw [List.foldlM_cons] at h
    obtain ⟨q₁, hstep, hrest⟩ := Option.bind_eq_some_iff.mp h
    exact List.forall_mem_cons.mpr ⟨numberStep_char hstep, ih hrest⟩

theorem isNumber_chars {t : List Char} (h : isNumber t = true) : t ≠ [] ∧ ∀ c ∈ t, isNumberChar c = true := by
  unfold isNumber at h
  obtain ⟨q, hq, hends⟩ := (Option.any_eq_true _ _).mp h
  refine ⟨?_, foldlM_numberStep hq⟩
  rintro rfl
  cases hq
  cases hends

theorem readNumber_eq {t rest : List Char} (h : isNumber t = true) (hrest : Ends rest) :
    readNumber (t ++ rest) = some (.number t, rest) := by
  obtain ⟨-, hchars⟩ := isNumber_chars h
  have hstop : rest.takeWhile isNumberChar = [] ∧ rest.dropWhile isNumberChar = rest := by
    cases rest with
    | nil => exact ⟨rfl, rfl⟩
    | cons c rest =>
      have hc := hrest c rfl
      exact ⟨List.takeWhile_cons_of_neg (by simp [hc]), List.dropWhile_cons_of_neg (by simp [hc])⟩
  unfold readNumber
  rw [List.takeWhile_append_of_pos hchars, List.dropWhile_append_of_pos hchars, hstop.1, hstop.2, List.append_nil, if_pos h]

/-! ### Values -/

theorem Text.head {v : Json} {t : List Char} (h : Text v t) :
    ∃ c r, c ≠ ']' ∧ c ≠ '\x7d' ∧ ∀ rest, skip (t ++ rest) = c :: (r ++ rest) := by
  induction h with
  | blank hw hw' _ ih =>
    rename_i w w' _
    obtain ⟨c, r, hbracket, hbrace, hskip⟩ := ih
    refine ⟨c, r ++ w', hbracket, hbrace, fun rest => ?_⟩
    rw [List.append_assoc, List.append_assoc, skip_append hw, hskip, List.append_assoc]
  | null => exact ⟨_, _, by decide, by decide, fun rest => skip_cons rfl _⟩
  | true => exact ⟨_, _, by decide, by decide, fun rest => skip_cons rfl _⟩
  | false => exact ⟨_, _, by decide, by decide, fun rest => skip_cons rfl _⟩
  | @number t h =>
    obtain ⟨hne, hchars⟩ := isNumber_chars h
    obtain ⟨c, r, rfl⟩ := List.exists_cons_of_ne_nil hne
    have hc := hchars c List.mem_cons_self
    refine ⟨c, r, ?_, ?_, fun rest => skip_cons ?_ _⟩
    · rintro rfl
      cases hc
    · rintro rfl
      cases hc
    · rw [Bool.eq_false_iff]
      intro hblank
      rcases isBlank_cases hblank with rfl | rfl | rfl | rfl <;> cases hc
  | string _ => exact ⟨_, _, by decide, by decide, fun rest => skip_cons rfl _⟩
  | emptyArray _ => exact ⟨_, _, by decide, by decide, fun rest => skip_cons rfl _⟩
  | array _ _ _ => exact ⟨_, _, by decide, by decide, fun rest => skip_cons rfl _⟩
  | emptyObject _ => exact ⟨_, _, by decide, by decide, fun rest => skip_cons rfl _⟩
  | object _ _ _ _ _ => exact ⟨_, _, by decide, by decide, fun rest => skip_cons rfl _⟩

section Separated

variable {α : Type} (x : α) {ts : List (List α)} (t : List α)

theorem separated_singleton : separated x [t] = t := by simp [separated]

theorem separated_cons (hne : ts ≠ []) : separated x (t :: ts) = t ++ x :: separated x ts := by
  obtain ⟨u, us, rfl⟩ := List.exists_cons_of_ne_nil hne
  simp [separated, List.intercalate_cons_cons]

end Separated

/-- What comes first among separated texts. -/
theorem separated_head {t r : List Char} {c d : Char} (hc : c ≠ d) (h : ∀ s, skip (t ++ s) = c :: (r ++ s))
    (ts : List (List Char)) (s : List Char) : (skip (separated ',' (t :: ts) ++ s)).head? ≠ some d := by
  obtain ⟨u, hu⟩ : ∃ u, separated ',' (t :: ts) = t ++ u := by
    cases ts with
    | nil => exact ⟨[], by rw [separated_singleton, List.append_nil]⟩
    | cons t' ts => exact ⟨_, separated_cons _ t (by simp)⟩
  rw [hu, List.append_assoc, h, List.head?_cons]
  exact fun he => hc (Option.some.inj he)

def Reads (v : Json) (t : List Char) : Prop :=
  ∀ (rest : List Char) (fuel : ℕ), Ends rest → t.length < fuel → readValue fuel (t ++ rest) = some (v, skip rest)

theorem readItems_eq {items : List (Json × List Char)} (hne : items ≠ []) (h : ∀ i ∈ items, Reads i.1 i.2)
    {rest : List Char} {fuel : ℕ} (hfuel : (separated ',' (items.map Prod.snd)).length + 1 < fuel) :
    readItems fuel (separated ',' (items.map Prod.snd) ++ ']' :: rest) = some (items.map Prod.fst, rest) := by
  induction items generalizing fuel with
  | nil => exact absurd rfl hne
  | cons i items ih =>
    obtain ⟨hi, hitems⟩ := List.forall_mem_cons.mp h
    cases fuel with
    | zero => exact absurd hfuel (Nat.not_lt_zero _)
    | succ fuel =>
      unfold readItems
      cases items with
      | nil =>
        rw [List.map_singleton, separated_singleton] at hfuel ⊢
        rw [hi _ _ (ends_cons rfl rest) (by omega), skip_cons rfl]
        rfl
      | cons j items =>
        rw [List.map_cons, separated_cons _ _ (by simp), List.length_append, List.length_cons] at hfuel
        rw [List.map_cons, separated_cons _ _ (by simp), List.append_assoc, List.cons_append,
          hi _ _ (ends_cons rfl _) (by omega), skip_cons rfl]
        dsimp only
        rw [if_neg (by decide), if_pos rfl, ih (by simp) hitems (by omega)]
        rfl

theorem readMembers_eq {members : List Member} (hne : members ≠ [])
    (hname : ∀ m ∈ members, Reads (.string m.name) m.nameText) (h : ∀ m ∈ members, Reads m.value m.valueText)
    {rest : List Char} {fuel : ℕ}
    (hfuel : (separated ',' (members.map fun m => m.nameText ++ ':' :: m.valueText)).length + 1 < fuel) :
    readMembers fuel (separated ',' (members.map fun m => m.nameText ++ ':' :: m.valueText) ++ '\x7d' :: rest) =
      some (members.map fun m => (m.name, m.value), rest) := by
  induction members generalizing fuel with
  | nil => exact absurd rfl hne
  | cons m members ih =>
    obtain ⟨hm, hmembers⟩ := List.forall_mem_cons.mp h
    obtain ⟨hn, hnames⟩ := List.forall_mem_cons.mp hname
    cases fuel with
    | zero => exact absurd hfuel (Nat.not_lt_zero _)
    | succ fuel =>
      unfold readMembers
      cases members with
      | nil =>
        rw [List.map_singleton, separated_singleton, List.length_append, List.length_cons] at hfuel
        rw [List.map_singleton, separated_singleton, List.append_assoc, List.cons_append,
          hn _ _ (ends_cons rfl _) (by omega), skip_cons rfl]
        dsimp only
        rw [if_pos rfl, hm _ _ (ends_cons rfl rest) (by omega), skip_cons rfl]
        rfl
      | cons m' members =>
        rw [List.map_cons, separated_cons _ _ (by simp), List.length_append, List.length_append, List.length_cons,
          List.length_cons] at hfuel
        rw [List.map_cons, separated_cons _ _ (by simp), List.append_assoc, List.append_assoc, List.cons_append,
          List.cons_append, hn _ _ (ends_cons rfl _) (by omega), skip_cons rfl]
        dsimp only
        rw [if_pos rfl, hm _ _ (ends_cons rfl _) (by omega), skip_cons rfl]
        dsimp only
        rw [if_neg (by decide), if_pos rfl, ih (by simp) hnames hmembers (by omega)]
        rfl

/-- A value whose text begins with no blank: its first character says what it is. -/
theorem Reads.of_cons {v : Json} {c : Char} {t : List Char} (hc : isBlank c = false)
    (h : ∀ (rest : List Char) (fuel : ℕ), Ends rest → t.length < fuel →
      (if c = '\"' then (readChars ((t ++ rest).length + 1) (t ++ rest)).map fun r => (Json.string r.1, r.2)
        else if c = '[' then
          if (skip (t ++ rest)).head? = some ']' then some (.array [], (skip (t ++ rest)).tail)
          else (readItems fuel (t ++ rest)).map fun r => (.array r.1, r.2)
        else if c = '\x7b' then
          if (skip (t ++ rest)).head? = some '\x7d' then some (.object [], (skip (t ++ rest)).tail)
          else (readMembers fuel (t ++ rest)).map fun r => (.object r.1, r.2)
        else readAtom c (t ++ rest)) = some (v, rest)) : Reads v (c :: t) := by
  intro rest fuel hrest hfuel
  cases fuel with
  | zero => exact absurd hfuel (Nat.not_lt_zero _)
  | succ fuel =>
    unfold readValue
    rw [List.cons_append, skip_cons hc]
    dsimp only
    rw [h _ _ hrest (Nat.lt_of_succ_lt_succ hfuel)]
    rfl

theorem Reads.blank {v : Json} {t w w' : List Char} (hw : Blank w) (hw' : Blank w') (h : Reads v t) :
    Reads v (w ++ t ++ w') := by
  intro rest fuel hrest hfuel
  rw [List.length_append, List.length_append] at hfuel
  have hread := h _ fuel (hrest.blank hw') (show t.length < fuel by omega)
  rw [skip_append hw'] at hread
  cases fuel with
  | zero => exact absurd hfuel (Nat.not_lt_zero _)
  | succ fuel =>
    rw [List.append_assoc, List.append_assoc]
    unfold readValue at hread ⊢
    rwa [skip_append hw]

theorem Reads.number {t : List Char} (h : isNumber t = true) : Reads (.number t) t := by
  obtain ⟨hne, hchars⟩ := isNumber_chars h
  obtain ⟨c, t, rfl⟩ := List.exists_cons_of_ne_nil hne
  have hc := hchars c List.mem_cons_self
  have hother : ∀ d, isNumberChar d = false → c ≠ d := fun d hd he => by
    rw [he, hd] at hc
    cases hc
  refine Reads.of_cons ?_ fun rest _ hrest _ => ?_
  · rw [Bool.eq_false_iff]
    intro hblank
    rcases isBlank_cases hblank with rfl | rfl | rfl | rfl <;> cases hc
  · rw [if_neg (hother _ rfl), if_neg (hother _ rfl), if_neg (hother _ rfl)]
    unfold readAtom
    rw [if_neg (hother _ rfl), if_neg (hother _ rfl), if_neg (hother _ rfl)]
    exact readNumber_eq h hrest

/-- **Every text of a value is read as that value.** -/
theorem Text.reads {v : Json} {t : List Char} (h : Text v t) : Reads v t := by
  induction h with
  | blank hw hw' _ ih => exact ih.blank hw hw'
  | null => exact Reads.of_cons rfl fun _ _ _ _ => rfl
  | true => exact Reads.of_cons rfl fun _ _ _ _ => rfl
  | false => exact Reads.of_cons rfl fun _ _ _ _ => rfl
  | number h => exact Reads.number h
  | @string cs t h =>
    refine Reads.of_cons rfl fun rest _ _ _ => ?_
    rw [if_pos rfl, List.append_assoc]
    rw [List.singleton_append, h.read_eq (by simp only [List.length_append]; omega)]
    rfl
  | emptyArray hw =>
    refine Reads.of_cons rfl fun rest _ _ _ => ?_
    rw [if_neg (by decide), if_pos rfl, List.append_assoc, skip_append hw]
    exact if_pos rfl
  | @array items hne h ih =>
    refine Reads.of_cons rfl fun rest fuel _ hfuel => ?_
    rw [List.length_append, List.length_singleton] at hfuel
    have hfirst : (skip (separated ',' (items.map Prod.snd) ++ ']' :: rest)).head? ≠ some ']' := by
      obtain ⟨i, more, rfl⟩ := List.exists_cons_of_ne_nil hne
      obtain ⟨c, r, hc, -, hskip⟩ := (h i List.mem_cons_self).head
      exact separated_head hc hskip _ _
    rw [if_neg (by decide), if_pos rfl, List.append_assoc, List.singleton_append, if_neg hfirst, readItems_eq hne ih hfuel]
    rfl
  | emptyObject hw =>
    refine Reads.of_cons rfl fun rest _ _ _ => ?_
    rw [if_neg (by decide), if_neg (by decide), if_pos rfl, List.append_assoc, skip_append hw]
    exact if_pos rfl
  | @object members hne hname h ihname ih =>
    refine Reads.of_cons rfl fun rest fuel _ hfuel => ?_
    rw [List.length_append, List.length_singleton] at hfuel
    have hfirst : (skip (separated ',' (members.map fun m => m.nameText ++ ':' :: m.valueText) ++ '\x7d' :: rest)).head? ≠
        some '\x7d' := by
      obtain ⟨m, more, rfl⟩ := List.exists_cons_of_ne_nil hne
      obtain ⟨c, r, -, hc, hskip⟩ := (hname m List.mem_cons_self).head
      refine separated_head (r := r ++ ':' :: m.valueText) hc (fun s => ?_) _ _
      rw [List.append_assoc, hskip, List.append_assoc]
    rw [if_neg (by decide), if_neg (by decide), if_pos rfl, List.append_assoc, List.singleton_append, if_neg hfirst,
      readMembers_eq hne ihname ih hfuel]
    rfl

theorem Text.read_eq {v : Json} {t : List Char} (h : Text v t) : read t = some v := by
  have hread := h.reads [] _ (fun c hc => by cases hc) (Nat.lt_succ_self _)
  rw [List.append_nil] at hread
  unfold read
  rw [hread]
  rfl

/-! ## Texts in UTF-8 -/

/-- The bytes are the UTF-8 of a text of the value. -/
def Prints (v : Json) (b : Bytes) : Prop := ∃ t, b = utf8 t ∧ Text v t

theorem utf8_separated (ts : List (List Char)) : utf8 (separated ',' ts) = separated 44 (ts.map utf8) := by
  induction ts with
  | nil => rfl
  | cons t ts ih =>
    rw [List.map_cons]
    cases ts with
    | nil => rw [separated_singleton, List.map_nil, separated_singleton]
    | cons u us =>
      rw [separated_cons _ t (List.cons_ne_nil u us), utf8_append, utf8_cons, ih, separated_cons _ (utf8 t) (by simp)]
      rfl

/-- The bytes of a character that stands for itself in a string. -/
def isPlain (b : UInt8) : Bool := 0x20 ≤ b && b < 0x7f && b != 34 && b != 92

theorem isPlain_lt {b : UInt8} (h : isPlain b = true) : b < 0x80 := by
  simp only [isPlain, Bool.and_eq_true, decide_eq_true_eq, UInt8.lt_iff_toNat_lt] at h
  rw [UInt8.lt_iff_toNat_lt]
  exact h.1.1.2.trans (by decide)

theorem CharText.of_isPlain {b : UInt8} (h : isPlain b = true) : CharText (Char.ofNat b.toNat) [Char.ofNat b.toNat] := by
  simp only [isPlain, Bool.and_eq_true, decide_eq_true_eq, bne_iff_ne] at h
  refine .plain ?_ (fun he => h.1.2 ?_) fun he => h.2 ?_
  · rw [latin1_toNat]
    exact UInt8.le_iff_toNat_le.mp h.1.1.1
  · apply UInt8.toNat.inj
    rw [← latin1_toNat, he]
    rfl
  · apply UInt8.toNat.inj
    rw [← latin1_toNat, he]
    rfl

theorem CharsText.of_isPlain {bs : Bytes} (h : ∀ b ∈ bs, isPlain b = true) : CharsText (latin1 bs) (latin1 bs) := by
  induction bs with
  | nil => exact .nil
  | cons b bs ih =>
    obtain ⟨hb, hbs⟩ := List.forall_mem_cons.mp h
    exact .cons (.of_isPlain hb) (ih hbs)

theorem Prints.null : Prints .null (ascii "null") := ⟨_, by decide, .null⟩

theorem Prints.bool (b : Bool) : Prints (.bool b) (ascii (if b then "true" else "false")) := by
  cases b with
  | true => exact ⟨_, by decide, .true⟩
  | false => exact ⟨_, by decide, .false⟩

theorem Prints.string {cs t : List Char} (h : CharsText cs t) : Prints (.string cs) (34 :: (utf8 t ++ [34])) := by
  refine ⟨_, ?_, .string h⟩
  rw [utf8_cons, utf8_append]
  rfl

theorem Prints.plain {bs : Bytes} (h : ∀ b ∈ bs, isPlain b = true) :
    Prints (.string (latin1 bs)) (34 :: (bs ++ [34])) := by
  have hstring := Prints.string (CharsText.of_isPlain h)
  rwa [utf8_latin1 fun b hb => isPlain_lt (h b hb)] at hstring

theorem Prints.array {α : Type} {l : List α} {f : α → Json} {b : α → Bytes} (h : ∀ x ∈ l, Prints (f x) (b x)) :
    Prints (.array (l.map f)) (91 :: (separated 44 (l.map b) ++ [93])) := by
  obtain ⟨items, hfst, hsnd, hitems⟩ : ∃ items : List (Json × List Char), items.map Prod.fst = l.map f ∧
      (items.map Prod.snd).map utf8 = l.map b ∧ ∀ i ∈ items, Text i.1 i.2 := by
    induction l with
    | nil => exact ⟨[], rfl, rfl, fun i hi => absurd hi List.not_mem_nil⟩
    | cons x l ih =>
      obtain ⟨⟨t, ht, htext⟩, hl⟩ := List.forall_mem_cons.mp h
      obtain ⟨items, hfst, hsnd, hitems⟩ := ih hl
      refine ⟨(f x, t) :: items, ?_, ?_, List.forall_mem_cons.mpr ⟨htext, hitems⟩⟩
      · rw [List.map_cons, hfst, List.map_cons]
      · rw [List.map_cons, List.map_cons, hsnd, List.map_cons, ht]
  rw [← hfst, ← hsnd, ← utf8_separated]
  by_cases hne : items = []
  · subst hne
    exact ⟨['[', ']'], rfl, .emptyArray (w := []) fun c hc => absurd hc List.not_mem_nil⟩
  · refine ⟨_, ?_, .array hne hitems⟩
    rw [utf8_cons, utf8_append]
    rfl

/-- A member of an object as it is printed: its name, its value and the bytes of that. -/
abbrev Printed := CStr × Json × Bytes

theorem Prints.object {l : List Printed} (hne : l ≠ []) (hplain : (l.all fun m => m.1.all isPlain) = true)
    (h : ∀ m ∈ l, Prints m.2.1 m.2.2) :
    Prints (.object (l.map fun m => (latin1 m.1, m.2.1)))
      (123 :: (separated 44 (l.map fun m => 34 :: (m.1 ++ 34 :: 58 :: m.2.2)) ++ [125])) := by
  have hname : ∀ m ∈ l, ∀ b ∈ m.1, isPlain b = true := fun m hm =>
    List.all_eq_true.mp (List.all_eq_true.mp hplain m hm)
  obtain ⟨members, hvalues, htexts, hlen, hnames, hmembers⟩ : ∃ members : List Member,
      members.map (fun m => (m.name, m.value)) = l.map (fun m => (latin1 m.1, m.2.1)) ∧
      (members.map fun m => m.nameText ++ ':' :: m.valueText).map utf8 =
        l.map (fun m => 34 :: (m.1 ++ 34 :: 58 :: m.2.2)) ∧ members.length = l.length ∧
      (∀ m ∈ members, Text (.string m.name) m.nameText) ∧ ∀ m ∈ members, Text m.value m.valueText := by
    clear hne hplain
    induction l with
    | nil => exact ⟨[], rfl, rfl, rfl, by simp, by simp⟩
    | cons m l ih =>
      obtain ⟨hm, hl⟩ := List.forall_mem_cons.mp h
      obtain ⟨hmname, hlname⟩ := List.forall_mem_cons.mp hname
      obtain ⟨t, ht, htext⟩ := hm
      obtain ⟨members, hvalues, htexts, hlen, hnames, hmembers⟩ := ih hl hlname
      refine ⟨⟨latin1 m.1, m.2.1, '\"' :: (latin1 m.1 ++ ['\"']), t⟩ :: members, ?_, ?_, ?_,
        List.forall_mem_cons.mpr ⟨.string (.of_isPlain hmname), hnames⟩, List.forall_mem_cons.mpr ⟨htext, hmembers⟩⟩
      · rw [List.map_cons, hvalues, List.map_cons]
      · rw [List.map_cons, List.map_cons, htexts, List.map_cons, ht]
        congr 1
        rw [List.cons_append, utf8_cons, List.append_assoc, utf8_append,
          utf8_latin1 fun b hb => isPlain_lt (hmname b hb)]
        rfl
      · rw [List.length_cons, hlen, List.length_cons]
  rw [← hvalues, ← htexts, ← utf8_separated]
  refine ⟨_, ?_, .object (fun hnil => hne ?_) hnames hmembers⟩
  · rw [utf8_cons, utf8_append]
    rfl
  · rw [hnil, List.length_nil] at hlen
    exact List.length_eq_zero_iff.mp hlen.symm

theorem Prints.newline {v : Json} {b : Bytes} (h : Prints v b) : Prints v (b ++ [10]) := by
  obtain ⟨t, rfl, ht⟩ := h
  refine ⟨[] ++ t ++ ['\n'], ?_, .blank (fun c hc => absurd hc List.not_mem_nil) (fun c hc => ?_) ht⟩
  · rw [List.nil_append, utf8_append]
    rfl
  · rw [List.mem_singleton.mp hc]
    rfl

/-- **The bytes are read as the value.** -/
theorem Prints.read_eq {v : Json} {b : Bytes} (h : Prints v b) : (utf8Decode b).bind read = some v := by
  obtain ⟨t, rfl, ht⟩ := h
  rw [utf8Decode_utf8, Option.bind_some, ht.read_eq]

end Json

end Camex.Lib
