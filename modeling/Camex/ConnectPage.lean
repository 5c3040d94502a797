import Camex.ConnectLink

/-!
# The link on the page (`docs/connect/index.html`)

`fields` reads `location.hash`, `valid` checks a field as the app takes it, `check` is what the page makes of them. A
`URIError` that nothing catches is `none` in `valid`.
-/

namespace Camex.ConnectPage

open Lib

/-! ## The JavaScript library -/

def hexValue (u : UInt16) : Option ℕ :=
  if isDecimal u then some (u.toNat - 48)
  else if 65 ≤ u ∧ u ≤ 70 then some (u.toNat - 55)
  else if 97 ≤ u ∧ u ≤ 102 then some (u.toNat - 87)
  else none

def hexOctet (h l : UInt16) : Option UInt8 :=
  match hexValue h, hexValue l with
  | some hi, some lo => some (UInt8.ofNat (hi * 16 + lo))
  | _, _ => none

/-- The octets of `j` escapes, and what is behind them. -/
def hexOctets : ℕ → Utf16 → Option (Bytes × Utf16)
  | 0, s => some ([], s)
  | j + 1, s =>
    match s with
    | 37 :: h :: l :: s =>
      match hexOctet h l with
      | none => none
      | some b => (hexOctets j s).map fun r => (b :: r.1, r.2)
    | _ => none

/-- `Decode`; `fuel`: the length of the string. -/
def decodeLoop : ℕ → Utf16 → Option Utf16
  | _, [] => some []
  | 0, _ => none
  | fuel + 1, c :: s =>
    if c ≠ 37 then (decodeLoop fuel s).map (c :: ·)
    else
      match s with
      | h :: l :: s =>
        match hexOctet h l with
        | none => none
        | some b =>
          let n := leadingOnes b
          if n = 0 then (decodeLoop fuel s).map (UInt16.ofNat b.toNat :: ·)
          else if n = 1 ∨ 4 < n then none
          else
            match hexOctets (n - 1) s with
            | none => none
            | some (more, s) =>
              match utf8Point (b :: more) with
              | none => none
              | some v => (decodeLoop fuel s).map (utf16Char v ++ ·)
      | _ => none

/-- `decodeURIComponent`; `none` for an error. -/
def decodeURIComponent (s : Utf16) : Option Utf16 := decodeLoop s.length s

/-- `unescape(encodeURIComponent(v))`: a unit for each byte of the UTF-8; `none` for an error. -/
def uriBytes (v : Utf16) : Option Bytes := ((points v).mapM id).map utf8

def sextet (u : UInt16) : ℕ := base64Chars.idxOf u

/-- The bytes of groups of four characters; of three and of two at the end the last bits are dropped. -/
def atobGroups : Utf16 → Bytes
  | a :: b :: c :: d :: s =>
    UInt8.ofNat (sextet a * 4 + sextet b / 16) :: UInt8.ofNat (sextet b * 16 + sextet c / 4) ::
      UInt8.ofNat (sextet c * 64 + sextet d) :: atobGroups s
  | [a, b, c] => [UInt8.ofNat (sextet a * 4 + sextet b / 16), UInt8.ofNat (sextet b * 16 + sextet c / 4)]
  | [a, b] => [UInt8.ofNat (sextet a * 4 + sextet b / 16)]
  | _ => []

/-- `atob`, of characters of base64 and one `=`. -/
def atob (k : Utf16) : Bytes := atobGroups k.dropLast

/-- `[\t\n\v\f\r ]`. -/
def isBlank (u : UInt16) : Bool := (9 ≤ u && u ≤ 13) || u == 32

/-- `v.replace(/^[\t\n\v\f\r ]+|[\t\n\v\f\r ]+$/g, '')`. -/
def trimBlanks (v : Utf16) : Utf16 := ((v.dropWhile isBlank).reverse.dropWhile isBlank).reverse

/-- `/[\u0000-\u001f\u007f\ud800-\udfff]/`. -/
def isRefused (u : UInt16) : Bool := u ≤ 0x1f || u == 0x7f || isSurrogate u

def inherited : List Utf16 :=
  ["constructor", "__defineGetter__", "__defineSetter__", "hasOwnProperty", "__lookupGetter__", "__lookupSetter__",
    "isPrototypeOf", "propertyIsEnumerable", "toString", "valueOf", "__proto__", "toLocaleString"].map units

/-! ## `CAMEX` -/

def names : List Utf16 := ["h", "p", "t", "k", "n", "m", "a", "r"].map units

/-- All pairs of `CAMEX.fields` before the repeated ones are dropped. -/
def allFields (hash : Utf16) : List (Utf16 × Option Utf16) :=
  (fragmentPairs (if hash.head? = some 35 then hash.tail else hash)).map fun pair =>
    (pairKey pair, decodeURIComponent (pairValue pair))

/-- The pairs whose key has no later one; a number assigned to `__proto__` is lost. -/
def lastFields : List (Utf16 × Option Utf16) → List (Utf16 × Option Utf16)
  | [] => []
  | f :: fs =>
    if f.1 = units "__proto__" ∨ fs.any (fun g => g.1 == f.1) then lastFields fs else f :: lastFields fs

def fields (hash : Utf16) : List (Utf16 × Option Utf16) := lastFields (allFields hash)

def key (k : Utf16) : Bool := if !keyMatches k then false else (atob k).any (· ≠ 0)

/-- `n` of `valid`. -/
def number (v : Utf16) : Option ℕ := if numberMatches v then some (decimalValue v) else none

def validPsk (v : Utf16) : Option Bool :=
  if v = [] ∨ v.head?.any isBlank ∨ v.getLast?.any isBlank then some false
  else
    match uriBytes v with
    | none => none
    | some bytes =>
      if 128 ≤ bytes.length ∨ v.any isRefused then some false
      else if units "hex:" <+: v then some (hexMatches (v.drop 4) && !zerosMatch (v.drop 4))
      else if units "base64:" <+: v then some (key (v.drop 7))
      else some true

/-- `CAMEX.valid` of `n`. -/
def validName (v : Utf16) : Option Bool :=
  if v = [] ∨ v ≠ trimBlanks v then some false
  else
    match uriBytes v with
    | none => none
    | some bytes => some (decide (bytes.length ≤ 31) && !v.any isRefused)

/-- `CAMEX.valid`; `none` when it throws. -/
def valid (k : Utf16) (v : Option Utf16) : Option Bool :=
  match v with
  | none => some false
  | some v =>
    if k = units "h" then some (decide (v.length ≤ 63) && hostMatches v)
    else if k = units "p" then some ((number v).any fun n => 1 ≤ n && n ≤ 65535)
    else if k = units "t" then some (v == units "udp" || v == units "tcp")
    else if k = units "k" then some (key v)
    else if k = units "s" then validPsk v
    else if k = units "n" then validName v
    else if k = units "m" then some ((number v).any fun n => 576 ≤ n && n ≤ 9000)
    else if k = units "a" then some ((number v).any fun n => n ≤ 3600)
    else if k = units "r" then some (v == units "0" || v == units "1")
    else some true

/-! ## The page -/

/-- What the page shows. -/
inductive Shown
  | noSettings
  | malformed (keys : List Utf16)
  | ready (f : List (Utf16 × Option Utf16))
  | threw
  deriving DecidableEq

/-- A field that the page checks; `CAMEX.names` has the inherited properties too. -/
def checked (k : Utf16) : Bool := names.contains k || inherited.contains k || k == units "s"

/-- The check of the fields: the keys that are named as malformed. -/
def malformedKeys : List (Utf16 × Option Utf16) → Option (List Utf16)
  | [] => some []
  | f :: fs =>
    if checked f.1 then
      match valid f.1 f.2 with
      | none => none
      | some ok => (malformedKeys fs).map fun bad => if ok then bad else f.1 :: bad
    else malformedKeys fs

/-- The function that runs when the page is loaded. -/
def check (hash : Utf16) : Shown :=
  let f := fields hash
  if ["h", "k", "s"].all fun k => f.any fun x => x.1 == units k then
    match malformedKeys f with
    | none => .threw
    | some [] => .ready f
    | some bad => .malformed bad
  else .noSettings

end Camex.ConnectPage
