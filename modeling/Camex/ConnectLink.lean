import Camex.Lib.Unicode

/-!
# The link in the app (`ConnectLink.java`)

A link's settings are `key=value` pairs behind its `#`. Strings are sequences of UTF-16 units. What the Java library
does with bytes that are no UTF-8 is left open: a `Charset`.

* `ConnectLink.decode`: `%XX` as UTF-8, `Character.digit` in `characterDigit`;
* `ConnectLink.split`, `ConnectLink.take`, `ConnectLink.parseFields`.
-/

namespace Camex

open Lib

def units (s : String) : Utf16 := s.toList.map fun c => UInt16.ofNat c.toNat

/-- `new String(bytes, UTF_8)`: the characters, where the bytes are UTF-8. -/
structure Charset where
  newString : Bytes → List Char
  newString_utf8 : ∀ cs, newString (utf8 cs) = cs

/-! ## Patterns of the app and of the page -/

/-- `[0-9]`. -/
def isDecimal (u : UInt16) : Bool := 48 ≤ u && u ≤ 57

/-- `[A-Za-z0-9]`. -/
def isAlnum (u : UInt16) : Bool := isDecimal u || (65 ≤ u && u ≤ 90) || (97 ≤ u && u ≤ 122)

/-- `[0-9a-fA-F]`. -/
def isHex (u : UInt16) : Bool := isDecimal u || (65 ≤ u && u ≤ 70) || (97 ≤ u && u ≤ 102)

/-- `[A-Za-z0-9]([A-Za-z0-9-]{0,61}[A-Za-z0-9])?`. -/
def labelMatches (l : Utf16) : Bool :=
  decide (l ≠ [] ∧ l.length ≤ 63) && l.all (fun u => isAlnum u || u == 45) && l.head?.any isAlnum &&
    l.getLast?.any isAlnum

/-- `HOST`: such labels with dots between them. -/
def hostMatches (v : Utf16) : Bool := (v.splitOnP (· == 46)).all labelMatches

/-- `[0-9]{1,5}`. -/
def numberMatches (v : Utf16) : Bool := decide (1 ≤ v.length ∧ v.length ≤ 5) && v.all isDecimal

def decimalValue (v : Utf16) : ℕ := v.foldl (fun n u => n * 10 + (u.toNat - 48)) 0

/-- `[A-Za-z0-9+/]{43}=`. -/
def keyMatches (v : Utf16) : Bool :=
  decide (v.length = 44) && (v.take 43).all (fun u => isAlnum u || u == 43 || u == 47) && v.getLast? == some 61

/-- `[0-9a-fA-F]{64}`. -/
def hexMatches (v : Utf16) : Bool := decide (v.length = 64) && v.all isHex

/-- `0{64}`. -/
def zerosMatch (v : Utf16) : Bool := v == List.replicate 64 48

/-- The key of a pair: up to its `=`. -/
def pairKey (pair : Utf16) : Utf16 := pair.takeWhile (· ≠ 61)

/-- The value of a pair: behind its `=`, or nothing. -/
def pairValue (pair : Utf16) : Utf16 := (pair.dropWhile (· ≠ 61)).drop 1

/-- The pairs of a fragment: between its `&`, the empty ones left out. -/
def fragmentPairs (fields : Utf16) : List Utf16 := (fields.splitOnP (· == 38)).filter (· ≠ [])

/-! ## The Java library -/

/-- The zeros of the decimal digits, each followed by the other nine. -/
def decimalZeros : List ℕ :=
  [0x30, 0x660, 0x6f0, 0x7c0, 0x966, 0x9e6, 0xa66, 0xae6, 0xb66, 0xbe6, 0xc66, 0xce6, 0xd66, 0xde6, 0xe50, 0xed0, 0xf20,
    0x1040, 0x1090, 0x17e0, 0x1810, 0x1946, 0x19d0, 0x1a80, 0x1a90, 0x1b50, 0x1bb0, 0x1c40, 0x1c50, 0xa620, 0xa8d0,
    0xa900, 0xa9d0, 0xa9f0, 0xaa50, 0xabf0, 0xff10]

/-- The starts of the letters that are digits: of ASCII and fullwidth, upper and lower case. -/
def letterStarts : List ℕ := [0x41, 0x61, 0xff21, 0xff41]

/-- `Character.digit(ch, 16)`; `none` for -1. -/
def characterDigit (ch : UInt16) : Option ℕ :=
  match decimalZeros.find? fun z => z ≤ ch.toNat ∧ ch.toNat < z + 10 with
  | some z => some (ch.toNat - z)
  | none =>
    (letterStarts.find? fun a => a ≤ ch.toNat ∧ ch.toNat < a + 6).map fun a => ch.toNat - a + 10

def javaTrim (v : Utf16) : Utf16 := ((v.dropWhile (· ≤ 0x20)).reverse.dropWhile (· ≤ 0x20)).reverse

/-- `getBytes(UTF_8)`: a lone surrogate is a question mark. -/
def getBytes (v : Utf16) : Bytes := (points v).flatMap fun c => c.elim [63] String.utf8EncodeChar

/-! ## Keys -/

def base64Chars : Utf16 := units "ABCDEFGHIJKLMNOPQRSTUVWXYZabcdefghijklmnopqrstuvwxyz0123456789+/"

/-- The loop of `base64`; `bits` is an `int`, `n` of its low bits are not written yet. -/
def base64Loop : ℕ → ℕ → Utf16 → Bytes
  | _, _, [] => []
  | bits, n, ch :: s =>
    if ch = 61 then []
    else
      let bits := (bits <<< 6 ||| base64Chars.idxOf ch) % 2 ^ 32
      if 8 ≤ n + 6 then UInt8.ofNat (bits >>> (n + 6 - 8)) :: base64Loop bits (n + 6 - 8) s
      else base64Loop bits (n + 6) s

/-- `base64`, of characters that `isKey` checked. -/
def ConnectLink.base64 (s : Utf16) : Bytes := base64Loop 0 0 s

def ConnectLink.isKey (key : Utf16) : Bool :=
  keyMatches key && decide ((ConnectLink.base64 key).length = 32) && (ConnectLink.base64 key).any (· ≠ 0)

/-! ## The fields -/

/-- The settings of a link. -/
structure ConnectLink where
  host : Option Utf16
  transport : Option Utf16
  pubkey : Option Utf16
  psk : Option Utf16
  name : Option Utf16
  port : Option ℕ
  mtu : Option ℕ
  keepalive : Option ℕ
  fullTunnel : Option Bool
  rejected : List Utf16
  deriving DecidableEq

namespace ConnectLink

/-- No field came through. -/
def empty : ConnectLink := ⟨none, none, none, none, none, none, none, none, none, []⟩

/-- The loop of `decode`: the bytes, `none` for `null`. -/
def decodeBytes : Utf16 → Option Bytes
  | [] => some []
  | ch :: s =>
    if ch = 37 then
      match s with
      | h :: l :: s =>
        match characterDigit h, characterDigit l with
        | some hi, some lo => (decodeBytes s).map (UInt8.ofNat (hi * 16 + lo) :: ·)
        | _, _ => none
      | _ => none
    else if ch < 0x80 then (decodeBytes s).map (UInt8.ofNat ch.toNat :: ·)
    else
      match s with
      | [] => if isSurrogate ch then none else some (String.utf8EncodeChar (Char.ofNat ch.toNat))
      | lo :: s' =>
        if isHighSurrogate ch && isLowSurrogate lo then
          (decodeBytes s').map (String.utf8EncodeChar (Char.ofNat (pairPoint ch lo)) ++ ·)
        else if isSurrogate ch then none
        else (decodeBytes (lo :: s')).map (String.utf8EncodeChar (Char.ofNat ch.toNat) ++ ·)

def decode (utf : Charset) (s : Utf16) : Option Utf16 :=
  match decodeBytes s with
  | none => none
  | some raw => if utf8 (utf.newString raw) = raw then some (utf16 (utf.newString raw)) else none

/-- `split`: the last of a repeated key, in the order of the last ones. -/
def split (utf : Charset) (fields : Utf16) : List (Utf16 × Option Utf16) :=
  (fragmentPairs fields).foldl
    (fun out pair => (out.filter fun f => f.1 ≠ pairKey pair) ++ [(pairKey pair, decode utf (pairValue pair))]) []

def isKnown (key : Utf16) : Bool := decide (key.length = 1) && key.all fun u => (units "hptksnmar").contains u

def range (v : Utf16) (lo hi : ℕ) : Option ℕ :=
  if numberMatches v then (if lo ≤ decimalValue v ∧ decimalValue v ≤ hi then some (decimalValue v) else none) else none

/-- No character that camex does not take: control characters, and those beyond U+FFFF. -/
def plainChars (v : Utf16) : Bool := v.all fun ch => !(ch < 0x20 || ch == 0x7f || isSurrogate ch)

def pskOk (v : Utf16) : Bool :=
  if v = [] ∨ v ≠ javaTrim v ∨ 128 ≤ (getBytes v).length then false
  else if !plainChars v then false
  else if units "hex:" <+: v then hexMatches (v.drop 4) && !zerosMatch (v.drop 4)
  else if units "base64:" <+: v then isKey (v.drop 7)
  else true

/-- The checks of `n`. -/
def nameOk (v : Utf16) : Bool :=
  if v = [] ∨ v ≠ javaTrim v ∨ 31 < (getBytes v).length then false else plainChars v

def take (c : ConnectLink) (key : Utf16) (v : Option Utf16) : ConnectLink × Bool :=
  match v with
  | none => (c, !isKnown key)
  | some v =>
    if key = units "h" then
      if 63 < v.length ∨ !hostMatches v then (c, false) else ({ c with host := some v }, true)
    else if key = units "p" then ({ c with port := range v 1 65535 }, (range v 1 65535).isSome)
    else if key = units "t" then
      if v ≠ units "udp" ∧ v ≠ units "tcp" then (c, false) else ({ c with transport := some v }, true)
    else if key = units "k" then if !isKey v then (c, false) else ({ c with pubkey := some v }, true)
    else if key = units "s" then if !pskOk v then (c, false) else ({ c with psk := some v }, true)
    else if key = units "n" then if !nameOk v then (c, false) else ({ c with name := some v }, true)
    else if key = units "m" then ({ c with mtu := range v 576 9000 }, (range v 576 9000).isSome)
    else if key = units "a" then ({ c with keepalive := range v 0 3600 }, (range v 0 3600).isSome)
    else if key = units "r" then
      if v ≠ units "0" ∧ v ≠ units "1" then (c, false) else ({ c with fullTunnel := some (v == units "1") }, true)
    else (c, true)

/-- A field of `parse`'s loop. -/
def addField (c : ConnectLink) (f : Utf16 × Option Utf16) : ConnectLink :=
  if (c.take f.1 f.2).2 then (c.take f.1 f.2).1
  else { (c.take f.1 f.2).1 with rejected := (c.take f.1 f.2).1.rejected ++ [f.1] }

/-- `parse` behind the `#`. -/
def parseFields (utf : Charset) (fields : Utf16) : ConnectLink := (split utf fields).foldl addField empty

end ConnectLink

end Camex
