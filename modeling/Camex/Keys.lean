import Camex.Lib.CString
import Camex.Lib.Slots

/-!
# Keys (`keys.c`)

* `keyBase64Encode`, `keyBase64Decode`, `keyParseB64`;
* `keyFromPsk`: a key from its text, with the cache of the keys that Argon2id made; `KeyOp` and `keyOp` are all that is
  done to the cache;
* `uncachedKey`: what `keyFromPsk` is without the cache.

Argon2id and BLAKE2b are parameters (`KeyHashes`). Random bytes and memory are there or not: each call is told.
-/

namespace Camex

open Lib

def KEY_LEN : ℕ := 32

/-! ## Base64 -/

def b64Chars : CStr := ascii "ABCDEFGHIJKLMNOPQRSTUVWXYZabcdefghijklmnopqrstuvwxyz0123456789+/"

/-- `b64_chars[v & 0x3f]`. -/
def b64Char (v : ℕ) : UInt8 := b64Chars.getD (v &&& 0x3f) 0

/-- The loop of `key_base64_encode`. -/
def keyBase64Groups : Bytes → CStr
  | [] => []
  | [a] =>
    let v := a.toNat <<< 16
    [b64Char (v >>> 18), b64Char (v >>> 12), 61, 61]
  | [a, b] =>
    let v := a.toNat <<< 16 ||| b.toNat <<< 8
    [b64Char (v >>> 18), b64Char (v >>> 12), b64Char (v >>> 6), 61]
  | a :: b :: c :: rest =>
    let v := a.toNat <<< 16 ||| b.toNat <<< 8 ||| c.toNat
    b64Char (v >>> 18) :: b64Char (v >>> 12) :: b64Char (v >>> 6) :: b64Char v :: keyBase64Groups rest

/-- `key_base64_encode`: the text, `none` where it does not fit with its NUL. -/
def keyBase64Encode (data : Bytes) (outSize : ℕ) : Option CStr :=
  if outSize < (data.length + 2) / 3 * 4 + 1 then none else some (keyBase64Groups data)

def b64Value (c : UInt8) : ℤ :=
  if c = 0 then -1
  else
    match b64Chars.idxOf? c with
    | some p => p
    | none => -1

/-- `if (o >= out_size) return -1; out[o++] = ...` for each byte; the flag: none was too many. -/
def putBytes (outSize : ℕ) : Bytes → Bytes → Bytes × Bool
  | out, [] => (out, true)
  | out, b :: bs => if outSize ≤ out.length then (out, false) else putBytes outSize (out ++ [b]) bs

/-- The bytes of a group; `c` or `d` is negative where it has none. -/
def groupBytes (a b c d : ℤ) : Bytes :=
  let v := a.toNat <<< 18 ||| b.toNat <<< 12 ||| c.toNat <<< 6 ||| d.toNat
  UInt8.ofNat (v >>> 16) :: (if 0 ≤ c then [UInt8.ofNat (v >>> 8)] else []) ++ if 0 ≤ d then [UInt8.ofNat v] else []

/-- The loop of `key_base64_decode`: what is returned, `none` for -1 and `some o` for `(int)o`, and what is in `out` then. -/
def keyBase64DecodeFrom (outSize : ℕ) : CStr → Bytes → Option ℕ × Bytes
  | a :: b :: c :: d :: rest, out =>
    let a := b64Value a
    let b := b64Value b
    let c := if c = 61 then -2 else b64Value c
    let d := if d = 61 then -2 else b64Value d
    if a < 0 ∨ b < 0 ∨ c = -1 ∨ d = -1 ∨ (c = -2 ∧ d ≠ -2) ∨ ((c = -2 ∨ d = -2) ∧ rest ≠ []) then (none, out)
    else
      let put := putBytes outSize out (groupBytes a b c d)
      if put.2 then keyBase64DecodeFrom outSize rest put.1 else (none, put.1)
  | _, out => (some out.length, out)

def keyBase64Decode (text : CStr) (outSize : ℕ) : Option ℕ × Bytes :=
  if text.length = 0 ∨ text.length % 4 ≠ 0 then (none, []) else keyBase64DecodeFrom outSize text []

/-- The `int` that is returned. -/
def keyBase64Int (result : Option ℕ) : ℤ := result.elim (-1) fun o => (o : ℤ).bmod (2 ^ 32)

def keyParseB64 (text : CStr) : Option Bytes :=
  let n := keyBase64Decode text (KEY_LEN + 3)
  if keyBase64Int n.1 = KEY_LEN then some (n.2.take KEY_LEN) else none

/-! ## Raw keys -/

/-- `hex_value`. -/
def keyHexValue (c : UInt8) : ℤ :=
  if 48 ≤ c ∧ c ≤ 57 then c.toNat - 48
  else if 97 ≤ c ∧ c ≤ 102 then c.toNat - 97 + 10
  else if 65 ≤ c ∧ c ≤ 70 then c.toNat - 65 + 10
  else -1

def hexKeyBytes : CStr → Option Bytes
  | h :: l :: text =>
    let hi := keyHexValue h
    let lo := keyHexValue l
    if hi < 0 ∨ lo < 0 then none
    else (hexKeyBytes text).map (UInt8.ofNat (hi.toNat <<< 4 ||| lo.toNat) :: ·)
  | _ => some []

def parseHexKey (text : CStr) : Option Bytes := if text.length ≠ KEY_LEN * 2 then none else hexKeyBytes text

/-- What `key_from_psk` returns: 0 with the key, -1 or `KEY_ERR_NOMEM`. -/
inductive KeyResult where
  | key (k : Bytes)
  | malformed
  | nomem
  deriving DecidableEq

def rawKeyNonzero (key : Bytes) : KeyResult := if key = List.replicate KEY_LEN 0 then .malformed else .key key

/-- `key_from_psk` before the passphrases; `none` for a passphrase. -/
def rawKey (psk : CStr) : Option KeyResult :=
  if psk = [] then some .malformed
  else if psk.take 4 = ascii "hex:" then some ((parseHexKey (psk.drop 4)).elim .malformed rawKeyNonzero)
  else if psk.take 7 = ascii "base64:" then some ((keyParseB64 (psk.drop 7)).elim .malformed rawKeyNonzero)
  else none

/-! ## Passphrases -/

/-- The two hashes that passphrases go through. -/
structure KeyHashes where
  /-- `crypto_argon2` with the cost and the salt of `keys.h`. -/
  argon2 : CStr → Bytes
  /-- `crypto_blake2b_keyed`: key, message. -/
  blake2b : Bytes → CStr → Bytes

/-- `key_cache_entry_t` of a used slot. -/
structure KeyCacheEntry where
  id : Bytes
  key : Bytes
  seen : Bool
  fresh : Bool

abbrev KEY_CACHE_SIZE : ℕ := 260

/-- The cache; `idKey` is there when `key_cache_id_ready` is set. -/
structure KeyCache where
  slots : Fin KEY_CACHE_SIZE → Option KeyCacheEntry
  next : Fin KEY_CACHE_SIZE
  idKey : Option Bytes

variable (h : KeyHashes)

/-- `argon2id`; is there memory for its work area, locked or not? -/
def argon2id (memory : Bool) (pass : CStr) : KeyResult := if memory then .key (h.argon2 pass) else .nomem

/-- `key_from_psk` without the cache. -/
def uncachedKey (psk : CStr) (memory : Bool) : KeyResult := (rawKey psk).getD (argon2id h memory psk)

def keyCacheClear : KeyCache := ⟨fun _ => none, 0, none⟩

def keyCacheMark (c : KeyCache) : KeyCache :=
  { c with slots := fun i => (c.slots i).map fun e => { e with seen := false, fresh := false } }

def keyCacheDropNew (c : KeyCache) : KeyCache := { c with slots := fun i => (c.slots i).filter fun e => !e.fresh }

def keyCacheSweep (c : KeyCache) : KeyCache := { c with slots := fun i => (c.slots i).filter fun e => e.seen }

def KeyCache.find (c : KeyCache) (id : Bytes) : Option (Fin KEY_CACHE_SIZE) :=
  lowest fun i => (c.slots i).any fun e => decide (e.id = id)

/-- A free slot first, else round robin. -/
def KeyCache.insert (c : KeyCache) (e : KeyCacheEntry) : KeyCache :=
  match lowest fun i => (c.slots i).isNone with
  | some i => { c with slots := Function.update c.slots i (some e) }
  | none => { c with slots := Function.update c.slots c.next (some e), next := c.next + 1 }

/-- What a call returns; `derived`: it made the key of a passphrase. -/
structure KeyAnswer where
  result : KeyResult
  derived : Bool
  deriving DecidableEq

def derive (memory : Bool) (psk : CStr) : KeyAnswer := ⟨argon2id h memory psk, memory⟩

/-- `key_from_psk` with an id key. -/
def keyFromPassphrase (c : KeyCache) (idKey : Bytes) (psk : CStr) (memory : Bool) : KeyAnswer × KeyCache :=
  let id := h.blake2b idKey psk
  match c.find id with
  | some i =>
    (⟨.key ((c.slots i).elim [] (·.key)), false⟩,
      { c with slots := Function.update c.slots i ((c.slots i).map fun e => { e with seen := true }) })
  | none =>
    match argon2id h memory psk with
    | .key key => (derive h memory psk, c.insert ⟨id, key, true, true⟩)
    | _ => (derive h memory psk, c)

/-- The id key is made by the first passphrase that finds random bytes. -/
def KeyCache.ready (c : KeyCache) (random : Option Bytes) : KeyCache := { c with idKey := c.idKey <|> random }

/-- A call of `key_from_psk`, `[]` for a NULL as well: the text, the random bytes that it gets if it asks for them, and
is there memory to derive a key? -/
structure KeyCall where
  psk : CStr
  random : Option Bytes
  memory : Bool
  deriving DecidableEq

def keyFromPsk (c : KeyCache) (call : KeyCall) : KeyAnswer × KeyCache :=
  match rawKey call.psk with
  | some result => (⟨result, false⟩, c)
  | none =>
    match (c.ready call.random).idKey with
    | none => (derive h call.memory call.psk, c)
    | some idKey => keyFromPassphrase h (c.ready call.random) idKey call.psk call.memory

/-! ## Runs -/

/-- What is done to the cache. -/
inductive KeyOp where
  | fromPsk (call : KeyCall)
  | mark
  | sweep
  | dropNew
  | clear

def keyOp (c : KeyCache) : KeyOp → KeyCache
  | .fromPsk call => (keyFromPsk h c call).2
  | .mark => keyCacheMark c
  | .sweep => keyCacheSweep c
  | .dropNew => keyCacheDropNew c
  | .clear => keyCacheClear

/-- A process: the cache is empty at its start. -/
def keyRun (ops : List KeyOp) : KeyCache := ops.foldl (keyOp h) keyCacheClear

def derivedBy (c : KeyCache) : List KeyCall → List CStr
  | [] => []
  | call :: calls =>
    (if (keyFromPsk h c call).1.derived then [call.psk] else []) ++ derivedBy (keyFromPsk h c call).2 calls

end Camex
