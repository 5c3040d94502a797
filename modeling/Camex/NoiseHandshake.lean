import Camex.Session

/-!
# The handshake (`noise.c`)

`Noise_NKpsk0`: message 1 is `psk, e, es`, message 2 is `e, ee`. The hash, the HMAC, the AEAD and X25519 are
the parameters `NoisePrims`; the transcript, the order in which it is mixed and the checks are those of the code.
A write or a read returns the state it leaves with the message or the payload.

`NoisePrims.noise` gives the server its handshake functions.
-/

namespace Camex

open Lib

/-- 64 bytes. -/
abbrev Hash := BitVec 512

/-! ## Numbers as byte strings -/

/-- The `k` bytes of a number, most significant first. -/
def beBytes : ℕ → ℕ → Bytes
  | 0, _ => []
  | k + 1, v => beBytes k (v / 256) ++ [UInt8.ofNat (v % 256)]

@[simp] theorem beBytes_length (k v : ℕ) : (beBytes k v).length = k := by
  induction k generalizing v with
  | zero => rfl
  | succ k ih => simp [beBytes, ih]

theorem beValue_concat (bs : Bytes) (b : UInt8) : beValue (bs ++ [b]) = beValue bs * 256 + b.toNat := by
  simp [beValue]

theorem beValue_beBytes (k v : ℕ) : beValue (beBytes k v) = v % 256 ^ k := by
  induction k generalizing v with
  | zero =>
    rw [Nat.pow_zero, Nat.mod_one]
    rfl
  | succ k ih =>
    rw [beBytes, beValue_concat, ih, toNat_ofNat_mod, Nat.pow_succ', Nat.mod_mul]
    omega

-- irreducible: a comparison of two states is not to compute their bytes
@[irreducible] def keyBytes (k : Key) : Bytes := beBytes 32 k.toNat
@[irreducible] def hashBytes (h : Hash) : Bytes := beBytes 64 h.toNat

def keyOfBytes (bs : Bytes) : Key := BitVec.ofNat 256 (beValue bs)

def keyOfHash (h : Hash) : Key := keyOfBytes ((hashBytes h).take 32)

@[simp] theorem keyBytes_length (k : Key) : (keyBytes k).length = 32 := by
  unfold keyBytes
  exact beBytes_length ..

@[simp] theorem keyOfBytes_keyBytes (k : Key) : keyOfBytes (keyBytes k) = k := by
  have hlt := k.isLt
  unfold keyOfBytes keyBytes
  rw [beValue_beBytes, Nat.mod_eq_of_lt (by simpa using hlt), BitVec.ofNat_toNat, BitVec.setWidth_eq]

/-! ## The primitives -/

structure NoisePrims where
  /-- `crypto_blake2b` of 64 bytes. -/
  hash : Bytes → Hash
  /-- `noise_hmac`: key and data. -/
  hmac : Bytes → Bytes → Hash
  /-- `crypto_x25519`: private and public key. -/
  x25519 : Key → Key → Key
  /-- `crypto_x25519_public_key`. -/
  publicKey : Key → Key
  /-- `noise_encrypt`: key, counter, header, plaintext. -/
  encrypt : Key → ℕ → Bytes → Bytes → Bytes
  /-- `noise_decrypt`. -/
  decrypt : Key → ℕ → Bytes → Bytes → Option Bytes

/-- `noise_cipher_t`. -/
structure NoiseCipher where
  k : Key
  n : ℕ
  hasKey : Bool
  deriving DecidableEq

/-- `noise_hs_t`. -/
structure NoiseHs where
  cs : NoiseCipher
  ck : Hash
  h : Hash
  sPriv : Key
  sPub : Key
  ePriv : Key
  ePub : Key
  re : Key
  initiator : Bool
  deriving DecidableEq

def NoiseHs.zero : NoiseHs := ⟨⟨0, 0, false⟩, 0, 0, 0, 0, 0, 0, 0, false⟩

def NOISE_PROTOCOL : Bytes := ascii "Noise_NKpsk0_25519_ChaChaPoly_BLAKE2b"
def CAMEX_NOISE_PROLOGUE : Bytes := ascii "camex v2"
def NOISE_DHLEN : ℕ := 32
def NOISE_HASHLEN : ℕ := 64

variable (P : NoisePrims)

/-! ## The transcript -/

/-- `hkdf`; the callers with two outputs leave the third. -/
def hkdf (ck : Hash) (ikm : Bytes) : Hash × Hash × Hash :=
  let temp := P.hmac (hashBytes ck) ikm
  let out1 := P.hmac (hashBytes temp) [1]
  let out2 := P.hmac (hashBytes temp) (hashBytes out1 ++ [2])
  (out1, out2, P.hmac (hashBytes temp) (hashBytes out2 ++ [3]))

def mixHash (hs : NoiseHs) (data : Bytes) : NoiseHs := { hs with h := P.hash (hashBytes hs.h ++ data) }

def mixKey (hs : NoiseHs) (ikm : Bytes) : NoiseHs :=
  let out := hkdf P hs.ck ikm
  { hs with ck := out.1, cs := ⟨keyOfHash out.2.1, 0, true⟩ }

def mixKeyAndHash (hs : NoiseHs) (ikm : Bytes) : NoiseHs :=
  let out := hkdf P hs.ck ikm
  { mixHash P { hs with ck := out.1 } (hashBytes out.2.1) with cs := ⟨keyOfHash out.2.2, 0, true⟩ }

def encryptAndHash (hs : NoiseHs) (plain : Bytes) : NoiseHs × Bytes :=
  let out := P.encrypt hs.cs.k hs.cs.n (hashBytes hs.h) plain
  (mixHash P { hs with cs := { hs.cs with n := hs.cs.n + 1 } } out, out)

/-- `decrypt_and_hash`: the transcript takes the ciphertext. -/
def decryptAndHash (hs : NoiseHs) (input : Bytes) : NoiseHs × Option Bytes :=
  let nextH := P.hash (hashBytes hs.h ++ input)
  match P.decrypt hs.cs.k hs.cs.n (hashBytes hs.h) input with
  | none => (hs, none)
  | some plain => ({ hs with cs := { hs.cs with n := hs.cs.n + 1 }, h := nextH }, some plain)

/-- `dh`: an all-zero result is refused. -/
def dh (priv pub : Key) : Option Key := if P.x25519 priv pub = 0 then none else some (P.x25519 priv pub)

/-! ## Start -/

def initCommon (prologue : Bytes) (serverPub : Key) : NoiseHs :=
  let name : Hash := BitVec.ofNat 512 (beValue (NOISE_PROTOCOL ++ List.replicate (NOISE_HASHLEN - NOISE_PROTOCOL.length) 0))
  mixHash P (mixHash P { NoiseHs.zero with h := name, ck := name } prologue) (keyBytes serverPub)

def noiseInitInitiator (prologue : Bytes) (serverPub : Key) : NoiseHs :=
  { initCommon P prologue serverPub with sPub := serverPub, initiator := true }

def noiseInitResponder (prologue : Bytes) (sPriv sPub : Key) : NoiseHs :=
  { initCommon P prologue sPub with sPriv := sPriv, sPub := sPub, initiator := false }

/-- `noise_keypair` into the ephemeral key, which is mixed into the transcript. -/
def mixEphemeral (hs : NoiseHs) (seed : Key) : NoiseHs :=
  let hs := { hs with ePriv := seed, ePub := P.publicKey seed }
  mixKey P (mixHash P hs (keyBytes hs.ePub)) (keyBytes hs.ePub)

/-- The remote ephemeral key of a message, mixed into the transcript. -/
def mixRemote (hs : NoiseHs) (msg : Bytes) : NoiseHs :=
  let hs := { hs with re := keyOfBytes (msg.take NOISE_DHLEN) }
  mixKey P (mixHash P hs (keyBytes hs.re)) (keyBytes hs.re)

/-! ## Message 1 -/

def noiseWriteMsg1 (hs : NoiseHs) (psk seed : Key) (payload : Bytes) (outSize : ℕ) : NoiseHs × Option Bytes :=
  if !hs.initiator ∨ outSize < NOISE_MSG1_OVERHEAD ∨ outSize - NOISE_MSG1_OVERHEAD < payload.length then (hs, none)
  else
    let hs := mixEphemeral P (mixKeyAndHash P hs (keyBytes psk)) seed
    match dh P hs.ePriv hs.sPub with
    | none => (hs, none)
    | some shared =>
      let (hs', out) := encryptAndHash P (mixKey P hs (keyBytes shared)) payload
      (hs', some (keyBytes hs.ePub ++ out))

def noiseMsg1Es (hs : NoiseHs) (msg : Bytes) : Option Key :=
  if hs.initiator ∨ msg.length < NOISE_MSG1_OVERHEAD then none
  else dh P hs.sPriv (keyOfBytes (msg.take NOISE_DHLEN))

/-- `read_msg1`, on the copy. -/
def readMsg1 (hs : NoiseHs) (psk es : Key) (msg : Bytes) (payloadSize : ℕ) : NoiseHs × Option Bytes :=
  if hs.initiator ∨ msg.length < NOISE_MSG1_OVERHEAD ∨ payloadSize < msg.length - NOISE_MSG1_OVERHEAD then (hs, none)
  else
    let hs := mixKey P (mixRemote P (mixKeyAndHash P hs (keyBytes psk)) msg) (keyBytes es)
    decryptAndHash P hs (msg.drop NOISE_DHLEN)

/-- `noise_read_msg1`: only a read that succeeds replaces the state. -/
def noiseReadMsg1 (hs : NoiseHs) (psk es : Key) (msg : Bytes) (payloadSize : ℕ) : NoiseHs × Option Bytes :=
  match readMsg1 P hs psk es msg payloadSize with
  | (t, some payload) => (t, some payload)
  | (_, none) => (hs, none)

/-! ## Message 2 -/

def noiseWriteMsg2 (hs : NoiseHs) (seed : Key) (payload : Bytes) (outSize : ℕ) : NoiseHs × Option Bytes :=
  if hs.initiator ∨ outSize < NOISE_MSG2_OVERHEAD ∨ outSize - NOISE_MSG2_OVERHEAD < payload.length then (hs, none)
  else
    let hs := mixEphemeral P hs seed
    match dh P hs.ePriv hs.re with
    | none => (hs, none)
    | some shared =>
      let (hs', out) := encryptAndHash P (mixKey P hs (keyBytes shared)) payload
      (hs', some (keyBytes hs.ePub ++ out))

/-- `read_msg2`, on the copy. -/
def readMsg2 (hs : NoiseHs) (msg : Bytes) (payloadSize : ℕ) : NoiseHs × Option Bytes :=
  if !hs.initiator ∨ msg.length < NOISE_MSG2_OVERHEAD ∨ payloadSize < msg.length - NOISE_MSG2_OVERHEAD then (hs, none)
  else
    let hs := mixRemote P hs msg
    match dh P hs.ePriv hs.re with
    | none => (hs, none)
    | some shared => decryptAndHash P (mixKey P hs (keyBytes shared)) (msg.drop NOISE_DHLEN)

def noiseReadMsg2 (hs : NoiseHs) (msg : Bytes) (payloadSize : ℕ) : NoiseHs × Option Bytes :=
  match readMsg2 P hs msg payloadSize with
  | (t, some payload) => (t, some payload)
  | (_, none) => (hs, none)

/-- `noise_split`: `c1` and `c2`. -/
def noiseSplit (hs : NoiseHs) : Key × Key :=
  let out := hkdf P hs.ck []
  (keyOfHash out.1, keyOfHash out.2.1)

/-! ## The server's functions -/

/-- A read or a write that succeeded, with the state behind it. -/
def succeeded (x : NoiseHs × Option Bytes) : Option (Bytes × NoiseHs) := x.2.map fun bytes => (bytes, x.1)

/-- The functions the server calls; the others are parameters still. -/
def NoisePrims.noise (mac1 : Key → Bytes → Bytes) (shareHash : BitVec 128 → Bytes → BitVec 32)
    (keyFromPsk : CStr → Option Key) : Noise NoiseHs where
  initResponder := noiseInitResponder P CAMEX_NOISE_PROLOGUE
  msg1Es := noiseMsg1Es P
  readMsg1 hs psk es msg size := succeeded (noiseReadMsg1 P hs psk es msg size)
  writeMsg2 hs seed payload size := succeeded (noiseWriteMsg2 P hs seed payload size)
  split := noiseSplit P
  encrypt := P.encrypt
  decrypt := P.decrypt
  mac1 := mac1
  shareHash := shareHash
  keyFromPsk := keyFromPsk

end Camex
