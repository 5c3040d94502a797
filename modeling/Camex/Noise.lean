import Camex.Lib.CString

/-!
# The cryptographic functions the server calls

`Noise` collects the functions of `noise.c`, `keys.c` and monocypher that the protocol code uses,
as parameters of the model: everything proved about the server holds whatever they compute. A
32-byte key is a `Key`, all zero where the code wiped it; a failed read is `none`.
-/

namespace Camex

open Lib

abbrev Key := BitVec 256

/-- `Hs` is `noise_hs_t`. -/
structure Noise (Hs : Type) where
  /-- `noise_init_responder` with the protocol's prologue and the server's key pair. -/
  initResponder : Key → Key → Hs
  /-- `noise_msg1_es`. -/
  msg1Es : Hs → Bytes → Option Key
  /-- `noise_read_msg1` with a PSK and `es`: the payload, if it fits the given size. -/
  readMsg1 : Hs → Key → Key → Bytes → ℕ → Option (Bytes × Hs)
  /-- `noise_write_msg2` with the ephemeral seed, the payload and the size of `out`. -/
  writeMsg2 : Hs → Key → Bytes → ℕ → Option (Bytes × Hs)
  /-- `noise_split`: `c1` and `c2`. -/
  split : Hs → Key × Key
  /-- `noise_encrypt`: key, counter, header, plaintext. -/
  encrypt : Key → ℕ → Bytes → Bytes → Bytes
  /-- `noise_decrypt`. -/
  decrypt : Key → ℕ → Bytes → Bytes → Option Bytes
  /-- `v2_mac1` with the server's public key. -/
  mac1 : Key → Bytes → Bytes
  /-- The first four bytes of `crypto_blake2b_keyed` that place a budget share. -/
  shareHash : BitVec 128 → Bytes → BitVec 32
  /-- The key of a PSK text (`derive_psk_key`), `none` for a malformed one. -/
  keyFromPsk : CStr → Option Key

/-- `camex_crypto_t`: the fields the server reads. -/
structure CryptoCtx where
  pskKey : Key
  ready : Bool
  hasGlobal : Bool
  serverPriv : Key
  serverPub : Key
  hasServerKey : Bool
  deriving DecidableEq

def cryptoDropGlobal (ctx : CryptoCtx) : CryptoCtx := { ctx with pskKey := 0, hasGlobal := false }

end Camex
