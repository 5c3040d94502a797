import Camex.Lib.Checked
import Camex.NoiseHandshake

/-!
# Packets in memory (`session.c`, `noise.c`)

The functions that read, open and build packets once more, now on memory: a packet is a `Slice` beside its length,
what is decrypted or built goes into a `Area`. In the namespace `Raw` they keep their names.

* `Crypto`: monocypher, whose results have their sizes by type; `Crypto.prims`, `Crypto.noise` are the
  parameters of the other modules;
* `Raw.sessionOpen_safe`, `Raw.sessionSeal_safe`, `Raw.noiseReadMsg1_safe`, `Raw.noiseWriteMsg2_safe`,
  `Raw.noiseReadMsg2_safe`: no access leaves its object, and the result is that of the function on lists.
-/

namespace Camex

open Lib

/-! ## Monocypher -/

abbrev Tag := { bytes : Bytes // bytes.length = NOISE_TAGLEN }

structure Crypto where
  /-- `crypto_blake2b` of 64 bytes. -/
  hash : Bytes → Hash
  /-- `noise_hmac`: key and data. -/
  hmac : Bytes → Bytes → Hash
  /-- `crypto_x25519`: private and public key. -/
  x25519 : Key → Key → Key
  /-- `crypto_x25519_public_key`. -/
  publicKey : Key → Key
  /-- `crypto_chacha20_djb`: a byte of the stream of a key and a counter. -/
  stream : Key → ℕ → ℕ → UInt8
  /-- `lock_auth`: key, counter, header, ciphertext. -/
  tag : Key → ℕ → Bytes → Bytes → Tag
  /-- `v2_mac1` with the server's public key. -/
  mac1 : Key → Bytes → Tag
  /-- The first four bytes of `crypto_blake2b_keyed` that place a budget share. -/
  shareHash : BitVec 128 → Bytes → BitVec 32
  /-- The key of a PSK text (`derive_psk_key`), `none` for a malformed one. -/
  keyFromPsk : CStr → Option Key

namespace Crypto

variable (C : Crypto)

/-- `crypto_chacha20_djb` over a text. -/
def chacha20 (key : Key) (n : ℕ) (text : Bytes) : Bytes := text.mapIdx fun i b => b ^^^ C.stream key n i

@[simp] theorem chacha20_length (key : Key) (n : ℕ) (text : Bytes) : (C.chacha20 key n text).length = text.length :=
  List.length_mapIdx

def aeadWrite (key : Key) (n : ℕ) (ad plain : Bytes) : Bytes :=
  let cipher := C.chacha20 key n plain
  cipher ++ (C.tag key n ad cipher).val

/-- `noise_decrypt`, `crypto_aead_read`. -/
def aeadRead (key : Key) (n : ℕ) (ad sealed : Bytes) : Option Bytes :=
  if sealed.length < NOISE_TAGLEN then none
  else
    let cipher := sealed.take (sealed.length - NOISE_TAGLEN)
    if sealed.drop (sealed.length - NOISE_TAGLEN) = (C.tag key n ad cipher).val then some (C.chacha20 key n cipher)
    else none

@[simp] theorem aeadWrite_length (key : Key) (n : ℕ) (ad plain : Bytes) :
    (C.aeadWrite key n ad plain).length = plain.length + NOISE_TAGLEN := by
  unfold aeadWrite
  rw [List.length_append, chacha20_length, (C.tag ..).property]

theorem chacha20_chacha20 (key : Key) (n : ℕ) (text : Bytes) : C.chacha20 key n (C.chacha20 key n text) = text := by
  refine List.ext_getElem (by simp) fun i h h' => ?_
  simp only [chacha20, List.getElem_mapIdx, UInt8.xor_assoc, UInt8.xor_self, UInt8.xor_zero]

theorem aeadRead_aeadWrite (key : Key) (n : ℕ) (ad plain : Bytes) :
    C.aeadRead key n ad (C.aeadWrite key n ad plain) = some plain := by
  have hlen := C.aeadWrite_length key n ad plain
  have hcut : (C.aeadWrite key n ad plain).length - NOISE_TAGLEN = (C.chacha20 key n plain).length := by
    rw [hlen, chacha20_length]
    exact Nat.add_sub_cancel ..
  have htake : (C.aeadWrite key n ad plain).take (C.chacha20 key n plain).length = C.chacha20 key n plain :=
    List.take_left
  have hdrop : (C.aeadWrite key n ad plain).drop (C.chacha20 key n plain).length =
      (C.tag key n ad (C.chacha20 key n plain)).val := List.drop_left
  unfold aeadRead
  rw [if_neg (by omega), hcut, htake, hdrop]
  dsimp only
  rw [if_pos rfl, chacha20_chacha20]

theorem aeadRead_length {key : Key} {n : ℕ} {ad sealed plain : Bytes} (h : C.aeadRead key n ad sealed = some plain) :
    plain.length + NOISE_TAGLEN = sealed.length := by
  unfold aeadRead at h
  split at h
  · cases h
  · dsimp only at h
    split at h
    · cases h
      rw [chacha20_length, List.length_take]
      omega
    · cases h

def prims : NoisePrims where
  hash := C.hash
  hmac := C.hmac
  x25519 := C.x25519
  publicKey := C.publicKey
  encrypt := C.aeadWrite
  decrypt := C.aeadRead

def noise : Noise NoiseHs := C.prims.noise (fun key pkt => (C.mac1 key pkt).val) C.shareHash C.keyFromPsk

end Crypto

namespace Raw

variable (C : Crypto) {k : ℕ}

/-! ## Headers -/

/-- `v2_read_u32`. -/
def v2ReadU32 (p : Slice) : Checked (BitVec 32) := return BitVec.ofNat 32 (beValue (← p.read 4))

def readLe64 (p : Slice) : Checked ℕ := return beValue (← p.read 8).reverse

def v2PacketType (pkt : Slice) (len : ℕ) : Checked UInt8 :=
  if len < 5 then return 0
  else do
    let magic ← pkt.read 4
    if magic ≠ CAMEX_MAGIC then return 0
    else do
      let type ← (pkt.add 4).byte
      if type = V2_TYPE_INIT then
        return if V2_INIT_HDR + NOISE_MSG1_OVERHEAD + V2_TIMESTAMP_LEN + V2_MAC_LEN ≤ len then V2_TYPE_INIT else 0
      else if type = V2_TYPE_RESP then
        return if V2_RESP_HDR + NOISE_MSG2_OVERHEAD ≤ len then V2_TYPE_RESP else 0
      else if type = V2_TYPE_DATA then return if V2_OVERHEAD ≤ len then V2_TYPE_DATA else 0
      else return 0

def v2DataReceiver (pkt : Slice) : Checked (BitVec 32) := v2ReadU32 (pkt.add 5)

section

variable {p : Slice} {pkt : Bytes}

theorem v2ReadU32_eq (h : p.Has pkt) {place : ℕ} (hplace : place + 4 ≤ pkt.length) :
    v2ReadU32 (p.add place) = .ok (Camex.v2ReadU32 pkt place) := by
  unfold v2ReadU32
  rw [h.read_at hplace]
  rfl

theorem readLe64_eq (h : p.Has pkt) {place : ℕ} (hplace : place + 8 ≤ pkt.length) :
    readLe64 (p.add place) = .ok (Camex.readLe64 pkt place) := by
  unfold readLe64
  rw [h.read_at hplace]
  rfl

/-- A packet with a type is as long as `v2_packet_type` asks of that type. -/
theorem v2PacketType_length (pkt : Bytes) :
    Camex.v2PacketType pkt = 0 ∨
      Camex.v2PacketType pkt = V2_TYPE_INIT ∧
        V2_INIT_HDR + NOISE_MSG1_OVERHEAD + V2_TIMESTAMP_LEN + V2_MAC_LEN ≤ pkt.length ∨
      Camex.v2PacketType pkt = V2_TYPE_RESP ∧ V2_RESP_HDR + NOISE_MSG2_OVERHEAD ≤ pkt.length ∨
      Camex.v2PacketType pkt = V2_TYPE_DATA ∧ V2_OVERHEAD ≤ pkt.length := by
  have hchecked : ∀ (least : ℕ) (type : UInt8), (if least ≤ pkt.length then type else 0) = 0 ∨
      (if least ≤ pkt.length then type else 0) = type ∧ least ≤ pkt.length := by
    intro least type
    split
    · exact Or.inr ⟨rfl, ‹_›⟩
    · exact Or.inl rfl
  unfold Camex.v2PacketType
  split
  · exact Or.inl rfl
  dsimp only
  split
  · exact (hchecked _ V2_TYPE_INIT).imp_right Or.inl
  split
  · exact (hchecked _ V2_TYPE_RESP).imp_right fun h => Or.inr (Or.inl h)
  split
  · exact (hchecked _ V2_TYPE_DATA).imp_right fun h => Or.inr (Or.inr h)
  · exact Or.inl rfl

theorem v2PacketType_init (h : Camex.v2PacketType pkt = V2_TYPE_INIT) :
    V2_INIT_HDR + NOISE_MSG1_OVERHEAD + V2_TIMESTAMP_LEN + V2_MAC_LEN ≤ pkt.length := by
  have hlen := v2PacketType_length pkt
  rw [h] at hlen
  rcases hlen with hno | ⟨-, hlen⟩ | ⟨hno, -⟩ | ⟨hno, -⟩
  · cases hno
  · exact hlen
  · cases hno
  · cases hno

theorem v2PacketType_resp (h : Camex.v2PacketType pkt = V2_TYPE_RESP) :
    V2_RESP_HDR + NOISE_MSG2_OVERHEAD ≤ pkt.length := by
  have hlen := v2PacketType_length pkt
  rw [h] at hlen
  rcases hlen with hno | ⟨hno, -⟩ | ⟨-, hlen⟩ | ⟨hno, -⟩
  · cases hno
  · cases hno
  · exact hlen
  · cases hno

theorem v2PacketType_data (h : Camex.v2PacketType pkt = V2_TYPE_DATA) : V2_OVERHEAD ≤ pkt.length := by
  have hlen := v2PacketType_length pkt
  rw [h] at hlen
  rcases hlen with hno | ⟨hno, -⟩ | ⟨hno, -⟩ | ⟨-, hlen⟩
  · cases hno
  · cases hno
  · cases hno
  · exact hlen

theorem v2PacketType_eq (h : p.Has pkt) : v2PacketType p pkt.length = .ok (Camex.v2PacketType pkt) := by
  unfold v2PacketType Camex.v2PacketType
  by_cases hlen : pkt.length < 5
  · rw [if_pos hlen, if_pos (Or.inl hlen)]
    rfl
  rw [if_neg hlen, h.read (by omega), ok_bind]
  by_cases hmagic : pkt.take 4 ≠ CAMEX_MAGIC
  · rw [if_pos hmagic, if_pos (Or.inr hmagic)]
    rfl
  have htype : (pkt.drop 4).headD 0 = pkt.getD 4 0 := by
    rw [List.headD_eq_head?_getD, List.head?_drop, List.getD_eq_getElem?_getD]
  rw [if_neg hmagic, if_neg (not_or.mpr ⟨hlen, hmagic⟩),
    (h.add (show 4 ≤ pkt.length by omega)).byte (by rw [List.length_drop]; omega), ok_bind, htype]
  dsimp only
  split
  · split <;> rfl
  · split
    · split <;> rfl
    · split
      · split <;> rfl
      · rfl

end

/-! ## Encryption -/

/-- `noise_encrypt` into `out + place`. -/
def noiseEncrypt (key : Key) (n : ℕ) (ad : Bytes) (plain : Slice) (len : ℕ) (out : Area k) (place : ℕ) :
    Checked (Area k) := do
  let text ← plain.read len
  let out ← out.write place (C.chacha20 key n text)
  let cipher ← out.read place len
  out.write (place + len) (C.tag key n ad cipher).val

/-- `noise_decrypt` into `plain`, `none` for -1. -/
def noiseDecrypt (key : Key) (n : ℕ) (ad : Bytes) (input : Slice) (len : ℕ) (plain : Area k) :
    Checked (Option (Area k)) :=
  if len < NOISE_TAGLEN then return none
  else do
    let size ← sizeSub len NOISE_TAGLEN
    let mac ← (input.add size).read NOISE_TAGLEN
    let cipher ← input.read size
    if mac = (C.tag key n ad cipher).val then return some (← plain.write 0 (C.chacha20 key n cipher))
    else return none

variable {C} {input plain : Slice} {out buf : Area k} {sealed text bytes : Bytes}

theorem noiseEncrypt_safe (key : Key) (n : ℕ) (ad : Bytes) (hplain : plain.Has text) (hout : out.Holds bytes)
    {place : ℕ} (hplace : bytes.length = place) (hfits : place + text.length + NOISE_TAGLEN ≤ k) :
    Safe (noiseEncrypt C key n ad plain text.length out place) fun out =>
      out.Holds (bytes ++ C.aeadWrite key n ad text) := by
  have hlen : (C.chacha20 key n text).length = text.length := C.chacha20_length key n text
  refine .bind_ok hplain.read_all ?_
  refine .bind (hout.write hplace _ (by omega)) fun out hout => ?_
  have hread : out.read place text.length = .ok (C.chacha20 key n text) := by
    rw [hout.read (by rw [List.length_append]; omega), ← hplace, List.drop_left, List.take_of_length_le (by omega)]
  refine .bind_ok hread ?_
  have hend : (bytes ++ C.chacha20 key n text).length = place + text.length := by rw [List.length_append, hplace, hlen]
  have hwrite := hout.write hend (C.tag key n ad (C.chacha20 key n text)).val (by
    rw [(C.tag ..).property]
    exact hfits)
  rw [List.append_assoc] at hwrite
  exact hwrite

/-- At most `size` bytes in an array: what it starts with, their number, and the state behind. -/
def Received {σ : Type} (size : ℕ) (x : Area k × ℕ × σ) (y : Bytes × σ) : Prop :=
  x.1.Holds y.1 ∧ x.2.1 = y.1.length ∧ y.1.length ≤ size ∧ x.2.2 = y.2

theorem noiseDecrypt_safe (key : Key) (n : ℕ) (ad : Bytes) (hinput : input.Has sealed) (buf : Area k)
    (hfits : sealed.length - NOISE_TAGLEN ≤ k) :
    Safe (noiseDecrypt C key n ad input sealed.length buf) fun r =>
      Option.Rel Area.Holds r (C.aeadRead key n ad sealed) := by
  unfold noiseDecrypt Crypto.aeadRead
  refine .ite (fun hlen => ?_) fun hlen => ?_
  · rw [if_pos hlen]
    exact .pure .none
  rw [if_neg hlen]
  refine .bind_ok (sizeSub_eq (by omega)) ?_
  refine .bind_ok (hinput.read_at (by omega)) ?_
  refine .bind_ok (hinput.read (by omega)) ?_
  rw [List.take_of_length_le (by rw [List.length_drop]; omega)]
  dsimp only
  refine .ite (fun htag => ?_) fun htag => ?_
  · rw [if_pos htag]
    refine .bind (Area.write_start buf ?_) fun buf hbuf => .pure (.some hbuf)
    rw [C.chacha20_length, List.length_take]
    omega
  · rw [if_neg htag]
    exact .pure .none

/-! ## Sessions -/

variable (C)

/-- `session_seal`: the packet, its length and the session behind it. -/
def sessionSeal (s : Session) (plain : Slice) (len : ℕ) (out : Area k) (outSize : ℕ) :
    Checked (Option (Area k × ℕ × Session)) :=
  if !s.valid ∨ V2_REJECT_AFTER_MSGS ≤ s.sendN ∨ outSize < V2_OVERHEAD + len then return none
  else do
    let out ← out.write 0 CAMEX_MAGIC
    let out ← out.write 4 [V2_TYPE_DATA]
    let out ← out.write 5 (v2WriteU32 s.remoteIndex)
    let out ← out.write 9 (writeLe64 s.sendN)
    let hdr ← out.read 0 V2_DATA_HDR
    let out ← noiseEncrypt C s.kSend s.sendN hdr plain len out V2_DATA_HDR
    return some (out, V2_OVERHEAD + len, { s with sendN := s.sendN + 1 })

/-- `session_open`: the payload in `plain`, its length and the session behind it. -/
def sessionOpen (s : Session) (pkt : Slice) (len : ℕ) (plain : Area k) (plainSize : ℕ) :
    Checked (Option (Area k × ℕ × Session)) :=
  if !s.valid then return none
  else do
    let type ← v2PacketType pkt len
    if type ≠ V2_TYPE_DATA then return none
    else do
      let receiver ← v2DataReceiver pkt
      if receiver ≠ s.localIndex then return none
      else do
        let size ← sizeSub len V2_OVERHEAD
        if plainSize < size then return none
        else do
          let n ← readLe64 (pkt.add 9)
          if !replayCheck s.replay n then return none
          else do
            let hdr ← pkt.read V2_DATA_HDR
            let sealedLen ← sizeSub len V2_DATA_HDR
            let opened ← noiseDecrypt C s.kRecv n hdr (pkt.add V2_DATA_HDR) sealedLen plain
            match opened with
            | none => return none
            | some plain => do
              let plainLen ← sizeSub len V2_OVERHEAD
              return some (plain, plainLen, { s with replay := replayRecord s.replay n })

variable {C} {pkt : Slice}

/-- A sealed packet fits the array it is built in. -/
theorem sessionSeal_safe (s : Session) (hplain : plain.Has text) (out : Area k) {outSize : ℕ} (hsize : outSize ≤ k) :
    Safe (sessionSeal C s plain text.length out outSize) fun r =>
      Option.Rel (Received outSize) r (Camex.sessionSeal C.noise s text outSize) := by
  unfold sessionSeal Camex.sessionSeal
  refine .ite (fun hno => ?_) fun hfits => ?_
  · rw [if_pos hno]
    exact .pure .none
  rw [if_neg hfits]
  simp only [not_or, not_lt] at hfits
  have hroom : V2_OVERHEAD + text.length ≤ k := hfits.2.2.trans hsize
  have hoverhead : V2_OVERHEAD = 33 := rfl
  have hmagic : CAMEX_MAGIC.length = 4 := by decide
  have hindex : (v2WriteU32 s.remoteIndex).length = 4 := rfl
  have hcount : (writeLe64 s.sendN).length = 8 := rfl
  have hdata : (CAMEX_MAGIC ++ [V2_TYPE_DATA] ++ v2WriteU32 s.remoteIndex ++ writeLe64 s.sendN).length = V2_DATA_HDR := by
    rw [List.length_append, List.length_append, List.length_append, hmagic, hindex, hcount]
    rfl
  have hhdr : CAMEX_MAGIC ++ [V2_TYPE_DATA] ++ v2WriteU32 s.remoteIndex ++ writeLe64 s.sendN =
      CAMEX_MAGIC ++ V2_TYPE_DATA :: (v2WriteU32 s.remoteIndex ++ writeLe64 s.sendN) := by
    simp only [List.append_assoc, List.cons_append, List.nil_append]
  refine .bind (Area.write_start out (by omega)) fun out hout => ?_
  refine .bind (hout.write hmagic [V2_TYPE_DATA] (by rw [List.length_singleton]; omega)) fun out hout => ?_
  refine .bind (hout.write (by rw [List.length_append, hmagic]; rfl) (v2WriteU32 s.remoteIndex) (by omega))
    fun out hout => ?_
  refine .bind (hout.write (by rw [List.length_append, List.length_append, hmagic, hindex]; rfl) (writeLe64 s.sendN)
    (by omega)) fun out hout => ?_
  have hread := hout.read_all
  rw [hdata, hhdr] at hread
  rw [hhdr] at hdata hout
  refine .bind_ok hread ?_
  refine .bind (noiseEncrypt_safe s.kSend s.sendN _ hplain hout hdata ?_) fun out hout => .pure (.some ⟨hout, ?_, ?_, rfl⟩)
  · rw [show V2_DATA_HDR + text.length + NOISE_TAGLEN = V2_OVERHEAD + text.length by unfold V2_OVERHEAD; omega]
    exact hroom
  · show V2_OVERHEAD + text.length = _
    rw [List.length_append, hdata]
    show _ = V2_DATA_HDR + (C.aeadWrite _ _ _ text).length
    rw [C.aeadWrite_length]
    unfold V2_OVERHEAD
    omega
  · rw [List.length_append, hdata]
    show V2_DATA_HDR + (C.aeadWrite _ _ _ text).length ≤ outSize
    rw [C.aeadWrite_length]
    unfold V2_OVERHEAD at hfits
    omega

/-- What is opened fits the array it goes into. -/
theorem sessionOpen_safe (s : Session) (hpkt : pkt.Has sealed) (buf : Area k) {plainSize : ℕ} (hsize : plainSize ≤ k) :
    Safe (sessionOpen C s pkt sealed.length buf plainSize) fun r =>
      Option.Rel (Received plainSize) r (Camex.sessionOpen C.noise s sealed plainSize) := by
  have hnone : ¬ (s.valid = true ∧ Camex.v2PacketType sealed = V2_TYPE_DATA ∧
      Camex.v2DataReceiver sealed = s.localIndex ∧ sealed.length - V2_OVERHEAD ≤ plainSize) →
      Camex.sessionOpen C.noise s sealed plainSize = none := by
    intro h
    unfold Camex.sessionOpen
    refine if_pos ?_
    by_contra hno
    simp only [not_or, not_not, not_lt, Bool.not_eq_true', Bool.not_eq_false] at hno
    exact h hno
  unfold sessionOpen
  refine .ite (fun hv => ?_) fun hv => ?_
  · rw [hnone fun h => by simp [h.1] at hv]
    exact .pure .none
  refine .bind_ok (v2PacketType_eq hpkt) ?_
  refine .ite (fun htype => ?_) fun htype => ?_
  · rw [hnone fun h => htype h.2.1]
    exact .pure .none
  have hlen : V2_DATA_HDR + NOISE_TAGLEN ≤ sealed.length := v2PacketType_data (not_not.mp htype)
  have hhdr : V2_DATA_HDR = 17 := rfl
  have htag : NOISE_TAGLEN = 16 := rfl
  have hoverhead : V2_OVERHEAD = 33 := rfl
  refine .bind_ok (v2ReadU32_eq hpkt (by omega)) ?_
  refine .ite (fun hindex => ?_) fun hindex => ?_
  · rw [hnone fun h => hindex h.2.2.1]
    exact .pure .none
  refine .bind_ok (sizeSub_eq (by omega)) ?_
  refine .ite (fun hroom => ?_) fun hroom => ?_
  · rw [hnone fun h => by omega]
    exact .pure .none
  have hpure : Camex.sessionOpen C.noise s sealed plainSize =
      if !replayCheck s.replay (Camex.readLe64 sealed 9) then none
      else (C.aeadRead s.kRecv (Camex.readLe64 sealed 9) (sealed.take V2_DATA_HDR) (sealed.drop V2_DATA_HDR)).map
        fun plain => (plain, { s with replay := replayRecord s.replay (Camex.readLe64 sealed 9) }) := by
    unfold Camex.sessionOpen
    rw [if_neg]
    · dsimp only
      split
      · rfl
      · cases hread : C.aeadRead s.kRecv (Camex.readLe64 sealed 9) (sealed.take V2_DATA_HDR) (sealed.drop V2_DATA_HDR) with
        | none => rw [show C.noise.decrypt = C.aeadRead from rfl, hread]; rfl
        | some plain => rw [show C.noise.decrypt = C.aeadRead from rfl, hread]; rfl
    · simp only [not_or, not_not, not_lt]
      exact ⟨hv, not_not.mp htype, not_not.mp hindex, not_lt.mp hroom⟩
  rw [hpure]
  refine .bind_ok (readLe64_eq hpkt (by omega)) ?_
  refine .ite (fun hreplay => ?_) fun hreplay => ?_
  · rw [if_pos hreplay]
    exact .pure .none
  rw [if_neg hreplay]
  refine .bind_ok (hpkt.read (by omega)) ?_
  refine .bind_ok (sizeSub_eq (by omega)) ?_
  have hsealed : (sealed.drop V2_DATA_HDR).length = sealed.length - V2_DATA_HDR := List.length_drop
  have hopen := noiseDecrypt_safe (C := C) s.kRecv (Camex.readLe64 sealed 9) (sealed.take V2_DATA_HDR)
    (hpkt.add (show V2_DATA_HDR ≤ sealed.length by omega)) buf (by omega)
  rw [hsealed] at hopen
  refine .bind hopen fun opened hopened => ?_
  cases hread : C.aeadRead s.kRecv (Camex.readLe64 sealed 9) (sealed.take V2_DATA_HDR) (sealed.drop V2_DATA_HDR) with
  | none =>
    rw [hread] at hopened
    cases hopened
    exact .pure .none
  | some plain =>
    rw [hread] at hopened
    cases hopened with
    | some hplain =>
      have hplen := C.aeadRead_length hread
      have hfit : plain.length ≤ plainSize := by omega
      refine .bind_ok (sizeSub_eq (by omega)) (.pure (.some ⟨hplain, ?_, hfit, rfl⟩))
      show sealed.length - V2_OVERHEAD = plain.length
      omega

/-! ## Handshake messages -/

variable (C)

/-- `encrypt_and_hash` into `out + place`. -/
def encryptAndHash (hs : NoiseHs) (plain : Slice) (len : ℕ) (out : Area k) (place : ℕ) :
    Checked (Area k × NoiseHs) := do
  let out ← noiseEncrypt C hs.cs.k hs.cs.n (hashBytes hs.h) plain len out place
  let sealed ← out.read place (len + NOISE_TAGLEN)
  return (out, mixHash C.prims { hs with cs := { hs.cs with n := hs.cs.n + 1 } } sealed)

def decryptAndHash (hs : NoiseHs) (input : Slice) (len : ℕ) (plain : Area k) :
    Checked (Option (Area k × NoiseHs)) := do
  let sealed ← input.read len
  let opened ← noiseDecrypt C hs.cs.k hs.cs.n (hashBytes hs.h) input len plain
  return opened.map fun plain =>
    (plain, { hs with cs := { hs.cs with n := hs.cs.n + 1 }, h := C.hash (hashBytes hs.h ++ sealed) })

def noiseMsg1Es (hs : NoiseHs) (msg : Slice) (len : ℕ) : Checked (Option Key) :=
  if hs.initiator ∨ len < NOISE_MSG1_OVERHEAD then return none
  else do
    let e ← msg.read NOISE_DHLEN
    return dh C.prims hs.sPriv (keyOfBytes e)

/-- `noise_read_msg1`: the payload, its length and the state behind it. -/
def noiseReadMsg1 (hs : NoiseHs) (psk es : Key) (msg : Slice) (len : ℕ) (payload : Area k) (payloadSize : ℕ) :
    Checked (Option (Area k × ℕ × NoiseHs)) :=
  if hs.initiator ∨ len < NOISE_MSG1_OVERHEAD then return none
  else do
    let plen ← sizeSub len NOISE_MSG1_OVERHEAD
    if payloadSize < plen then return none
    else do
      let e ← msg.read NOISE_DHLEN
      let hs := mixKey C.prims (mixRemote C.prims (mixKeyAndHash C.prims hs (keyBytes psk)) e) (keyBytes es)
      let sealedLen ← sizeSub len NOISE_DHLEN
      let opened ← decryptAndHash C hs (msg.add NOISE_DHLEN) sealedLen payload
      return opened.map fun x => (x.1, plen, x.2)

def noiseReadMsg2 (hs : NoiseHs) (msg : Slice) (len : ℕ) (payload : Area k) (payloadSize : ℕ) :
    Checked (Option (Area k × ℕ × NoiseHs)) :=
  if !hs.initiator ∨ len < NOISE_MSG2_OVERHEAD then return none
  else do
    let plen ← sizeSub len NOISE_MSG2_OVERHEAD
    if payloadSize < plen then return none
    else do
      let e ← msg.read NOISE_DHLEN
      let hs := mixRemote C.prims hs e
      match dh C.prims hs.ePriv hs.re with
      | none => return none
      | some shared => do
        let sealedLen ← sizeSub len NOISE_DHLEN
        let opened ← decryptAndHash C (mixKey C.prims hs (keyBytes shared)) (msg.add NOISE_DHLEN) sealedLen payload
        return opened.map fun x => (x.1, plen, x.2)

/-- `noise_write_msg2` into `out + place`: the message's length and the state behind it. -/
def noiseWriteMsg2 (hs : NoiseHs) (seed : Key) (payload : Slice) (payloadLen : ℕ) (out : Area k) (place outSize : ℕ) :
    Checked (Option (Area k × ℕ × NoiseHs)) :=
  if hs.initiator ∨ outSize < NOISE_MSG2_OVERHEAD then return none
  else do
    let room ← sizeSub outSize NOISE_MSG2_OVERHEAD
    if room < payloadLen then return none
    else do
      let hs := mixEphemeral C.prims hs seed
      let out ← out.write place (keyBytes hs.ePub)
      match dh C.prims hs.ePriv hs.re with
      | none => return none
      | some shared => do
        let (out, hs) ← encryptAndHash C (mixKey C.prims hs (keyBytes shared)) payload payloadLen out (place + NOISE_DHLEN)
        return some (out, NOISE_MSG2_OVERHEAD + payloadLen, hs)

variable {C} {hs : NoiseHs} {msg : Slice}

theorem encryptAndHash_safe (hs : NoiseHs) (hplain : plain.Has text) (hout : out.Holds bytes) {place : ℕ}
    (hplace : bytes.length = place) (hfits : place + text.length + NOISE_TAGLEN ≤ k) :
    Safe (encryptAndHash C hs plain text.length out place) fun x =>
      x.1.Holds (bytes ++ (Camex.encryptAndHash C.prims hs text).2) ∧ x.2 = (Camex.encryptAndHash C.prims hs text).1 := by
  refine .bind (noiseEncrypt_safe _ _ _ hplain hout hplace hfits) fun out hout => ?_
  have hlen := C.aeadWrite_length hs.cs.k hs.cs.n (hashBytes hs.h) text
  have hread : out.read place (text.length + NOISE_TAGLEN) =
      .ok (C.aeadWrite hs.cs.k hs.cs.n (hashBytes hs.h) text) := by
    rw [hout.read (by rw [List.length_append]; omega), ← hplace, List.drop_left, List.take_of_length_le (by omega)]
  refine .bind_ok hread (.pure ⟨hout, rfl⟩)

theorem succeeded_decryptAndHash (hs : NoiseHs) (sealed : Bytes) :
    succeeded (Camex.decryptAndHash C.prims hs sealed) =
      (C.aeadRead hs.cs.k hs.cs.n (hashBytes hs.h) sealed).map fun plain =>
        (plain, { hs with cs := { hs.cs with n := hs.cs.n + 1 }, h := C.hash (hashBytes hs.h ++ sealed) }) := by
  unfold Camex.decryptAndHash
  rw [show C.prims.decrypt = C.aeadRead from rfl]
  cases C.aeadRead hs.cs.k hs.cs.n (hashBytes hs.h) sealed with
  | none => rfl
  | some plain => rfl

theorem decryptAndHash_safe (hs : NoiseHs) (hinput : input.Has sealed) (buf : Area k)
    (hfits : sealed.length - NOISE_TAGLEN ≤ k) :
    Safe (decryptAndHash C hs input sealed.length buf) fun r =>
      Option.Rel (fun x y => x.1.Holds y.1 ∧ x.2 = y.2 ∧ y.1.length + NOISE_TAGLEN = sealed.length) r
        (succeeded (Camex.decryptAndHash C.prims hs sealed)) := by
  rw [succeeded_decryptAndHash]
  refine .bind_ok hinput.read_all ?_
  refine .bind (noiseDecrypt_safe _ _ _ hinput buf hfits) fun opened hopened => .pure ?_
  cases hread : C.aeadRead hs.cs.k hs.cs.n (hashBytes hs.h) sealed with
  | none =>
    rw [hread] at hopened
    cases hopened
    exact .none
  | some plain =>
    rw [hread] at hopened
    cases hopened with
    | some hplain => exact .some ⟨hplain, rfl, C.aeadRead_length hread⟩

theorem noiseMsg1Es_eq (hs : NoiseHs) (hmsg : msg.Has bytes) :
    noiseMsg1Es C hs msg bytes.length = .ok (Camex.noiseMsg1Es C.prims hs bytes) := by
  have hoverhead : NOISE_MSG1_OVERHEAD = 48 := rfl
  have hdhlen : NOISE_DHLEN = 32 := rfl
  unfold noiseMsg1Es Camex.noiseMsg1Es
  by_cases hno : hs.initiator = true ∨ bytes.length < NOISE_MSG1_OVERHEAD
  · rw [if_pos hno, if_pos hno]
    rfl
  · rw [if_neg hno, if_neg hno, hmsg.read (by omega)]
    rfl

theorem mixRemote_take (hs : NoiseHs) (bytes : Bytes) :
    mixRemote C.prims hs (bytes.take NOISE_DHLEN) = mixRemote C.prims hs bytes := by
  unfold mixRemote
  rw [List.take_take, Nat.min_self]

theorem succeeded_noiseReadMsg1 (hs : NoiseHs) (psk es : Key) (bytes : Bytes) (size : ℕ) :
    succeeded (Camex.noiseReadMsg1 C.prims hs psk es bytes size) = succeeded (readMsg1 C.prims hs psk es bytes size) := by
  unfold Camex.noiseReadMsg1
  cases readMsg1 C.prims hs psk es bytes size with
  | mk t payload => cases payload <;> rfl

theorem succeeded_noiseReadMsg2 (hs : NoiseHs) (bytes : Bytes) (size : ℕ) :
    succeeded (Camex.noiseReadMsg2 C.prims hs bytes size) = succeeded (readMsg2 C.prims hs bytes size) := by
  unfold Camex.noiseReadMsg2
  cases readMsg2 C.prims hs bytes size with
  | mk t payload => cases payload <;> rfl

/-- The end of both reads: the payload of a message fits, and its length is the one computed before. -/
theorem readPayload_safe (hs : NoiseHs) (hmsg : msg.Has bytes) (buf : Area k) {payloadSize : ℕ} (hsize : payloadSize ≤ k)
    (hlen : NOISE_DHLEN + NOISE_TAGLEN ≤ bytes.length)
    (hfits : bytes.length - (NOISE_DHLEN + NOISE_TAGLEN) ≤ payloadSize) :
    Safe (do
        let sealedLen ← sizeSub bytes.length NOISE_DHLEN
        let opened ← decryptAndHash C hs (msg.add NOISE_DHLEN) sealedLen buf
        return opened.map fun x => (x.1, bytes.length - (NOISE_DHLEN + NOISE_TAGLEN), x.2)) fun r =>
      Option.Rel (Received payloadSize) r (succeeded (Camex.decryptAndHash C.prims hs (bytes.drop NOISE_DHLEN))) := by
  have hdrop : (bytes.drop NOISE_DHLEN).length = bytes.length - NOISE_DHLEN := List.length_drop
  refine .bind_ok (sizeSub_eq (by omega)) ?_
  have hopen := decryptAndHash_safe (C := C) hs (hmsg.add (show NOISE_DHLEN ≤ bytes.length by omega)) buf (by omega)
  rw [hdrop] at hopen
  generalize succeeded (Camex.decryptAndHash C.prims hs (bytes.drop NOISE_DHLEN)) = expected at hopen ⊢
  refine .bind hopen fun opened hopened => .pure ?_
  cases hopened with
  | none => exact .none
  | some h =>
    obtain ⟨hplain, hstate, hlength⟩ := h
    exact .some ⟨hplain, by dsimp only; omega, by omega, hstate⟩

/-- The payload of message 1 fits the array it goes into. -/
theorem noiseReadMsg1_safe (hs : NoiseHs) (psk es : Key) (hmsg : msg.Has bytes) (buf : Area k) {payloadSize : ℕ}
    (hsize : payloadSize ≤ k) :
    Safe (noiseReadMsg1 C hs psk es msg bytes.length buf payloadSize) fun r =>
      Option.Rel (Received payloadSize) r (C.noise.readMsg1 hs psk es bytes payloadSize) := by
  show Safe _ fun r => Option.Rel (Received payloadSize) r (succeeded (Camex.noiseReadMsg1 C.prims hs psk es bytes payloadSize))
  have hoverhead : NOISE_MSG1_OVERHEAD = NOISE_DHLEN + NOISE_TAGLEN := rfl
  rw [succeeded_noiseReadMsg1]
  unfold noiseReadMsg1 readMsg1
  refine .ite (fun hno => ?_) fun hno => ?_
  · rw [if_pos (by rcases hno with h | h <;> simp [h])]
    exact .pure .none
  simp only [not_or, not_lt] at hno
  refine .bind_ok (sizeSub_eq hno.2) ?_
  refine .ite (fun hroom => ?_) fun hroom => ?_
  · rw [if_pos (Or.inr (Or.inr hroom))]
    exact .pure .none
  rw [if_neg (by simp only [not_or, not_lt]; exact ⟨hno.1, hno.2, not_lt.mp hroom⟩)]
  refine .bind_ok (hmsg.read (by omega)) ?_
  rw [mixRemote_take, hoverhead]
  exact readPayload_safe _ hmsg buf hsize (by omega) (by omega)

/-- The payload of message 2 fits the array it goes into. -/
theorem noiseReadMsg2_safe (hs : NoiseHs) (hmsg : msg.Has bytes) (buf : Area k) {payloadSize : ℕ}
    (hsize : payloadSize ≤ k) :
    Safe (noiseReadMsg2 C hs msg bytes.length buf payloadSize) fun r =>
      Option.Rel (Received payloadSize) r (succeeded (Camex.noiseReadMsg2 C.prims hs bytes payloadSize)) := by
  have hoverhead : NOISE_MSG2_OVERHEAD = NOISE_DHLEN + NOISE_TAGLEN := rfl
  rw [succeeded_noiseReadMsg2]
  unfold noiseReadMsg2 readMsg2
  refine .ite (fun hno => ?_) fun hno => ?_
  · rw [if_pos (by rcases hno with h | h <;> simp [h])]
    exact .pure .none
  simp only [not_or, not_lt] at hno
  refine .bind_ok (sizeSub_eq hno.2) ?_
  refine .ite (fun hroom => ?_) fun hroom => ?_
  · rw [if_pos (Or.inr (Or.inr hroom))]
    exact .pure .none
  rw [if_neg (by simp only [not_or, not_lt]; exact ⟨hno.1, hno.2, not_lt.mp hroom⟩)]
  refine .bind_ok (hmsg.read (by omega)) ?_
  rw [mixRemote_take, hoverhead]
  dsimp only
  cases dh C.prims (mixRemote C.prims hs bytes).ePriv (mixRemote C.prims hs bytes).re with
  | none => exact .pure .none
  | some shared => exact readPayload_safe _ hmsg buf hsize (by omega) (by omega)

/-- Message 2 fits the array it is built in. -/
theorem noiseWriteMsg2_safe (hs : NoiseHs) (seed : Key) (hplain : plain.Has text) (hout : out.Holds bytes) {place : ℕ}
    (hplace : bytes.length = place) {outSize : ℕ} (hsize : place + outSize ≤ k) :
    Safe (noiseWriteMsg2 C hs seed plain text.length out place outSize) fun r =>
      Option.Rel (fun x y => x.1.Holds (bytes ++ y.1) ∧ x.2.1 = y.1.length ∧ x.2.2 = y.2) r
        (C.noise.writeMsg2 hs seed text outSize) := by
  show Safe _ fun r => Option.Rel _ r (succeeded (Camex.noiseWriteMsg2 C.prims hs seed text outSize))
  have hoverhead : NOISE_MSG2_OVERHEAD = NOISE_DHLEN + NOISE_TAGLEN := rfl
  have hkey : ∀ key, (keyBytes key).length = NOISE_DHLEN := keyBytes_length
  unfold noiseWriteMsg2 Camex.noiseWriteMsg2
  refine .ite (fun hno => ?_) fun hno => ?_
  · rw [if_pos (by rcases hno with h | h <;> simp [h])]
    exact .pure .none
  simp only [not_or, not_lt] at hno
  refine .bind_ok (sizeSub_eq hno.2) ?_
  refine .ite (fun hroom => ?_) fun hroom => ?_
  · rw [if_pos (Or.inr (Or.inr hroom))]
    exact .pure .none
  rw [if_neg (by simp only [not_or, not_lt]; exact ⟨hno.1, hno.2, not_lt.mp hroom⟩)]
  dsimp only
  refine .bind (hout.write hplace _ (by rw [hkey]; omega)) fun out hout => ?_
  generalize hmixed : mixEphemeral C.prims hs seed = mixed at hout ⊢
  cases dh C.prims mixed.ePriv mixed.re with
  | none => exact .pure .none
  | some shared =>
    have hend : (bytes ++ keyBytes mixed.ePub).length = place + NOISE_DHLEN := by rw [List.length_append, hplace, hkey]
    refine .bind (encryptAndHash_safe _ hplain hout hend (by omega)) fun x hx => .pure (.some ?_)
    obtain ⟨hbytes, hstate⟩ := hx
    rw [List.append_assoc] at hbytes
    refine ⟨hbytes, ?_, hstate⟩
    show NOISE_MSG2_OVERHEAD + text.length = (keyBytes _ ++ C.aeadWrite _ _ _ text).length
    rw [List.length_append, hkey, C.aeadWrite_length]
    omega

end Raw

end Camex
