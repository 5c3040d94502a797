import Camex.Lib.Framing
import Camex.Noise
import Camex.Util
import Mathlib.Logic.Function.Basic

/-!
# Wire format and transport sessions (`session.c`)

Packet headers, the replay window (a ring of 64-bit words), and `session_init`, `session_seal`
and `session_open`. A counter is a `ℕ`: the code refuses counters from `2^60` on, so none wraps.
-/

namespace Camex

open Lib

def CAMEX_MAGIC : Bytes := ascii "CXv2"
def V2_TYPE_INIT : UInt8 := 1
def V2_TYPE_RESP : UInt8 := 2
def V2_TYPE_DATA : UInt8 := 3
def V2_INIT_HDR : ℕ := 9
def V2_MAC_LEN : ℕ := 16
def V2_RESP_HDR : ℕ := 13
def V2_DATA_HDR : ℕ := 17
def NOISE_TAGLEN : ℕ := 16
def NOISE_MSG1_OVERHEAD : ℕ := 48
def NOISE_MSG2_OVERHEAD : ℕ := 48
def V2_OVERHEAD : ℕ := V2_DATA_HDR + NOISE_TAGLEN
def V2_TIMESTAMP_LEN : ℕ := 12
def V2_REPLAY_WINDOW : ℕ := 2048
def V2_REKEY_AFTER_TIME : Time := 600
def V2_REJECT_AFTER_MSGS : ℕ := 2 ^ 60
def V2_PREV_SESSION_GRACE : Time := 30
def TUN_PACKET_MAX : ℕ := 9216

/-! ## Numbers in packets -/

/-- `v2_read_u32(p + at)`. -/
def v2ReadU32 (p : Bytes) (at_ : ℕ) : BitVec 32 := BitVec.ofNat 32 (beValue ((p.drop at_).take 4))

/-- `v2_write_u32`. -/
def v2WriteU32 (v : BitVec 32) : Bytes :=
  [24, 16, 8, 0].map fun k => UInt8.ofNat (v.toNat / 2 ^ k % 256)

/-- `read_le64(p + at)`. -/
def readLe64 (p : Bytes) (at_ : ℕ) : ℕ := beValue ((p.drop at_).take 8).reverse

def writeLe64 (v : ℕ) : Bytes :=
  [0, 8, 16, 24, 32, 40, 48, 56].map fun k => UInt8.ofNat (v / 2 ^ k % 256)

theorem toNat_ofNat_mod (v : ℕ) : (UInt8.ofNat (v % 256)).toNat = v % 256 := by
  rw [UInt8.toNat_ofNat']
  exact Nat.mod_eq_of_lt (by omega)

theorem v2ReadU32_writeU32 (v : BitVec 32) (before after : Bytes) {at_ : ℕ} (hat : before.length = at_) :
    v2ReadU32 (before ++ (v2WriteU32 v ++ after)) at_ = v := by
  unfold v2ReadU32
  rw [← hat, List.drop_left, List.take_append_of_le_length (by simp [v2WriteU32]),
    List.take_of_length_le (by simp [v2WriteU32])]
  simp only [beValue, v2WriteU32, List.map_cons, List.map_nil, List.foldl_cons, List.foldl_nil, toNat_ofNat_mod]
  have := v.isLt
  apply BitVec.eq_of_toNat_eq
  rw [BitVec.toNat_ofNat]
  omega

theorem readLe64_writeLe64 {v : ℕ} (hv : v < 2 ^ 64) (before after : Bytes) {at_ : ℕ} (hat : before.length = at_) :
    readLe64 (before ++ (writeLe64 v ++ after)) at_ = v := by
  unfold readLe64
  rw [← hat, List.drop_left, List.take_append_of_le_length (by simp [writeLe64]),
    List.take_of_length_le (by simp [writeLe64])]
  simp only [beValue, writeLe64, List.map_cons, List.map_nil, List.reverse_cons, List.reverse_nil, List.nil_append,
    List.cons_append, List.foldl_cons, List.foldl_nil, toNat_ofNat_mod]
  omega

/-- `v2_packet_type`: the type, `0` for anything else. -/
def v2PacketType (pkt : Bytes) : UInt8 :=
  if pkt.length < 5 ∨ pkt.take 4 ≠ CAMEX_MAGIC then 0
  else
    let type := pkt.getD 4 0
    if type = V2_TYPE_INIT then
      if V2_INIT_HDR + NOISE_MSG1_OVERHEAD + V2_TIMESTAMP_LEN + V2_MAC_LEN ≤ pkt.length then
        V2_TYPE_INIT else 0
    else if type = V2_TYPE_RESP then
      if V2_RESP_HDR + NOISE_MSG2_OVERHEAD ≤ pkt.length then V2_TYPE_RESP else 0
    else if type = V2_TYPE_DATA then
      if V2_OVERHEAD ≤ pkt.length then V2_TYPE_DATA else 0
    else 0

def v2DataReceiver (pkt : Bytes) : BitVec 32 := v2ReadU32 pkt 5

/-! ## The replay window -/

abbrev REPLAY_WORDS : ℕ := 32

/-- `replay_window_t`. -/
structure ReplayWindow where
  max : ℕ
  bits : Fin REPLAY_WORDS → BitVec 64
  any : Bool

def ReplayWindow.zero : ReplayWindow := ⟨0, fun _ => 0, false⟩

/-- The word of the ring that holds the bit of counter `n`. -/
def replayWord (w : ℕ) : Fin REPLAY_WORDS := ⟨w % REPLAY_WORDS, Nat.mod_lt _ (by decide)⟩

/-- `replay_check(r, n) == 0`. -/
def replayCheck (r : ReplayWindow) (n : ℕ) : Bool :=
  if V2_REJECT_AFTER_MSGS ≤ n then false
  else if !r.any || r.max < n then true
  else if REPLAY_WORDS ≤ r.max / 64 - n / 64 then false
  else !(r.bits (replayWord (n / 64))).getLsbD (n % 64)

/-- The words `from, from + 1, ..` cleared one after the other. -/
def clearWords (bits : Fin REPLAY_WORDS → BitVec 64) (start count : ℕ) :
    Fin REPLAY_WORDS → BitVec 64 :=
  (List.range' start count).foldl (fun b w => Function.update b (replayWord w) 0) bits

def replayRecord (r : ReplayWindow) (n : ℕ) : ReplayWindow :=
  let r :=
    if !r.any then { max := n, bits := fun _ => 0, any := true }
    else if r.max < n then
      let bits :=
        if REPLAY_WORDS ≤ n / 64 - r.max / 64 then fun _ => 0
        else clearWords r.bits (r.max / 64 + 1) (n / 64 - r.max / 64)
      { r with max := n, bits := bits }
    else r
  let w := replayWord (n / 64)
  { r with bits := Function.update r.bits w (r.bits w ||| BitVec.twoPow 64 (n % 64)) }

/-! ## Sessions -/

/-- `session_t`. -/
structure Session where
  localIndex : BitVec 32
  remoteIndex : BitVec 32
  kSend : Key
  kRecv : Key
  sendN : ℕ
  replay : ReplayWindow
  created : Time
  valid : Bool

def Session.wiped : Session := ⟨0, 0, 0, 0, 0, .zero, 0, false⟩

def sessionInit (localIndex remoteIndex : BitVec 32) (kSend kRecv : Key) (now : Time) : Session :=
  { Session.wiped with
    localIndex := localIndex, remoteIndex := remoteIndex, kSend := kSend, kRecv := kRecv,
    created := now, valid := true }

@[simp] theorem Session.wiped_valid : Session.wiped.valid = false := rfl

@[simp] theorem sessionInit_valid (l r : BitVec 32) (ks kr : Key) (now : Time) :
    (sessionInit l r ks kr now).valid = true := rfl

variable {Hs : Type} (N : Noise Hs)

/-- `session_seal`: the DATA packet and the session behind it. -/
def sessionSeal (s : Session) (plain : Bytes) (outSize : ℕ) : Option (Bytes × Session) :=
  if !s.valid ∨ V2_REJECT_AFTER_MSGS ≤ s.sendN ∨ outSize < V2_OVERHEAD + plain.length then none
  else
    let hdr := CAMEX_MAGIC ++ V2_TYPE_DATA :: (v2WriteU32 s.remoteIndex ++ writeLe64 s.sendN)
    some (hdr ++ N.encrypt s.kSend s.sendN hdr plain, { s with sendN := s.sendN + 1 })

/-- `session_open`: the payload and the session with the counter recorded. -/
def sessionOpen (s : Session) (pkt : Bytes) (plainSize : ℕ) : Option (Bytes × Session) :=
  if !s.valid ∨ v2PacketType pkt ≠ V2_TYPE_DATA ∨ v2DataReceiver pkt ≠ s.localIndex ∨
      plainSize < pkt.length - V2_OVERHEAD then none
  else
    let n := readLe64 pkt 9
    if !replayCheck s.replay n then none
    else
      match N.decrypt s.kRecv n (pkt.take V2_DATA_HDR) (pkt.drop V2_DATA_HDR) with
      | none => none
      | some plain =>
        some (plain, { s with replay := replayRecord s.replay n })

theorem sessionOpen_iff {s s' : Session} {pkt plain : Bytes} {size : ℕ} :
    sessionOpen N s pkt size = some (plain, s') ↔
      s.valid = true ∧ v2PacketType pkt = V2_TYPE_DATA ∧ v2DataReceiver pkt = s.localIndex ∧
        pkt.length - V2_OVERHEAD ≤ size ∧ replayCheck s.replay (readLe64 pkt 9) = true ∧
        N.decrypt s.kRecv (readLe64 pkt 9) (pkt.take V2_DATA_HDR) (pkt.drop V2_DATA_HDR) = some plain ∧
        s' = { s with replay := replayRecord s.replay (readLe64 pkt 9) } := by
  unfold sessionOpen
  constructor
  · intro h
    split at h
    · cases h
    · rename_i hv
      simp only [not_or, Bool.not_eq_true', Bool.not_eq_false, not_not, not_lt] at hv
      dsimp only at h
      split at h
      · cases h
      · rename_i hreplay
        split at h
        · cases h
        · rename_i plain' hdecrypt
          cases h
          exact ⟨hv.1, hv.2.1, hv.2.2.1, hv.2.2.2, by simpa using hreplay, hdecrypt, rfl⟩
  · rintro ⟨hv, htype, hidx, hsize, hreplay, hdecrypt, rfl⟩
    rw [if_neg (by simp [hv, htype, hidx]; omega)]
    simp [hreplay, hdecrypt]

/-- Opening a packet records its counter and changes nothing else. -/
theorem sessionOpen_session {s s' : Session} {pkt plain : Bytes} {size : ℕ}
    (h : sessionOpen N s pkt size = some (plain, s')) :
    s.valid = true ∧ s' = { s with replay := replayRecord s.replay (readLe64 pkt 9) } := by
  obtain ⟨hv, -, -, -, -, -, hs'⟩ := (sessionOpen_iff N).mp h
  exact ⟨hv, hs'⟩

def dataHeader (s : Session) : Bytes :=
  CAMEX_MAGIC ++ V2_TYPE_DATA :: (v2WriteU32 s.remoteIndex ++ writeLe64 s.sendN)

theorem sessionSeal_iff {s s' : Session} {plain out : Bytes} {size : ℕ} :
    sessionSeal N s plain size = some (out, s') ↔
      s.valid = true ∧ s.sendN < V2_REJECT_AFTER_MSGS ∧ V2_OVERHEAD + plain.length ≤ size ∧
        out = dataHeader s ++ N.encrypt s.kSend s.sendN (dataHeader s) plain ∧
        s' = { s with sendN := s.sendN + 1 } := by
  unfold sessionSeal
  constructor
  · intro h
    split at h
    · cases h
    · rename_i hv
      simp only [not_or, Bool.not_eq_true', Bool.not_eq_false, not_le, not_lt] at hv
      cases h
      exact ⟨hv.1, hv.2.1, hv.2.2, rfl, rfl⟩
  · rintro ⟨hv, hlimit, hsize, rfl, rfl⟩
    rw [if_neg (by simp [hv]; omega)]
    rfl

/-- Sealing a packet counts it and changes nothing else. -/
theorem sessionSeal_session {s s' : Session} {plain out : Bytes} {size : ℕ}
    (h : sessionSeal N s plain size = some (out, s')) :
    s.valid = true ∧ s' = { s with sendN := s.sendN + 1 } := by
  obtain ⟨hv, -, -, -, hs'⟩ := (sessionSeal_iff N).mp h
  exact ⟨hv, hs'⟩

/-! ## Timestamps -/

/-- The 12 bytes of a TAI64N timestamp as one number: `v2_timestamp_cmp`, a `memcmp`, compares
them as numbers. -/
abbrev Timestamp := BitVec 96

def readTimestamp (payload : Bytes) : Timestamp := BitVec.ofNat 96 (beValue (payload.take 12))

end Camex
