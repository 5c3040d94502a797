import Camex.Concrete
import Camex.SessionWindow
import Mathlib.Data.List.Nodup

/-!
# A session from end to end

`Channel`: the session of a sender and that of a receiver, with the calls of `noise_encrypt` and the packets
taken so far. Between them is a network that brings any bytes at any time.

* `IdealAead`, `Unforged`: decryption inverts encryption, and opens what was encrypted only;
* `Channel.Sound`: the invariant; `channelMachine_sound`: it holds in every state;
* `channel_endToEnd`: each packet is taken once at most, with its payload, and as long as it is recent.
-/

namespace Camex

open Lib

variable {Hs : Type} (N : Noise Hs)

/-! ## The machine -/

/-- A call of `noise_encrypt`. -/
structure Encryption where
  key : Key
  n : ℕ
  ad : Bytes
  plain : Bytes
  out : Bytes

def Encryption.packet (x : Encryption) : Bytes := x.ad ++ x.out

structure Channel where
  sender : Session
  receiver : Session
  calls : List Encryption
  taken : List (Bytes × Bytes)

inductive ChannelEvent
  | send (plain : Bytes) (outSize : ℕ)
  /-- The network brings some bytes, of the sender or not. -/
  | bring (pkt : Bytes) (plainSize : ℕ)

def channelStep (c : Channel) : ChannelEvent → Channel
  | .send plain outSize =>
    match sessionSeal N c.sender plain outSize with
    | none => c
    | some (pkt, sender) =>
      { c with
        sender := sender
        calls := ⟨c.sender.kSend, c.sender.sendN, dataHeader c.sender, plain, pkt.drop V2_DATA_HDR⟩ :: c.calls }
  | .bring pkt plainSize =>
    match sessionOpen N c.receiver pkt plainSize with
    | none => c
    | some (plain, receiver) => { c with receiver := receiver, taken := (pkt, plain) :: c.taken }

/-- Two sessions made by `session_init` with crossed keys and indexes. -/
def Crossed (c : Channel) : Prop :=
  ∃ (a b : BitVec 32) (k₁ k₂ : Key) (t t' : Time),
    c = ⟨sessionInit a b k₁ k₂ t, sessionInit b a k₂ k₁ t', [], []⟩

def channelMachine : Machine Channel ChannelEvent where
  start := Crossed
  next c e := some (channelStep N c e)

/-! ## The AEAD -/

/-- Decryption inverts encryption, and encryption adds the tag. -/
structure IdealAead : Prop where
  decrypt_encrypt : ∀ key n ad plain, N.decrypt key n ad (N.encrypt key n ad plain) = some plain
  length_encrypt : ∀ key n ad plain, (N.encrypt key n ad plain).length = plain.length + NOISE_TAGLEN

/-- Only the output of a call of `noise_encrypt` opens, with its key, nonce and header. -/
def Unforged (c : Channel) : ChannelEvent → Prop
  | .send _ _ => True
  | .bring pkt _ =>
    ∀ plain, N.decrypt c.receiver.kRecv (readLe64 pkt 9) (pkt.take V2_DATA_HDR) (pkt.drop V2_DATA_HDR) = some plain →
      ∃ x ∈ c.calls, x.key = c.receiver.kRecv ∧ x.n = readLe64 pkt 9 ∧ x.ad = pkt.take V2_DATA_HDR ∧
        x.out = pkt.drop V2_DATA_HDR

/-! ## Sealed packets -/

theorem dataHeader_length (s : Session) : (dataHeader s).length = V2_DATA_HDR := by
  simp [dataHeader, CAMEX_MAGIC, v2WriteU32, writeLe64, V2_DATA_HDR, ascii]

section Packet

variable (s : Session) (body : Bytes)

theorem dataHeader_receiver : v2DataReceiver (dataHeader s ++ body) = s.remoteIndex := by
  have h : v2ReadU32 (CAMEX_MAGIC ++ [V2_TYPE_DATA] ++ (v2WriteU32 s.remoteIndex ++ (writeLe64 s.sendN ++ body))) 5 =
      s.remoteIndex := v2ReadU32_writeU32 _ _ _ rfl
  unfold v2DataReceiver dataHeader
  simpa using h

theorem dataHeader_counter (hn : s.sendN < 2 ^ 64) : readLe64 (dataHeader s ++ body) 9 = s.sendN := by
  have h : readLe64 (CAMEX_MAGIC ++ V2_TYPE_DATA :: v2WriteU32 s.remoteIndex ++ (writeLe64 s.sendN ++ body)) 9 =
      s.sendN := readLe64_writeLe64 hn _ _ rfl
  unfold dataHeader
  simpa using h

theorem dataHeader_type (hbody : NOISE_TAGLEN ≤ body.length) :
    v2PacketType (dataHeader s ++ body) = V2_TYPE_DATA := by
  have hlen : V2_OVERHEAD ≤ (dataHeader s ++ body).length := by
    rw [List.length_append, dataHeader_length]
    exact Nat.add_le_add_left hbody _
  have hmagic : (dataHeader s ++ body).take 4 = CAMEX_MAGIC := by
    unfold dataHeader
    rw [List.append_assoc]
    exact List.take_left' rfl
  have htype : (dataHeader s ++ body).getD 4 0 = V2_TYPE_DATA := rfl
  have hshort : ¬ ((dataHeader s ++ body).length < 5 ∨ (dataHeader s ++ body).take 4 ≠ CAMEX_MAGIC) := by
    rintro (h | h)
    · exact absurd (le_trans hlen h.le) (by decide)
    · exact h hmagic
  unfold v2PacketType
  rw [if_neg hshort]
  dsimp only
  rw [htype, if_neg (by decide), if_neg (by decide), if_pos rfl, if_pos hlen]

end Packet

/-! ## The invariant -/

/-- A call `session_seal` made for a packet of `s`. -/
structure SealedBy (N : Noise Hs) (s : Session) (x : Encryption) : Prop where
  key : x.key = s.kSend
  ad : x.ad = dataHeader { s with sendN := x.n }
  out : x.out = N.encrypt x.key x.n x.ad x.plain
  counted : x.n < s.sendN

theorem SealedBy.mono {s : Session} {x : Encryption} (h : SealedBy N s x) {k : ℕ} (hk : s.sendN ≤ k) :
    SealedBy N { s with sendN := k } x := ⟨h.key, h.ad, h.out, lt_of_lt_of_le h.counted hk⟩

def takenCounter (p : Bytes × Bytes) : ℕ := readLe64 p.1 9

structure Channel.Sound (c : Channel) : Prop where
  index : c.sender.remoteIndex = c.receiver.localIndex
  key : c.sender.kSend = c.receiver.kRecv
  valid : c.receiver.valid = true
  limit : c.sender.sendN ≤ V2_REJECT_AFTER_MSGS
  calls : ∀ x ∈ c.calls, SealedBy N c.sender x
  nonces : (c.calls.map Encryption.n).Nodup
  taken : ∀ p ∈ c.taken, ∃ x ∈ c.calls, p = (x.packet, x.plain)
  counters : (c.taken.map takenCounter).Nodup
  remembers : Remembers c.receiver.replay { m | ∃ p ∈ c.taken, takenCounter p = m }

section Invariant

variable {N} {c : Channel}

theorem SealedBy.reads {s : Session} {x : Encryption} (hN : IdealAead N) (h : SealedBy N s x)
    (hlimit : s.sendN ≤ V2_REJECT_AFTER_MSGS) :
    v2PacketType x.packet = V2_TYPE_DATA ∧ v2DataReceiver x.packet = s.remoteIndex ∧
      readLe64 x.packet 9 = x.n ∧ x.packet.take V2_DATA_HDR = x.ad ∧ x.packet.drop V2_DATA_HDR = x.out ∧
      x.packet.length - V2_OVERHEAD = x.plain.length := by
  have hbody : x.out.length = x.plain.length + NOISE_TAGLEN := by rw [h.out, hN.length_encrypt]
  have hlen : x.ad.length = V2_DATA_HDR := by rw [h.ad, dataHeader_length]
  have hn : x.n < 2 ^ 64 := by
    have := h.counted
    have : V2_REJECT_AFTER_MSGS = 2 ^ 60 := rfl
    omega
  have htotal : x.packet.length - V2_OVERHEAD = x.plain.length := by
    rw [Encryption.packet, List.length_append, hlen, hbody, V2_OVERHEAD]
    omega
  have hhead : x.packet = dataHeader { s with sendN := x.n } ++ x.out := by rw [Encryption.packet, h.ad]
  refine ⟨?_, ?_, ?_, List.take_left' hlen, List.drop_left' hlen, htotal⟩
  · rw [hhead]
    exact dataHeader_type _ _ (by omega)
  · rw [hhead]
    exact dataHeader_receiver _ _
  · rw [hhead]
    exact dataHeader_counter _ _ hn

theorem crossed_sound (h : Crossed c) : c.Sound N := by
  obtain ⟨a, b, k₁, k₂, t, t', rfl⟩ := h
  refine ⟨rfl, rfl, rfl, Nat.zero_le _, nofun, List.nodup_nil, nofun, List.nodup_nil, ?_⟩
  have hempty : { m | ∃ p ∈ ([] : List (Bytes × Bytes)), takenCounter p = m } = ∅ := by
    ext m
    simp
  rw [hempty]
  exact remembers_zero

/-- Sealing a packet uses a nonce that is new. -/
theorem Channel.Sound.send (hc : c.Sound N) (plain : Bytes) (outSize : ℕ) :
    (channelStep N c (.send plain outSize)).Sound N := by
  unfold channelStep
  dsimp only
  cases hseal : sessionSeal N c.sender plain outSize with
  | none => exact hc
  | some q =>
    obtain ⟨pkt, sender⟩ := q
    obtain ⟨-, hlimit, -, rfl, rfl⟩ := (sessionSeal_iff N).mp hseal
    refine ⟨hc.index, hc.key, hc.valid, hlimit, fun x hx => ?_, ?_, fun p hp => ?_, hc.counters, hc.remembers⟩
    · rcases List.mem_cons.mp hx with rfl | hx
      · refine ⟨rfl, rfl, ?_, Nat.lt_succ_self _⟩
        exact List.drop_left' (dataHeader_length _)
      · exact (hc.calls x hx).mono N (Nat.le_succ _)
    · rw [List.map_cons, List.nodup_cons]
      refine ⟨fun hmem => ?_, hc.nonces⟩
      obtain ⟨x, hx, hn⟩ := List.mem_map.mp hmem
      have := (hc.calls x hx).counted
      dsimp only at hn
      omega
    · obtain ⟨x, hx, hp⟩ := hc.taken p hp
      exact ⟨x, List.mem_cons_of_mem _ hx, hp⟩

/-- A packet that opens is one the sender sealed, with its payload. -/
theorem Channel.Sound.opens (hN : IdealAead N) (hc : c.Sound N) {pkt plain : Bytes} {size : ℕ}
    {receiver : Session} (hideal : Unforged N c (.bring pkt size))
    (hopen : sessionOpen N c.receiver pkt size = some (plain, receiver)) :
    ∃ x ∈ c.calls, (pkt, plain) = (x.packet, x.plain) := by
  obtain ⟨-, -, -, -, -, hdecrypt, -⟩ := (sessionOpen_iff N).mp hopen
  obtain ⟨x, hx, hkey, hn, had, hout⟩ := hideal plain hdecrypt
  have hpkt : pkt = x.packet := by
    rw [Encryption.packet, had, hout, List.take_append_drop]
  have hplain : plain = x.plain := by
    rw [← hkey, ← hn, ← had, ← hout, (hc.calls x hx).out, hN.decrypt_encrypt] at hdecrypt
    exact (Option.some.inj hdecrypt).symm
  exact ⟨x, hx, by rw [hpkt, hplain]⟩

/-- Opening a packet takes a counter that is new. -/
theorem Channel.Sound.bring (hN : IdealAead N) (hc : c.Sound N) {pkt : Bytes} {size : ℕ}
    (hideal : Unforged N c (.bring pkt size)) : (channelStep N c (.bring pkt size)).Sound N := by
  unfold channelStep
  dsimp only
  cases hopen : sessionOpen N c.receiver pkt size with
  | none => exact hc
  | some q =>
    obtain ⟨plain, receiver⟩ := q
    have hsealed := hc.opens hN hideal hopen
    obtain ⟨-, -, -, -, hcheck, -, rfl⟩ := (sessionOpen_iff N).mp hopen
    have hadmits := hc.remembers.check.mp hcheck
    refine ⟨hc.index, hc.key, hc.valid, hc.limit, hc.calls, hc.nonces, fun p hp => ?_, ?_, ?_⟩
    · rcases List.mem_cons.mp hp with rfl | hp
      · exact hsealed
      · exact hc.taken p hp
    · rw [List.map_cons, List.nodup_cons]
      refine ⟨fun hmem => hadmits.fresh ?_, hc.counters⟩
      obtain ⟨p, hp, heq⟩ := List.mem_map.mp hmem
      exact ⟨p, hp, heq⟩
    · have hinsert : { m | ∃ p ∈ (pkt, plain) :: c.taken, takenCounter p = m } =
          insert (readLe64 pkt 9) { m | ∃ p ∈ c.taken, takenCounter p = m } := by
        ext m
        simp only [List.mem_cons, Set.mem_ofPred_eq, Set.mem_insert_iff, exists_eq_or_imp]
        exact or_congr_left eq_comm
      rw [hinsert]
      exact hc.remembers.record hadmits

theorem channelMachine_sound (hN : IdealAead N) (h : (channelMachine N).ReachableUnder (Unforged N) c) :
    c.Sound N := by
  refine h.invariant (I := Channel.Sound N) (fun c hc => crossed_sound hc) ?_
  intro c e c' hc hideal hstep
  cases hstep
  cases e with
  | send plain outSize => exact hc.send plain outSize
  | bring pkt size => exact hc.bring hN hideal

/-- A packet whose counter was not taken and is recent enough opens. -/
theorem Channel.Sound.takes (hN : IdealAead N) (hc : c.Sound N) {x : Encryption} (hx : x ∈ c.calls)
    (hnew : ∀ p ∈ c.taken, p.1 ≠ x.packet)
    (hrecent : ∀ p ∈ c.taken, takenCounter p / 64 - x.n / 64 < V2_REPLAY_WINDOW / 64) {size : ℕ}
    (hsize : x.plain.length ≤ size) :
    ∃ receiver, sessionOpen N c.receiver x.packet size = some (x.plain, receiver) := by
  have hsealed := hc.calls x hx
  obtain ⟨htype, hreceiver, hn, had, hout, hlen⟩ := hsealed.reads hN hc.limit
  have hcheck : replayCheck c.receiver.replay x.n = true := by
    refine hc.remembers.check.mpr ⟨lt_of_lt_of_le hsealed.counted hc.limit, ?_, ?_⟩
    · rintro ⟨p, hp, heq⟩
      obtain ⟨y, hy, rfl⟩ := hc.taken p hp
      have hyn : y.n = x.n := by
        rw [← heq]
        exact ((hc.calls y hy).reads hN hc.limit).2.2.1.symm
      have hyx : y = x := List.inj_on_of_nodup_map hc.nonces hy hx hyn
      exact hnew _ hp (by rw [hyx])
    · rintro k ⟨p, hp, rfl⟩
      exact hrecent p hp
  refine ⟨_, (sessionOpen_iff N).mpr ⟨hc.valid, htype, ?_, ?_, ?_, ?_, rfl⟩⟩
  · rw [hreceiver, hc.index]
  · rw [hlen]
    exact hsize
  · rw [hn]
    exact hcheck
  · rw [hn, had, hout, hsealed.out, ← hc.key, hsealed.key, hN.decrypt_encrypt]

/-- **Sessions from end to end**: at most once and unaltered; recent packets are taken; no nonce is used twice;
what does not open changes nothing. -/
theorem channel_endToEnd (hN : IdealAead N) (h : (channelMachine N).ReachableUnder (Unforged N) c) :
    ((c.taken.map Prod.fst).Nodup ∧ ∀ p ∈ c.taken, ∃ x ∈ c.calls, p = (x.packet, x.plain)) ∧
    (∀ x ∈ c.calls, (∀ p ∈ c.taken, p.1 ≠ x.packet) →
      (∀ p ∈ c.taken, takenCounter p / 64 - x.n / 64 < V2_REPLAY_WINDOW / 64) → ∀ size, x.plain.length ≤ size →
      ∃ receiver, sessionOpen N c.receiver x.packet size = some (x.plain, receiver)) ∧
    ((c.calls.map fun x => (x.key, x.n)).Nodup ∧ ∀ x ∈ c.calls, x.n < V2_REJECT_AFTER_MSGS) ∧
    ∀ pkt size, sessionOpen N c.receiver pkt size = none → channelStep N c (.bring pkt size) = c := by
  have hc := channelMachine_sound hN h
  refine ⟨⟨?_, hc.taken⟩, fun x hx hnew hrecent size hsize => hc.takes hN hx hnew hrecent hsize, ⟨?_, ?_⟩, ?_⟩
  · have hcounters := hc.counters
    rw [show takenCounter = (readLe64 · 9) ∘ Prod.fst from rfl, ← List.map_map] at hcounters
    exact List.Nodup.of_map _ hcounters
  · have hnonces := hc.nonces
    rw [show Encryption.n = Prod.snd ∘ fun x : Encryption => (x.key, x.n) from rfl, ← List.map_map] at hnonces
    exact List.Nodup.of_map _ hnonces
  · exact fun x hx => lt_of_lt_of_le (hc.calls x hx).counted hc.limit
  · intro pkt size hopen
    unfold channelStep
    dsimp only
    rw [hopen]

end Invariant

/-! ## A channel that can be run -/

theorem toyNoise_idealAead : IdealAead toyNoise := by
  refine ⟨fun key n ad plain => ?_, fun key n ad plain => ?_⟩
  · simp [toyNoise]
  · simp [toyNoise]

/-- A pair of sessions that has not carried a packet yet. -/
def toyChannel : Channel := ⟨sessionInit 1 2 (toyKey 1) (toyKey 2) 0, sessionInit 2 1 (toyKey 2) (toyKey 1) 0, [], []⟩

def toyChannelSent : Channel := channelStep toyNoise toyChannel (.send [1, 2, 3] TUN_PACKET_MAX)

def toyPacket : Bytes := (toyChannelSent.calls.map Encryption.packet).headD []

/-- The packet is taken, and not a second time. -/
theorem channel_endToEnd_packet : ∃ c : Channel, c.taken = [(toyPacket, [1, 2, 3])] ∧
    (c.taken.map Prod.fst).Nodup ∧ sessionOpen toyNoise c.receiver toyPacket TUN_PACKET_MAX = none := by
  have hideal : Unforged toyNoise toyChannelSent (.bring toyPacket TUN_PACKET_MAX) := by
    intro plain _
    refine ⟨toyChannelSent.calls.headD ⟨0, 0, [], [], []⟩, ?_, ?_⟩
    · exact List.mem_cons_self
    · exact ⟨rfl, by decide, by decide, by decide⟩
  have hreach : (channelMachine toyNoise).ReachableUnder (Unforged toyNoise)
      (channelStep toyNoise toyChannelSent (.bring toyPacket TUN_PACKET_MAX)) :=
    ⟨toyChannel, [.send [1, 2, 3] TUN_PACKET_MAX, .bring toyPacket TUN_PACKET_MAX], ⟨_, _, _, _, _, _, rfl⟩,
      .cons rfl trivial (.cons rfl hideal (.nil _))⟩
  refine ⟨_, by decide +kernel, (channel_endToEnd toyNoise_idealAead hreach).1.1, by decide +kernel⟩

end Camex
