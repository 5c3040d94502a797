import Camex.ClientConcrete
import Camex.Concrete
import Camex.Peers

/-!
# A client and a server that can be run

The client of `toyClientConfig` and the server of `toyServer`, with a crypto whose session keys depend on the seeds.
`peersRekeys` is a run with two handshakes, of which the second one replaces the first session.
-/

namespace Camex

open Lib Machine

def sumCrypto : Crypto :=
  { plainCrypto with hmac := fun key data => BitVec.ofNat 512 ((beValue key + beValue data) * (2 ^ 256 + 1)) }

/-- The global key of the server is the PSK; a session is replaced after ten seconds. -/
def toyPeerCtx : ClientCtx := ⟨toyKey 65, true, 0, true, 10⟩

def peerInit (index : BitVec 32) (time : TimeVal) (seed : Key) : Bytes :=
  CAMEX_MAGIC ++ V2_TYPE_INIT :: (v2WriteU32 index ++ (keyBytes seed ++ (v2Timestamp time ++
    ascii "CAMEX REGISTER VER=2 MODE=MANUAL LOCAL_IP=10.0.0.5 CLIENT_ID=a\n" ++ plainTag.val))) ++ plainTag.val

def peerResp (server client : BitVec 32) (seed : Key) : Bytes :=
  CAMEX_MAGIC ++ V2_TYPE_RESP :: (v2WriteU32 server ++ v2WriteU32 client ++
    (keyBytes seed ++ (ascii "CAMEX OK VER=2\n" ++ plainTag.val)))

/-- What both ask the random generator, the clock and the kernel for. -/
def peerInitEnv (index : BitVec 32) (time : TimeVal) (seed : Key) : InitEnv := ⟨time, some seed, index, 0⟩

def peerTick : ClientEvent := .tick ⟨true, peerInitEnv 8 ⟨1, 0⟩ 7, 0⟩

def peerUdp (packet : Bytes) (index : ℕ) (seed : Key) : Event 3 :=
  .udp packet (toySource 1 1000) { toyEnv index with seed := some seed }

/-- A handshake, a keepalive and its answer; ten seconds later the same with new keys. -/
def peersRekeys : List (ClientEvent ⊕ Event 3) :=
  [.inl (.start 100 (some (.tun .inherited)) (fun _ => true) (peerInitEnv 7 ⟨0, 0⟩ 3)),
    .inr (peerUdp (peerInit 7 ⟨0, 0⟩ 3) 1 5), .inl (.pass 101), .inl (.packet (peerResp 0x00010001#32 7 5) toyOutcome),
    .inr (peerUdp (dataPacket 0x00010001#32 0 []) 0 0), .inl (.packet (dataPacket 7 0 []) toyOutcome),
    .inl peerTick, .inl (.pass 115), .inl peerTick, .inl (.pass 116), .inr (.tick 115),
    .inr (peerUdp (peerInit 8 ⟨1, 0⟩ 7) 2 11), .inl (.packet (peerResp 0x00020001#32 8 11) toyOutcome),
    .inr (peerUdp (dataPacket 0x00020001#32 0 []) 0 0)]

theorem sumCrypto_dh : ∀ a b, sumCrypto.x25519 a (sumCrypto.publicKey b) = sumCrypto.x25519 b (sumCrypto.publicKey a) :=
  fun _ _ => rfl

theorem toyPeers_start :
    (peersLogged sumCrypto toyPeerCtx 3).start ((clientInit toyClientConfig 100, toyServer 3 .udp toyDb), []) := by
  refine ⟨⟨⟨toyClientConfig, 100, rfl⟩, ?_, rfl, rfl⟩, rfl⟩
  refine ⟨toyCfg .udp, toyDb, toyCtx, .ample, toyKeystore toyDb, 100, true, ?_, rfl⟩
  rw [configBuildKeystore_ample, if_neg (by decide), if_neg]
  · rfl
  · simp [keystoreEntries, toyCtx]

end Camex
