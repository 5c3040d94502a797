import Camex.ClientLoop

/-!
# A client that can be run

`plainCrypto` encrypts nothing and derives the same keys always; `toyClient` is a manual client with a key and a
server. The runs at the end of the safety modules are runs of it.
-/

namespace Camex

open Lib

def plainTag : Tag := ⟨List.replicate NOISE_TAGLEN 0, rfl⟩

/-- The keys of a session are `0` and `0`; a PSK text that starts with `!` is malformed. -/
def plainCrypto : Crypto where
  hash _ := 0
  hmac _ _ := 0
  x25519 _ _ := 1
  publicKey seed := seed
  stream _ _ _ := 0
  tag _ _ _ _ := plainTag
  mac1 _ _ := plainTag
  shareHash _ _ := 0
  keyFromPsk psk := if psk.headD 0 = 33 then none else some (BitVec.ofNat 256 (psk.headD 0).toNat)

def toyClientCtx : ClientCtx := ⟨1, true, 2, true, 0⟩

def toyClientConfig : CamexConfig :=
  { CamexConfig.zero with
    localIp := ascii "10.0.0.5", localCidr := ascii "10.0.0.5/24", gatewayIp := ascii "10.0.0.1", mtu := 1400
    clientId := ascii "a", serverTimeout := 60, keepalive := 25 }

/-- Everything the client asks for is given; `v2_new_index` answers `index`. -/
def toyInitEnv (index : BitVec 32) : InitEnv := ⟨⟨0, 0⟩, some 0, index, 0⟩

def toyResp (server index : BitVec 32) : Bytes :=
  CAMEX_MAGIC ++ V2_TYPE_RESP :: (v2WriteU32 server ++ (v2WriteU32 index ++ List.replicate NOISE_MSG2_OVERHEAD 0))

def toyOutcome : Outcome := ⟨some (.tun .inherited), some (.tun .inherited), fun _ => true, fun _ => true⟩

/-- The tunnel is opened at second 100 and the INIT sent; a second later its RESP is there. -/
def clientConnects : List ClientEvent :=
  [.start 100 (some (.tun .inherited)) (fun _ => true) (toyInitEnv 7), .pass 101, .packet (toyResp 9 7) toyOutcome]

abbrev toyClientMachine : Machine ClientLoop ClientEvent := clientLoopMachine plainCrypto toyClientCtx

theorem toyClient_start : toyClientMachine.start (clientInit toyClientConfig 100) := ⟨toyClientConfig, 100, rfl⟩

end Camex
