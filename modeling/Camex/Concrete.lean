import Camex.Server.Steps

/-!
# A server that can be run

The parameters of the model, filled in: `toyNoise` puts a byte that names the PSK and no secret into
message 1, and `toyServer` is a started server with the global key `A` and the `[client p]` key `P`.
The runs at the end of the safety modules are runs of it.

* `toyServer_started`: the server starts with every database.
-/

namespace Camex

open Lib

/-! ## Packets -/

/-- The key of the PSK text that starts with this byte. -/
def toyKey (b : UInt8) : Key := BitVec.ofNat 256 b.toNat

/-- Message 1 is a byte for the PSK, 47 other bytes and the payload; a DATA packet is the payload and
a tag of zeros. A PSK text that starts with `!` is malformed. -/
def toyNoise : Noise Unit where
  initResponder _ _ := ()
  msg1Es _ msg := if msg.length < NOISE_MSG1_OVERHEAD then none else some 0
  readMsg1 _ psk _ msg size :=
    if toyKey (msg.headD 0) = psk ∧ (msg.drop NOISE_MSG1_OVERHEAD).length ≤ size then
      some (msg.drop NOISE_MSG1_OVERHEAD, ()) else none
  writeMsg2 _ _ payload size :=
    if NOISE_MSG2_OVERHEAD + payload.length ≤ size then
      some (List.replicate NOISE_MSG2_OVERHEAD 0 ++ payload, ()) else none
  split _ := (1, 2)
  encrypt _ _ _ plain := plain ++ List.replicate NOISE_TAGLEN 0
  decrypt _ _ _ sealed :=
    if NOISE_TAGLEN ≤ sealed.length then some (sealed.take (sealed.length - NOISE_TAGLEN)) else none
  mac1 _ _ := List.replicate V2_MAC_LEN 0
  shareHash _ _ := 0
  keyFromPsk psk := if psk.headD 0 = 33 then none else some (toyKey (psk.headD 0))

/-- The payload of message 1: a timestamp and a REGISTER. -/
def initPayload (ts : UInt8) (text : String) : Bytes :=
  List.replicate 11 0 ++ ts :: ascii ("CAMEX REGISTER VER=2 " ++ text)

/-- An INIT under the PSK that starts with `key`. -/
def initPacket (key ts : UInt8) (text : String) : Bytes :=
  CAMEX_MAGIC ++ V2_TYPE_INIT :: (v2WriteU32 7 ++
    (key :: (List.replicate 47 0 ++ initPayload ts text)) ++ List.replicate V2_MAC_LEN 0)

def dataPacket (receiver : BitVec 32) (count : ℕ) (plain : Bytes) : Bytes :=
  CAMEX_MAGIC ++ V2_TYPE_DATA :: (v2WriteU32 receiver ++ writeLe64 count) ++ plain ++
    List.replicate NOISE_TAGLEN 0

/-! ## The server -/

/-- A section of the configuration file. -/
def toySection (clientId psk localCidr gatewayIp : String) : ServerProfile :=
  ⟨ascii clientId, ⟨ascii localCidr, ascii gatewayIp, [], 0, 0, ascii psk⟩, true⟩

/-- The pool `10.0.0.0/30` and one section with a key. -/
def toyDb : ServerDb where
  defaults := .empty
  clients := [toySection "p" "P" "" ""]
  globals := ⟨ascii "A", false, false, 0x0a000000#32, 30, 0⟩
  idsDistinct := by decide
  idsNonempty := by decide
  idsShort := by decide
  defaultsFit := by decide
  profilesFit := by decide
  poolPrefixMin := by decide
  poolPrefixMax := by decide
  poolNetAligned := by decide

/-- The pool `10.0.0.0/29` in its place: the addresses from `10.0.0.2` to `10.0.0.6`. -/
def widePoolDb : ServerDb :=
  { toyDb with
    globals := ⟨ascii "A", false, false, 0x0a000000#32, 29, 0⟩
    poolPrefixMin := by decide
    poolPrefixMax := by decide
    poolNetAligned := by decide }

def toyCtx : CryptoCtx := ⟨toyKey 65, true, true, 0, 0, true⟩

def toyCfg (transport : Transport) : Cfg := ⟨transport, false, 0, 0, ascii "10.0.0.1/30", false⟩

def toyKeystore (db : ServerDb) : Keystore :=
  ⟨keystoreEntries toyNoise .ample toyCtx db, keystoreEntries_distinct .ample toyCtx db⟩

/-- A server of `n` slots at second 100. -/
def toyServer (n : ℕ) (transport : Transport) (db : ServerDb) : Server n :=
  serverClientsInit n
    ⟨toyCfg transport, db, toyKeystore db, toyCtx, serverCheckPool (toyCfg transport).localCidr⟩ 100 true

theorem toyServer_started (n : ℕ) (transport : Transport) (db : ServerDb) :
    Started toyNoise (toyServer n transport db) := by
  refine ⟨toyCfg transport, db, toyCtx, .ample, toyKeystore db, 100, true, ?_, rfl⟩
  rw [configBuildKeystore_ample, if_neg (by decide), if_neg]
  · rfl
  · simp [keystoreEntries, toyCtx]

/-- A source; the addresses are those of the test net. -/
def toySource (host port : ℕ) : SockAddr :=
  ⟨AF_INET, BitVec.ofNat 16 port, 0xc6336400#32 + BitVec.ofNat 32 host⟩

/-- Everything the server asks the kernel for is given. -/
def toyEnv (index : ℕ) : PacketEnv where
  shareKey _ := some 0
  seed := some 0
  newIndex _ := BitVec.ofNat 32 (index * 65536)
  grow _ := true
  sent := true

abbrev toyMachine (n : ℕ) : Machine (Server n) (Event n) := serverMachine toyNoise n

variable {n : ℕ}

/-- An INIT in a datagram; its timestamp is the index of its session too. -/
def udpInit (key : UInt8) (ts : ℕ) (src : SockAddr) (text : String) : Event n :=
  .udp (initPacket key (UInt8.ofNat ts) text) src (toyEnv ts)

/-- A client with a session and a packet on it. -/
def liveClient : List (Event 3) :=
  [udpInit 65 1 (toySource 1 1000) "MODE=MANUAL CLIENT_ID=a LOCAL_IP=10.0.0.5",
    .udp (dataPacket 0x00010001#32 0 []) (toySource 1 1000) (toyEnv 0)]

end Camex
