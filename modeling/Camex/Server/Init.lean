import Camex.Server.Entry
import Camex.Server.Pool

/-!
# Handshakes (`server_handle_init`, second part)

The entry is claimed (`initClaim`), gets its address and its answer (`initConfigure`), message 2
(`initMessage2`) and the session (`initSession`); `initFail` is the fail path, `initDone` the
success. `serverHandleInit` puts them behind `initAuthenticate` and `serverEntryFor`.
-/

namespace Camex

open Lib

variable {n : ℕ}

/-! ## The entry is claimed -/

/-- What a handshake writes into its entry first. -/
def initClaim (c : ServerClient) (r : Register) (src : SockAddr) (fd : ℤ) (now : Time) : ServerClient :=
  let c := if !c.cur.valid || decide (0 ≤ fd) then serverSetAddr c src else c
  serverSetId { c with lastSeen := now, autoClient := r.auto } r.clientId

/-! ## The configuration -/

/-- `server_build_config`: the address a new entry starts with, leased to its ID or asked for. -/
def buildConfigSeed (s : Server n) (i : Fin n) (clientId hintIp : CStr) : ServerClient :=
  let c := s.clients i
  if c.ipBe ≠ 0 then c
  else
    match (serverLeaseById s.leases clientId).filter fun k =>
      serverIpUsable s i (s.leases.at k).ipBe clientId with
    | some k => serverSetIp c (s.leases.at k).ipBe
    | none =>
      match (inetPton hintIp).filter fun h => serverIpUsable s i h clientId with
      | some h => serverSetIp c h
      | none => c

/-- The address an entry was last given: a pending one when it has not confirmed it yet. -/
def ServerClient.given (c : ServerClient) : Ip := if c.pendingIpBe ≠ 0 then c.pendingIpBe else c.ipBe

/-- `server_build_config`: the address kept, or taken from the pool. -/
def buildConfigIp (s : Server n) (i : Fin n) (clientId : CStr) : PoolCursor × Option Ip :=
  let c := s.clients i
  if c.given ≠ 0 ∧ serverIpUsable s i c.given clientId then (s.pool, some c.given)
  else if c.given ≠ c.ipBe ∧ c.ipBe ≠ 0 ∧ serverIpUsable s i c.ipBe clientId then (s.pool, some c.ipBe)
  else if serverPoolHolding s then (s.pool, none)
  else serverAutoPoolTake s i

def poolCidr (db : ServerDb) (ip : Ip) : CStr := ipText ip ++ 47 :: natText db.globals.poolPrefix

/-- `server_build_config`: the cursor, the entry and the CONFIG. -/
def serverBuildConfig (s : Server n) (i : Fin n) (clientId hintIp : CStr) :
    PoolCursor × ServerClient × Option CStr :=
  let profile := configDbLookupProfile s.conf.db clientId
  if profile.localCidr = [] ∨ profile.gatewayIp = [] then
    if clientId = [] then (s.pool, s.clients i, none)
    else
      let c := buildConfigSeed s i clientId hintIp
      match buildConfigIp (s.setClient i c) i clientId with
      | (pool, none) => (pool, c, none)
      | (pool, some ip) =>
        let profile := { profile with
          localCidr := poolCidr s.conf.db ip, gatewayIp := ipText (poolGateway s.conf.db) }
        (pool, serverAssignIp c ip, protoBuildConfig clientId profile CAMEX_CONTROL_MAX)
  else (s.pool, s.clients i, protoBuildConfig clientId profile CAMEX_CONTROL_MAX)

def initProfileIp (db : ServerDb) (c : ServerClient) (r : Register) : ServerClient :=
  match profileAddress db r.clientId with
  | some ip => serverAssignIp c ip
  | none => c

def manualReply : CStr := CAMEX_CTRL_WORD ++ ascii " OK VER=" ++ natText CAMEX_PROTO_VER ++ [10]

/-- The address and the answer of a handshake: the cursor, the entry, the payload of message 2. -/
def initConfigure (s : Server n) (i : Fin n) (r : Register) : PoolCursor × ServerClient × Option CStr :=
  if r.auto then
    serverBuildConfig (s.setClient i (initProfileIp s.conf.db (s.clients i) r)) i r.clientId r.localIp
  else (s.pool, { s.clients i with pendingIpBe := 0 }, some manualReply)

/-! ## Message 2 and the session -/

def indexUsed (c : ServerClient) (idx : BitVec 32) : Bool :=
  (c.cur.valid && c.cur.localIndex == idx) || (c.next.valid && c.next.localIndex == idx) ||
    (c.prev.valid && c.prev.localIndex == idx)

def newIndexTries (c : ServerClient) (slot1 : BitVec 32) (newIndex : ℕ → BitVec 32) :
    List ℕ → Option (BitVec 32)
  | [] => none
  | k :: ks =>
    if newIndex k = 0 then none
    else
      let idx := (newIndex k &&& 0xFFFF0000#32) ||| slot1
      if indexUsed c idx then newIndexTries c slot1 newIndex ks else some idx

def serverNewIndex (c : ServerClient) (i : Fin n) (newIndex : ℕ → BitVec 32) : Option (BitVec 32) :=
  newIndexTries c (BitVec.ofNat 32 (i + 1)) newIndex (List.range 16)

/-- The room for message 2 in `resp`. -/
def RESP_MAX : ℕ := NOISE_MSG2_OVERHEAD + CAMEX_CONTROL_MAX

/-- The RESP packet, the server's index in it, and the session's keys `c1` and `c2`. -/
structure Message2 where
  index : BitVec 32
  packet : Bytes
  keys : Key × Key

def initClientIndex (pkt : Bytes) : BitVec 32 := v2ReadU32 pkt 5

section

variable {Hs : Type} (N : Noise Hs)

def initMessage2 (env : PacketEnv) (c : ServerClient) (i : Fin n) (pkt : Bytes) (hs : Hs)
    (reply : CStr) : Option Message2 :=
  match env.seed with
  | none => none
  | some seed =>
    match serverNewIndex c i env.newIndex with
    | none => none
    | some index =>
      match N.writeMsg2 hs seed reply RESP_MAX with
      | none => none
      | some (msg, hs) =>
        some ⟨index, CAMEX_MAGIC ++ V2_TYPE_RESP :: (v2WriteU32 index ++ v2WriteU32 (initClientIndex pkt) ++ msg),
          N.split hs⟩

end

/-- The new session waits in `next` while there is a current one. -/
def initSession (c : ServerClient) (r : Register) (pkt : Bytes) (m : Message2) (now : Time) :
    ServerClient :=
  let session := sessionInit m.index (initClientIndex pkt) m.keys.2 m.keys.1 now
  let c := if c.cur.valid then { c with next := session } else { c with cur := session }
  { c with pskKey := r.key, hsTs := r.ts, registered := true }

/-! ## The end -/

/-- What a failed handshake puts back besides the addresses: the session it replaced, or that there
was none. -/
inductive SavedSession
  | none
  | next (before : Session)
  | noCur

/-- The session the new one of `initSession` took the place of. -/
def savedSession (c : ServerClient) : SavedSession := if c.cur.valid then .next c.next else .noCur

/-- The fail path for an entry that existed: `before` is the entry as `server_entry_for` left it. -/
def restoreEntry (before c : ServerClient) (saved : SavedSession) : ServerClient :=
  let c := serverRestoreIp c before.ipBe before.pendingIpBe
  let c := match saved with
    | .none => c
    | .next s => { c with next := s }
    | .noCur => { c with cur := .wiped }
  { c with registered := before.registered, pskKey := before.pskKey }

def initFail (e : Entry n) (pool : PoolCursor) (c : ServerClient) (saved : SavedSession) : Server n :=
  { e.server.setClient e.slot
      (if e.fresh then .wiped else restoreEntry (e.server.clients e.slot) c saved) with
    pool := pool }

/-- The entry of a handshake whose reply is out. -/
def initDoneEntry (c : ServerClient) (now : Time) : ServerClient :=
  { c with
    registeredAt := if c.registeredAt = 0 then now else c.registeredAt
    sessionSince := if c.sessionSince = 0 then now else c.sessionSince
    lastHs := now
    handshakes := c.handshakes + 1 }

def initDoneLeases (ls : LeaseTable) (r : Register) (ip : Ip) : LeaseTable :=
  if r.auto then
    let ls := serverLeaseDrop ls (serverLeaseById ls r.clientId)
    serverLeaseDrop ls (serverLeaseByIp ls ip)
  else ls

def initDone (e : Entry n) (pool : PoolCursor) (c : ServerClient) (r : Register) : Server n :=
  { e.server.setClient e.slot (initDoneEntry c e.server.now) with
    pool := pool, leases := initDoneLeases e.server.leases r c.ipBe }

/-- What became of an INIT. -/
inductive InitOutcome (n : ℕ)
  /-- Dropped before it had an entry. -/
  | refused
  | failed (slot : Fin n) (fresh : Bool)
  | accepted (slot : Fin n) (fresh : Bool) (r : Register) (reply : CStr) (packet : Bytes)
  deriving DecidableEq

section

variable {Hs : Type} (N : Noise Hs)

/-- `server_handle_init` behind `server_entry_for`. -/
def initRegister (e : Entry n) (env : PacketEnv) (pkt : Bytes) (src : SockAddr) (fd : ℤ) (r : Register)
    (hs : Hs) : Server n × InitOutcome n :=
  let before := e.server.clients e.slot
  let now := e.server.now
  let (pool, c, reply) :=
    initConfigure (e.server.setClient e.slot (initClaim before r src fd now)) e.slot r
  match reply with
  | none => (initFail e pool c .none, .failed e.slot e.fresh)
  | some reply =>
    match initMessage2 N env c e.slot pkt hs reply with
    | none => (initFail e pool c .none, .failed e.slot e.fresh)
    | some m =>
      let c' := initSession c r pkt m now
      if env.sent then (initDone e pool c' r, .accepted e.slot e.fresh r reply m.packet)
      else (initFail e pool c' (savedSession c), .failed e.slot e.fresh)

def serverHandleInit (s : Server n) (env : PacketEnv) (pkt : Bytes) (src : SockAddr) (fd : ℤ) :
    Server n × InitOutcome n :=
  match initAuthenticate N s env pkt src with
  | (s, none) => (s, .refused)
  | (s, some (r, hs)) =>
    match serverEntryFor s r src fd env.grow with
    | none => (s, .refused)
    | some e => initRegister N e env pkt src fd r hs

end

end Camex
