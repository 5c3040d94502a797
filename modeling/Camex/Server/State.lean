import Camex.Config
import Camex.Net
import Camex.Session
import Camex.Lib.Slots

/-!
# The server's state (`server.h`, globals of `server.c`)

`ServerClient` is a slot of the client table, `Server n` the table of `n` slots with the leases,
the pool cursor, the budgets, the configuration and the sockets of the open TCP connections.

The setters `serverSetIp`, `serverSetId`, `serverSetAddr` and the lookups are those of the source
without the hash indexes: `serverFindByIp`, `serverFindByClientId` and `serverFindByAddr` are the
scans, which answer the lowest matching slot as the indexes do. Each lookup has its `_some` and
`_none` lemma.
-/

namespace Camex

open Lib

/-- `server_client_t`. -/
structure ServerClient where
  addr : SockAddr
  ipBe : Ip
  pendingIpBe : Ip
  prevIpBe : Ip
  lastSeen : Time
  lastData : Time
  clientId : CStr
  active : Bool
  registered : Bool
  autoClient : Bool
  connectedAt : Time
  tcpFd : ℤ
  pskKey : Key
  hsTs : Timestamp
  registeredAt : Time
  sessionSince : Time
  lastHs : Time
  staleHsLogged : Time
  staleHsQuiet : ℕ
  handshakes : ℕ
  rxPackets : ℕ
  rxBytes : ℕ
  txPackets : ℕ
  txBytes : ℕ
  isolationDrops : ℕ
  hsWindow : Time
  hsCount : ℕ
  cur : Session
  next : Session
  prev : Session
  prevUntil : Time
  recvState : TcpRecvState

/-- A slot behind `crypto_wipe()` and `tcp_fd = -1`. -/
def ServerClient.wiped : ServerClient where
  addr := .unset
  ipBe := 0
  pendingIpBe := 0
  prevIpBe := 0
  lastSeen := 0
  lastData := 0
  clientId := []
  active := false
  registered := false
  autoClient := false
  connectedAt := 0
  tcpFd := -1
  pskKey := 0
  hsTs := 0
  registeredAt := 0
  sessionSince := 0
  lastHs := 0
  staleHsLogged := 0
  staleHsQuiet := 0
  handshakes := 0
  rxPackets := 0
  rxBytes := 0
  txPackets := 0
  txBytes := 0
  isolationDrops := 0
  hsWindow := 0
  hsCount := 0
  cur := .wiped
  next := .wiped
  prev := .wiped
  prevUntil := 0
  recvState := .zero

/-- A slot just taken: wiped and active. -/
def ServerClient.taken : ServerClient := { ServerClient.wiped with active := true }

abbrev Table (n : ℕ) := Fin n → ServerClient

/-! ## Setters -/

def serverSetIp (c : ServerClient) (ip : Ip) : ServerClient := { c with ipBe := ip }

def serverSetId (c : ServerClient) (clientId : CStr) : ServerClient :=
  if c.clientId = clientId then c else { c with clientId := store CAMEX_CLIENT_ID_LEN clientId }

def serverSetAddr (c : ServerClient) (addr : SockAddr) : ServerClient := { c with addr := addr }

/-- `server_assign_ip`: a client with a working session keeps its address until it confirms the new
one, which is pending until then. -/
def serverAssignIp (c : ServerClient) (ip : Ip) : ServerClient :=
  if c.cur.valid && c.ipBe != 0 && ip != c.ipBe then { c with pendingIpBe := ip }
  else serverSetIp { c with pendingIpBe := 0 } ip

def serverRestoreIp (c : ServerClient) (ip pendingIp : Ip) : ServerClient :=
  { serverSetIp c ip with pendingIpBe := pendingIp }

/-! ## Lookups -/

variable {n : ℕ}

/-- `match_ip`: the current address, a pending one, or the previous one while that session still
receives. -/
def matchIp (c : ServerClient) (ip : Ip) : Bool :=
  ip != 0 && c.active && (c.ipBe == ip || c.pendingIpBe == ip || (c.prev.valid && c.prevIpBe == ip))

def matchCurIp (c : ServerClient) (ip : Ip) : Bool := ip != 0 && c.active && c.ipBe == ip

def matchId (c : ServerClient) (clientId : CStr) : Bool := c.active && strcaseeq c.clientId clientId

def matchAddr (c : ServerClient) (addr : SockAddr) : Bool := c.active && netSockaddrEqual c.addr addr

/-- `server_find_by_ip`: the client whose current address it is, else one that holds it as a
pending or previous one. -/
def serverFindByIp (t : Table n) (ip : Ip) : Option (Fin n) :=
  match lowest fun i => matchCurIp (t i) ip with
  | some i => some i
  | none => lowest fun i => matchIp (t i) ip

def serverFindByClientId (t : Table n) (clientId : CStr) : Option (Fin n) :=
  if clientId = [] then none else lowest fun i => matchId (t i) clientId

def serverFindByAddr (t : Table n) (addr : SockAddr) : Option (Fin n) :=
  lowest fun i => matchAddr (t i) addr

theorem matchIp_of_cur {c : ServerClient} {ip : Ip} (h : matchCurIp c ip = true) :
    matchIp c ip = true := by
  simp only [matchCurIp, matchIp, Bool.and_eq_true, Bool.or_eq_true] at *
  exact ⟨h.1, Or.inl (Or.inl h.2)⟩

theorem serverFindByIp_some {t : Table n} {ip : Ip} {i : Fin n} (h : serverFindByIp t ip = some i) :
    matchIp (t i) ip = true := by
  unfold serverFindByIp at h
  split at h
  · rename_i j hj
    cases h
    exact matchIp_of_cur (lowest_some hj)
  · exact lowest_some h

theorem serverFindByIp_none {t : Table n} {ip : Ip} (h : serverFindByIp t ip = none) (i : Fin n) :
    matchIp (t i) ip = false := by
  unfold serverFindByIp at h
  split at h
  · cases h
  · exact lowest_eq_none.mp h i

/-- Someone who holds the address is found. -/
theorem serverFindByIp_isSome {t : Table n} {ip : Ip} {i : Fin n} (h : matchIp (t i) ip = true) :
    ∃ j, serverFindByIp t ip = some j := by
  cases hf : serverFindByIp t ip with
  | none => rw [serverFindByIp_none hf i] at h; cases h
  | some j => exact ⟨j, rfl⟩

theorem serverFindByClientId_some {t : Table n} {clientId : CStr} {i : Fin n}
    (h : serverFindByClientId t clientId = some i) :
    clientId ≠ [] ∧ matchId (t i) clientId = true := by
  unfold serverFindByClientId at h
  split at h
  · cases h
  · exact ⟨‹_›, lowest_some h⟩

theorem serverFindByClientId_none {t : Table n} {clientId : CStr}
    (h : serverFindByClientId t clientId = none) (hid : clientId ≠ []) (i : Fin n) :
    matchId (t i) clientId = false := by
  unfold serverFindByClientId at h
  rw [if_neg hid] at h
  exact lowest_eq_none.mp h i

theorem serverFindByAddr_some {t : Table n} {addr : SockAddr} {i : Fin n}
    (h : serverFindByAddr t addr = some i) : (t i).active = true ∧ (t i).addr = addr := by
  have := lowest_some h
  simpa [matchAddr, netSockaddrEqual] using this

/-! ## The whole state -/

/-- `server_lease_t`; `ipBe = 0` is an unused one. -/
structure ServerLease where
  id : CStr
  ipBe : Ip
  since : Time
  prev : Bool
  deriving DecidableEq

def ServerLease.unused : ServerLease := ⟨[], 0, 0, false⟩

/-- `server_leases` and its counters; `lost` counts the warnings that a young lease was given up
because the table could not grow. -/
structure LeaseTable where
  slots : List ServerLease
  used : ℕ
  next : ℕ
  lost : ℕ
  deriving DecidableEq

/-- `auto_pool_next` and the memory of a full pool. -/
structure PoolCursor where
  next : Ip
  fullAt : Time
  fullNet : Ip
  fullPrefix : ℕ
  deriving DecidableEq

abbrev SERVER_SRC_SLOTS : ℕ := 512

/-- `server_share_t`. -/
structure ServerShare where
  key : Ip
  isNet : Bool
  window : Time
  handshakes : ℕ
  trials : ℕ
  deriving DecidableEq

/-- The handshake and key trial budgets of the current second. -/
structure Budget where
  window : Time
  handshakes : ℕ
  unknownHandshakes : ℕ
  trials : ℕ
  unknownTrials : ℕ
  shares : Fin SERVER_SRC_SLOTS → ServerShare
  shareKey : Option (BitVec 128)

inductive Transport
  | udp
  | tcp
  deriving DecidableEq

/-- What the command line and the environment fix at startup. -/
structure Cfg where
  transport : Transport
  clientIsolation : Bool
  /-- `CAMEX_CLIENT_TIMEOUT` when it is in its range, else 0. -/
  clientTimeoutEnv : ℕ
  /-- `SERVER_POOL_HOLD` or `CAMEX_POOL_HOLD`. -/
  poolHold : Time
  localCidr : CStr
  globalPskFromCli : Bool
  deriving DecidableEq

/-- The configuration: fixed settings, `server_db`, `server_ks`, the crypto context and the
server's own tunnel address. -/
structure Conf where
  cfg : Cfg
  db : ServerDb
  ks : Keystore
  ctx : CryptoCtx
  tunnelIp : Ip

structure Server (n : ℕ) where
  clients : Table n
  allocNext : ℕ
  leases : LeaseTable
  pool : PoolCursor
  budget : Budget
  conf : Conf
  sockets : List Socket
  /-- `g_now`; `time(NULL)` within one pass of the loop is the same second. -/
  now : Time
  started : Time
  lastExpireCheck : Time
  isolationDrops : ℕ

def Server.setClient (s : Server n) (i : Fin n) (c : ServerClient) : Server n :=
  { s with clients := Function.update s.clients i c }

section SetClient

variable (s : Server n) (i : Fin n) (c : ServerClient)

@[simp] theorem Server.setClient_self : (s.setClient i c).clients i = c := Function.update_self ..

@[simp] theorem Server.setClient_of_ne {j : Fin n} (h : j ≠ i) :
    (s.setClient i c).clients j = s.clients j := Function.update_of_ne h ..

@[simp] theorem Server.setClient_leases : (s.setClient i c).leases = s.leases := rfl
@[simp] theorem Server.setClient_conf : (s.setClient i c).conf = s.conf := rfl
@[simp] theorem Server.setClient_now : (s.setClient i c).now = s.now := rfl

end SetClient

/-! ## Counters -/

/-- An entry without the counters that handshakes leave on it, accepted or not. -/
def ServerClient.core (c : ServerClient) : ServerClient :=
  { c with hsWindow := 0, hsCount := 0, staleHsLogged := 0, staleHsQuiet := 0 }

/-- The states differ in those counters and in the budgets only. -/
structure Recounted (s s' : Server n) : Prop where
  eq : s' = { s with clients := s'.clients, budget := s'.budget }
  core : ∀ i, (s'.clients i).core = (s.clients i).core

namespace Recounted

variable {s s' s'' : Server n}

theorem refl (s : Server n) : Recounted s s := ⟨rfl, fun _ => rfl⟩

theorem trans (h : Recounted s s') (h' : Recounted s' s'') : Recounted s s'' := by
  refine ⟨?_, fun i => (h'.core i).trans (h.core i)⟩
  rw [h'.eq, h.eq]

theorem of_budget (s : Server n) (b : Budget) : Recounted s { s with budget := b } :=
  ⟨rfl, fun _ => rfl⟩

theorem of_setClient (s : Server n) (i : Fin n) {c : ServerClient} (hc : c.core = (s.clients i).core) :
    Recounted s (s.setClient i c) := by
  refine ⟨rfl, fun j => ?_⟩
  by_cases hj : j = i
  · subst hj
    rw [Server.setClient_self, hc]
  · rw [Server.setClient_of_ne _ _ _ hj]

theorem clients (h : Recounted s s') :
    (fun i => (s'.clients i).core) = fun i => (s.clients i).core := funext h.core

theorem leases (h : Recounted s s') : s'.leases = s.leases := (congrArg Server.leases h.eq :)
theorem conf (h : Recounted s s') : s'.conf = s.conf := (congrArg Server.conf h.eq :)
theorem now (h : Recounted s s') : s'.now = s.now := (congrArg Server.now h.eq :)
theorem sockets (h : Recounted s s') : s'.sockets = s.sockets := (congrArg Server.sockets h.eq :)

theorem active (h : Recounted s s') (i : Fin n) : (s'.clients i).active = (s.clients i).active :=
  (congrArg ServerClient.active (h.core i) :)

theorem tcpFd (h : Recounted s s') (i : Fin n) : (s'.clients i).tcpFd = (s.clients i).tcpFd :=
  (congrArg ServerClient.tcpFd (h.core i) :)

/-- A lookup does not see the counters: it is one of the tables without them. -/
theorem lookup (h : Recounted s s') {β : Type*} (f : Table n → β)
    (hf : ∀ t : Table n, f (fun i => (t i).core) = f t) : f s'.clients = f s.clients := by
  rw [← hf s'.clients, h.clients, hf]

theorem findByClientId (h : Recounted s s') (clientId : CStr) :
    serverFindByClientId s'.clients clientId = serverFindByClientId s.clients clientId :=
  h.lookup (serverFindByClientId · clientId) fun _ => rfl

end Recounted

/-- For the two leases an ending entry may add, its previous address (`true`) or its own (`false`):
`realloc` of the lease table succeeds. -/
abbrev Grow := Bool → Bool

/-- What the kernel and the random generator answer while one packet is handled. -/
structure PacketEnv where
  /-- Random bytes for the key of the share table, when an address (`false`) and when its /24 is looked up. -/
  shareKey : Bool → Option (BitVec 128)
  /-- Random bytes for the ephemeral key of message 2. -/
  seed : Option Key
  /-- The answer of the `k`th `v2_new_index()`. -/
  newIndex : ℕ → BitVec 32
  grow : Grow
  /-- The packet sent in answer, or forwarded, is accepted. -/
  sent : Bool

/-! ## Settings -/

def serverClientTimeout (conf : Conf) : Time :=
  if 0 < conf.cfg.clientTimeoutEnv then conf.cfg.clientTimeoutEnv
  else if conf.db.globals.clientTimeout ≠ 0 then conf.db.globals.clientTimeout
  else CAMEX_CLIENT_TIMEOUT

def serverLeaseMin (conf : Conf) : Time := V2_REKEY_AFTER_TIME + serverClientTimeout conf

def serverPoolHolding (s : Server n) : Bool :=
  s.started != 0 && s.now - s.started < s.conf.cfg.poolHold

/-- `server_client_isolation`. -/
def serverClientIsolation (conf : Conf) : Bool :=
  conf.cfg.clientIsolation || conf.db.globals.clientIsolation

/-- A client the server counts as live: registered, with a working session and authenticated data
within the client timeout. -/
def ServerClient.Live (c : ServerClient) (timeout now : Time) : Prop :=
  c.active = true ∧ c.registered = true ∧ c.cur.valid = true ∧ c.lastData ≠ 0 ∧
    now - c.lastData ≤ timeout

instance (c : ServerClient) (timeout now : Time) : Decidable (c.Live timeout now) := by
  unfold ServerClient.Live
  infer_instance

end Camex
