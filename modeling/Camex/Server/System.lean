import Camex.Lib.Runs
import Camex.Server.Tcp

/-!
# The server as a machine (`camex_init`, `camex_run`)

The loop of `camex_run` takes events in any order: datagrams, accepts, readable connections, packets
of the tunnel device, the expiry pass, a reload, and the clock. `serverStep` is what one event does;
`serverMachine` has as start states what `server_clients_init()` leaves with a keystore that was
built.
-/

namespace Camex

open Lib

variable {n : ℕ} {Hs : Type} (N : Noise Hs)

/-! ## Start -/

def ServerShare.zero : ServerShare := ⟨0, false, 0, 0, 0⟩

def Budget.zero : Budget := ⟨0, 0, 0, 0, 0, fun _ => .zero, none⟩

/-- `server_clients_init`; `leases`: the lease table was allocated. -/
def serverClientsInit (n : ℕ) (conf : Conf) (now : Time) (leases : Bool) : Server n where
  clients := fun _ => .wiped
  allocNext := 0
  leases := ⟨List.replicate (if leases then n else 0) .unused, 0, 0, 0⟩
  pool := ⟨0, 0, 0, 0⟩
  budget := .zero
  conf := conf
  sockets := []
  now := now
  started := now
  lastExpireCheck := 0
  isolationDrops := 0

/-! ## Events -/

inductive Event (n : ℕ)
  /-- `g_now = time(NULL)` at the head of a pass. -/
  | tick (now : Time)
  | udp (packet : Bytes) (src : SockAddr) (env : PacketEnv)
  /-- A connection whose peer sends `stream`, accepted as `fd`. -/
  | accept (fd : ℤ) (peer : SockAddr) (stream : Bytes) (nonblocking : Bool)
  /-- A connection is readable: what the buffer of the call holds and what its reads give. -/
  | readable (fd : ℤ) (buffer : Buffer) (reads : List Read) (env : PacketEnv)
  | tun (packet : Bytes) (env : PacketEnv)
  | expire (grow : Fin n → Grow)
  /-- `none`: the file cannot be read or does not parse. -/
  | reload (file : Option ServerDb) (mem : KeyMemory) (grow : Fin n → Grow)

/-- The transport of a server, and whether its kernel can give the event then. -/
def Event.Enabled (s : Server n) : Event n → Prop
  | .udp _ _ _ => s.conf.cfg.transport = .udp
  | .accept fd _ _ _ => s.conf.cfg.transport = .tcp ∧ 0 ≤ fd ∧ ∀ k ∈ s.sockets, k.fd ≠ fd
  | .readable fd _ _ _ =>
    s.conf.cfg.transport = .tcp ∧ 0 ≤ fd ∧ ∃ i, (s.clients i).active = true ∧ (s.clients i).tcpFd = fd
  | _ => True

instance (s : Server n) (e : Event n) : Decidable (e.Enabled s) := by
  cases e <;> unfold Event.Enabled <;> infer_instance

/-- `handle_tun_packet` for one packet. -/
def handleTunPacket (s : Server n) (env : PacketEnv) (packet : Bytes) : Server n :=
  match ipv4ParseEndpoints packet with
  | none => s
  | some (_, dst) => (serverForwardPacket N s env packet dst).1

/-- A call of `server_handle_packet`: the state it starts in and its arguments. -/
structure Call (n : ℕ) where
  server : Server n
  env : PacketEnv
  packet : Bytes
  src : SockAddr
  fd : ℤ

/-- The call of `server_handle_packet` an event leads to. -/
def eventCall (s : Server n) : Event n → Option (Call n)
  | .udp packet src env => some ⟨s, env, packet, src, -1⟩
  | .readable fd buffer reads env =>
    match drainTcpClientRead s fd buffer reads env.grow with
    | (s, some (packet, src)) => some ⟨s, env, packet, src, fd⟩
    | (_, none) => none
  | _ => none

/-- What an event does that leads to no packet. -/
def quietStep (s : Server n) : Event n → Server n
  | .tick now => { s with now := now }
  | .udp _ _ _ => s
  | .accept fd peer stream nonblocking => serverAccept s fd peer stream nonblocking
  | .readable fd buffer reads env => (drainTcpClientRead s fd buffer reads env.grow).1
  | .tun packet env => handleTunPacket N s env packet
  | .expire grow => serverExpireClients grow s
  | .reload file mem grow => serverReload N s file mem grow

/-- What one event does, and what became of the packet it brought. -/
def serverStep (s : Server n) (e : Event n) : Server n × Option (PacketOutcome n) :=
  match eventCall s e with
  | some c =>
    let (s, o) := serverHandlePacket N c.server c.env c.packet c.src c.fd
    (s, some o)
  | none => (quietStep N s e, none)

/-- A state `camex_init` leaves: no clients, and a keystore that was built. -/
def Started (s : Server n) : Prop :=
  ∃ (cfg : Cfg) (db : ServerDb) (ctx : CryptoCtx) (mem : KeyMemory) (ks : Keystore) (now : Time)
    (leases : Bool), configBuildKeystore N mem ctx db = .ok ks ∧
      s = serverClientsInit n ⟨cfg, db, ks, ctx, serverCheckPool cfg.localCidr⟩ now leases

def serverMachine (n : ℕ) : Machine (Server n) (Event n) where
  start := Started N
  next s e := if e.Enabled s then some (serverStep N s e).1 else none

end Camex
