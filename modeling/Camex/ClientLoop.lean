import Camex.ClientPacket
import Camex.ConfigFile
import Camex.SessionLog

/-!
# The client's loop (`client.c`, `camex.c`)

A client waits for its configuration, opens its tunnel and then goes round the loop of `camex_run`: packets of the
server, packets of the tunnel, `client_tick`. The timers are all in `clientTick`: the handshake sent again, the rekey,
the keepalive, the link given up.

* `ClientNote`: what a step hands to the socket and does with the sessions;
* `clientLoopMachine`: the client from the start on; what it sends and receives are the notes of its steps.

Log texts are left out. `net_client_send` is `netClientSend`: what becomes of its bytes is the network's business.
-/

namespace Camex

open Lib

def V2_REKEY_AFTER_MSGS : ℕ := 2 ^ 32
def V2_HANDSHAKE_RETRY : Time := 5
def V2_REKEY_TIMEOUT : Time := 90
def CAMEX_RECONNECT_INTERVAL : Time := 5
def CAMEX_KEEPALIVE_MAX : Time := (CAMEX_CLIENT_TIMEOUT_MIN / 3 : ℕ)

/-- `camex_crypto_t`: the fields a client reads; and the number in `CAMEX_REKEY_AFTER`, `0` without one. -/
structure ClientCtx where
  pskKey : Key
  hasGlobal : Bool
  serverPub : Key
  hasServerPub : Bool
  rekeyAfterEnv : ℤ

/-- Where the program is. -/
inductive ClientPoint
  /-- In `camex_init`, with a socket and nothing sent. -/
  | starting
  /-- In `client_wait_for_config`, with `socket_since`. -/
  | waiting (socketSince : Time)
  /-- Behind it, before `packet_open`. -/
  | configured
  /-- At the head of the loop of `camex_run`. -/
  | head
  /-- In a pass of that loop. -/
  | pass
  deriving DecidableEq

/-- The client with the rest of `client_state_t`, its socket and the clock. -/
structure ClientLoop where
  client : Client
  hsStarted : Time
  hsSent : Time
  /-- `net_fd >= 0`. -/
  netOpen : Bool
  reconnectAt : Time
  linkUp : Bool
  /-- `g_now`. -/
  now : Time
  point : ClientPoint

/-- What a step sends and does with the sessions. -/
inductive ClientNote
  /-- An INIT with its index, and the state behind message 1. -/
  | init (index : BitVec 32) (hs : NoiseHs) (packet : Bytes)
  /-- The session a RESP made of the handshake in state `hs`. -/
  | opened (x : SessionId) (hs : NoiseHs) (resp : Bytes)
  | sealed (x : SessionId) (count : ℕ) (plain packet : Bytes)
  | taken (x : SessionId) (packet plain : Bytes)
  deriving DecidableEq

def ClientNote.note : ClientNote → Option SessionNote
  | .init _ _ _ => none
  | .opened x _ _ => some (.opened x)
  | .sealed x count plain packet => some (.sealed x count plain packet)
  | .taken x packet plain => some (.taken x packet plain)

/-! ## What comes from outside -/

/-- `gettimeofday`. -/
structure TimeVal where
  sec : BitVec 64
  usec : BitVec 32

/-- What the clock, the random generator and the kernel answer while an INIT is sent. -/
structure InitEnv where
  time : TimeVal
  seed : Option Key
  /-- `v2_new_index`. -/
  index : BitVec 32
  sent : ℤ

/-- What a tick finds: does a new socket connect, an INIT, the result of a keepalive. -/
structure TickEnv where
  socket : Bool
  init : InitEnv
  sent : ℤ

/-- A turn of `client_wait_reconnect`. -/
structure Attempt where
  socket : Bool
  now : Time
  init : InitEnv

inductive Arrival
  | nothing
  /-- The connection is closed or its stream broken. -/
  | lost
  | packet (bytes : Bytes) (o : Outcome)

/-- What a turn of `client_wait_for_config` finds; `since`: the clock behind it. -/
structure WaitEnv where
  now : Time
  init : InitEnv
  arrival : Arrival
  attempts : List Attempt
  since : Time

inductive ClientEvent
  /-- The first handshake of a client in auto mode. -/
  | begin (now : Time) (env : InitEnv)
  | wait (env : WaitEnv)
  /-- `packet_open` with the routes, and the first handshake of a manual client. -/
  | start (now : Time) (opened : Option Backend) (added : ℕ → Bool) (env : InitEnv)
  | pass (now : Time)
  /-- One packet or frame of `drain_udp_packets`. -/
  | packet (bytes : Bytes) (o : Outcome)
  /-- A stream that broke. -/
  | lost
  /-- One packet of `handle_tun_packet`. -/
  | tun (packet : Bytes) (sent : ℤ)
  | tick (env : TickEnv)

/-! ## Handshakes -/

def v2Timestamp (t : TimeVal) : Bytes :=
  let sec := t.sec + 0x400000000000000a
  v2WriteU32 ((sec >>> 32).setWidth 32) ++ (v2WriteU32 (sec.setWidth 32) ++ v2WriteU32 (t.usec * 1000))

/-- `net_client_send`: nothing goes out without a socket. -/
def netClientSend (s : ClientLoop) (sent : ℤ) : ℤ := if s.netOpen then sent else -1

variable (C : Crypto) (ctx : ClientCtx)

/-- `client_send_init`; `true`: it returns 0. -/
def clientSendInit (s : ClientLoop) (env : InitEnv) : ClientLoop × List ClientNote × Bool :=
  if !ctx.hasServerPub ∨ !ctx.hasGlobal then (s, [], false)
  else
    match protoBuildRegister s.client.link.current CAMEX_CONTROL_MAX with
    | none => (s, [], false)
    | some message =>
      match env.seed with
      | none => (s, [], false)
      | some seed =>
        let hs := noiseInitInitiator C.prims CAMEX_NOISE_PROLOGUE ctx.serverPub
        if env.index = 0 then ({ s with client := { s.client with hs := hs, hsIndex := 0 } }, [], false)
        else
          let (hs, msg) := noiseWriteMsg1 C.prims hs ctx.pskKey seed (v2Timestamp env.time ++ message)
            (NOISE_MSG1_OVERHEAD + (V2_TIMESTAMP_LEN + CAMEX_CONTROL_MAX))
          let s := { s with client := { s.client with hs := hs, hsIndex := env.index } }
          match msg with
          | none => (s, [], false)
          | some msg =>
            let packet := CAMEX_MAGIC ++ V2_TYPE_INIT :: (v2WriteU32 env.index ++ msg)
            let packet := packet ++ (C.mac1 ctx.serverPub packet).val
            ({ s with client := { s.client with hsPending := true }, hsSent := s.now },
              [.init env.index hs packet], decide (0 ≤ netClientSend s env.sent))

def clientStartHandshake (s : ClientLoop) (env : InitEnv) : ClientLoop × List ClientNote × Bool :=
  clientSendInit C ctx { s with hsStarted := s.now } env

/-! ## Packets -/

/-- The session of a DATA packet that is taken. -/
def clientReceiver (c : Client) (now : Time) (pkt : Bytes) : SessionId :=
  (if clientSession c (v2DataReceiver pkt) now = some true then c.prev else c.cur).ident

def clientPacketNotes (c : Client) (o : Outcome) (now : Time) (pkt : Bytes) : List ClientNote :=
  match clientHandleNetPacket C c o now pkt with
  | (_, .refused) => []
  | (c', .connected none) => [.opened c'.cur.ident c.hs pkt]
  | (c', .connected (some ka)) => [.opened c'.cur.ident c.hs pkt, .sealed c'.cur.ident 0 [] ka]
  | (_, .keepalive) => [.taken (clientReceiver c now pkt) pkt []]
  | (_, .tun plain) => [.taken (clientReceiver c now pkt) pkt plain]

/-- `session_seal` on the current session, for `net_client_send`. -/
def clientSeal (s : ClientLoop) (plain : Bytes) (size : ℕ) : Option (ClientLoop × ClientNote) :=
  (sessionSeal C.noise s.client.cur plain size).map fun (packet, cur) =>
    ({ s with client := { s.client with cur := cur } },
      .sealed s.client.cur.ident s.client.cur.sendN plain packet)

def clientHandleTunPacket (s : ClientLoop) (packet : Bytes) (sent : ℤ) : ClientLoop × List ClientNote × ℤ :=
  if packet.length = 0 ∨ TUN_PACKET_MAX < packet.length then (s, [], -1)
  else if !s.client.cur.valid then (s, [], 0)
  else
    match clientSeal C s packet (TUN_PACKET_MAX + V2_OVERHEAD) with
    | none => (s, [], -1)
    | some (s, note) => (s, [note], netClientSend s sent)

/-! ## Timers -/

def clientWipe (c : Client) : Client := { c with hs := .zero, cur := .wiped, prev := .wiped, hsPending := false }

def clientReconnect (s : ClientLoop) (socket : Bool) (env : InitEnv) : ClientLoop × List ClientNote :=
  let c := { clientWipe s.client with established := false }
  if !socket then
    let delay := min (CAMEX_RECONNECT_INTERVAL * 2 ^ c.reconnectBackoff) 60
    ({ s with
      client := { c with
        reconnectBackoff := if c.reconnectBackoff < 4 then c.reconnectBackoff + 1 else c.reconnectBackoff
        lastRecv := 0 }
      netOpen := false
      reconnectAt := s.now + delay }, [])
  else
    let s := { s with
      client := { c with lastRecv := s.now, lastKeepalive := s.now }
      netOpen := true
      reconnectAt := 0 }
    match clientStartHandshake C ctx s env with
    | (s, notes, false) =>
      ({ s with
        client := { s.client with lastRecv := 0 }
        netOpen := false
        reconnectAt := s.now + CAMEX_RECONNECT_INTERVAL }, notes)
    | (s, notes, true) => ({ s with linkUp := true }, notes)

def clientRekeyAfter : Time :=
  if 5 ≤ ctx.rekeyAfterEnv ∧ ctx.rekeyAfterEnv ≤ V2_REKEY_AFTER_TIME then ctx.rekeyAfterEnv else V2_REKEY_AFTER_TIME

def clientKeepaliveInterval (config : CamexConfig) : Time :=
  if config.keepalive = 0 then CAMEX_KEEPALIVE_MAX
  else
    let cap := min (max (config.serverTimeout.tdiv 2) 1) CAMEX_KEEPALIVE_MAX
    if config.keepalive < cap then config.keepalive else cap

def clientLossAfter (config : CamexConfig) : Time :=
  if config.keepalive = 0 then config.serverTimeout + clientKeepaliveInterval config else config.serverTimeout

/-- No answer for too long: on a session, or to the handshakes of a new connection. -/
def linkLost (s : ClientLoop) : Bool :=
  s.client.established && decide (0 < s.client.lastRecv) &&
      decide (clientLossAfter s.client.link.current ≤ s.now - s.client.lastRecv) ||
    !s.client.established && s.client.hsPending && decide (s.client.link.current.serverTimeout ≤ s.now - s.hsStarted)

/-- A link given up, before `client_reconnect`. -/
def clientLinkDown (s : ClientLoop) : ClientLoop :=
  { s with linkUp := false, client := { s.client with lastRecv := 0 } }

/-- The handshake sent again; `true`: go on. -/
def clientRetransmit (s : ClientLoop) (env : InitEnv) : ClientLoop × List ClientNote × Bool :=
  if s.client.hsPending ∧ V2_HANDSHAKE_RETRY ≤ s.now - s.hsSent then clientSendInit C ctx s env else (s, [], true)

/-- The rekey; its result is not looked at. -/
def clientRekey (s : ClientLoop) (env : InitEnv) : ClientLoop × List ClientNote :=
  if s.client.cur.valid ∧ !s.client.hsPending ∧
      (clientRekeyAfter ctx ≤ s.now - s.client.cur.created ∨ V2_REKEY_AFTER_MSGS ≤ s.client.cur.sendN) then
    let (s, notes, _) := clientStartHandshake C ctx s env
    (s, notes)
  else (s, [])

/-- Seconds between keepalives: few until the server has answered on the session. -/
def clientKeepaliveAfter (c : Client) : Time :=
  if c.confirmPending then V2_HANDSHAKE_RETRY else clientKeepaliveInterval c.link.current

/-- The keepalive; its result is not looked at. -/
def clientKeepalive (s : ClientLoop) : ClientLoop × List ClientNote :=
  if s.client.cur.valid ∧ clientKeepaliveAfter s.client ≤ s.now - s.client.lastKeepalive then
    match clientSeal C s [] V2_OVERHEAD with
    | none => ({ s with client := { s.client with lastKeepalive := s.now } }, [])
    | some (s, note) => ({ s with client := { s.client with lastKeepalive := s.now } }, [note])
  else (s, [])

def clientTick (s : ClientLoop) (env : TickEnv) : ClientLoop × List ClientNote :=
  if !s.netOpen ∨ 0 < s.reconnectAt then
    if s.reconnectAt = 0 ∨ s.reconnectAt ≤ s.now then clientReconnect C ctx s env.socket env.init else (s, [])
  else if linkLost s ∨ (s.client.established ∧ s.client.hsPending ∧ V2_REKEY_TIMEOUT ≤ s.now - s.hsStarted) then
    clientReconnect C ctx (clientLinkDown s) env.socket env.init
  else
    match clientRetransmit C ctx s env.init with
    | (s, notes, false) => ({ s with netOpen := false, reconnectAt := 0 }, notes)
    | (s, notes, true) =>
      let (s, rekey) := clientRekey C ctx s env.init
      let (s, ka) := clientKeepalive C s
      (s, notes ++ (rekey ++ ka))

/-! ## Waiting for the configuration -/

/-- `client_wait_reconnect`: a new socket and a handshake on it. `none`: stopped before that. -/
def clientWaitReconnect (s : ClientLoop) : List Attempt → Option (ClientLoop × List ClientNote)
  | [] => none
  | a :: attempts =>
    let s := { s with netOpen := false }
    if !a.socket then clientWaitReconnect s attempts
    else
      match clientStartHandshake C ctx { s with netOpen := true, now := a.now } a.init with
      | (s, notes, true) => some (s, notes)
      | (s, notes, false) => (clientWaitReconnect s attempts).map fun (s, more) => (s, notes ++ more)

/-- `client_wait_reconnect`, with the new `socket_since`. -/
def clientWaitAgain (s : ClientLoop) (env : WaitEnv) : Option (ClientLoop × List ClientNote) :=
  (clientWaitReconnect C ctx s env.attempts).map fun (s, notes) => ({ s with point := .waiting env.since }, notes)

/-- A packet while there is no configuration: without a tunnel no payload can be delivered. -/
def clientWaitPacket (s : ClientLoop) (since : Time) (bytes : Bytes) (o : Outcome) : ClientLoop :=
  let (c, outcome) := clientHandleNetPacket C s.client o s.now bytes
  let s := { s with client := c }
  match outcome with
  | .connected _ | .keepalive =>
    if c.configReceived ∧ c.link.current.localCidr ≠ [] ∧ c.link.current.gatewayIp ≠ [] then
      { s with point := .configured }
    else { s with point := .waiting since }
  | .tun _ | .refused => s

/-- A turn of the loop of `client_wait_for_config`. -/
def clientWait (s : ClientLoop) (socketSince : Time) (env : WaitEnv) : Option (ClientLoop × List ClientNote) :=
  let s := { s with now := env.now }
  if !s.netOpen ∨ s.client.link.current.serverTimeout ≤ s.now - socketSince then clientWaitAgain C ctx s env
  else
    match clientRetransmit C ctx s env.init with
    | (s, notes, false) => (clientWaitAgain C ctx s env).map fun (s, more) => (s, notes ++ more)
    | (s, notes, true) =>
      match env.arrival with
      | .nothing => some (s, notes)
      | .lost => (clientWaitAgain C ctx s env).map fun (s, more) => (s, notes ++ more)
      | .packet bytes o =>
        some (clientWaitPacket C s env.since bytes o, notes ++ clientPacketNotes C s.client o s.now bytes)

/-! ## The machine -/

/-- `client_state_init` and the rest of `camex_init` up to the first socket. -/
def clientInit (config : CamexConfig) (now : Time) : ClientLoop where
  client :=
    { hs := .zero
      hsPending := false
      hsIndex := 0
      cur := .wiped
      prev := .wiped
      prevUntil := 0
      lastRecv := now
      lastKeepalive := now
      configReceived := false
      established := false
      confirmPending := false
      reconnectBackoff := 0
      link := ⟨config, none, false⟩ }
  hsStarted := 0
  hsSent := 0
  netOpen := true
  reconnectAt := 0
  linkUp := false
  now := now
  point := .starting

/-- The first handshake; when it fails that is only logged. -/
def clientFirstHandshake (s : ClientLoop) (env : InitEnv) : ClientLoop × List ClientNote :=
  let (s, notes, _) := clientStartHandshake C ctx s env
  (s, notes)

/-- `camex_init` from `packet_open` on, and `camex_client_install_routes`. -/
def clientOpen (s : ClientLoop) (opened : Option Backend) (added : ℕ → Bool) (env : InitEnv) :
    Option (ClientLoop × List ClientNote) :=
  (clientOpenTunnel s.client.link.tunnel s.client.link.current opened).map fun t =>
    let link := camexClientInstallRoutes added { s.client.link with tunnel := some t }
    let s := { s with client := { s.client with link := link }, linkUp := true, point := .head }
    if s.client.link.current.autoConfig then (s, []) else clientFirstHandshake C ctx s env

def clientStep (s : ClientLoop) : ClientEvent → Option (ClientLoop × List ClientNote)
  | .begin now env =>
    if s.point = .starting ∧ s.client.link.current.autoConfig then
      some (clientFirstHandshake C ctx { s with now := now, point := .waiting now } env)
    else none
  | .wait env =>
    match s.point with
    | .waiting since => clientWait C ctx s since env
    | _ => none
  | .start now opened added env =>
    if s.point = .configured ∨ s.point = .starting ∧ !s.client.link.current.autoConfig then
      clientOpen C ctx { s with now := now } opened added env
    else none
  | .pass now => if s.point = .head then some ({ s with now := now, point := .pass }, []) else none
  | .packet bytes o =>
    if s.point = .pass ∧ s.netOpen then
      some ({ s with client := (clientHandleNetPacket C s.client o s.now bytes).1 },
        clientPacketNotes C s.client o s.now bytes)
    else none
  | .lost => if s.point = .pass then some ({ s with netOpen := false }, []) else none
  | .tun packet sent =>
    if s.point = .pass then
      let (s, notes, _) := clientHandleTunPacket C s packet sent
      some (s, notes)
    else none
  | .tick env =>
    if s.point = .pass then
      let (s, notes) := clientTick C ctx s env
      some ({ s with point := .head }, notes)
    else none

def clientLoopMachine : Machine ClientLoop ClientEvent where
  start s := ∃ config now, s = clientInit config now
  next s e := (clientStep C ctx s e).map Prod.fst

def clientNotes (s : ClientLoop) (e : ClientEvent) : List ClientNote :=
  ((clientStep C ctx s e).map Prod.snd).getD []

abbrev clientLogged : Machine (ClientLoop × List ClientNote) ClientEvent :=
  (clientLoopMachine C ctx).logged (clientNotes C ctx)

end Camex
