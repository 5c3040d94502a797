import Camex.Control
import Camex.Server.LeaseSteps
import Camex.Server.Listing

/-!
# The status document (`server.c`)

`serverStatus` is what `server_status(1)` prints. The clients are those of the slots that are registered, the leases
those of the table up to the number that its counter says.
-/

namespace Camex

open Lib

variable {n : ℕ}

def CAMEX_VERSION : String := "3.16.0"

/-- What `server_status` reads: the server, the sections with their names, and of `current_config` and the process what
the server does not know. -/
structure StatusView (n : ℕ) where
  server : Server n
  file : Loading (List ClientSection)
  port : ℤ
  localCidr : CStr
  pid : ℤ

/-- `%04x`. -/
def hexFour (v : ℕ) : CStr := (List.range 4).map fun k => Control.hexDigit (v / 16 ^ (3 - k) % 16)

/-- A byte in `sb_json_str`. -/
def sbJsonByte (b : UInt8) : CStr :=
  if b = 34 ∨ b = 92 then [92, b] else if b < 0x20 ∨ 0x7f ≤ b then ascii "\\u" ++ hexFour b.toNat else [b]

def sbJsonStr (s : CStr) : CStr := 34 :: (s.flatMap sbJsonByte ++ [34])

def sbJsonName (s : CStr) : CStr := 34 :: (s.flatMap (fun b => if b = 34 ∨ b = 92 then [92, b] else [b]) ++ [34])

def netSockaddrToString (addr : SockAddr) : CStr := ipText addr.ip ++ 58 :: natText addr.port.toNat

def statusKey (v : StatusView n) (c : ServerClient) : CStr :=
  ascii (if c.clientId ≠ [] ∧ configKsKeyOwnedBy v.server.conf.ks c.pskKey c.clientId then "own" else "global")

/-- The text, or `null` without one. -/
def orNull (text : Option CStr) : CStr := text.getD (ascii "null")

def quotedIp (ip : Ip) : CStr := 34 :: (ipText ip ++ [34])

/-- `last`: the seconds since authenticated data came. -/
def statusLast (v : StatusView n) (c : ServerClient) : ℤ :=
  if c.lastData ≠ 0 then difftime v.server.now c.lastData else -1

def statusClient (v : StatusView n) (c : ServerClient) : CStr :=
  let name := statusName v.file c.clientId
  let since := if c.sessionSince ≠ 0 then difftime v.server.now c.sessionSince else 0
  let hs := if c.lastHs ≠ 0 then difftime v.server.now c.lastHs else 0
  ascii "\x7b\"id\":" ++ orNull (if c.clientId ≠ [] then some (sbJsonStr c.clientId) else none) ++
    ascii ",\"name\":" ++ orNull (if name ≠ [] then some (sbJsonName name) else none) ++
    ascii ",\"mode\":\"" ++ ascii (if c.autoClient then "auto" else "manual") ++
    ascii "\",\"key\":\"" ++ statusKey v c ++
    ascii "\",\"address\":\"" ++ ipText c.ipBe ++
    ascii "\",\"pending\":" ++ orNull (if c.pendingIpBe ≠ 0 then some (quotedIp c.pendingIpBe) else none) ++
    ascii ",\"previous\":" ++
      orNull (if c.prev.valid ∧ c.prevIpBe ≠ 0 then some (quotedIp c.prevIpBe) else none) ++
    ascii ",\"peer\":\"" ++ netSockaddrToString c.addr ++
    ascii "\",\"transport\":\"" ++ ascii (if 0 ≤ c.tcpFd then "tcp" else "udp") ++
    ascii "\",\"registered\":" ++ intText c.registeredAt ++
    ascii ",\"connected_s\":" ++ intText since ++
    ascii ",\"last_packet_s\":" ++ orNull (if 0 ≤ statusLast v c then some (intText (statusLast v c)) else none) ++
    ascii ",\"last_handshake_s\":" ++ intText hs ++
    ascii ",\"handshakes\":" ++ natText (c.handshakes % 2 ^ 32) ++
    ascii ",\"rx_packets\":" ++ natText (c.rxPackets % 2 ^ 64) ++
    ascii ",\"rx_bytes\":" ++ natText (c.rxBytes % 2 ^ 64) ++
    ascii ",\"tx_packets\":" ++ natText (c.txPackets % 2 ^ 64) ++
    ascii ",\"tx_bytes\":" ++ natText (c.txBytes % 2 ^ 64) ++
    ascii ",\"isolation_drops\":" ++ natText (c.isolationDrops % 2 ^ 64) ++ ascii "\x7d"

/-- A comma, but for the first object. -/
def comma (count : ℕ) : CStr := if 0 < count then [44] else []

/-- The loop over the slots, behind `used` clients. -/
def statusClients (v : StatusView n) : List ServerClient → ℕ → CStr
  | [], _ => []
  | c :: cs, used =>
    if c.active && c.registered then comma used ++ statusClient v c ++ statusClients v cs (used + 1)
    else statusClients v cs used

def statusLease (v : StatusView n) (l : ServerLease) : CStr :=
  ascii "\x7b\"id\":" ++ sbJsonStr l.id ++ ascii ",\"address\":\"" ++ ipText l.ipBe ++ ascii "\",\"gone_s\":" ++
    intText (difftime v.server.now l.since) ++ ascii ",\"previous\":" ++ ascii (if l.prev then "true" else "false") ++
    ascii "\x7d"

/-- The loop over the lease table, behind `count` leases. -/
def statusLeases (v : StatusView n) : List ServerLease → ℕ → CStr
  | [], _ => []
  | l :: ls, count =>
    if v.server.leases.used ≤ count then []
    else if l.ipBe = 0 then statusLeases v ls count
    else comma count ++ statusLease v l ++ statusLeases v ls (count + 1)

def StatusView.slots (v : StatusView n) : List ServerClient := (List.finRange n).map v.server.clients

def slotsUsed (v : StatusView n) : ℕ := v.slots.countP ServerClient.active

/-- `pool`. -/
def statusPool (v : StatusView n) : CStr :=
  ipText v.server.conf.db.globals.poolNet ++ 47 :: natText v.server.conf.db.globals.poolPrefix

/-- `up`. -/
def statusUp (v : StatusView n) : ℤ := if v.server.started ≠ 0 then difftime v.server.now v.server.started else 0

/-- `transport`. -/
def statusTransport (v : StatusView n) : CStr :=
  ascii (match v.server.conf.cfg.transport with
    | .tcp => "tcp"
    | .udp => "udp")

/-- `server_status(1)`. -/
def serverStatus (v : StatusView n) : CStr :=
  ascii "\x7b\"version\":\"" ++ ascii CAMEX_VERSION ++ ascii "\",\"pid\":" ++ intText v.pid ++
    ascii ",\"transport\":\"" ++ statusTransport v ++ ascii "\",\"port\":" ++ intText v.port ++
    ascii ",\"tunnel\":" ++ sbJsonStr v.localCidr ++
    ascii ",\"pool\":\"" ++ statusPool v ++ ascii "\",\"started\":" ++ intText v.server.started ++
    ascii ",\"uptime\":" ++ intText (statusUp v) ++
    ascii ",\"slots\":\x7b\"used\":" ++ natText (slotsUsed v % 2 ^ 32) ++
    ascii ",\"max\":" ++ natText (n % 2 ^ 32) ++
    ascii "\x7d,\"client_isolation\":" ++ ascii (if serverClientIsolation v.server.conf then "true" else "false") ++
    ascii ",\"isolation_drops\":" ++ natText (v.server.isolationDrops % 2 ^ 64) ++
    ascii ",\"clients\":[" ++ statusClients v v.slots 0 ++
    ascii "],\"leases\":[" ++ statusLeases v v.server.leases.slots 0 ++ ascii "]\x7d\n"

end Camex
