import Camex.Server.Init

/-!
# DATA packets and forwarding (`server_handle_data`, `server_forward_packet`)

A DATA packet is received (`dataReceive`: its session opens it, a `next` session becomes the current
one) and then delivered (`dataDeliver`: a keepalive is answered, an IPv4 packet forwarded).

* `Delivered`: delivery seals on the current sessions and counts, nothing else;
* `serverHandleData_cases`: a packet that is not dropped was opened by one session of its slot.
-/

namespace Camex

open Lib

variable {n : ℕ}

def ipv4ParseEndpoints (packet : Bytes) : Option (Ip × Ip) :=
  if packet.length < 20 then none
  else
    let b := (packet.getD 0 0).toNat
    if b / 16 ≠ 4 ∨ b % 16 < 5 ∨ packet.length < b % 16 * 4 then none
    else some (v2ReadU32 packet 12, v2ReadU32 packet 16)

/-- Which session of an entry. -/
inductive Which
  | cur
  | next
  | prev
  deriving DecidableEq

def ServerClient.session (c : ServerClient) : Which → Session
  | .cur => c.cur
  | .next => c.next
  | .prev => c.prev

def ServerClient.setSession (c : ServerClient) (w : Which) (x : Session) : ServerClient :=
  match w with
  | .cur => { c with cur := x }
  | .next => { c with next := x }
  | .prev => { c with prev := x }

def sessionOf (c : ServerClient) (idx : BitVec 32) (now : Time) : Option Which :=
  if c.cur.valid && c.cur.localIndex == idx then some .cur
  else if c.next.valid && c.next.localIndex == idx then some .next
  else if c.prev.valid && c.prev.localIndex == idx && decide (now ≤ c.prevUntil) then some .prev
  else none

def slotOfIndex (n : ℕ) (idx : BitVec 32) : Option (Fin n) :=
  let slot1 := (idx &&& 0xFFFF#32).toNat
  if h : slot1 ≠ 0 ∧ slot1 ≤ n then some ⟨slot1 - 1, by omega⟩ else none

def dataSession (s : Server n) (pkt : Bytes) (fd : ℤ) : Option (Fin n × Which) :=
  match slotOfIndex n (v2DataReceiver pkt) with
  | none => none
  | some i =>
    if (s.clients i).active then
      match sessionOf (s.clients i) (v2DataReceiver pkt) s.now with
      | none => none
      | some w => if 0 ≤ fd ∧ (s.clients i).tcpFd ≠ fd then none else some (i, w)
    else none

/-! ## Receiving -/

/-- The client's first packet on the new session: it becomes current, the old one keeps receiving
for a while; a pending address becomes the entry's. -/
def promote (c : ServerClient) (now : Time) : ServerClient :=
  { c with
    prev := c.cur
    prevUntil := now + V2_PREV_SESSION_GRACE
    prevIpBe := c.ipBe
    cur := c.next
    next := .wiped
    ipBe := if c.pendingIpBe ≠ 0 then c.pendingIpBe else c.ipBe
    pendingIpBe := 0 }

/-- The entry once a packet is authenticated. -/
def dataReceive (c : ServerClient) (w : Which) (x : Session) (src : SockAddr) (fd : ℤ) (now : Time)
    (len : ℕ) : ServerClient :=
  let c := c.setSession w x
  let c := if w = .next then promote c now else c
  let c := if fd < 0 then serverSetAddr c src else c
  { c with lastSeen := now, lastData := now, rxPackets := c.rxPackets + 1, rxBytes := c.rxBytes + len }

/-- The leases once a packet is authenticated: an address just confirmed has none. -/
def dataLeases (ls : LeaseTable) (c : ServerClient) (w : Which) : LeaseTable :=
  if w = .next ∧ c.pendingIpBe ≠ 0 then serverLeaseDrop ls (serverLeaseByIp ls c.pendingIpBe) else ls

/-! ## Delivering -/

/-- Is a packet for an entry accepted? Without a connection nothing goes out over TCP. -/
def sendAccepted (conf : Conf) (c : ServerClient) (env : PacketEnv) : Bool :=
  if c.tcpFd < 0 ∧ conf.cfg.transport = .tcp then false else env.sent

inductive Forwarded (n : ℕ)
  /-- To the tunnel device. -/
  | tun (packet : Bytes)
  /-- Sealed on the current session of a client. -/
  | client (slot : Fin n) (packet : Bytes)
  | failed
  deriving DecidableEq

section

variable {Hs : Type} (N : Noise Hs)

/-- The entry a packet was sealed for. -/
def countSent (c : ServerClient) (x : Session) (accepted : Bool) (len : ℕ) : ServerClient :=
  if accepted then { c with cur := x, txPackets := c.txPackets + 1, txBytes := c.txBytes + len }
  else { c with cur := x }

def serverForwardPacket (s : Server n) (env : PacketEnv) (packet : Bytes) (dst : Ip) :
    Server n × Forwarded n :=
  match serverFindByIp s.clients dst with
  | none => (s, .tun packet)
  | some j =>
    match sessionSeal N (s.clients j).cur packet (TUN_PACKET_MAX + V2_OVERHEAD) with
    | none => (s, .failed)
    | some (out, x) =>
      (s.setClient j (countSent (s.clients j) x (sendAccepted s.conf (s.clients j) env) packet.length),
        .client j out)

/-- What became of a DATA packet. -/
inductive DataOutcome (n : ℕ)
  /-- Unknown session, or it does not authenticate. -/
  | dropped
  | keepalive (slot : Fin n) (w : Which)
  | notIpv4 (slot : Fin n) (w : Which)
  /-- Not from the client's tunnel address. -/
  | spoofed (slot : Fin n) (w : Which)
  | isolated (slot : Fin n) (w : Which)
  | forwarded (slot : Fin n) (w : Which) (f : Forwarded n)
  deriving DecidableEq

/-- The entry and the session a DATA packet authenticated on. -/
def DataOutcome.session : DataOutcome n → Option (Fin n × Which)
  | .dropped => none
  | .keepalive i w | .notIpv4 i w | .spoofed i w | .isolated i w | .forwarded i w _ => some (i, w)

/-- The session a packet came on, in the entry behind `dataReceive`. -/
def Which.received (w : Which) : Which := if w = .next then .cur else w

/-- The address a packet on this session may come from. -/
def ownIp (c : ServerClient) (w : Which) : Ip :=
  if w = .prev ∧ c.prevIpBe ≠ 0 then c.prevIpBe else c.ipBe

/-- `server_handle_data` once the packet is authenticated. -/
def dataDeliver (s : Server n) (env : PacketEnv) (i : Fin n) (w : Which) (plain : Bytes) :
    Server n × DataOutcome n :=
  let c := s.clients i
  if plain = [] then
    match sessionSeal N c.cur [] V2_OVERHEAD with
    | none => (s, .keepalive i w)
    | some (_, x) => (s.setClient i (countSent c x (sendAccepted s.conf c env) 0), .keepalive i w)
  else
    match ipv4ParseEndpoints plain with
    | none => (s, .notIpv4 i w)
    | some (srcIp, dstIp) =>
      if ownIp c w = 0 ∨ srcIp ≠ ownIp c w then (s, .spoofed i w)
      else if serverClientIsolation s.conf ∧ (serverFindByIp s.clients dstIp).any (· ≠ i) then
        ({ s.setClient i { c with isolationDrops := c.isolationDrops + 1 } with
          isolationDrops := s.isolationDrops + 1 }, .isolated i w)
      else
        let (s, f) := serverForwardPacket N s env plain dstIp
        (s, .forwarded i w f)

/-- The state once a packet on session `w` of slot `i` is authenticated. -/
def dataReceived (s : Server n) (i : Fin n) (w : Which) (x : Session) (src : SockAddr) (fd : ℤ)
    (len : ℕ) : Server n :=
  { s.setClient i (dataReceive (s.clients i) w x src fd s.now len) with
    leases := dataLeases s.leases (s.clients i) w }

def serverHandleData (s : Server n) (env : PacketEnv) (pkt : Bytes) (src : SockAddr) (fd : ℤ) :
    Server n × DataOutcome n :=
  match dataSession s pkt fd with
  | none => (s, .dropped)
  | some (i, w) =>
    match sessionOpen N ((s.clients i).session w) pkt TUN_PACKET_MAX with
    | none => (s, .dropped)
    | some (plain, x) => dataDeliver N (dataReceived s i w x src fd plain.length) env i w plain

/-- What became of a packet. -/
inductive PacketOutcome (n : ℕ)
  | init (o : InitOutcome n)
  | data (o : DataOutcome n)
  /-- Not a client's packet. -/
  | ignored
  deriving DecidableEq

def serverHandlePacket (s : Server n) (env : PacketEnv) (pkt : Bytes) (src : SockAddr) (fd : ℤ) :
    Server n × PacketOutcome n :=
  let type := v2PacketType pkt
  if type = V2_TYPE_INIT then
    let (s, o) := serverHandleInit N s env pkt src fd
    (s, .init o)
  else if type = V2_TYPE_DATA then
    let (s, o) := serverHandleData N s env pkt src fd
    (s, .data o)
  else (s, .ignored)

/-! ## What a DATA packet does -/

def SameButSent (c c' : ServerClient) : Prop :=
  c' = { c with
    cur := { c.cur with sendN := c'.cur.sendN }
    txPackets := c'.txPackets, txBytes := c'.txBytes, isolationDrops := c'.isolationDrops }

theorem SameButSent.refl (c : ServerClient) : SameButSent c c := rfl

/-- Delivery seals and counts. -/
structure Delivered (s s' : Server n) : Prop where
  eq : s' = { s with clients := s'.clients, isolationDrops := s'.isolationDrops }
  entry : ∀ j, SameButSent (s.clients j) (s'.clients j)

theorem Delivered.refl (s : Server n) : Delivered s s := ⟨rfl, fun _ => .refl _⟩

theorem Delivered.of_setClient {s : Server n} {i : Fin n} {c : ServerClient}
    (hc : SameButSent (s.clients i) c) (drops : ℕ) :
    Delivered s { s.setClient i c with isolationDrops := drops } := by
  refine ⟨rfl, fun j => ?_⟩
  by_cases hj : j = i
  · subst hj
    exact (Server.setClient_self s j c).symm ▸ hc
  · exact (Server.setClient_of_ne s i c hj).symm ▸ SameButSent.refl _

variable {N}

theorem countSent_sameButSent {c : ServerClient} {x : Session} {plain out : Bytes} {size : ℕ}
    (h : sessionSeal N c.cur plain size = some (out, x)) (accepted : Bool) (len : ℕ) :
    SameButSent c (countSent c x accepted len) := by
  obtain ⟨-, rfl⟩ := sessionSeal_session N h
  unfold countSent
  split <;> rfl

theorem serverForwardPacket_delivered (s : Server n) (env : PacketEnv) (packet : Bytes) (dst : Ip) :
    Delivered s (serverForwardPacket N s env packet dst).1 := by
  unfold serverForwardPacket
  split
  · exact .refl s
  · split
    · exact .refl s
    · rename_i h
      exact .of_setClient (countSent_sameButSent h _ _) s.isolationDrops

theorem dataDeliver_delivered (s : Server n) (env : PacketEnv) (i : Fin n) (w : Which) (plain : Bytes) :
    Delivered s (dataDeliver N s env i w plain).1 := by
  unfold dataDeliver
  dsimp only
  split
  · split
    · exact .refl s
    · rename_i h
      exact .of_setClient (countSent_sameButSent h _ _) s.isolationDrops
  · split
    · exact .refl s
    · split
      · exact .refl s
      · split
        · exact .of_setClient (show SameButSent (s.clients i)
            { s.clients i with isolationDrops := (s.clients i).isolationDrops + 1 } from rfl) _
        · exact serverForwardPacket_delivered s env plain _

theorem dataDeliver_session (s : Server n) (env : PacketEnv) (i : Fin n) (w : Which) (plain : Bytes) :
    (dataDeliver N s env i w plain).2.session = some (i, w) := by
  unfold dataDeliver
  dsimp only
  split
  · split <;> rfl
  · split
    · rfl
    · split
      · rfl
      · split <;> rfl

/-- A DATA packet is dropped, or one session of an active entry opened it. -/
theorem serverHandleData_cases (s : Server n) (env : PacketEnv) (pkt : Bytes) (src : SockAddr)
    (fd : ℤ) :
    serverHandleData N s env pkt src fd = (s, .dropped) ∨
      ∃ i w plain x, dataSession s pkt fd = some (i, w) ∧
        sessionOpen N ((s.clients i).session w) pkt TUN_PACKET_MAX = some (plain, x) ∧
        (serverHandleData N s env pkt src fd).2.session = some (i, w) ∧
        Delivered (dataReceived s i w x src fd plain.length)
          (serverHandleData N s env pkt src fd).1 := by
  unfold serverHandleData
  split
  · exact Or.inl rfl
  · rename_i i w hsession
    split
    · exact Or.inl rfl
    · rename_i plain x hopen
      exact Or.inr ⟨i, w, plain, x, hsession, hopen, dataDeliver_session _ _ _ _ _,
        dataDeliver_delivered _ _ _ _ _⟩

theorem dataSession_some {s : Server n} {pkt : Bytes} {fd : ℤ} {i : Fin n} {w : Which}
    (h : dataSession s pkt fd = some (i, w)) :
    (s.clients i).active = true ∧ ((s.clients i).session w).valid = true := by
  unfold dataSession at h
  split at h
  · cases h
  · split at h
    · rename_i hactive
      split at h
      · cases h
      · rename_i w' hw
        split at h
        · cases h
        · cases h
          refine ⟨hactive, ?_⟩
          unfold sessionOf at hw
          split at hw
          · rename_i hv
            cases hw
            simp only [Bool.and_eq_true] at hv
            exact hv.1
          · split at hw
            · rename_i hv
              cases hw
              simp only [Bool.and_eq_true] at hv
              exact hv.1
            · split at hw
              · rename_i hv
                cases hw
                simp only [Bool.and_eq_true] at hv
                exact hv.1.1
              · cases hw
    · cases h

end

end Camex
