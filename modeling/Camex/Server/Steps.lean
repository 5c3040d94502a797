import Camex.Server.InitCases
import Camex.Server.System

/-!
# What an event does to the entries

* `Retained`, `Promoted`, `Vacant`: an entry that keeps what it is, one that a DATA packet moves to
  its new session, one that nobody has;
* `Changed`: an event other than a handshake does one of these to every entry;
* `serverStep_case`: what each event is;
* `OnInit`: a condition on every handshake;
* `serverMachine_invariant`: the invariant rule for the server.
-/

namespace Camex

open Lib

variable {n : ℕ}

/-- The same session: packets were sent and received on it at most. -/
def Session.Same (x y : Session) : Prop := y = { x with sendN := y.sendN, replay := y.replay }

theorem Session.Same.refl (x : Session) : x.Same x := rfl

theorem Session.Same.trans {x y z : Session} (h : x.Same y) (h' : y.Same z) : x.Same z := by
  unfold Session.Same at *
  rw [h', h]

theorem Session.Same.valid {x y : Session} (h : x.Same y) : y.valid = x.valid := by rw [h]

/-- An entry that stays the client's: its previous session or its offer may have ended. -/
structure Retained (c c' : ServerClient) : Prop where
  active : c'.active = c.active
  registered : c'.registered = c.registered
  autoClient : c'.autoClient = c.autoClient
  clientId : c'.clientId = c.clientId
  pskKey : c'.pskKey = c.pskKey
  hsTs : c'.hsTs = c.hsTs
  tcpFd : c'.tcpFd = c.tcpFd
  ipBe : c'.ipBe = c.ipBe
  pending : c'.pendingIpBe = c.pendingIpBe ∨ c'.pendingIpBe = 0
  cur : c.cur.Same c'.cur
  next : c.next.Same c'.next ∨ c'.next = .wiped
  prev : c.prev.Same c'.prev ∧ c'.prevIpBe = c.prevIpBe ∨ c'.prev = .wiped ∧ c'.prevIpBe = 0

/-- An entry whose client confirmed its new session. -/
structure Promoted (c c' : ServerClient) : Prop where
  active : c'.active = c.active
  registered : c'.registered = c.registered
  autoClient : c'.autoClient = c.autoClient
  clientId : c'.clientId = c.clientId
  pskKey : c'.pskKey = c.pskKey
  hsTs : c'.hsTs = c.hsTs
  tcpFd : c'.tcpFd = c.tcpFd
  confirmed : c.next.valid = true
  ipBe : c'.ipBe = if c.pendingIpBe ≠ 0 then c.pendingIpBe else c.ipBe
  pending : c'.pendingIpBe = 0
  cur : c.next.Same c'.cur
  next : c'.next = .wiped
  prev : c'.prev = c.cur
  prevIpBe : c'.prevIpBe = c.ipBe

/-- A slot without a client; a connection may have it before its handshake. -/
structure Vacant (c : ServerClient) : Prop where
  registered : c.registered = false
  autoClient : c.autoClient = false
  clientId : c.clientId = []
  ipBe : c.ipBe = 0
  pending : c.pendingIpBe = 0
  prevIpBe : c.prevIpBe = 0
  cur : c.cur = .wiped
  next : c.next = .wiped
  prev : c.prev = .wiped

/-- What an event that brings no packet does to an entry. -/
inductive KeptOrVacated (c c' : ServerClient) : Prop
  | retained (h : Retained c c')
  | vacated (h : Vacant c')

/-- What an event other than a handshake does to an entry. -/
inductive Changed (c c' : ServerClient) : Prop
  | retained (h : Retained c c')
  | promoted (h : Promoted c c')
  | vacated (h : Vacant c')

theorem Retained.refl (c : ServerClient) : Retained c c :=
  ⟨rfl, rfl, rfl, rfl, rfl, rfl, rfl, rfl, Or.inl rfl, .refl _, Or.inl (.refl _),
    Or.inl ⟨.refl _, rfl⟩⟩

theorem Changed.refl (c : ServerClient) : Changed c c := .retained (.refl c)

theorem KeptOrVacated.refl (c : ServerClient) : KeptOrVacated c c := .retained (.refl c)

theorem KeptOrVacated.changed {c c' : ServerClient} (h : KeptOrVacated c c') : Changed c c' := by
  cases h with
  | retained h => exact .retained h
  | vacated h => exact .vacated h

theorem vacant_wiped : Vacant .wiped := ⟨rfl, rfl, rfl, rfl, rfl, rfl, rfl, rfl, rfl⟩

theorem vacant_taken : Vacant .taken := ⟨rfl, rfl, rfl, rfl, rfl, rfl, rfl, rfl, rfl⟩

theorem vacant_cleared : Vacant .cleared := ⟨rfl, rfl, rfl, rfl, rfl, rfl, rfl, rfl, rfl⟩

theorem vacant_accepted (fd : ℤ) (peer : SockAddr) (now : Time) : Vacant (acceptedEntry fd peer now) :=
  ⟨rfl, rfl, rfl, rfl, rfl, rfl, rfl, rfl, rfl⟩

theorem Retained.of_core {c c' : ServerClient} (h : c'.core = c.core) : Retained c c' := by
  have hcur : c'.cur = c.cur := (congrArg ServerClient.cur h :)
  have hnext : c'.next = c.next := (congrArg ServerClient.next h :)
  have hprev : c'.prev = c.prev := (congrArg ServerClient.prev h :)
  exact ⟨(congrArg ServerClient.active h :), (congrArg ServerClient.registered h :),
    (congrArg ServerClient.autoClient h :), (congrArg ServerClient.clientId h :),
    (congrArg ServerClient.pskKey h :), (congrArg ServerClient.hsTs h :),
    (congrArg ServerClient.tcpFd h :), (congrArg ServerClient.ipBe h :),
    Or.inl (congrArg ServerClient.pendingIpBe h :), by rw [hcur]; exact .refl _,
    Or.inl (by rw [hnext]; exact .refl _),
    Or.inl ⟨by rw [hprev]; exact .refl _, (congrArg ServerClient.prevIpBe h :)⟩⟩

theorem SameButSent.retained {c c' : ServerClient} (h : SameButSent c c') : Retained c c' := by
  rw [h]
  exact ⟨rfl, rfl, rfl, rfl, rfl, rfl, rfl, rfl, Or.inl rfl, rfl, Or.inl (.refl _),
    Or.inl ⟨.refl _, rfl⟩⟩

/-! ## Expiry, revalidation, connections -/

theorem expireSessions_retained (c : ServerClient) (now : Time) : Retained c (expireSessions c now) := by
  unfold expireSessions
  by_cases hp : c.prev.valid = true ∧ c.prevUntil < now
  · rw [if_pos hp]
    dsimp only
    split
    · exact ⟨rfl, rfl, rfl, rfl, rfl, rfl, rfl, rfl, Or.inr rfl, .refl _, Or.inr rfl, Or.inr ⟨rfl, rfl⟩⟩
    · exact ⟨rfl, rfl, rfl, rfl, rfl, rfl, rfl, rfl, Or.inl rfl, .refl _, Or.inl (.refl _),
        Or.inr ⟨rfl, rfl⟩⟩
  · rw [if_neg hp]
    dsimp only
    split
    · exact ⟨rfl, rfl, rfl, rfl, rfl, rfl, rfl, rfl, Or.inr rfl, .refl _, Or.inr rfl,
        Or.inl ⟨.refl _, rfl⟩⟩
    · exact .refl c

theorem Aged.keptOrVacated {now : Time} {c c' : ServerClient} (h : Aged now c c') :
    KeptOrVacated c c' := by
  cases h with
  | inactive _ => exact .refl c
  | kept _ => exact .retained (expireSessions_retained c now)
  | ended _ => exact .vacated vacant_wiped

theorem Revalidated.keptOrVacated {c c' : ServerClient} (h : Revalidated c c') :
    KeptOrVacated c c' := by
  cases h with
  | kept => exact .refl c
  | withdrawn _ =>
    exact .retained ⟨rfl, rfl, rfl, rfl, rfl, rfl, rfl, rfl, Or.inr rfl, .refl _, Or.inr rfl,
      Or.inl ⟨.refl _, rfl⟩⟩
  | ended _ => exact .vacated vacant_wiped

theorem serverAccept_keptOrVacated (s : Server n) (fd : ℤ) (peer : SockAddr) (stream : Bytes)
    (nonblocking : Bool) (j : Fin n) :
    KeptOrVacated (s.clients j) ((serverAccept s fd peer stream nonblocking).clients j) := by
  rcases serverAccept_entry s fd peer stream nonblocking j with h | ⟨-, h | h⟩
  · rw [h]
    exact .refl _
  · rw [h]
    exact .vacated vacant_cleared
  · rw [h]
    exact .vacated (vacant_accepted _ _ _)

/-- Reading from a connection changes what is kept of its progress. -/
structure Reread (s s' : Server n) : Prop where
  eq : s' = { s with clients := s'.clients, sockets := s'.sockets }
  entry : ∀ j, s'.clients j = { s.clients j with recvState := (s'.clients j).recvState }

namespace Reread

variable {s s' : Server n}

theorem refl (s : Server n) : Reread s s := ⟨rfl, fun _ => rfl⟩

theorem conf (h : Reread s s') : s'.conf = s.conf := (congrArg Server.conf h.eq :)
theorem now (h : Reread s s') : s'.now = s.now := (congrArg Server.now h.eq :)
theorem leases (h : Reread s s') : s'.leases = s.leases := (congrArg Server.leases h.eq :)

theorem retained (h : Reread s s') (j : Fin n) : Retained (s.clients j) (s'.clients j) := by
  rw [h.entry j]
  exact ⟨rfl, rfl, rfl, rfl, rfl, rfl, rfl, rfl, Or.inl rfl, .refl _, Or.inl (.refl _),
    Or.inl ⟨.refl _, rfl⟩⟩

end Reread

/-- A read gives a frame, or leaves the entries, or ends the entry of the connection. -/
theorem drainTcpClientRead_cases (s : Server n) (fd : ℤ) (buffer : Buffer) (reads : List Read)
    (grow : Grow) :
    Reread s (drainTcpClientRead s fd buffer reads grow).1 ∨
      (drainTcpClientRead s fd buffer reads grow).2 = none ∧
        ∃ i s₁, slotOfFd s.clients fd = some i ∧ Reread s s₁ ∧
          (drainTcpClientRead s fd buffer reads grow).1 = serverEndClient grow i s₁ := by
  unfold drainTcpClientRead
  split
  · exact Or.inl ⟨rfl, fun _ => rfl⟩
  · rename_i i hi
    split
    · exact Or.inr ⟨rfl, i, s, hi, .refl s, rfl⟩
    · rename_i unread _
      generalize netTcpRecvFrame RECV_MAX buffer (s.clients i).recvState unread reads = q
      obtain ⟨rc, st, rest⟩ := q
      have hreread : Reread s { s.setClient i { s.clients i with recvState := st } with
          sockets := setUnread s.sockets fd rest } := by
        refine ⟨rfl, fun j => ?_⟩
        by_cases hj : j = i
        · subst hj
          rw [show ({ s.setClient j { s.clients j with recvState := st } with
            sockets := setUnread s.sockets fd rest } : Server n).clients j =
              { s.clients j with recvState := st } from Server.setClient_self ..]
        · rw [show ({ s.setClient i { s.clients i with recvState := st } with
            sockets := setUnread s.sockets fd rest } : Server n).clients j = s.clients j
              from Server.setClient_of_ne _ _ _ hj]
      cases rc with
      | frame packet => exact Or.inl hreread
      | again => exact Or.inl hreread
      | error => exact Or.inr ⟨rfl, i, _, hi, hreread, rfl⟩

theorem drainTcpClientRead_keptOrVacated (s : Server n) (fd : ℤ) (buffer : Buffer) (reads : List Read)
    (grow : Grow) (j : Fin n) :
    KeptOrVacated (s.clients j) ((drainTcpClientRead s fd buffer reads grow).1.clients j) := by
  rcases drainTcpClientRead_cases s fd buffer reads grow with h | ⟨-, i, s₁, -, h, heq⟩
  · exact .retained (h.retained j)
  · rw [heq]
    by_cases hj : j = i
    · subst hj
      rw [serverEndClient_self]
      exact .vacated vacant_wiped
    · rw [serverEndClient_of_ne _ _ _ hj]
      exact .retained (h.retained j)

/-! ## DATA packets -/

variable {Hs : Type} {N : Noise Hs}

/-- A packet on a session, before any is sealed. -/
theorem dataReceive_changed {c : ServerClient} {w : Which} {x : Session} {pkt plain : Bytes}
    (hopen : sessionOpen N (c.session w) pkt TUN_PACKET_MAX = some (plain, x)) (src : SockAddr)
    (fd : ℤ) (now : Time) (len : ℕ) :
    w ≠ .next ∧ Retained c (dataReceive c w x src fd now len) ∨
      w = .next ∧ Promoted c (dataReceive c w x src fd now len) := by
  obtain ⟨hvalid, hx⟩ := sessionOpen_session N hopen
  have hsame : (c.session w).Same x := by rw [hx]; rfl
  unfold dataReceive
  cases w with
  | cur =>
    left
    refine ⟨by decide, ?_⟩
    dsimp only [ServerClient.setSession]
    rw [if_neg (by decide : ¬ Which.cur = Which.next)]
    split <;> exact ⟨rfl, rfl, rfl, rfl, rfl, rfl, rfl, rfl, Or.inl rfl, hsame, Or.inl (.refl _),
      Or.inl ⟨.refl _, rfl⟩⟩
  | next =>
    right
    dsimp only [ServerClient.setSession]
    rw [if_pos rfl]
    refine ⟨rfl, ?_⟩
    split <;> exact ⟨rfl, rfl, rfl, rfl, rfl, rfl, rfl, hvalid, rfl, rfl, hsame, rfl, rfl, rfl⟩
  | prev =>
    left
    refine ⟨by decide, ?_⟩
    dsimp only [ServerClient.setSession]
    rw [if_neg (by decide : ¬ Which.prev = Which.next)]
    split <;> exact ⟨rfl, rfl, rfl, rfl, rfl, rfl, rfl, rfl, Or.inl rfl, .refl _, Or.inl (.refl _),
      Or.inl ⟨hsame, rfl⟩⟩

theorem Retained.sent {c c' c'' : ServerClient} (h : Retained c c') (h' : SameButSent c' c'') :
    Retained c c'' := by
  have hcur : c'.cur.Same c''.cur := by rw [h']; rfl
  rw [h'] at hcur ⊢
  exact ⟨h.active, h.registered, h.autoClient, h.clientId, h.pskKey, h.hsTs, h.tcpFd, h.ipBe,
    h.pending, h.cur.trans hcur, h.next, h.prev⟩

theorem Promoted.sent {c c' c'' : ServerClient} (h : Promoted c c') (h' : SameButSent c' c'') :
    Promoted c c'' := by
  have hcur : c'.cur.Same c''.cur := by rw [h']; rfl
  rw [h'] at hcur ⊢
  exact ⟨h.active, h.registered, h.autoClient, h.clientId, h.pskKey, h.hsTs, h.tcpFd, h.confirmed,
    h.ipBe, h.pending, h.cur.trans hcur, h.next, h.prev, h.prevIpBe⟩

/-- A DATA packet leaves every entry to its client; it promotes only the entry whose `next` session
opened it. -/
theorem serverHandleData_entry (s : Server n) (env : PacketEnv) (pkt : Bytes) (src : SockAddr)
    (fd : ℤ) (j : Fin n) :
    Retained (s.clients j) ((serverHandleData N s env pkt src fd).1.clients j) ∧
        (serverHandleData N s env pkt src fd).2.session ≠ some (j, .next) ∨
      Promoted (s.clients j) ((serverHandleData N s env pkt src fd).1.clients j) ∧
        (serverHandleData N s env pkt src fd).2.session = some (j, .next) ∧
        dataSession s pkt fd = some (j, .next) ∧
          (sessionOpen N (s.clients j).next pkt TUN_PACKET_MAX).isSome = true := by
  rcases serverHandleData_cases (N := N) s env pkt src fd with
    h | ⟨i, w, plain, x, hsession, hopen, ho, hd⟩
  · rw [h]
    exact Or.inl ⟨.refl _, nofun⟩
  · have hsent := hd.entry j
    by_cases hj : j = i
    · subst hj
      rw [show (dataReceived s j w x src fd plain.length).clients j =
        dataReceive (s.clients j) w x src fd s.now plain.length from Server.setClient_self ..] at hsent
      rcases dataReceive_changed hopen src fd s.now plain.length with ⟨hw, h⟩ | ⟨rfl, h⟩
      · refine Or.inl ⟨h.sent hsent, fun h => hw ?_⟩
        rw [ho, Option.some.injEq, Prod.mk.injEq] at h
        exact h.2
      · refine Or.inr ⟨h.sent hsent, ho, hsession, ?_⟩
        rw [show (s.clients j).next = (s.clients j).session .next from rfl, hopen]
        rfl
    · rw [show (dataReceived s i w x src fd plain.length).clients j = s.clients j
        from Server.setClient_of_ne _ _ _ hj] at hsent
      refine Or.inl ⟨(Retained.refl _).sent hsent, fun h => hj ?_⟩
      rw [ho, Option.some.injEq, Prod.mk.injEq] at h
      exact h.1.symm

theorem serverHandleData_changed (s : Server n) (env : PacketEnv) (pkt : Bytes) (src : SockAddr)
    (fd : ℤ) (j : Fin n) :
    Changed (s.clients j) ((serverHandleData N s env pkt src fd).1.clients j) :=
  (serverHandleData_entry s env pkt src fd j).elim (fun h => .retained h.1) fun h => .promoted h.1

theorem serverHandleData_frame (s : Server n) (env : PacketEnv) (pkt : Bytes) (src : SockAddr)
    (fd : ℤ) :
    (serverHandleData N s env pkt src fd).1.conf = s.conf ∧
      (serverHandleData N s env pkt src fd).1.now = s.now := by
  rcases serverHandleData_cases (N := N) s env pkt src fd with
    h | ⟨i, w, plain, x, -, -, -, hd⟩
  · rw [h]
    exact ⟨rfl, rfl⟩
  · exact ⟨(congrArg Server.conf hd.eq :), (congrArg Server.now hd.eq :)⟩

theorem handleTunPacket_delivered (s : Server n) (env : PacketEnv) (packet : Bytes) :
    Delivered s (handleTunPacket N s env packet) := by
  unfold handleTunPacket
  split
  · exact .refl s
  · exact serverForwardPacket_delivered s env packet _

/-! ## Events -/

variable (N)

/-- An event that is neither a handshake nor a reload. -/
structure Quiet (s s' : Server n) : Prop where
  conf : s'.conf = s.conf
  entry : ∀ j, Changed (s.clients j) (s'.clients j)

/-- One that brings no packet. -/
structure NoPacket (s s' : Server n) : Prop where
  conf : s'.conf = s.conf
  entry : ∀ j, KeptOrVacated (s.clients j) (s'.clients j)

theorem NoPacket.quiet {s s' : Server n} (h : NoPacket s s') : Quiet s s' :=
  ⟨h.conf, fun j => (h.entry j).changed⟩

/-- The state a packet is handled in is the one before but for the progress of its connection. -/
theorem eventCall_reread {s : Server n} {e : Event n} {c : Call n} (h : eventCall s e = some c) :
    Reread s c.server := by
  unfold eventCall at h
  split at h
  · cases h
    exact .refl s
  · rename_i fd buffer reads env
    have hread := drainTcpClientRead_cases s fd buffer reads env.grow
    split at h
    · rename_i s₁ packet src hdrain
      cases h
      rw [hdrain] at hread
      exact hread.resolve_right fun hnone => by cases hnone.1
    · cases h
  · cases h

variable {N}

theorem serverExpireClients_conf (grow : Fin n → Grow) (s : Server n) :
    (serverExpireClients grow s).conf = s.conf := by
  unfold serverExpireClients
  split
  · rfl
  · exact forSlots_conf (serverExpireClient_slotWise grow) _

theorem quietStep_noPacket {s : Server n} {e : Event n}
    (hreload : ∀ file mem grow, e ≠ .reload file mem grow) : NoPacket s (quietStep N s e) := by
  cases e with
  | tick now => exact ⟨rfl, fun j => .refl _⟩
  | udp packet src env => exact ⟨rfl, fun j => .refl _⟩
  | accept fd peer stream nonblocking =>
    exact ⟨(serverAccept_frame ..).2.1, serverAccept_keptOrVacated s fd peer stream nonblocking⟩
  | readable fd buffer reads env =>
    refine ⟨?_, drainTcpClientRead_keptOrVacated s fd buffer reads env.grow⟩
    show (drainTcpClientRead s fd buffer reads env.grow).1.conf = s.conf
    rcases drainTcpClientRead_cases s fd buffer reads env.grow with h | ⟨-, i, s₁, -, h, heq⟩
    · exact h.conf
    · rw [heq, serverEndClient_conf, h.conf]
  | tun packet env =>
    have h := handleTunPacket_delivered (N := N) s env packet
    exact ⟨(congrArg Server.conf h.eq :), fun j => .retained (h.entry j).retained⟩
  | expire grow =>
    refine ⟨serverExpireClients_conf grow s, fun j => ?_⟩
    rcases serverExpireClients_entry grow s j with h | h
    · show KeptOrVacated _ ((serverExpireClients grow s).clients j)
      rw [h]
      exact .refl _
    · exact h.keptOrVacated
  | reload file mem grow => exact absurd rfl (hreload file mem grow)

theorem Changed.of_recvState {c c' : ServerClient} {st : TcpRecvState}
    (h : Changed { c with recvState := st } c') : Changed c c' := by
  cases h with
  | retained h =>
    exact .retained ⟨h.active, h.registered, h.autoClient, h.clientId, h.pskKey, h.hsTs, h.tcpFd,
      h.ipBe, h.pending, h.cur, h.next, h.prev⟩
  | promoted h =>
    exact .promoted ⟨h.active, h.registered, h.autoClient, h.clientId, h.pskKey, h.hsTs, h.tcpFd,
      h.confirmed, h.ipBe, h.pending, h.cur, h.next, h.prev, h.prevIpBe⟩
  | vacated h => exact .vacated h

variable (N)

/-- What an event does: it is a handshake, or changes every entry as other events do. -/
inductive StepCase (s : Server n) (e : Event n) : Server n × Option (PacketOutcome n) → Prop
  | init (c : Call n) (hcall : eventCall s e = some c) (hread : Reread s c.server)
      (htype : v2PacketType c.packet = V2_TYPE_INIT) :
      StepCase s e ((serverHandleInit N c.server c.env c.packet c.src c.fd).1,
        some (.init (serverHandleInit N c.server c.env c.packet c.src c.fd).2))
  | data (c : Call n) (hcall : eventCall s e = some c) (hread : Reread s c.server)
      (htype : v2PacketType c.packet = V2_TYPE_DATA) :
      StepCase s e ((serverHandleData N c.server c.env c.packet c.src c.fd).1,
        some (.data (serverHandleData N c.server c.env c.packet c.src c.fd).2))
  | ignored (c : Call n) (hcall : eventCall s e = some c) (hread : Reread s c.server) :
      StepCase s e (c.server, some .ignored)
  | quiet (hq : NoPacket s (quietStep N s e)) : StepCase s e (quietStep N s e, none)
  | reload (file : Option ServerDb) (mem : KeyMemory) (grow : Fin n → Grow)
      (he : e = .reload file mem grow) : StepCase s e (serverReload N s file mem grow, none)

theorem serverStep_case (s : Server n) (e : Event n) : StepCase N s e (serverStep N s e) := by
  unfold serverStep
  split
  · rename_i c hcall
    have hread := eventCall_reread hcall
    unfold serverHandlePacket
    dsimp only
    split
    · exact .init c hcall hread ‹_›
    · split
      · exact .data c hcall hread ‹_›
      · exact .ignored c hcall hread
  · by_cases hr : ∃ file mem grow, e = .reload file mem grow
    · obtain ⟨file, mem, grow, rfl⟩ := hr
      exact .reload file mem grow rfl
    · exact .quiet (quietStep_noPacket fun file mem grow h => hr ⟨file, mem, grow, h⟩)

variable {N}

/-- An event that brings no INIT changes every entry as `Changed` says. -/
theorem StepCase.changed {s : Server n} {e : Event n} {x : Server n × Option (PacketOutcome n)}
    (h : StepCase N s e x) (hno : ∀ o, x.2 ≠ some (.init o)) (i : Fin n) :
    Changed (s.clients i) (x.1.clients i) := by
  cases h with
  | init c _ _ _ => exact absurd rfl (hno _)
  | data c _ hread _ =>
    have := serverHandleData_changed (N := N) c.server c.env c.packet c.src c.fd i
    rw [hread.entry i] at this
    exact this.of_recvState
  | ignored c _ hread => exact .retained (hread.retained i)
  | quiet hq => exact (hq.entry i).changed
  | reload file mem grow _ =>
    rcases serverReload_cases (N := N) s file mem grow with h | ⟨db, conf, -, -, hclients, -⟩
    · dsimp only
      rw [h]
      exact .refl _
    · dsimp only
      rw [hclients]
      exact (serverRevalidate_entry grow { s with conf := conf } i).keptOrVacated.changed

/-- The server's key pair stays: the responder starts a handshake from the same state. -/
theorem StepCase.initBase {s : Server n} {e : Event n} {x : Server n × Option (PacketOutcome n)}
    (h : StepCase N s e x) : initBase N x.1.conf.ctx = initBase N s.conf.ctx := by
  cases h with
  | init c _ hread _ =>
    dsimp only
    rw [(serverHandleInit_cases N c.server c.env c.packet c.src c.fd).conf, hread.conf]
  | data c _ hread _ =>
    dsimp only
    rw [(serverHandleData_frame c.server c.env c.packet c.src c.fd).1, hread.conf]
  | ignored c _ hread =>
    dsimp only
    rw [hread.conf]
  | quiet hq =>
    dsimp only
    rw [hq.conf]
  | reload file mem grow _ =>
    rcases serverReload_cases (N := N) s file mem grow with h | ⟨db, conf, -, hconf, -, h⟩
    · dsimp only
      rw [h]
    · dsimp only
      rw [h]
      have := reloadConf_initBase hconf
      exact this

variable (N)

/-- A condition on every handshake: on the state it starts in and on what its INIT carries. -/
def OnInit (C : Server n → Register → SockAddr → ℤ → Prop) (s : Server n) (e : Event n) : Prop :=
  ∀ c, eventCall s e = some c → v2PacketType c.packet = V2_TYPE_INIT →
    ∀ r, Carries N c.server.conf c.packet r → C c.server r c.src c.fd

instance {C : Server n → Register → SockAddr → ℤ → Prop} [∀ s r src fd, Decidable (C s r src fd)]
    (s : Server n) (e : Event n) : Decidable (OnInit N C s e) :=
  decidable_of_iff (∀ c ∈ eventCall s e, v2PacketType c.packet = V2_TYPE_INIT →
    ∀ r ∈ carried N c.server.conf c.packet, C c.server r c.src c.fd) <| by
    simp only [OnInit, mem_carried]
    rfl

/-- A state a packet is handled in: a reachable one, but for the progress of a connection. -/
def Handling (s : Server n) : Prop := ∃ s₀, Machine.Reachable (serverMachine N n) s₀ ∧ Reread s₀ s

variable {N}

theorem serverMachine_next {s t : Server n} {e : Event n} (h : (serverMachine N n).next s e = some t) :
    t = (serverStep N s e).1 := by
  unfold serverMachine at h
  dsimp only at h
  split at h
  · exact (Option.some.inj h).symm
  · cases h

variable (N)

/-- **The invariant rule for the server**: what the start states have and quiet events, reloads and
handshakes under the condition preserve. -/
theorem serverMachine_invariant {C : Server n → Register → SockAddr → ℤ → Prop} {I : Server n → Prop}
    (hstart : ∀ s, Started N s → I s)
    (hquiet : ∀ s s' : Server n, I s → Quiet s s' → I s')
    (hreload : ∀ s file mem grow, Machine.Reachable (serverMachine N n) s → I s →
      I (serverReload N s file mem grow))
    (hinit : ∀ s env pkt src fd s' o, Handling N s → I s →
      (∀ r, Carries N s.conf pkt r → C s r src fd) → InitRun N s env pkt src fd s' o → I s')
    {s : Server n} (h : Machine.ReachableUnder (serverMachine N n) (OnInit N C) s) : I s := by
  suffices Machine.Reachable (serverMachine N n) s ∧ I s from this.2
  refine h.invariant (I := fun s => Machine.Reachable (serverMachine N n) s ∧ I s)
    (fun s hs => ⟨⟨s, [], hs, .nil s⟩, hstart s hs⟩) ?_
  rintro s e t ⟨hreach, hs⟩ hC hstep
  refine ⟨hreach.step trivial hstep, ?_⟩
  rw [serverMachine_next hstep]
  have hcase := serverStep_case N s e
  generalize serverStep N s e = x at hcase
  have hread : ∀ t : Server n, Reread s t → I t := fun t ht =>
    hquiet s t hs ⟨ht.conf, fun j => .retained (ht.retained j)⟩
  cases hcase with
  | init c hcall hr htype =>
    exact hinit _ _ _ _ _ _ _ ⟨s, hreach, hr⟩ (hread _ hr) (hC c hcall htype)
      (serverHandleInit_cases N ..)
  | data c hcall hr _ =>
    exact hquiet _ _ (hread _ hr) ⟨(serverHandleData_frame ..).1, serverHandleData_changed _ _ _ _ _⟩
  | ignored c _ hr => exact hread _ hr
  | quiet hq => exact hquiet _ _ hs hq.quiet
  | reload file mem grow _ => exact hreload s file mem grow hreach hs

end Camex
