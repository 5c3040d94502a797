import Camex.Safety.SessionIndex
import Camex.SessionLog

/-!
# What the server does with its sessions

`serverNotes` is what one event makes the server do with sessions: an accepted handshake makes one, a DATA packet
that opens is taken on one, an answer to a keepalive and a packet forwarded are sealed on one.

* `Server.held`: the valid sessions of the table;
* `serverStep_notes`: an event does with them what its notes say, and nothing else.
-/

namespace Camex

open Lib

variable {n : ℕ} {Hs : Type} (N : Noise Hs)

/-- A note with the slot of its session. -/
inductive ServerNote (n : ℕ)
  /-- `first`: the entry had no current session; `key`: the PSK that opened the INIT. -/
  | answered (slot : Fin n) (first : Bool) (key : Key) (init : Bytes) (x : SessionId) (resp : Bytes)
  | sealed (slot : Fin n) (x : SessionId) (count : ℕ) (plain packet : Bytes)
  | taken (slot : Fin n) (w : Which) (x : SessionId) (packet plain : Bytes)
  deriving DecidableEq

def ServerNote.note : ServerNote n → SessionNote
  | .answered _ _ _ _ x _ => .opened x
  | .sealed _ x count plain packet => .sealed x count plain packet
  | .taken _ _ x packet plain => .taken x packet plain

/-! ## The notes of an event -/

/-- Has the entry of a handshake no current session yet? -/
def firstSession (s : Server n) (slot : Fin n) (fresh : Bool) : Bool := fresh || !(s.clients slot).cur.valid

/-- `server_handle_init`, which ends in `s'`. -/
def initNotes (s s' : Server n) (pkt : Bytes) : InitOutcome n → List (ServerNote n)
  | .accepted slot fresh r _ packet =>
    let first := firstSession s slot fresh
    [.answered slot first r.key pkt ((s'.clients slot).session (if first then .cur else .next)).ident packet]
  | _ => []

/-- `session_seal` on the current session of an entry. -/
def sealNotes (slot : Fin n) (x : Session) (plain : Bytes) (size : ℕ) : List (ServerNote n) :=
  match sessionSeal N x plain size with
  | none => []
  | some (packet, _) => [.sealed slot x.ident x.sendN plain packet]

/-- `server_forward_packet`. -/
def forwardNotes (s : Server n) (packet : Bytes) (dst : Ip) : List (ServerNote n) :=
  match serverFindByIp s.clients dst with
  | none => []
  | some j => sealNotes N j (s.clients j).cur packet (TUN_PACKET_MAX + V2_OVERHEAD)

/-- `server_handle_data` once the packet is authenticated. -/
def deliverNotes (s : Server n) (i : Fin n) (w : Which) (plain : Bytes) : List (ServerNote n) :=
  let c := s.clients i
  if plain = [] then sealNotes N i c.cur [] V2_OVERHEAD
  else
    match ipv4ParseEndpoints plain with
    | none => []
    | some (srcIp, dstIp) =>
      if ownIp c w = 0 ∨ srcIp ≠ ownIp c w then []
      else if serverClientIsolation s.conf ∧ (serverFindByIp s.clients dstIp).any (· ≠ i) then []
      else forwardNotes N s plain dstIp

/-- `server_handle_data`. -/
def dataNotes (s : Server n) (pkt : Bytes) (src : SockAddr) (fd : ℤ) : List (ServerNote n) :=
  match dataSession s pkt fd with
  | none => []
  | some (i, w) =>
    match sessionOpen N ((s.clients i).session w) pkt TUN_PACKET_MAX with
    | none => []
    | some (plain, x) =>
      .taken i w ((s.clients i).session w).ident pkt plain ::
        deliverNotes N (dataReceived s i w x src fd plain.length) i w plain

/-- `server_handle_packet`. -/
def packetNotes (c : Call n) : List (ServerNote n) :=
  let type := v2PacketType c.packet
  if type = V2_TYPE_INIT then
    let (s', o) := serverHandleInit N c.server c.env c.packet c.src c.fd
    initNotes c.server s' c.packet o
  else if type = V2_TYPE_DATA then dataNotes N c.server c.packet c.src c.fd
  else []

/-- `handle_tun_packet`. -/
def tunNotes (s : Server n) (packet : Bytes) : List (ServerNote n) :=
  match ipv4ParseEndpoints packet with
  | none => []
  | some (_, dst) => forwardNotes N s packet dst

def serverNotes (s : Server n) (e : Event n) : List (ServerNote n) :=
  match eventCall s e with
  | some c => packetNotes N c
  | none =>
    match e with
    | .tun packet _ => tunNotes N s packet
    | _ => []

abbrev serverLogged (n : ℕ) : Machine (Server n × List (ServerNote n)) (Event n) :=
  (serverMachine N n).logged (serverNotes N)

/-! ## The sessions of the table -/

def ServerClient.held (c : ServerClient) : Set Session := { x | x.valid = true ∧ ∃ w, x = c.session w }

def Server.held (s : Server n) : Set Session := { x | ∃ i, x ∈ (s.clients i).held }

theorem Server.held_of_session {s : Server n} {i : Fin n} {w : Which} (h : ((s.clients i).session w).valid = true) :
    (s.clients i).session w ∈ s.held := ⟨i, h, w, rfl⟩

/-- Entry by entry: no session comes or changes. -/
theorem Server.held_subset {s s' : Server n} (h : ∀ i, ∀ x ∈ (s'.clients i).held, x ∈ (s.clients i).held) :
    ∀ x ∈ s'.held, x ∈ s.held := fun x ⟨i, hx⟩ => ⟨i, h i x hx⟩

theorem Server.held_replaced {s s' : Server n} (hs : ∀ i, Indexed i (s.clients i)) {i : Fin n} {w : Which} {x' : Session}
    (hvalid : ((s.clients i).session w).valid = true) (hother : ∀ j, j ≠ i → (s'.clients j).held = (s.clients j).held)
    (hself : ∀ v, ((s'.clients i).session v).valid = true → (s'.clients i).session v = x' ∨
      ∃ u, u ≠ w ∧ (s'.clients i).session v = (s.clients i).session u) :
    ∀ y ∈ s'.held, y = x' ∨ y ∈ s.held ∧ y.ident ≠ ((s.clients i).session w).ident := by
  rintro y ⟨j, hy⟩
  by_cases hj : j = i
  · subst hj
    obtain ⟨hv, v, rfl⟩ := hy
    rcases hself v hv with h | ⟨u, hu, h⟩
    · exact Or.inl h
    · rw [h] at hv ⊢
      refine Or.inr ⟨held_of_session hv, fun heq => hu ?_⟩
      exact (hs _).distinct u w hv hvalid (congrArg SessionId.localIndex heq)
  · rw [hother j hj] at hy
    obtain ⟨hv, v, rfl⟩ := hy
    refine Or.inr ⟨held_of_session hv, fun heq => hj ?_⟩
    have hnames := (hs j).names v hv
    rw [show ((s.clients j).session v).localIndex = _ from congrArg SessionId.localIndex heq] at hnames
    exact hnames.eq ((hs i).names w hvalid)

variable {N}

theorem Vacant.held {c : ServerClient} (h : Vacant c) : ∀ x, x ∉ c.held := by
  rintro x ⟨hv, w, rfl⟩
  cases w with
  | cur => rw [show c.session .cur = c.cur from rfl, h.cur] at hv; cases hv
  | next => rw [show c.session .next = c.next from rfl, h.next] at hv; cases hv
  | prev => rw [show c.session .prev = c.prev from rfl, h.prev] at hv; cases hv

theorem started_held {s : Server n} (h : Started N s) : ∀ x, x ∉ s.held := by
  obtain ⟨cfg, db, ctx, mem, ks, now, leases, -, rfl⟩ := h
  rintro x ⟨i, hx⟩
  exact vacant_wiped.held x hx

theorem held_of_sessions {c c' : ServerClient} (h : ∀ w, c'.session w = c.session w) : c'.held = c.held := by
  ext x
  simp only [ServerClient.held, h]

/-! ## Events without a note -/

theorem Reread.session {s s' : Server n} (h : Reread s s') (i : Fin n) (w : Which) :
    (s'.clients i).session w = (s.clients i).session w := by
  rw [h.entry i]
  cases w <;> rfl

theorem Reread.held {s s' : Server n} (h : Reread s s') : s'.held = s.held := by
  ext x
  simp only [Server.held, held_of_sessions (h.session _)]

theorem held_expireSessions (c : ServerClient) (now : Time) : ∀ x ∈ (expireSessions c now).held, x ∈ c.held := by
  have hprev : ∀ x ∈ ({ c with prev := .wiped, prevIpBe := 0 } : ServerClient).held, x ∈ c.held := by
    rintro x ⟨hv, w, rfl⟩
    cases w with
    | cur => exact ⟨hv, .cur, rfl⟩
    | next => exact ⟨hv, .next, rfl⟩
    | prev => cases hv
  have hnext : ∀ c : ServerClient, ∀ x ∈ ({ c with next := .wiped, pendingIpBe := 0 } : ServerClient).held,
      x ∈ c.held := by
    rintro c x ⟨hv, w, rfl⟩
    cases w with
    | cur => exact ⟨hv, .cur, rfl⟩
    | next => cases hv
    | prev => exact ⟨hv, .prev, rfl⟩
  unfold expireSessions
  dsimp only
  split <;> split
  · exact fun x hx => hprev x (hnext _ x hx)
  · exact hprev
  · exact hnext c
  · exact fun x hx => hx

theorem Aged.held {now : Time} {c c' : ServerClient} (h : Aged now c c') : ∀ x ∈ c'.held, x ∈ c.held := by
  cases h with
  | inactive _ => exact fun x hx => hx
  | kept _ => exact held_expireSessions c now
  | ended _ => exact fun x hx => absurd hx (vacant_wiped.held x)

theorem Revalidated.held {c c' : ServerClient} (h : Revalidated c c') : ∀ x ∈ c'.held, x ∈ c.held := by
  cases h with
  | kept => exact fun x hx => hx
  | withdrawn _ =>
    rintro x ⟨hv, w, rfl⟩
    cases w with
    | cur => exact ⟨hv, .cur, rfl⟩
    | next => cases hv
    | prev => exact ⟨hv, .prev, rfl⟩
  | ended _ => exact fun x hx => absurd hx (vacant_wiped.held x)

theorem serverAccept_held (s : Server n) (fd : ℤ) (peer : SockAddr) (stream : Bytes) (nonblocking : Bool) :
    ∀ x ∈ (serverAccept s fd peer stream nonblocking).held, x ∈ s.held := by
  refine Server.held_subset fun i x hx => ?_
  rcases serverAccept_entry s fd peer stream nonblocking i with h | ⟨-, h | h⟩ <;> rw [h] at hx
  · exact hx
  · exact absurd hx (vacant_cleared.held x)
  · exact absurd hx ((vacant_accepted _ _ _).held x)

theorem drainTcpClientRead_held (s : Server n) (fd : ℤ) (buffer : Buffer) (reads : List Read) (grow : Grow) :
    ∀ x ∈ (drainTcpClientRead s fd buffer reads grow).1.held, x ∈ s.held := by
  rcases drainTcpClientRead_cases s fd buffer reads grow with h | ⟨-, i, s₁, -, h, heq⟩
  · rw [h.held]
    exact fun x hx => hx
  · rw [heq, ← h.held]
    refine Server.held_subset fun j x hx => ?_
    by_cases hj : j = i
    · subst hj
      rw [serverEndClient_self] at hx
      exact absurd hx (vacant_wiped.held x)
    · rwa [serverEndClient_of_ne _ _ _ hj] at hx

theorem serverExpireClients_held (grow : Fin n → Grow) (s : Server n) :
    ∀ x ∈ (serverExpireClients grow s).held, x ∈ s.held := by
  refine Server.held_subset fun i x hx => ?_
  rcases serverExpireClients_entry grow s i with h | h
  · rwa [h] at hx
  · exact h.held x hx

theorem serverReload_held (s : Server n) (file : Option ServerDb) (mem : KeyMemory) (grow : Fin n → Grow) :
    ∀ x ∈ (serverReload N s file mem grow).held, x ∈ s.held := by
  refine Server.held_subset fun i x hx => ?_
  rcases serverReload_cases (N := N) s file mem grow with h | ⟨db, conf, -, -, hclients, -⟩
  · rwa [h] at hx
  · rw [hclients] at hx
    exact (serverRevalidate_entry grow { s with conf := conf } i).held x hx

/-! ## Packets sealed -/

theorem countSent_session (c : ServerClient) (x : Session) (accepted : Bool) (len : ℕ) (w : Which) :
    (countSent c x accepted len).session w = if w = .cur then x else c.session w := by
  unfold countSent
  split <;> cases w <;> rfl

/-- A packet sealed on the current session of an entry. -/
theorem seal_notes {s : Server n} (hs : ∀ i, Indexed i (s.clients i)) {i : Fin n} {plain packet : Bytes} {x : Session}
    {size : ℕ} (hseal : sessionSeal N (s.clients i).cur plain size = some (packet, x)) (accepted : Bool) (len : ℕ) :
    NoteSteps N s.held ((sealNotes N i (s.clients i).cur plain size).map ServerNote.note)
      (s.setClient i (countSent (s.clients i) x accepted len)).held := by
  have hvalid : ((s.clients i).session .cur).valid = true := (sessionSeal_session N hseal).1
  unfold sealNotes
  rw [hseal]
  refine NoteStep.steps (.sealed (Server.held_of_session hvalid) hseal (Server.held_replaced hs hvalid ?_ ?_))
  · intro j hj
    rw [Server.setClient_of_ne _ _ _ hj]
  · intro v _
    rw [Server.setClient_self, countSent_session]
    by_cases hv : v = .cur
    · exact Or.inl (if_pos hv)
    · exact Or.inr ⟨v, hv, if_neg hv⟩

theorem seal_notes_none {s : Server n} {i : Fin n} {plain : Bytes} {size : ℕ}
    (hseal : sessionSeal N (s.clients i).cur plain size = none) :
    NoteSteps N s.held ((sealNotes N i (s.clients i).cur plain size).map ServerNote.note) s.held := by
  unfold sealNotes
  rw [hseal]
  exact .quiet fun _ hx => hx

theorem serverForwardPacket_notes {s : Server n} (hs : ∀ i, Indexed i (s.clients i)) (env : PacketEnv) (packet : Bytes)
    (dst : Ip) : NoteSteps N s.held ((forwardNotes N s packet dst).map ServerNote.note)
      (serverForwardPacket N s env packet dst).1.held := by
  unfold serverForwardPacket forwardNotes
  cases serverFindByIp s.clients dst with
  | none => exact .quiet fun _ hx => hx
  | some j =>
    dsimp only
    cases hseal : sessionSeal N (s.clients j).cur packet (TUN_PACKET_MAX + V2_OVERHEAD) with
    | none => exact seal_notes_none hseal
    | some q => exact seal_notes hs hseal _ _

theorem dataDeliver_notes {s : Server n} (hs : ∀ i, Indexed i (s.clients i)) (env : PacketEnv) (i : Fin n) (w : Which)
    (plain : Bytes) : NoteSteps N s.held ((deliverNotes N s i w plain).map ServerNote.note)
      (dataDeliver N s env i w plain).1.held := by
  unfold dataDeliver deliverNotes
  dsimp only
  by_cases hempty : plain = []
  · rw [if_pos hempty, if_pos hempty]
    cases hseal : sessionSeal N (s.clients i).cur [] V2_OVERHEAD with
    | none => exact seal_notes_none hseal
    | some q => exact seal_notes hs hseal _ _
  · rw [if_neg hempty, if_neg hempty]
    cases ipv4ParseEndpoints plain with
    | none => exact .quiet fun _ hx => hx
    | some q =>
      obtain ⟨srcIp, dstIp⟩ := q
      dsimp only
      split
      · exact .quiet fun _ hx => hx
      · split
        · refine .quiet (Server.held_subset fun j x hx => ?_)
          by_cases hj : j = i
          · subst hj
            rwa [held_of_sessions (c := s.clients j) (fun w => by
              rw [show ({ s.setClient j _ with isolationDrops := s.isolationDrops + 1 } : Server n).clients j = _ from
                Server.setClient_self ..]
              cases w <;> rfl)] at hx
          · rwa [show ({ s.setClient i _ with isolationDrops := s.isolationDrops + 1 } : Server n).clients j =
              s.clients j from Server.setClient_of_ne _ _ _ hj] at hx
        · exact serverForwardPacket_notes hs env plain dstIp

theorem handleTunPacket_notes {s : Server n} (hs : ∀ i, Indexed i (s.clients i)) (env : PacketEnv) (packet : Bytes) :
    NoteSteps N s.held ((tunNotes N s packet).map ServerNote.note) (handleTunPacket N s env packet).held := by
  unfold handleTunPacket tunNotes
  cases ipv4ParseEndpoints packet with
  | none => exact .quiet fun _ hx => hx
  | some q => exact serverForwardPacket_notes hs env packet q.2

/-! ## Packets taken -/

/-- The sessions of an entry that took a packet: the one it came on, maybe at another place, and others. -/
theorem dataReceive_session (c : ServerClient) (w : Which) (x : Session) (src : SockAddr) (fd : ℤ) (now : Time)
    (len : ℕ) (v : Which) (hv : ((dataReceive c w x src fd now len).session v).valid = true) :
    (dataReceive c w x src fd now len).session v = x ∨
      ∃ u, u ≠ w ∧ (dataReceive c w x src fd now len).session v = c.session u := by
  have hsession : (dataReceive c w x src fd now len).session v =
      (if w = .next then promote (c.setSession w x) now else c.setSession w x).session v := by
    unfold dataReceive
    dsimp only
    by_cases hfd : fd < 0
    · rw [if_pos hfd]
      cases v <;> rfl
    · rw [if_neg hfd]
      cases v <;> rfl
  rw [hsession] at hv ⊢
  cases w with
  | cur =>
    rw [if_neg (by decide)]
    cases v with
    | cur => exact Or.inl rfl
    | next => exact Or.inr ⟨.next, by decide, rfl⟩
    | prev => exact Or.inr ⟨.prev, by decide, rfl⟩
  | next =>
    rw [if_pos rfl] at hv ⊢
    cases v with
    | cur => exact Or.inl rfl
    | next => cases hv
    | prev => exact Or.inr ⟨.cur, by decide, rfl⟩
  | prev =>
    rw [if_neg (by decide)]
    cases v with
    | cur => exact Or.inr ⟨.cur, by decide, rfl⟩
    | next => exact Or.inr ⟨.next, by decide, rfl⟩
    | prev => exact Or.inl rfl

theorem dataReceived_indexed {s : Server n} (hs : ∀ i, Indexed i (s.clients i)) {i : Fin n} {w : Which} {x : Session}
    {pkt plain : Bytes} (hopen : sessionOpen N ((s.clients i).session w) pkt TUN_PACKET_MAX = some (plain, x))
    (src : SockAddr) (fd : ℤ) (len : ℕ) (j : Fin n) : Indexed j ((dataReceived s i w x src fd len).clients j) := by
  by_cases hj : j = i
  · subst hj
    rw [show (dataReceived s j w x src fd len).clients j = dataReceive (s.clients j) w x src fd s.now len from
      Server.setClient_self ..]
    rcases dataReceive_changed hopen src fd s.now len with ⟨-, h⟩ | ⟨-, h⟩
    · exact (hs j).moved (f := id) Function.injective_id h.session
    · exact (hs j).moved Which.promotedFrom_injective h.session
  · rw [show (dataReceived s i w x src fd len).clients j = s.clients j from Server.setClient_of_ne _ _ _ hj]
    exact hs j

theorem serverHandleData_notes {s : Server n} (hs : ∀ i, Indexed i (s.clients i)) (env : PacketEnv) (pkt : Bytes)
    (src : SockAddr) (fd : ℤ) : NoteSteps N s.held ((dataNotes N s pkt src fd).map ServerNote.note)
      (serverHandleData N s env pkt src fd).1.held := by
  unfold serverHandleData dataNotes
  cases dataSession s pkt fd with
  | none => exact .quiet fun _ hx => hx
  | some q =>
    obtain ⟨i, w⟩ := q
    dsimp only
    cases hopen : sessionOpen N ((s.clients i).session w) pkt TUN_PACKET_MAX with
    | none => exact .quiet fun _ hx => hx
    | some y =>
      obtain ⟨plain, x⟩ := y
      have hvalid := (sessionOpen_session N hopen).1
      refine .note (.taken (Server.held_of_session hvalid) hopen (Server.held_replaced hs hvalid (fun j hj => ?_) ?_))
        (dataDeliver_notes (dataReceived_indexed hs hopen src fd plain.length) env i w plain)
      · rw [show (dataReceived s i w x src fd plain.length).clients j = s.clients j from
          Server.setClient_of_ne _ _ _ hj]
      · rw [show (dataReceived s i w x src fd plain.length).clients i = dataReceive (s.clients i) w x src fd s.now
          plain.length from Server.setClient_self ..]
        exact dataReceive_session _ w x src fd s.now plain.length

/-! ## Handshakes -/

theorem InitFate.held {s : Server n} {pkt : Bytes} {src : SockAddr} {fd : ℤ} {j : Fin n} {o : InitOutcome n}
    {c' : ServerClient} (h : InitFate N s pkt src fd j o c')
    (ho : ∀ fresh r reply packet, o ≠ .accepted j fresh r reply packet) : ∀ x ∈ c'.held, x ∈ (s.clients j).held := by
  cases h with
  | alone h _ =>
    rw [held_of_sessions (c := s.clients j) fun w => by
      cases w with
      | cur => exact (congrArg ServerClient.cur h :)
      | next => exact (congrArg ServerClient.next h :)
      | prev => exact (congrArg ServerClient.prev h :)]
    exact fun x hx => hx
  | adopted hc _ _ _ _ _ _ _ _ _ _ =>
    rw [hc]
    exact fun x hx => absurd hx (vacant_wiped.held x)
  | unused hc _ _ _ _ _ =>
    rw [hc]
    exact fun x hx => absurd hx (vacant_wiped.held x)
  | restored r _ _ ht h _ =>
    rintro x ⟨hv, w, rfl⟩
    have hbefore := h.session w hv
    rw [hbefore] at hv ⊢
    have htaken := (ht.session w hv).2
    rw [htaken] at hv ⊢
    exact ⟨hv, w, rfl⟩
  | accepted r _ _ _ m _ reply ho' => exact absurd ho' (ho _ _ _ _)

theorem Taken.place {s : Server n} {r : Register} {src : SockAddr} {fd : ℤ} {slot : Fin n} {fresh : Bool}
    {before : ServerClient} (ht : Taken s r src fd slot fresh before) :
    (if firstSession s slot fresh then Which.cur else .next) = Which.answered before := by
  unfold Which.answered firstSession
  cases fresh with
  | true =>
    rw [ht.eq_fresh]
    rfl
  | false =>
    rw [ht.eq]
    cases (s.clients slot).cur.valid <;> rfl

theorem serverHandleInit_notes (s : Server n) (env : PacketEnv) (pkt : Bytes) (src : SockAddr) (fd : ℤ) :
    NoteSteps N s.held ((initNotes s (serverHandleInit N s env pkt src fd).1 pkt
      (serverHandleInit N s env pkt src fd).2).map ServerNote.note) (serverHandleInit N s env pkt src fd).1.held := by
  have hfate := serverHandleInit_fate (N := N) s env pkt src fd
  generalize serverHandleInit N s env pkt src fd = q at hfate
  obtain ⟨s', o⟩ := q
  dsimp only at hfate ⊢
  cases o with
  | refused => exact .quiet (Server.held_subset fun j => (hfate j).held nofun)
  | failed slot fresh => exact .quiet (Server.held_subset fun j => (hfate j).held nofun)
  | accepted slot fresh r reply packet =>
    have hother : ∀ j, j ≠ slot → ∀ x ∈ (s'.clients j).held, x ∈ (s.clients j).held := fun j hj =>
      (hfate j).held fun _ _ _ _ h => hj (by cases h; rfl)
    cases hfate slot with
    | alone _ ho => exact absurd rfl (ho _ _ _ _)
    | adopted _ _ _ _ _ _ _ _ _ _ ho => exact absurd rfl (ho _ _ _ _)
    | unused _ _ _ _ _ ho => cases ho
    | restored _ _ _ _ _ ho => cases ho
    | @accepted r hr _ fresh' before ht m h reply ho =>
      cases ho
      have hnew := h.session (Which.answered before)
      rw [if_pos rfl] at hnew
      show NoteSteps N s.held [.opened _] s'.held
      rw [ht.place, hnew]
      refine NoteStep.steps (.opened rfl rfl ?_)
      rintro y ⟨j, hy⟩
      by_cases hj : j = slot
      · subst hj
        obtain ⟨hv, w, rfl⟩ := hy
        have hw := h.session w
        split at hw
        · exact Or.inl hw
        · rw [hw] at hv ⊢
          have htaken := (ht.session w hv).2
          rw [htaken] at hv ⊢
          exact Or.inr (Server.held_of_session hv)
      · exact Or.inr ⟨j, hother j hj y hy⟩

/-! ## Events -/

/-- **What an event does with the sessions**: what its notes say. -/
theorem serverStep_notes (hn : n ≤ 65534) {s : Server n} (h : Machine.Reachable (serverMachine N n) s) (e : Event n) :
    NoteSteps N s.held ((serverNotes N s e).map ServerNote.note) (serverStep N s e).1.held := by
  have hs := indexed_reachable hn h
  unfold serverStep serverNotes
  cases hcall : eventCall s e with
  | some c =>
    have hread := eventCall_reread hcall
    have hc : ∀ i, Indexed i (c.server.clients i) := fun i =>
      (hs i).moved (f := id) Function.injective_id (hread.retained i).session
    rw [← hread.held]
    dsimp only
    unfold packetNotes serverHandlePacket
    dsimp only
    split
    · exact serverHandleInit_notes c.server c.env c.packet c.src c.fd
    · split
      · exact serverHandleData_notes hc c.env c.packet c.src c.fd
      · exact .quiet fun _ hx => hx
  | none =>
    dsimp only
    cases e with
    | tick now => exact .quiet fun _ hx => hx
    | udp packet src env => exact .quiet fun _ hx => hx
    | accept fd peer stream nonblocking => exact .quiet (serverAccept_held s fd peer stream nonblocking)
    | readable fd buffer reads env => exact .quiet (drainTcpClientRead_held s fd buffer reads env.grow)
    | tun packet env => exact handleTunPacket_notes hs env packet
    | expire grow => exact .quiet (serverExpireClients_held grow s)
    | reload file mem grow => exact .quiet (serverReload_held s file mem grow)

end Camex
