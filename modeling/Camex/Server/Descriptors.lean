import Camex.Server.Steps
import Mathlib.Data.List.Nodup

/-!
# Descriptors: what is opened and what is closed

A `Conn` is an accepted connection. `eventCloses` lists the calls of `close()` an event leads to, function by
function; `ledger` keeps the connections of a run that are open, and fails at a call for one that is not.

* `Slots`: the open connections are those of the active entries, one each;
* `Slots.congr`, `Slots.offline`, `Slots.close`, `Slots.move`, `Slots.accept`: what keeps this.
-/

namespace Camex

open Lib

variable {n : ℕ}

/-! ## The ledger of connections -/

/-- An accepted connection: its descriptor, its peer and the second of the accept. -/
structure Conn where
  fd : ℤ
  peer : SockAddr
  since : Time
  deriving DecidableEq

/-- The open connections behind some calls of `close()`; `none`: one of the calls is for a descriptor that is
not open. -/
def closeEach : List Conn → List ℤ → Option (List Conn)
  | conns, [] => some conns
  | conns, fd :: fds =>
    if fd ∈ conns.map Conn.fd then closeEach (conns.filter fun k => k.fd != fd) fds else none

@[simp] theorem closeEach_nil (conns : List Conn) : closeEach conns [] = some conns := rfl

theorem closeEach_cons (conns : List Conn) (fd : ℤ) (fds : List ℤ) :
    closeEach conns (fd :: fds) =
      if fd ∈ conns.map Conn.fd then closeEach (conns.filter fun k => k.fd != fd) fds else none := rfl

theorem closeEach_append (conns : List Conn) (fds fds' : List ℤ) :
    closeEach conns (fds ++ fds') = (closeEach conns fds).bind (closeEach · fds') := by
  induction fds generalizing conns with
  | nil => rfl
  | cons fd fds ih =>
    rw [List.cons_append, closeEach_cons, closeEach_cons]
    split
    · exact ih _
    · rfl

/-- Calls for other descriptors leave a connection open. -/
theorem closeEach_other {k : Conn} {conns conns' : List Conn} {fds : List ℤ} (hk : k.fd ∉ fds)
    (h : closeEach conns fds = some conns') : closeEach (k :: conns) fds = some (k :: conns') := by
  induction fds generalizing conns with
  | nil =>
    cases h
    rfl
  | cons fd fds ih =>
    rw [List.mem_cons, not_or] at hk
    rw [closeEach_cons] at h ⊢
    split at h
    · rename_i hmem
      rw [if_pos (by rw [List.map_cons]; exact List.mem_cons_of_mem _ hmem),
        List.filter_cons_of_pos (by simpa using hk.1)]
      exact ih hk.2 h
    · cases h

/-- `net_tcp_close`: the descriptor it closes. -/
def closeOf (fd : ℤ) : List ℤ := if fd < 0 then [] else [fd]

/-! ## The calls, function by function -/

def serverDropEntryCloses (s : Server n) (i : Fin n) : List ℤ := closeOf (s.clients i).tcpFd

def serverEndClientCloses (i : Fin n) (s : Server n) : List ℤ := serverDropEntryCloses s i

/-- A loop over the slots whose visit of slot `i` closes `closes i s`. -/
def loopCloses (f : Fin n → Server n → Server n) (closes : Fin n → Server n → List ℤ) (s : Server n) : List ℤ :=
  (forSlots (fun i p => (f i p.1, p.2 ++ closes i p.1)) (s, [])).2

def serverExpireClientCloses (i : Fin n) (s : Server n) : List ℤ :=
  let c := s.clients i
  if !c.active then []
  else
    let s := s.setClient i (expireSessions c s.now)
    if expired s.conf c s.now then serverEndClientCloses i s else []

def serverExpireClientsCloses (grow : Fin n → Grow) (s : Server n) : List ℤ :=
  if s.now = s.lastExpireCheck then []
  else loopCloses (serverExpireClient grow) serverExpireClientCloses { s with lastExpireCheck := s.now }

def revalidateKeyCloses (i : Fin n) (s : Server n) : List ℤ :=
  let c := s.clients i
  if !c.active || !c.registered || keyStillAllowed s.conf.ks c.pskKey c.clientId then []
  else serverEndClientCloses i s

def serverRevalidateKeysCloses (grow : Fin n → Grow) (s : Server n) : List ℤ :=
  loopCloses (revalidateKey grow) revalidateKeyCloses s

def revalidateUnknownCloses (i : Fin n) (s : Server n) : List ℤ :=
  let c := s.clients i
  if !c.active || !c.autoClient || (configDbFindClient s.conf.db c.clientId).isSome then []
  else serverEndClientCloses i s

def serverRevalidateUnknownClientsCloses (grow : Fin n → Grow) (s : Server n) : List ℤ :=
  if !s.conf.db.globals.denyUnknownClients then [] else loopCloses (revalidateUnknown grow) revalidateUnknownCloses s

def revalidateAddressCloses (i : Fin n) (s : Server n) : List ℤ :=
  let c := s.clients i
  if !c.active || !c.registered then []
  else
    let s := s.setClient i (withdrawOffer s.conf.db c)
    if !profileOfOther s.conf.db c.ipBe c.clientId || (!c.autoClient && c.clientId == []) then []
    else serverDropEntryCloses s i

def serverRevalidateProfileAddressesCloses (s : Server n) : List ℤ :=
  loopCloses revalidateAddress revalidateAddressCloses s

def serverRevalidateCloses (grow : Fin n → Grow) (s : Server n) : List ℤ :=
  serverRevalidateKeysCloses grow s ++
    (serverRevalidateUnknownClientsCloses grow (serverRevalidateKeys grow s) ++
      serverRevalidateProfileAddressesCloses
        (serverRevalidateUnknownClients grow (serverRevalidateKeys grow s)))

def serverAllocClientCloses (s : Server n) : List ℤ :=
  match (allocOrder s.allocNext).find? fun i => !(s.clients i).active with
  | some _ => []
  | none =>
    if serverPoolHolding s then []
    else
      match quietest s.clients with
      | some i => serverEndClientCloses i s
      | none => []

def serverAdoptTcpCloses (i : Fin n) (fd : ℤ) (s : Server n) : List ℤ :=
  if fd < 0 ∨ (s.clients i).tcpFd = fd then [] else closeOf (s.clients i).tcpFd

def serverEntryForCloses (s : Server n) (r : Register) (src : SockAddr) (fd : ℤ) : List ℤ :=
  match entryChoice s r src fd with
  | .rejected => []
  | .own i => serverAdoptTcpCloses i fd s
  | .source _ => []
  | .fresh => serverAllocClientCloses s

/-- `drain_tcp_server_accept` for one connection. -/
def serverAcceptCloses (s : Server n) (fd : ℤ) (peer : SockAddr) (nonblocking : Bool) : List ℤ :=
  let placed := fun s : Server n => match lowest fun i => !(s.clients i).active with
    | none => closeOf fd
    | some _ => []
  if FD_SETSIZE ≤ fd ∨ !nonblocking then closeOf fd
  else
    let pending := preauthSlots s.clients
    if CAMEX_TCP_PREAUTH_PER_IP ≤ (pending.filter fun i => (s.clients i).addr.ip == peer.ip).length then closeOf fd
    else if max 1 (min (n / 2) CAMEX_TCP_PREAUTH_MAX) ≤ pending.length then
      match oldestPreauth s.clients s.now with
      | none => closeOf fd
      | some o => closeOf (s.clients o).tcpFd ++ placed (s.setClient o .cleared)
    else placed s

/-- `drain_tcp_client_read`, up to the packet it reads. -/
def drainTcpClientReadCloses (s : Server n) (fd : ℤ) (buffer : Buffer) (reads : List Read) : List ℤ :=
  match slotOfFd s.clients fd with
  | none => closeOf fd
  | some i =>
    match socketUnread s.sockets fd with
    | none => serverEndClientCloses i s
    | some unread =>
      match (netTcpRecvFrame RECV_MAX buffer (s.clients i).recvState unread reads).1 with
      | .error => serverEndClientCloses i s
      | _ => []

section

variable {Hs : Type} (N : Noise Hs)

/-- `server_handle_packet`: only an INIT closes connections, for its entry. -/
def serverHandlePacketCloses (c : Call n) : List ℤ :=
  if v2PacketType c.packet = V2_TYPE_INIT then
    match initAuthenticate N c.server c.env c.packet c.src with
    | (_, none) => []
    | (s, some (r, _)) => serverEntryForCloses s r c.src c.fd
  else []

def eventCloses (s : Server n) (e : Event n) : List ℤ :=
  match eventCall s e with
  | some c => serverHandlePacketCloses N c
  | none =>
    match e with
    | .accept fd peer _ nonblocking => serverAcceptCloses s fd peer nonblocking
    | .readable fd buffer reads _ => drainTcpClientReadCloses s fd buffer reads
    | .expire grow => serverExpireClientsCloses grow s
    | .reload file mem grow =>
      match file.bind (reloadConf N mem s.conf) with
      | none => []
      | some conf => serverRevalidateCloses grow { s with conf := conf }
    | _ => []

def eventAccepts (s : Server n) : Event n → List Conn
  | .accept fd peer _ _ => [⟨fd, peer, s.now⟩]
  | _ => []

/-- The open connections behind an event. -/
def ledgerStep (s : Server n) (e : Event n) (conns : List Conn) : Option (List Conn) :=
  closeEach (eventAccepts s e ++ conns) (eventCloses N s e)

/-- The open connections behind a run; `none`: a descriptor that was not open was closed. -/
def ledger : Server n → List (Event n) → List Conn → Option (List Conn)
  | _, [], conns => some conns
  | s, e :: es, conns => (ledgerStep N s e conns).bind (ledger (serverStep N s e).1 es)

end

/-! ## Connections and entries -/

/-- The open connections are those of the active entries, one each. Under the assumption `K` on the handshakes, one
that is still to register is known by its entry's address and accept time. -/
structure Slots (K : Prop) (s : Server n) (conns : List Conn) : Prop where
  sockets : s.sockets.map Socket.fd = conns.map Conn.fd
  distinct : (conns.map Conn.fd).Nodup
  fd : ∀ k ∈ conns, 0 ≤ k.fd
  held : ∀ k ∈ conns, ∃ i, (s.clients i).active = true ∧ (s.clients i).tcpFd = k.fd
  opened : ∀ i, (s.clients i).active = true → 0 ≤ (s.clients i).tcpFd → ∃ k ∈ conns, k.fd = (s.clients i).tcpFd
  one : ∀ i j, (s.clients i).active = true → (s.clients j).active = true → 0 ≤ (s.clients i).tcpFd →
    (s.clients j).tcpFd = (s.clients i).tcpFd → j = i
  preauth : K → ∀ i, (s.clients i).active = true → (s.clients i).preauth = true →
    ⟨(s.clients i).tcpFd, (s.clients i).addr, (s.clients i).connectedAt⟩ ∈ conns

/-- An entry on the same connection, which under `K` is still to register only if it was. -/
structure SameConn (K : Prop) (c c' : ServerClient) : Prop where
  active : c'.active = c.active
  tcpFd : c'.tcpFd = c.tcpFd
  preauth : K → c.active = true → c'.preauth = true →
    c.preauth = true ∧ c'.addr = c.addr ∧ c'.connectedAt = c.connectedAt

section SameConn

variable {K : Prop}

theorem SameConn.refl (c : ServerClient) : SameConn K c c := ⟨rfl, rfl, fun _ _ h => ⟨h, rfl, rfl⟩⟩

theorem SameConn.trans {c c' c'' : ServerClient} (h : SameConn K c c') (h' : SameConn K c' c'') :
    SameConn K c c'' := by
  refine ⟨h'.active.trans h.active, h'.tcpFd.trans h.tcpFd, fun hK ha hp => ?_⟩
  obtain ⟨hp', haddr', hsince'⟩ := h'.preauth hK (h.active.trans ha) hp
  obtain ⟨hp, haddr, hsince⟩ := h.preauth hK ha hp'
  exact ⟨hp, haddr'.trans haddr, hsince'.trans hsince⟩

/-- A connection that stays with its entry, whatever else changes. -/
theorem SameConn.of_eq {c c' : ServerClient} (hactive : c'.active = c.active) (htcp : c'.tcpFd = c.tcpFd)
    (hreg : c'.registered = c.registered) (haddr : c'.addr = c.addr) (hsince : c'.connectedAt = c.connectedAt) :
    SameConn K c c' := by
  refine ⟨hactive, htcp, fun _ _ hp => ⟨?_, haddr, hsince⟩⟩
  unfold ServerClient.preauth at hp ⊢
  rwa [htcp, hreg] at hp

theorem SameConn.of_registered {c c' : ServerClient} (hactive : c'.active = c.active) (htcp : c'.tcpFd = c.tcpFd)
    (hreg : c.active = true → c'.registered = true) : SameConn K c c' := by
  refine ⟨hactive, htcp, fun _ ha hp => ?_⟩
  unfold ServerClient.preauth at hp
  rw [hreg ha] at hp
  simp at hp

end SameConn

namespace Slots

variable {K : Prop} {s s' : Server n} {conns : List Conn}

theorem congr (h : Slots K s conns) (hsame : ∀ i, SameConn K (s.clients i) (s'.clients i))
    (hsockets : s'.sockets.map Socket.fd = s.sockets.map Socket.fd) : Slots K s' conns where
  sockets := hsockets.trans h.sockets
  distinct := h.distinct
  fd := h.fd
  held := fun k hk => by
    obtain ⟨i, ha, hi⟩ := h.held k hk
    exact ⟨i, (hsame i).active.trans ha, (hsame i).tcpFd.trans hi⟩
  opened := fun i ha hi => by
    rw [(hsame i).active] at ha
    rw [(hsame i).tcpFd] at hi ⊢
    exact h.opened i ha hi
  one := fun i j hi hj hfd heq => by
    rw [(hsame i).active] at hi
    rw [(hsame j).active] at hj
    rw [(hsame i).tcpFd] at hfd heq
    rw [(hsame j).tcpFd] at heq
    exact h.one i j hi hj hfd heq
  preauth := fun hK i ha hp => by
    rw [(hsame i).active] at ha
    obtain ⟨hpre, haddr, hsince⟩ := (hsame i).preauth hK ha hp
    rw [(hsame i).tcpFd, haddr, hsince]
    exact h.preauth hK i ha hpre

/-- The entry of slot `i` is replaced, neither on a connection. -/
theorem offline (h : Slots K s conns) {i : Fin n} {c : ServerClient}
    (hi : (s.clients i).active = true → (s.clients i).tcpFd < 0) (hc : c.active = true → c.tcpFd < 0) :
    Slots K (s.setClient i c) conns where
  sockets := h.sockets
  distinct := h.distinct
  fd := h.fd
  held := fun k hk => by
    obtain ⟨j, ha, hj⟩ := h.held k hk
    have hji : j ≠ i := by
      rintro rfl
      have := hi ha
      have := h.fd k hk
      omega
    exact ⟨j, by rwa [Server.setClient_of_ne _ _ _ hji], by rwa [Server.setClient_of_ne _ _ _ hji]⟩
  opened := fun j ha hj => by
    by_cases hji : j = i
    · subst hji
      rw [Server.setClient_self] at ha hj
      have := hc ha
      omega
    · rw [Server.setClient_of_ne _ _ _ hji] at ha hj ⊢
      exact h.opened j ha hj
  one := fun j k hj hk hfd heq => by
    have hne : ∀ l : Fin n, ((s.setClient i c).clients l).active = true →
        0 ≤ ((s.setClient i c).clients l).tcpFd → l ≠ i := by
      rintro l hl hlfd rfl
      rw [Server.setClient_self] at hl hlfd
      have := hc hl
      omega
    have hji := hne j hj hfd
    have hki := hne k hk (heq ▸ hfd)
    rw [Server.setClient_of_ne _ _ _ hji] at hj hfd heq
    rw [Server.setClient_of_ne _ _ _ hki] at hk heq
    exact h.one j k hj hk hfd heq
  preauth := fun hK j ha hp => by
    by_cases hji : j = i
    · subst hji
      rw [Server.setClient_self] at ha hp
      have := hc ha
      simp only [ServerClient.preauth, Bool.and_eq_true, decide_eq_true_eq] at hp
      omega
    · rw [Server.setClient_of_ne _ _ _ hji] at ha hp ⊢
      exact h.preauth hK j ha hp

/-- What an entry's connection is known by. -/
theorem tcpFd_mem (h : Slots K s conns) {i : Fin n} (ha : (s.clients i).active = true) (hfd : 0 ≤ (s.clients i).tcpFd) :
    (s.clients i).tcpFd ∈ conns.map Conn.fd := by
  obtain ⟨k, hk, heq⟩ := h.opened i ha hfd
  exact List.mem_map.mpr ⟨k, hk, heq⟩

theorem netTcpClose_fds (sockets : List Socket) {fd : ℤ} (hfd : 0 ≤ fd) :
    (netTcpClose sockets fd).map Socket.fd = (sockets.map Socket.fd).filter fun x => x != fd := by
  unfold netTcpClose
  rw [if_neg (not_lt.mpr hfd), List.filter_map]
  rfl

/-- The entry of slot `i` ends, or loses its connection: that is closed. -/
theorem close (h : Slots K s conns) {i : Fin n} {c : ServerClient} (ha : (s.clients i).active = true)
    (hc : c.active = true → c.tcpFd < 0) :
    ∃ conns', closeEach conns (closeOf (s.clients i).tcpFd) = some conns' ∧ (∀ k ∈ conns', k ∈ conns) ∧
      Slots K { s.setClient i c with sockets := netTcpClose s.sockets (s.clients i).tcpFd } conns' := by
  by_cases hneg : (s.clients i).tcpFd < 0
  · refine ⟨conns, by rw [closeOf, if_pos hneg, closeEach_nil], fun _ hk => hk, ?_⟩
    have hsockets : netTcpClose s.sockets (s.clients i).tcpFd = s.sockets := if_pos hneg
    rw [hsockets]
    exact (h.offline (fun _ => hneg) hc).congr (fun _ => .refl _) rfl
  · generalize hx : (s.clients i).tcpFd = x at hneg
    have hx0 : 0 ≤ x := not_lt.mp hneg
    have hmem : x ∈ conns.map Conn.fd := hx ▸ h.tcpFd_mem ha (hx ▸ hx0)
    refine ⟨conns.filter fun k => k.fd != x, ?_, fun k hk => (List.mem_filter.mp hk).1, ?_⟩
    · rw [closeOf, if_neg hneg, closeEach_cons, if_pos hmem, closeEach_nil]
    -- the other entries are on other connections
    · have hother : ∀ j, j ≠ i → (s.clients j).active = true → (s.clients j).tcpFd ≠ x := by
        intro j hj hja hjx
        exact hj (h.one i j ha hja (hx ▸ hx0) (hjx.trans hx.symm))
      have hstill : ∀ j, ((s.setClient i c).clients j).active = true → 0 ≤ ((s.setClient i c).clients j).tcpFd →
          j ≠ i := by
        rintro j hja hjfd rfl
        rw [Server.setClient_self] at hja hjfd
        have := hc hja
        omega
      exact
        { sockets := by
            show (netTcpClose s.sockets x).map Socket.fd = _
            rw [netTcpClose_fds _ hx0, h.sockets, List.filter_map]
            rfl
          distinct := h.distinct.sublist (List.filter_sublist.map _)
          fd := fun k hk => h.fd k (List.mem_filter.mp hk).1
          held := fun k hk => by
            obtain ⟨hk, hne⟩ := List.mem_filter.mp hk
            obtain ⟨j, hja, hj⟩ := h.held k hk
            have hji : j ≠ i := by
              rintro rfl
              rw [← hj, hx] at hne
              simp at hne
            exact ⟨j, (congrArg ServerClient.active (Server.setClient_of_ne s i c hji) :).trans hja,
              (congrArg ServerClient.tcpFd (Server.setClient_of_ne s i c hji) :).trans hj⟩
          opened := fun j hja hjfd => by
            have hji := hstill j hja hjfd
            have hj : (s.setClient i c).clients j = s.clients j := Server.setClient_of_ne s i c hji
            dsimp only at hja hjfd ⊢
            rw [hj] at hja hjfd ⊢
            obtain ⟨k, hk, heq⟩ := h.opened j hja hjfd
            refine ⟨k, List.mem_filter.mpr ⟨hk, ?_⟩, heq⟩
            simpa [heq] using hother j hji hja
          one := fun j k hja hka hfd heq => by
            have hji := hstill j hja hfd
            have hki := hstill k hka (heq ▸ hfd)
            dsimp only at hja hka hfd heq
            rw [Server.setClient_of_ne s i c hji] at hja hfd heq
            rw [Server.setClient_of_ne s i c hki] at hka heq
            exact h.one j k hja hka hfd heq
          preauth := fun hK j hja hp => by
            have hfd : 0 ≤ ((s.setClient i c).clients j).tcpFd := by
              have : ((s.setClient i c).clients j).preauth = true := hp
              simp only [ServerClient.preauth, Bool.and_eq_true, decide_eq_true_eq] at this
              exact this.1
            have hji := hstill j hja hfd
            dsimp only at hja hp ⊢
            rw [Server.setClient_of_ne s i c hji] at hja hp ⊢
            refine List.mem_filter.mpr ⟨h.preauth hK j hja hp, ?_⟩
            simpa using hother j hji hja }

/-- The connection of an entry moves to the entry of slot `i`, which is registered and has none. -/
theorem move (h : Slots K s conns) {i : Fin n} {fd : ℤ} {c : ServerClient} (hfd : fd ∈ conns.map Conn.fd)
    (hi : (s.clients i).active = true → (s.clients i).tcpFd < 0) (hactive : c.active = true) (hc : c.tcpFd = fd)
    (hreg : K → c.registered = true) :
    Slots K { s with clients := fun j =>
      if j = i then c else if (s.clients j).active && (s.clients j).tcpFd == fd then .wiped else s.clients j }
      conns := by
  obtain ⟨k₀, hk₀, hk₀fd⟩ := List.mem_map.mp hfd
  have hfd0 : 0 ≤ fd := hk₀fd ▸ h.fd k₀ hk₀
  have hne : ∀ j, (s.clients j).active = true → 0 ≤ (s.clients j).tcpFd → j ≠ i := by
    rintro j hja hjfd rfl
    have := hi hja
    omega
  -- an active entry is the one that got the connection, or another one as it was
  have hentry : ∀ j, (if j = i then c else
      if (s.clients j).active && (s.clients j).tcpFd == fd then .wiped else s.clients j).active = true →
      j = i ∨ j ≠ i ∧ (s.clients j).active = true ∧ (s.clients j).tcpFd ≠ fd ∧
        (if j = i then c else
          if (s.clients j).active && (s.clients j).tcpFd == fd then ServerClient.wiped else s.clients j) =
          s.clients j := by
    intro j hja
    by_cases hji : j = i
    · exact Or.inl hji
    · rw [if_neg hji] at hja ⊢
      split at hja
      · cases hja
      · rename_i hno
        rw [if_neg hno]
        refine Or.inr ⟨hji, hja, fun heq => hno ?_, rfl⟩
        rw [hja, heq, beq_self_eq_true]
        rfl
  exact
    { sockets := h.sockets
      distinct := h.distinct
      fd := h.fd
      held := fun k hk => by
        by_cases hkfd : k.fd = fd
        · exact ⟨i, by simp [hactive], by simp [hc, hkfd]⟩
        · obtain ⟨j, hja, hj⟩ := h.held k hk
          have hji := hne j hja (hj ▸ h.fd k hk)
          refine ⟨j, ?_, ?_⟩ <;> dsimp only <;> rw [if_neg hji, if_neg (by simp [hja, hj, hkfd])]
          · exact hja
          · exact hj
      opened := fun j hja hjfd => by
        dsimp only at hja hjfd ⊢
        rcases hentry j hja with rfl | ⟨-, hja', -, heq⟩
        · rw [if_pos rfl, hc]
          exact ⟨k₀, hk₀, hk₀fd⟩
        · rw [heq] at hjfd ⊢
          exact h.opened j hja' hjfd
      one := fun j k hja hka hjfd heq => by
        dsimp only at hja hka hjfd heq
        rcases hentry j hja with rfl | ⟨hji, hja', hjne, hj⟩ <;> rcases hentry k hka with rfl | ⟨hki, hka', hkne, hk⟩
        · rfl
        · rw [hk, if_pos rfl, hc] at heq
          exact absurd heq hkne
        · rw [hj, if_pos rfl, hc] at heq
          exact absurd heq.symm hjne
        · rw [hj] at hjfd heq
          rw [hk] at heq
          exact h.one j k hja' hka' hjfd heq
      preauth := fun hK j hja hp => by
        dsimp only at hja hp ⊢
        rcases hentry j hja with rfl | ⟨-, hja', -, heq⟩
        · rw [if_pos rfl] at hp
          unfold ServerClient.preauth at hp
          rw [hreg hK] at hp
          simp at hp
        · rw [heq] at hp ⊢
          exact h.preauth hK j hja' hp }

/-- A new connection takes a free slot. -/
theorem accept (h : Slots K s conns) {i : Fin n} {fd : ℤ} {peer : SockAddr} {now : Time}
    (hi : (s.clients i).active = false) (hfd : 0 ≤ fd) (hnew : fd ∉ conns.map Conn.fd)
    (hsockets : s'.sockets.map Socket.fd = fd :: s.sockets.map Socket.fd)
    (hself : s'.clients i = acceptedEntry fd peer now) (hother : ∀ j, j ≠ i → s'.clients j = s.clients j) :
    Slots K s' (⟨fd, peer, now⟩ :: conns) := by
  have hselfFd : (s'.clients i).tcpFd = fd := by rw [hself]; rfl
  have hne : ∀ j, (s.clients j).active = true → j ≠ i := by
    rintro j hja rfl
    rw [hi] at hja
    cases hja
  have hold : ∀ j, j ≠ i → (s'.clients j).active = true → (s'.clients j).tcpFd ≠ fd := by
    rintro j hji hja rfl
    rw [hother j hji] at hja hnew hfd
    exact hnew (h.tcpFd_mem hja hfd)
  exact
    { sockets := by rw [hsockets, h.sockets, List.map_cons]
      distinct := by
        rw [List.map_cons]
        exact List.nodup_cons.mpr ⟨hnew, h.distinct⟩
      fd := fun k hk => by
        rcases List.mem_cons.mp hk with rfl | hk
        · exact hfd
        · exact h.fd k hk
      held := fun k hk => by
        rcases List.mem_cons.mp hk with rfl | hk
        · exact ⟨i, by rw [hself]; rfl, hselfFd⟩
        · obtain ⟨j, hja, hj⟩ := h.held k hk
          have hji := hne j hja
          exact ⟨j, by rwa [hother j hji], by rwa [hother j hji]⟩
      opened := fun j hja hjfd => by
        by_cases hji : j = i
        · subst hji
          exact ⟨_, List.mem_cons_self, hselfFd.symm⟩
        · rw [hother j hji] at hja hjfd ⊢
          obtain ⟨k, hk, heq⟩ := h.opened j hja hjfd
          exact ⟨k, List.mem_cons_of_mem _ hk, heq⟩
      one := fun j k hja hka hjfd heq => by
        by_cases hji : j = i <;> by_cases hki : k = i
        · rw [hji, hki]
        · rw [hji, hselfFd] at heq
          exact absurd heq (hold k hki hka)
        · rw [hki, hselfFd] at heq
          exact absurd heq.symm (hold j hji hja)
        · rw [hother j hji] at hja hjfd heq
          rw [hother k hki] at hka heq
          exact h.one j k hja hka hjfd heq
      preauth := fun hK j hja hp => by
        by_cases hji : j = i
        · subst hji
          rw [hself]
          exact List.mem_cons_self
        · rw [hother j hji] at hja hp ⊢
          exact List.mem_cons_of_mem _ (h.preauth hK j hja hp) }

end Slots

end Camex
