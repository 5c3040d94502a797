import Camex.Server.Reload

/-!
# TCP connections of the server (`drain_tcp_server_accept`, `drain_tcp_client_read`)

* `serverAccept`: a connection gets a slot before its handshake, within the limits for these;
* `drainTcpClientRead`: one call of `net_tcp_recv_frame` for a readable connection.
-/

namespace Camex

open Lib

variable {n : ℕ}

def FD_SETSIZE : ℤ := 1024
def CAMEX_TCP_PREAUTH_MAX : ℕ := 32
def CAMEX_TCP_PREAUTH_PER_IP : ℕ := 4
def CAMEX_TCP_PREAUTH_GRACE : Time := 2

/-- The size of the buffer a frame or a datagram is read into. -/
def RECV_MAX : ℕ := TUN_PACKET_MAX + V2_OVERHEAD

/-! ## Accepting -/

def preauthSlots (t : Table n) : List (Fin n) :=
  (List.finRange n).filter fun i => (t i).active && (t i).preauth

/-- Of those the one accepted first that is past its grace. -/
def oldestPreauth (t : Table n) (now : Time) : Option (Fin n) :=
  ((preauthSlots t).filter fun i => decide (CAMEX_TCP_PREAUTH_GRACE ≤ now - (t i).connectedAt)).foldl
    (fun oldest i =>
      match oldest with
      | none => some i
      | some o => if (t i).connectedAt < (t o).connectedAt then some i else some o) none

/-- The slot behind the `memset` that makes room. -/
def ServerClient.cleared : ServerClient := { ServerClient.wiped with tcpFd := 0 }

def acceptedEntry (fd : ℤ) (peer : SockAddr) (now : Time) : ServerClient :=
  { ServerClient.wiped with
    tcpFd := fd, lastSeen := now, connectedAt := now, active := true, addr := peer }

/-- A new connection takes the first free slot; without one it is closed. -/
def acceptSlot (s : Server n) (fd : ℤ) (peer : SockAddr) (stream : Bytes) : Server n :=
  match lowest fun i => !(s.clients i).active with
  | none => s
  | some i => { s.setClient i (acceptedEntry fd peer s.now) with sockets := ⟨fd, stream⟩ :: s.sockets }

/-- `drain_tcp_server_accept` for one connection. `nonblocking`: `set_fd_nonblocking` succeeds. -/
def serverAccept (s : Server n) (fd : ℤ) (peer : SockAddr) (stream : Bytes) (nonblocking : Bool) :
    Server n :=
  if FD_SETSIZE ≤ fd ∨ !nonblocking then s
  else
    let pending := preauthSlots s.clients
    if CAMEX_TCP_PREAUTH_PER_IP ≤ (pending.filter fun i => (s.clients i).addr.ip == peer.ip).length then s
    else if max 1 (min (n / 2) CAMEX_TCP_PREAUTH_MAX) ≤ pending.length then
      match oldestPreauth s.clients s.now with
      | none => s
      | some o =>
        acceptSlot
          { s.setClient o .cleared with sockets := netTcpClose s.sockets (s.clients o).tcpFd }
          fd peer stream
    else acceptSlot s fd peer stream

/-! ## Reading -/

def slotOfFd (t : Table n) (fd : ℤ) : Option (Fin n) :=
  lowest fun i => (t i).active && (t i).tcpFd == fd

/-- `drain_tcp_client_read` up to `server_handle_packet`: a whole frame with the address of its
peer. A connection that ends or fails ends its entry; a descriptor without an open connection fails
to read. -/
def drainTcpClientRead (s : Server n) (fd : ℤ) (buffer : Buffer) (reads : List Read) (grow : Grow) :
    Server n × Option (Bytes × SockAddr) :=
  match slotOfFd s.clients fd with
  | none => ({ s with sockets := netTcpClose s.sockets fd }, none)
  | some i =>
    match socketUnread s.sockets fd with
    | none => (serverEndClient grow i s, none)
    | some unread =>
      let (rc, st, unread) := netTcpRecvFrame RECV_MAX buffer (s.clients i).recvState unread reads
      let s := { s.setClient i { s.clients i with recvState := st } with
        sockets := setUnread s.sockets fd unread }
      match rc with
      | .again => (s, none)
      | .error => (serverEndClient grow i s, none)
      | .frame packet => (s, some (packet, (s.clients i).addr))

/-! ## What they do to the entries -/

/-- A slot that a new connection may take or make room in. -/
def ServerClient.Spare (c : ServerClient) : Prop := c.active = false ∨ c.preauth = true

theorem acceptSlot_entry (s : Server n) (fd : ℤ) (peer : SockAddr) (stream : Bytes) (j : Fin n) :
    (acceptSlot s fd peer stream).clients j = s.clients j ∨
      (s.clients j).active = false ∧
        (acceptSlot s fd peer stream).clients j = acceptedEntry fd peer s.now := by
  unfold acceptSlot
  split
  · exact Or.inl rfl
  · rename_i i hi
    by_cases hj : j = i
    · subst hj
      exact Or.inr ⟨by simpa using lowest_some hi, Server.setClient_self ..⟩
    · exact Or.inl (Server.setClient_of_ne _ _ _ hj)

theorem oldestPreauth_some {t : Table n} {now : Time} {o : Fin n} (h : oldestPreauth t now = some o) :
    (t o).active = true ∧ (t o).preauth = true := by
  have hall : ∀ o, oldestPreauth t now = some o → (t o).active = true ∧ (t o).preauth = true := by
    unfold oldestPreauth
    refine foldl_induction (I := fun oldest : Option (Fin n) =>
      ∀ o, oldest = some o → (t o).active = true ∧ (t o).preauth = true) _ _ (fun i hi oldest ho o' h' => ?_)
      none (fun o h => by cases h)
    have hpre : (t i).active = true ∧ (t i).preauth = true := by
      have := (List.mem_filter.mp (List.mem_filter.mp hi).1).2
      simpa using this
    split at h'
    · cases h'
      exact hpre
    · split at h'
      · cases h'
        exact hpre
      · cases h'
        exact ho _ rfl
  exact hall o h

theorem serverAccept_entry (s : Server n) (fd : ℤ) (peer : SockAddr) (stream : Bytes)
    (nonblocking : Bool) (j : Fin n) :
    (serverAccept s fd peer stream nonblocking).clients j = s.clients j ∨
      (s.clients j).Spare ∧
        ((serverAccept s fd peer stream nonblocking).clients j = .cleared ∨
          (serverAccept s fd peer stream nonblocking).clients j = acceptedEntry fd peer s.now) := by
  unfold serverAccept
  split
  · exact Or.inl rfl
  · dsimp only
    split
    · exact Or.inl rfl
    · split
      · split
        · exact Or.inl rfl
        · rename_i o ho
          have hentry := acceptSlot_entry
            { s.setClient o .cleared with sockets := netTcpClose s.sockets (s.clients o).tcpFd }
            fd peer stream j
          by_cases hj : j = o
          · subst hj
            rw [show ({ s.setClient j ServerClient.cleared with
              sockets := netTcpClose s.sockets (s.clients j).tcpFd } : Server n).clients j = .cleared
              from Server.setClient_self ..] at hentry
            exact Or.inr ⟨Or.inr (oldestPreauth_some ho).2, hentry.imp id And.right⟩
          · rw [show ({ s.setClient o ServerClient.cleared with
              sockets := netTcpClose s.sockets (s.clients o).tcpFd } : Server n).clients j = s.clients j
              from Server.setClient_of_ne _ _ _ hj] at hentry
            exact hentry.imp id fun h => ⟨Or.inl h.1, Or.inr h.2⟩
      · exact (acceptSlot_entry s fd peer stream j).imp id fun h => ⟨Or.inl h.1, Or.inr h.2⟩

theorem serverAccept_frame (s : Server n) (fd : ℤ) (peer : SockAddr) (stream : Bytes)
    (nonblocking : Bool) :
    (serverAccept s fd peer stream nonblocking).leases = s.leases ∧
      (serverAccept s fd peer stream nonblocking).conf = s.conf ∧
      (serverAccept s fd peer stream nonblocking).now = s.now := by
  have hslot : ∀ t : Server n, (acceptSlot t fd peer stream).leases = t.leases ∧
      (acceptSlot t fd peer stream).conf = t.conf ∧ (acceptSlot t fd peer stream).now = t.now := by
    intro t
    unfold acceptSlot
    split <;> exact ⟨rfl, rfl, rfl⟩
  unfold serverAccept
  split
  · exact ⟨rfl, rfl, rfl⟩
  · dsimp only
    split
    · exact ⟨rfl, rfl, rfl⟩
    · split
      · split
        · exact ⟨rfl, rfl, rfl⟩
        · exact hslot _
      · exact hslot _

end Camex
