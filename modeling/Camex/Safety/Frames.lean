import Camex.Safety.TcpSlots
import Camex.Server.Links

/-!
# Frames of TCP connections

`passed fd`: the frames that a run hands to `server_handle_packet` for the connection `fd`. They are the frames the
peer sent, in their order, when no call resumes inside a body (`WholeBody`): the progress of a connection outlives a
call, the bytes of a body do not. The client's side is `ClientLink`; `tcpFrames` is the result for both.
-/

namespace Camex

open Lib

variable {n : ℕ} {Hs : Type} {N : Noise Hs}

/-! ## The server -/

/-- A call that reads the body of a frame starts it. -/
def TcpRecvState.Whole (st : TcpRecvState) : Prop := st.headerDone = true → st.bodyHave = 0

instance (st : TcpRecvState) : Decidable st.Whole := by
  unfold TcpRecvState.Whole
  infer_instance

/-- A call for the connection `fd` does not resume inside a body. -/
def WholeBody (fd : ℤ) (s : Server n) : Event n → Prop
  | .readable x _ _ _ => x = fd →
      ∀ i, (s.clients i).active = true → (s.clients i).tcpFd = fd → (s.clients i).recvState.Whole
  | _ => True

instance (fd : ℤ) (s : Server n) (e : Event n) : Decidable (WholeBody fd s e) :=
  match e with
  | .readable x _ _ _ => inferInstanceAs (Decidable (x = fd →
      ∀ i, (s.clients i).active = true → (s.clients i).tcpFd = fd → (s.clients i).recvState.Whole))
  | .tick .. | .udp .. | .accept .. | .tun .. | .expire .. | .reload .. => isTrue trivial

/-- The frame of the connection `fd` that an event hands to `server_handle_packet`. -/
def passedNow (fd : ℤ) (s : Server n) (e : Event n) : List Bytes :=
  match eventCall s e with
  | some c => if c.fd = fd then [c.packet] else []
  | none => []

variable (N) in
def passed (fd : ℤ) : Server n → List (Event n) → List Bytes
  | _, [] => []
  | s, e :: es => passedNow fd s e ++ passed fd (serverStep N s e).1 es

/-- What is left to read of the connection `fd`, while it is open, are these frames. -/
def Streaming (s : Server n) (fd : ℤ) (rest : List Bytes) : Prop :=
  ∀ k ∈ s.sockets, k.fd = fd → ∀ i, (s.clients i).active = true → (s.clients i).tcpFd = fd →
    Pending (s.clients i).recvState k.unread rest

/-- The next call for the connection gives the first of the frames, or none yet; it fails only when a read does. -/
def NextRead (st : TcpRecvState) (unread : Bytes) (rest : List Bytes) : Prop :=
  ∀ buffer reads, match (netTcpRecvFrame RECV_MAX buffer st unread reads).1 with
    | .frame f => ∃ fs, rest = f :: fs
    | .again => True
    | .error => Read.closed ∈ reads

theorem recvMax_lt : RECV_MAX < 2 ^ 16 := by decide

theorem Pending.nextRead {st : TcpRecvState} {unread : Bytes} {rest : List Bytes} (h : Pending st unread rest)
    (hfit : FramesFit RECV_MAX rest) (hwhole : st.Whole) : NextRead st unread rest := by
  intro buffer reads
  have := netTcpRecvFrame_ok buffer reads h hfit recvMax_lt hwhole
  unfold RecvOk at this
  cases hrc : (netTcpRecvFrame RECV_MAX buffer st unread reads).1 with
  | frame f =>
    rw [hrc] at this
    obtain ⟨fs, hfs, -⟩ := this
    exact ⟨fs, hfs⟩
  | again => trivial
  | error =>
    rw [hrc] at this
    exact this

/-- A whole frame leaves the state of the reader as at the start. -/
theorem netTcpRecvFrame_frame {size : ℕ} {buffer : Buffer} {st st' : TcpRecvState} {unread unread' : Bytes}
    {reads : List Read} {f : Bytes} (h : netTcpRecvFrame size buffer st unread reads = (.frame f, st', unread')) :
    st' = .zero := by
  have hbody : ∀ st unread reads, recvBody buffer st unread reads = (.frame f, st', unread') → st' = .zero := by
    intro st unread reads h
    unfold recvBody at h
    dsimp only at h
    split at h <;> cases h
    rfl
  unfold netTcpRecvFrame at h
  split at h
  · exact hbody _ _ _ h
  · dsimp only at h
    split at h
    · cases h
    · cases h
    · split at h
      · cases h
      · exact hbody _ _ _ h

section Step

variable {s s' : Server n} {fd x : ℤ} {rest : List Bytes}

theorem Linked.streaming (h : Linked x s s') (hs : Streaming s fd rest) (hfd : 0 ≤ fd)
    (hzero : x = fd → ∀ k ∈ s.sockets, k.fd = fd → Pending .zero k.unread rest) : Streaming s' fd rest := by
  intro k hk hkfd i hactive hi
  have hk' := h.sockets k hk
  rcases h.entry i hactive (hi ▸ hfd) with ⟨ha, htcp, hrecv⟩ | ⟨hx, hrecv⟩
  · rw [hrecv]
    exact hs k hk' hkfd i ha (htcp.symm.trans hi)
  · rw [hrecv]
    exact hzero (hx.symm.trans hi) k hk' hkfd

theorem Linked.streaming_quiet (h : Linked (-1) s s') (hs : Streaming s fd rest) (hfd : 0 ≤ fd) :
    Streaming s' fd rest := h.streaming hs hfd fun hx => by omega

theorem serverAccept_streaming (hs : Streaming s fd rest) (hne : x ≠ fd) (peer : SockAddr) (stream : Bytes)
    (nonblocking : Bool) : Streaming (serverAccept s x peer stream nonblocking) fd rest := by
  intro k hk hkfd i hactive hi
  have hsockets : ∀ t : Server n, ∀ k ∈ (acceptSlot t x peer stream).sockets, k.fd = fd → k ∈ t.sockets := by
    intro t k hk hkfd
    unfold acceptSlot at hk
    split at hk
    · exact hk
    · rcases List.mem_cons.mp hk with rfl | hk
      · exact absurd hkfd hne
      · exact hk
  have hk' : k ∈ s.sockets := by
    unfold serverAccept at hk
    dsimp only at hk
    split at hk
    · exact hk
    · split at hk
      · exact hk
      · split at hk
        · split at hk
          · exact hk
          · exact netTcpClose_subset _ _ k (hsockets _ k hk hkfd)
        · exact hsockets _ k hk hkfd
  rcases serverAccept_entry s x peer stream nonblocking i with h | ⟨-, h | h⟩
  · rw [h] at hactive hi ⊢
    exact hs k hk' hkfd i hactive hi
  · rw [h] at hactive
    cases hactive
  · rw [h] at hi
    exact absurd hi hne

theorem setUnread_streaming (hs : Streaming s fd rest) (hne : x ≠ fd) {i : Fin n} (hi : (s.clients i).tcpFd = x)
    (st : TcpRecvState) (unread : Bytes) :
    Streaming { s.setClient i { s.clients i with recvState := st } with
      sockets := setUnread s.sockets x unread } fd rest := by
  intro k hk hkfd j hactive hj
  have hji : j ≠ i := by
    rintro rfl
    rw [show ({ s.setClient j { s.clients j with recvState := st } with
      sockets := setUnread s.sockets x unread } : Server n).clients j = _ from Server.setClient_self ..] at hj
    exact hne (hi.symm.trans hj)
  rw [show ({ s.setClient i { s.clients i with recvState := st } with
    sockets := setUnread s.sockets x unread } : Server n).clients j = s.clients j
    from Server.setClient_of_ne _ _ _ hji] at hactive hj ⊢
  obtain ⟨k₀, hk₀, heq⟩ := List.mem_map.mp hk
  have hk₀fd : k₀.fd = fd := by
    rw [← heq] at hkfd
    split at hkfd <;> exact hkfd
  rw [if_neg (by simp [hk₀fd, Ne.symm hne])] at heq
  exact hs k (heq ▸ hk₀) hkfd j hactive hj

def readFrom (s : Server n) (fd : ℤ) (i : Fin n) (st : TcpRecvState) (unread : Bytes) : Server n :=
  { s.setClient i { s.clients i with recvState := st } with sockets := setUnread s.sockets fd unread }

theorem readFrom_self (i : Fin n) (st : TcpRecvState) (unread : Bytes) :
    (readFrom s fd i st unread).clients i = { s.clients i with recvState := st } := Server.setClient_self ..

theorem drainTcpClientRead_eq {i : Fin n} {unread : Bytes} (hslot : slotOfFd s.clients fd = some i)
    (hunread : socketUnread s.sockets fd = some unread) (buffer : Buffer) (reads : List Read) (grow : Grow) :
    drainTcpClientRead s fd buffer reads grow =
      match netTcpRecvFrame RECV_MAX buffer (s.clients i).recvState unread reads with
      | (.again, st, unread) => (readFrom s fd i st unread, none)
      | (.error, st, unread) => (serverEndClient grow i (readFrom s fd i st unread), none)
      | (.frame packet, st, unread) => (readFrom s fd i st unread, some (packet, (s.clients i).addr)) := by
  unfold drainTcpClientRead
  rw [hslot]
  dsimp only
  rw [hunread]
  dsimp only
  generalize netTcpRecvFrame RECV_MAX buffer (s.clients i).recvState unread reads = q
  obtain ⟨rc, st, rest⟩ := q
  cases rc with
  | again => rfl
  | error => rfl
  | frame packet =>
    dsimp only
    rw [Server.setClient_self]
    rfl

theorem Slots.socketUnread {K : Prop} {conns : List Conn} (h : Slots K s conns) {i : Fin n}
    (hactive : (s.clients i).active = true) (hi : (s.clients i).tcpFd = fd) (hfd : 0 ≤ fd) :
    ∃ k ∈ s.sockets, k.fd = fd ∧ socketUnread s.sockets fd = some k.unread ∧ ∀ k' ∈ s.sockets, k'.fd = fd → k' = k := by
  have hmem : fd ∈ s.sockets.map Socket.fd := by
    rw [h.sockets]
    exact hi ▸ h.tcpFd_mem hactive (hi ▸ hfd)
  have hnodup : (s.sockets.map Socket.fd).Nodup := h.sockets ▸ h.distinct
  obtain ⟨k₀, hk₀, hk₀fd⟩ := List.mem_map.mp hmem
  cases hfind : s.sockets.find? fun k => k.fd == fd with
  | none => exact absurd hk₀fd (by simpa using List.find?_eq_none.mp hfind k₀ hk₀)
  | some k =>
    have hk := List.mem_of_find?_eq_some hfind
    have hkfd : k.fd = fd := by simpa using List.find?_some hfind
    refine ⟨k, hk, hkfd, ?_, fun k' hk' hk'fd =>
      List.inj_on_of_nodup_map hnodup hk' hk (hk'fd.trans hkfd.symm)⟩
    unfold Camex.socketUnread
    rw [hfind]
    rfl

theorem readFrom_streaming {K : Prop} {conns : List Conn} (h : Slots K s conns) {i : Fin n}
    (hactive : (s.clients i).active = true) (hi : (s.clients i).tcpFd = fd) (hfd : 0 ≤ fd) {st : TcpRecvState}
    {unread : Bytes} (hpending : Pending st unread rest) : Streaming (readFrom s fd i st unread) fd rest := by
  intro k hk hkfd j hja hj
  obtain ⟨k₀, -, rfl⟩ := List.mem_map.mp hk
  have hk₀ : (k₀.fd == fd) = true := by
    split at hkfd
    · assumption
    · simpa using hkfd
  rw [if_pos hk₀]
  have hji : j = i := by
    by_contra hne
    rw [show (readFrom s fd i st unread).clients j = s.clients j from Server.setClient_of_ne _ _ _ hne] at hja hj
    exact hne (h.one i j hactive hja (hi ▸ hfd) (hj.trans hi.symm))
  subst hji
  rw [readFrom_self]
  exact hpending

theorem serverStep_call {e : Event n} {c : Call n} (hcall : eventCall s e = some c) :
    (serverStep N s e).1 = (serverHandlePacket N c.server c.env c.packet c.src c.fd).1 := by
  unfold serverStep
  rw [hcall]

/-- **A readable connection**: the frame it passes, if any, is the next one. -/
theorem readable_streaming {K : Prop} {conns : List Conn} (h : Slots K s conns) (hs : Streaming s fd rest)
    (hfd : 0 ≤ fd) (hfit : FramesFit RECV_MAX rest) {buffer : Buffer} {reads : List Read} {env : PacketEnv}
    (he : ∃ i, (s.clients i).active = true ∧ (s.clients i).tcpFd = x)
    (hx : 0 ≤ x) (hwhole : WholeBody fd s (.readable x buffer reads env)) :
    ∃ rest', rest = passedNow fd s (.readable x buffer reads env) ++ rest' ∧
      Streaming (serverStep N s (.readable x buffer reads env)).1 fd rest' := by
  obtain ⟨i₀, ha₀, hi₀⟩ := he
  obtain ⟨i, hslot⟩ : ∃ i, slotOfFd s.clients x = some i := lowest_isSome (i := i₀) (by simp [ha₀, hi₀])
  obtain ⟨hactive, hi⟩ := slotOfFd_some hslot
  obtain ⟨k, hk, hkfd, hunread, honly⟩ := h.socketUnread hactive hi hx
  have hdrain := drainTcpClientRead_eq hslot hunread buffer reads env.grow
  generalize hrecv : netTcpRecvFrame RECV_MAX buffer (s.clients i).recvState k.unread reads = q at hdrain
  obtain ⟨rc, st, unread⟩ := q
  have hother : x ≠ fd → Streaming (readFrom s x i st unread) fd rest := fun hne => setUnread_streaming hs hne hi st unread
  have hown : x = fd → RecvOk rest reads (rc, st, unread) := by
    rintro rfl
    rw [← hrecv]
    exact netTcpRecvFrame_ok buffer reads (hs k hk hkfd i hactive hi) hfit recvMax_lt (hwhole rfl i hactive hi)
  cases rc with
  | again =>
    have hcall : eventCall s (.readable x buffer reads env) = none := by
      unfold eventCall
      dsimp only
      rw [hdrain]
    refine ⟨rest, by unfold passedNow; rw [hcall]; rfl, ?_⟩
    have hstep : (serverStep N s (.readable x buffer reads env)).1 = readFrom s x i st unread := by
      unfold serverStep
      rw [hcall]
      show (drainTcpClientRead s x buffer reads env.grow).1 = _
      rw [hdrain]
    rw [hstep]
    by_cases hne : x = fd
    · subst hne
      exact readFrom_streaming h hactive hi hx (hown rfl)
    · exact hother hne
  | error =>
    have hcall : eventCall s (.readable x buffer reads env) = none := by
      unfold eventCall
      dsimp only
      rw [hdrain]
    refine ⟨rest, by unfold passedNow; rw [hcall]; rfl, ?_⟩
    have hstep : (serverStep N s (.readable x buffer reads env)).1 =
        serverEndClient env.grow i (readFrom s x i st unread) := by
      unfold serverStep
      rw [hcall]
      show (drainTcpClientRead s x buffer reads env.grow).1 = _
      rw [hdrain]
    rw [hstep]
    by_cases hne : x = fd
    · -- the connection is closed
      subst hne
      intro k' hk' hk'fd
      rw [show (serverEndClient env.grow i (readFrom s x i st unread)).sockets =
        netTcpClose (readFrom s x i st unread).sockets ((readFrom s x i st unread).clients i).tcpFd from rfl,
        readFrom_self] at hk'
      unfold netTcpClose at hk'
      rw [if_neg (by rw [hi]; exact not_lt.mpr hx)] at hk'
      have := (List.mem_filter.mp hk').2
      rw [hi, hk'fd] at this
      simp at this
    · exact (serverEndClient_linked env.grow i _).streaming_quiet (hother hne) hfd
  | frame packet =>
    have hcall : eventCall s (.readable x buffer reads env) =
        some ⟨readFrom s x i st unread, env, packet, (s.clients i).addr, x⟩ := by
      unfold eventCall
      dsimp only
      rw [hdrain]
    have hlinked := @serverHandlePacket_linked _ x _ N (readFrom s x i st unread) env packet
      (s.clients i).addr
    rw [serverStep_call hcall]
    unfold passedNow
    rw [hcall]
    dsimp only
    by_cases hne : x = fd
    · subst hne
      obtain ⟨fs, rfl, hpending⟩ := hown rfl
      have hread := readFrom_streaming h hactive hi hx hpending
      have hst := netTcpRecvFrame_frame hrecv
      dsimp only at hpending
      rw [if_pos rfl]
      refine ⟨fs, rfl, hlinked.streaming hread hx fun _ k' hk' hk'fd => ?_⟩
      -- a handshake that moves the connection finds it between two frames
      rw [← hst]
      obtain ⟨k₀, -, rfl⟩ := List.mem_map.mp hk'
      have hk₀ : (k₀.fd == x) = true := by
        split at hk'fd
        · assumption
        · simpa using hk'fd
      rw [if_pos hk₀]
      exact hpending
    · rw [if_neg hne]
      exact ⟨rest, rfl, hlinked.streaming (hother hne) hfd fun heq => absurd heq hne⟩

/-- **One event**: what it passes of a connection are the next of its frames. -/
theorem serverStep_streaming {K : Prop} {conns : List Conn} {e : Event n} (h : Slots K s conns)
    (hs : Streaming s fd rest) (hfd : 0 ≤ fd) (hfit : FramesFit RECV_MAX rest)
    (htcp : s.conf.cfg.transport = .tcp) (he : e.Enabled s) (hwhole : WholeBody fd s e)
    (hno : ∀ peer stream nonblocking, e ≠ .accept fd peer stream nonblocking) :
    ∃ rest', rest = passedNow fd s e ++ rest' ∧ Streaming (serverStep N s e).1 fd rest' := by
  cases e with
  | tick now => exact ⟨rest, rfl, hs⟩
  | udp packet src env =>
    rw [show Event.Enabled s (.udp packet src env) = (s.conf.cfg.transport = .udp) from rfl, htcp] at he
    cases he
  | accept x peer stream nonblocking =>
    have hne : x ≠ fd := by
      rintro rfl
      exact hno peer stream nonblocking rfl
    exact ⟨rest, rfl, serverAccept_streaming hs hne peer stream nonblocking⟩
  | readable x buffer reads env => exact readable_streaming h hs hfd hfit he.2.2 he.2.1 hwhole
  | tun packet env =>
    have hd := handleTunPacket_delivered (N := N) s env packet
    have hlinked : Linked (-1) s (handleTunPacket N s env packet) :=
      .of_same (congrArg Server.sockets hd.eq :) fun i => (hd.entry i).sameLink
    exact ⟨rest, rfl, hlinked.streaming_quiet hs hfd⟩
  | expire grow => exact ⟨rest, rfl, (serverExpireClients_linked grow s).streaming_quiet hs hfd⟩
  | reload file mem grow =>
    refine ⟨rest, rfl, Linked.streaming_quiet (s := s) ?_ hs hfd⟩
    show Linked (-1) s (serverReload N s file mem grow)
    unfold serverReload
    split
    · exact .refl s
    · rename_i conf _
      have hconf : Linked (-1) s { s with conf := conf } := .of_same rfl fun _ => .refl _
      exact (hconf.trans (serverRevalidate_linked grow _)).trans (.of_same rfl fun _ => .refl _)

end Step

/-- The frames a run passes of a connection, and those it leaves to be read. -/
theorem passed_streaming {s t : Server n} {es : List (Event n)} {fd : ℤ} {rest : List Bytes} {conns : List Conn}
    (h : Ledgered N False s conns) (hs : Streaming s fd rest) (hfd : 0 ≤ fd) (hfit : FramesFit RECV_MAX rest)
    (hrun : Machine.Steps (serverMachine N n) (WholeBody fd) s es t)
    (hno : ∀ e ∈ es, ∀ peer stream nonblocking, e ≠ .accept fd peer stream nonblocking) :
    ∃ rest', rest = passed N fd s es ++ rest' ∧ Streaming t fd rest' := by
  induction hrun generalizing conns rest with
  | nil s => exact ⟨rest, rfl, hs⟩
  | @cons s t u e es hstep hwhole _ ih =>
    obtain ⟨conns', -, h'⟩ := h.step (fun hf => hf.elim) hstep
    obtain ⟨rest₁, rfl, hs'⟩ := serverStep_streaming (N := N) h.slots hs hfd hfit h.tcp
      (serverMachine_enabled hstep) hwhole (hno e List.mem_cons_self)
    rw [← serverMachine_next hstep] at hs'
    obtain ⟨rest₂, rfl, hs''⟩ := ih h' hs' (fun f hf => hfit f (List.mem_append_right _ hf))
      fun e he => hno e (List.mem_cons_of_mem _ he)
    refine ⟨rest₂, ?_, hs''⟩
    rw [serverMachine_next hstep, ← List.append_assoc]
    rfl

theorem serverAccept_stream {s : Server n} {K : Prop} {conns : List Conn} (h : Slots K s conns) {fd : ℤ} (hfd : 0 ≤ fd)
    (hnew : ∀ k ∈ s.sockets, k.fd ≠ fd) (peer : SockAddr) (frames : List Bytes) (nonblocking : Bool) :
    Streaming (serverAccept s fd peer (streamBytes frames) nonblocking) fd frames := by
  intro k hk hkfd i hactive hi
  have hsockets : ∀ t : Server n, (∀ k ∈ t.sockets, k.fd ≠ fd) →
      ∀ k ∈ (acceptSlot t fd peer (streamBytes frames)).sockets, k.fd = fd → k.unread = streamBytes frames := by
    intro t ht k hk hkfd
    unfold acceptSlot at hk
    split at hk
    · exact absurd hkfd (ht k hk)
    · rcases List.mem_cons.mp hk with rfl | hk
      · rfl
      · exact absurd hkfd (ht k hk)
  have hunread : k.unread = streamBytes frames := by
    unfold serverAccept at hk
    dsimp only at hk
    split at hk
    · exact absurd hkfd (hnew k hk)
    · split at hk
      · exact absurd hkfd (hnew k hk)
      · split at hk
        · split at hk
          · exact absurd hkfd (hnew k hk)
          · exact hsockets _ (fun k hk => hnew k (netTcpClose_subset _ _ k hk)) k hk hkfd
        · exact hsockets _ hnew k hk hkfd
  rw [hunread]
  rcases serverAccept_entry s fd peer (streamBytes frames) nonblocking i with heq | ⟨-, heq | heq⟩
  · -- no entry was on this descriptor before
    rw [heq] at hactive hi
    obtain ⟨k', hk', hk'fd⟩ := List.mem_map.mp (h.sockets ▸ h.tcpFd_mem hactive (hi ▸ hfd))
    exact absurd (hk'fd.trans hi) (hnew k' hk')
  · rw [heq] at hactive
    cases hactive
  · rw [heq]
    exact Pending.zero frames

/-! ## The client -/

/-- The client's TCP connection: `client_recv_state`, and what is unread; `none`: `net_fd` is closed. -/
structure ClientLink where
  recvState : TcpRecvState
  unread : Option Bytes

/-- A call of `drain_udp_packets` over TCP: what the buffer holds and what the reads give. -/
structure ClientRead where
  buffer : Buffer
  reads : List Read

/-- `drain_udp_packets` of a TCP client up to `client_handle_net_packet`. -/
def drainUdpPackets (l : ClientLink) (e : ClientRead) : ClientLink × Option Bytes :=
  match l.unread with
  | none => (l, none)
  | some unread =>
    match netTcpRecvFrame RECV_MAX e.buffer l.recvState unread e.reads with
    | (.frame packet, st, unread) => (⟨st, some unread⟩, some packet)
    | (.again, st, unread) => (⟨st, some unread⟩, none)
    | (.error, st, _) => (⟨st, none⟩, none)

/-- A client that is connected: `client_recv_state` was zeroed, and the server sends frames. -/
def clientMachine (frames : List Bytes) : Machine ClientLink ClientRead where
  start l := l = ⟨.zero, some (streamBytes frames)⟩
  next l e := if l.unread.isSome then some (drainUdpPackets l e).1 else none

/-- The frames passed to `client_handle_net_packet`. -/
def clientPassed : ClientLink → List ClientRead → List Bytes
  | _, [] => []
  | l, e :: es => (drainUdpPackets l e).2.toList ++ clientPassed (drainUdpPackets l e).1 es

def ClientStreaming (l : ClientLink) (rest : List Bytes) : Prop :=
  ∀ unread ∈ l.unread, Pending l.recvState unread rest

def ClientWholeBody (l : ClientLink) (_ : ClientRead) : Prop := l.recvState.Whole

theorem drainUdpPackets_streaming {l : ClientLink} {e : ClientRead} {rest : List Bytes} (h : ClientStreaming l rest)
    (hfit : FramesFit RECV_MAX rest) (hwhole : ClientWholeBody l e) :
    ∃ rest', rest = (drainUdpPackets l e).2.toList ++ rest' ∧ ClientStreaming (drainUdpPackets l e).1 rest' := by
  unfold drainUdpPackets
  cases hunread : l.unread with
  | none => exact ⟨rest, rfl, h⟩
  | some unread =>
    have hok := netTcpRecvFrame_ok e.buffer e.reads (h unread hunread) hfit recvMax_lt hwhole
    dsimp only
    generalize netTcpRecvFrame RECV_MAX e.buffer l.recvState unread e.reads = q at hok
    obtain ⟨rc, st, unread'⟩ := q
    cases rc with
    | frame packet =>
      obtain ⟨fs, rfl, hpending⟩ := hok
      exact ⟨fs, rfl, fun _ hu => by cases hu; exact hpending⟩
    | again => exact ⟨rest, rfl, fun _ hu => by cases hu; exact hok⟩
    | error => exact ⟨rest, rfl, fun _ hu => by cases hu⟩

theorem clientPassed_streaming {frames : List Bytes} {l l' : ClientLink} {es : List ClientRead} {rest : List Bytes}
    (h : ClientStreaming l rest) (hfit : FramesFit RECV_MAX rest)
    (hrun : Machine.Steps (clientMachine frames) ClientWholeBody l es l') :
    ∃ rest', rest = clientPassed l es ++ rest' ∧ ClientStreaming l' rest' := by
  induction hrun generalizing rest with
  | nil l => exact ⟨rest, rfl, h⟩
  | @cons l t u e es hstep hwhole _ ih =>
    have heq : t = (drainUdpPackets l e).1 := by
      unfold clientMachine at hstep
      dsimp only at hstep
      split at hstep
      · exact (Option.some.inj hstep).symm
      · cases hstep
    obtain ⟨rest₁, rfl, h'⟩ := drainUdpPackets_streaming h hfit hwhole
    rw [← heq] at h'
    obtain ⟨rest₂, rfl, h''⟩ := ih h' fun f hf => hfit f (List.mem_append_right _ hf)
    refine ⟨rest₂, ?_, h''⟩
    rw [heq, ← List.append_assoc]
    rfl

/-! ## Both sides -/

variable (N n) in
/-- On runs whose events meet `C`, the server passes the frames of every connection as they were sent: those it
passed and those still to be read are the frames the peer sends. -/
def ServerFrames (C : ℤ → Server n → Event n → Prop) : Prop :=
  ∀ (s₀ s s₁ s₂ : Server n) (es₀ es : List (Event n)) (fd : ℤ) (peer : SockAddr) (frames : List Bytes)
    (nonblocking : Bool),
    Started N s₀ → s₀.conf.cfg.transport = .tcp → FramesFit RECV_MAX frames →
    Machine.Steps (serverMachine N n) (fun _ _ => True) s₀ es₀ s →
    (serverMachine N n).next s (.accept fd peer (streamBytes frames) nonblocking) = some s₁ →
    Machine.Steps (serverMachine N n) (C fd) s₁ es s₂ →
    (∀ e ∈ es, ∀ peer stream nonblocking, e ≠ .accept fd peer stream nonblocking) →
    ∃ rest, frames = passed N fd s₁ es ++ rest ∧ Streaming s₂ fd rest ∧
      ∀ k ∈ s₂.sockets, k.fd = fd → ∀ i, (s₂.clients i).active = true → (s₂.clients i).tcpFd = fd →
        (s₂.clients i).recvState.Whole → NextRead (s₂.clients i).recvState k.unread rest

def ClientFrames (C : ClientLink → ClientRead → Prop) : Prop :=
  ∀ (frames : List Bytes) (l₀ l : ClientLink) (es : List ClientRead), FramesFit RECV_MAX frames →
    (clientMachine frames).start l₀ → Machine.Steps (clientMachine frames) C l₀ es l →
    ∃ rest, frames = clientPassed l₀ es ++ rest ∧ ClientStreaming l rest ∧
      ∀ unread ∈ l.unread, l.recvState.Whole → NextRead l.recvState unread rest

/-- **Frames over TCP** reach both sides as they were sent, when no call resumes inside a body. -/
theorem tcpFrames : ServerFrames n N WholeBody ∧ ClientFrames ClientWholeBody := by
  constructor
  · intro s₀ s s₁ s₂ es₀ es fd peer frames nonblocking hs₀ htcp hfit hrun₀ haccept hrun hno
    obtain ⟨conns, -, h⟩ := (Ledgered.start (K := False) hs₀ htcp).run (fun _ _ hf => hf.elim) hrun₀
    obtain ⟨-, hfd, hnew⟩ := serverMachine_enabled haccept
    obtain ⟨conns₁, -, h₁⟩ := h.step (fun hf => hf.elim) haccept
    have hstream := serverAccept_stream h.slots hfd hnew peer frames nonblocking
    have heq := serverMachine_next haccept
    obtain ⟨rest, hpassed, hs₂⟩ := passed_streaming h₁ (heq ▸ hstream) hfd hfit hrun hno
    refine ⟨rest, hpassed, hs₂, fun k hk hkfd i hactive hi hwhole => ?_⟩
    refine (hs₂ k hk hkfd i hactive hi).nextRead (fun f hf => hfit f ?_) hwhole
    rw [hpassed]
    exact List.mem_append_right _ hf
  · rintro frames l₀ l es hfit rfl hrun
    have hstart : ClientStreaming ⟨.zero, some (streamBytes frames)⟩ frames := fun _ hu => by
      cases hu
      exact Pending.zero frames
    obtain ⟨rest, hpassed, hl⟩ := clientPassed_streaming hstart hfit hrun
    refine ⟨rest, hpassed, hl, fun unread hunread hwhole => (hl unread hunread).nextRead (fun f hf => hfit f ?_) hwhole⟩
    rw [hpassed]
    exact List.mem_append_right _ hf

/-- The reads of one call, into a buffer of zeros. -/
def tcpReads {n : ℕ} (fd : ℤ) (reads : List Read) : Event n := .readable fd (fun _ => 0) reads (toyEnv 1)

/-- Two frames, cut in and behind their headers. -/
theorem tcpFrames_cut : ∃ (s : Server 3) (es : List (Event 3)) (rest : List Bytes),
    [[1, 2], [3]] = passed toyNoise 7 s es ++ rest ∧ rest = [] := by
  let es : List (Event 3) := [tcpReads 7 [.bytes 1, .again], tcpReads 7 [.bytes 1, .again], tcpReads 7 [.bytes 1, .bytes 1],
    tcpReads 7 [.bytes 2, .bytes 1]]
  have haccept : ((toyMachine 3).next (toyServer 3 .tcp toyDb) (tcpAccept 7 (toySource 1 1000) [[1, 2], [3]])).any
      (fun s => ((toyMachine 3).runUnder (WholeBody 7) s es).any fun _ =>
        passed toyNoise 7 s es == [[1, 2], [3]]) = true := by decide +kernel
  obtain ⟨s₁, hs₁, hrun⟩ := (Option.any_eq_true _ _).mp haccept
  obtain ⟨s₂, hs₂, hpassed⟩ := (Option.any_eq_true _ _).mp hrun
  obtain ⟨rest, hrest, -⟩ := (tcpFrames (n := 3) (N := toyNoise)).1 (toyServer 3 .tcp toyDb) (toyServer 3 .tcp toyDb) s₁ s₂ []
    es 7 (toySource 1 1000) [[1, 2], [3]] true (toyServer_started 3 .tcp toyDb) rfl (by unfold FramesFit; decide)
    (.nil _) hs₁ (Machine.runUnder_steps hs₂) (by simp [es, tcpReads])
  refine ⟨s₁, es, rest, hrest, ?_⟩
  rw [beq_iff_eq.mp hpassed] at hrest
  simpa using hrest

/-- A body that comes in two pieces: the first byte stays in the buffer of the first call. -/
theorem not_tcpFrames :
    ¬ (ServerFrames 3 toyNoise (fun _ _ _ => True) ∧ ClientFrames (fun _ _ => True)) := by
  rintro ⟨h, -⟩
  let es : List (Event 3) := [tcpReads 7 [.bytes 2, .bytes 1, .again], tcpReads 7 [.bytes 1]]
  have haccept : ((toyMachine 3).next (toyServer 3 .tcp toyDb) (tcpAccept 7 (toySource 1 1000) [[1, 2]])).any
      (fun s => ((toyMachine 3).runUnder (fun _ _ => True) s es).any fun _ =>
        passed toyNoise 7 s es == [[0, 2]]) = true := by decide +kernel
  obtain ⟨s₁, hs₁, hrun⟩ := (Option.any_eq_true _ _).mp haccept
  obtain ⟨s₂, hs₂, hpassed⟩ := (Option.any_eq_true _ _).mp hrun
  obtain ⟨rest, hrest, -⟩ := h (toyServer 3 .tcp toyDb) (toyServer 3 .tcp toyDb) s₁ s₂ [] es 7 (toySource 1 1000)
    [[1, 2]] true (toyServer_started 3 .tcp toyDb) rfl (by unfold FramesFit; decide) (.nil _) hs₁
    (Machine.runUnder_steps hs₂) (by simp [es, tcpReads])
  rw [beq_iff_eq.mp hpassed] at hrest
  simp at hrest

end Camex
