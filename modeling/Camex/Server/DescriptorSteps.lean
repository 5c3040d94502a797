import Camex.Server.Descriptors
import Camex.Server.InitEntry

/-!
# Descriptors: what each event closes

`Closes`: some calls of `close()` are each for an open connection, and leave those of the entries. Each function
of the server has its lemma; `AdoptsRegistered` is what they ask of a handshake.

* `loopCloses_slots`: a loop over the slots keeps what each visit keeps;
* `serverHandleInit_closes`, `serverAccept_closes`: handshakes and accepts;
* `Limits`: the limits for connections before their handshake;
* `ledgerStep_slots`, `Ledgered.run`: every event, and every run.
-/

namespace Camex

open Lib

variable {n : ℕ}

/-! ## What each function keeps -/

/-- The entry of slot `i` has a connection that is still to register. -/
def PreauthAt (s : Server n) (i : Fin n) : Prop := (s.clients i).active = true ∧ (s.clients i).preauth = true

/-- No further entry has one, and they are from where they were. -/
def PreauthKept (s s' : Server n) : Prop :=
  ∀ i, PreauthAt s' i → PreauthAt s i ∧ (s'.clients i).addr = (s.clients i).addr

/-- The calls `fds` close connections that are open, and leave those of the entries of `s'`. -/
def Closes (K : Prop) (s : Server n) (conns : List Conn) (fds : List ℤ) (s' : Server n) : Prop :=
  ∃ conns', closeEach conns fds = some conns' ∧ (∀ k ∈ conns', k ∈ conns) ∧ Slots K s' conns' ∧ (K → PreauthKept s s')

theorem PreauthKept.refl (s : Server n) : PreauthKept s s := fun _ hp => ⟨hp, rfl⟩

theorem PreauthKept.trans {s s' s'' : Server n} (h : PreauthKept s s') (h' : PreauthKept s' s'') :
    PreauthKept s s'' := fun i hp =>
  have hi' := h' i hp
  have hi := h i hi'.1
  ⟨hi.1, hi'.2.trans hi.2⟩

variable {K : Prop}

theorem preauthKept_of_same {s s' : Server n} (h : ∀ i, SameConn K (s.clients i) (s'.clients i)) (hK : K) :
    PreauthKept s s' := fun i hp =>
    have ha := (h i).active.symm.trans hp.1
    have hpre := (h i).preauth hK ha hp.2
    ⟨⟨ha, hpre.1⟩, hpre.2.1⟩

theorem Closes.none {s : Server n} {conns : List Conn} (h : Slots K s conns) : Closes K s conns [] s :=
  ⟨conns, rfl, fun _ hk => hk, h, fun _ => .refl s⟩

theorem Closes.append {s s' s'' : Server n} {conns : List Conn} {fds fds' : List ℤ} (h : Closes K s conns fds s')
    (h' : ∀ conns', Slots K s' conns' → Closes K s' conns' fds' s'') : Closes K s conns (fds ++ fds') s'' := by
  obtain ⟨conns', hclose, hsub, hslots, hpre⟩ := h
  obtain ⟨conns'', hclose', hsub', hslots', hpre'⟩ := h' conns' hslots
  refine ⟨conns'', ?_, fun k hk => hsub k (hsub' k hk), hslots', fun hK => (hpre hK).trans (hpre' hK)⟩
  rw [closeEach_append, hclose]
  exact hclose'

theorem Closes.congr {s s' s'' : Server n} {conns : List Conn} {fds : List ℤ} (h : Closes K s conns fds s')
    (hsame : ∀ i, SameConn K (s'.clients i) (s''.clients i))
    (hsockets : s''.sockets.map Socket.fd = s'.sockets.map Socket.fd) : Closes K s conns fds s'' := by
  obtain ⟨conns', hclose, hsub, hslots, hpre⟩ := h
  exact ⟨conns', hclose, hsub, hslots.congr hsame hsockets, fun hK => (hpre hK).trans (preauthKept_of_same hsame hK)⟩

theorem Closes.same {s s' : Server n} {conns : List Conn} (h : Slots K s conns)
    (hsame : ∀ i, SameConn K (s.clients i) (s'.clients i))
    (hsockets : s'.sockets.map Socket.fd = s.sockets.map Socket.fd) : Closes K s conns [] s' :=
  (Closes.none h).congr hsame hsockets

/-- The calls follow some others that leave every entry on its connection. -/
theorem Closes.behind {s s₁ s' : Server n} {conns : List Conn} {fds : List ℤ} (h : Closes K s₁ conns fds s')
    (hsame : ∀ i, SameConn K (s.clients i) (s₁.clients i)) : Closes K s conns fds s' := by
  obtain ⟨conns', hclose, hsub, hslots, hpre⟩ := h
  exact ⟨conns', hclose, hsub, hslots, fun hK => (preauthKept_of_same hsame hK).trans (hpre hK)⟩

section Keep

variable {K : Prop} {s : Server n} {conns : List Conn}

/-- The entry of slot `i` is replaced, neither on a connection. -/
theorem Closes.offline (h : Slots K s conns) {i : Fin n} {c : ServerClient}
    (hi : (s.clients i).active = true → (s.clients i).tcpFd < 0) (hc : c.active = true → c.tcpFd < 0) :
    Closes K s conns [] (s.setClient i c) := by
  refine ⟨conns, rfl, fun _ hk => hk, h.offline hi hc, fun _ j hp => ?_⟩
  by_cases hj : j = i
  · subst hj
    unfold PreauthAt at hp
    rw [Server.setClient_self] at hp
    obtain ⟨ha, hpre⟩ := hp
    have := hc ha
    simp only [ServerClient.preauth, Bool.and_eq_true, decide_eq_true_eq] at hpre
    omega
  · unfold PreauthAt at hp
    rw [Server.setClient_of_ne _ _ _ hj] at hp ⊢
    exact ⟨hp, rfl⟩

theorem serverDropEntry_closes (h : Slots K s conns) {i : Fin n} (ha : (s.clients i).active = true) :
    Closes K s conns (serverDropEntryCloses s i) (serverDropEntry s i) := by
  obtain ⟨conns', hclose, hsub, hslots⟩ := h.close (c := .wiped) ha nofun
  refine ⟨conns', hclose, hsub, hslots, fun _ j hp => ?_⟩
  by_cases hj : j = i
  · subst hj
    have := hp.1
    rw [serverDropEntry_self] at this
    cases this
  · unfold PreauthAt at hp
    rw [serverDropEntry_of_ne _ _ hj] at hp ⊢
    exact ⟨hp, rfl⟩

theorem serverEndClient_closes (h : Slots K s conns) {i : Fin n} (ha : (s.clients i).active = true) (grow : Grow) :
    Closes K s conns (serverEndClientCloses i s) (serverEndClient grow i s) :=
  (serverDropEntry_closes h ha).congr (fun _ => .refl _) rfl

theorem setClient_sameConn {i : Fin n} {c : ServerClient} (hc : SameConn K (s.clients i) c) (j : Fin n) :
    SameConn K (s.clients j) ((s.setClient i c).clients j) := by
  by_cases hj : j = i
  · subst hj
    rwa [Server.setClient_self]
  · rw [Server.setClient_of_ne _ _ _ hj]
    exact .refl _

theorem Slots.setClient (h : Slots K s conns) {i : Fin n} {c : ServerClient} (hc : SameConn K (s.clients i) c) :
    Slots K (s.setClient i c) conns := h.congr (setClient_sameConn hc) rfl

/-- **A loop over the slots** keeps what each visit keeps. -/
theorem loopCloses_slots {f : Fin n → Server n → Server n} {closes : Fin n → Server n → List ℤ}
    (hf : ∀ i s conns, Slots K s conns → Closes K s conns (closes i s) (f i s)) (h : Slots K s conns) :
    Closes K s conns (loopCloses f closes s) (forSlots f s) := by
  have hloop : ∀ (is : List (Fin n)) (s' : Server n) (fds : List ℤ), Closes K s conns fds s' →
      Closes K s conns (is.foldl (fun p i => (f i p.1, p.2 ++ closes i p.1)) (s', fds)).2
        (is.foldl (fun s i => f i s) s') := by
    intro is
    induction is with
    | nil => exact fun s fds hs => hs
    | cons i is ih => exact fun s fds hs => ih _ _ (hs.append fun conns' => hf i s conns')
  exact hloop _ s [] (.none h)

theorem expireSessions_sameConn (c : ServerClient) (now : Time) : SameConn K c (expireSessions c now) := by
  unfold expireSessions
  dsimp only
  split <;> split <;> exact .of_eq rfl rfl rfl rfl rfl

theorem serverExpireClient_closes (grow : Fin n → Grow) (i : Fin n) (h : Slots K s conns) :
    Closes K s conns (serverExpireClientCloses i s) (serverExpireClient grow i s) := by
  unfold serverExpireClientCloses serverExpireClient
  dsimp only
  split
  · exact .none h
  · rename_i ha
    have hsame := setClient_sameConn (K := K) (expireSessions_sameConn (s.clients i) s.now)
    split
    · refine (serverEndClient_closes (h.congr hsame rfl) ?_ (grow i)).behind hsame
      rw [(hsame i).active]
      simpa using ha
    · exact .same h hsame rfl

theorem serverExpireClients_closes (grow : Fin n → Grow) (h : Slots K s conns) :
    Closes K s conns (serverExpireClientsCloses grow s) (serverExpireClients grow s) := by
  unfold serverExpireClientsCloses serverExpireClients
  split
  · exact .none h
  · exact loopCloses_slots (fun i s conns h => serverExpireClient_closes grow i h)
      (h.congr (fun _ => .refl _) rfl)

theorem serverRevalidateKeys_closes (grow : Fin n → Grow) (h : Slots K s conns) :
    Closes K s conns (serverRevalidateKeysCloses grow s) (serverRevalidateKeys grow s) := by
  refine loopCloses_slots (fun i s conns h => ?_) h
  unfold revalidateKeyCloses revalidateKey
  dsimp only
  split
  · exact .none h
  · rename_i ha
    simp only [Bool.or_eq_true, Bool.not_eq_true', not_or, Bool.not_eq_false] at ha
    exact serverEndClient_closes h ha.1.1 (grow i)

theorem serverRevalidateUnknownClients_closes (grow : Fin n → Grow) (h : Slots K s conns) :
    Closes K s conns (serverRevalidateUnknownClientsCloses grow s) (serverRevalidateUnknownClients grow s) := by
  unfold serverRevalidateUnknownClientsCloses serverRevalidateUnknownClients
  split
  · exact .none h
  · refine loopCloses_slots (fun i s conns h => ?_) h
    unfold revalidateUnknownCloses revalidateUnknown
    dsimp only
    split
    · exact .none h
    · rename_i ha
      simp only [Bool.or_eq_true, Bool.not_eq_true', not_or, Bool.not_eq_false] at ha
      exact serverEndClient_closes h ha.1.1 (grow i)

theorem withdrawOffer_sameConn (db : ServerDb) (c : ServerClient) : SameConn K c (withdrawOffer db c) := by
  unfold withdrawOffer
  split <;> exact .of_eq rfl rfl rfl rfl rfl

theorem serverRevalidateProfileAddresses_closes (h : Slots K s conns) :
    Closes K s conns (serverRevalidateProfileAddressesCloses s) (serverRevalidateProfileAddresses s) := by
  refine loopCloses_slots (fun i s conns h => ?_) h
  unfold revalidateAddressCloses revalidateAddress
  dsimp only
  split
  · exact .none h
  · rename_i ha
    simp only [Bool.or_eq_true, Bool.not_eq_true', not_or, Bool.not_eq_false] at ha
    have hsame := setClient_sameConn (K := K) (withdrawOffer_sameConn s.conf.db (s.clients i))
    split
    · exact .same h hsame rfl
    · refine (serverDropEntry_closes (h.congr hsame rfl) ?_).behind hsame
      rw [(hsame i).active]
      exact ha.1

theorem serverRevalidate_closes (grow : Fin n → Grow) (h : Slots K s conns) :
    Closes K s conns (serverRevalidateCloses grow s) (serverRevalidate grow s) :=
  (serverRevalidateKeys_closes grow h).append fun _ h =>
    (serverRevalidateUnknownClients_closes grow h).append fun _ h => serverRevalidateProfileAddresses_closes h

theorem slotOfFd_some {t : Table n} {fd : ℤ} {i : Fin n} (h : slotOfFd t fd = some i) :
    (t i).active = true ∧ (t i).tcpFd = fd := by
  have := lowest_some h
  simpa using this

theorem setUnread_fds (sockets : List Socket) (fd : ℤ) (unread : Bytes) :
    (setUnread sockets fd unread).map Socket.fd = sockets.map Socket.fd := by
  unfold setUnread
  rw [List.map_map]
  refine List.map_congr_left fun k _ => ?_
  dsimp only [Function.comp]
  split <;> rfl

theorem drainTcpClientRead_closes (h : Slots K s conns) {fd : ℤ} (hfd : ∃ i, slotOfFd s.clients fd = some i)
    (buffer : Buffer) (reads : List Read) (grow : Grow) (hnone : (drainTcpClientRead s fd buffer reads grow).2 = none) :
    Closes K s conns (drainTcpClientReadCloses s fd buffer reads) (drainTcpClientRead s fd buffer reads grow).1 := by
  obtain ⟨i, hi⟩ := hfd
  unfold drainTcpClientReadCloses drainTcpClientRead at *
  rw [hi] at hnone ⊢
  dsimp only at hnone ⊢
  obtain ⟨hactive, -⟩ := slotOfFd_some hi
  cases hunread : socketUnread s.sockets fd with
  | none =>
    dsimp only
    exact serverEndClient_closes h hactive grow
  | some unread =>
    rw [hunread] at hnone
    dsimp only at hnone ⊢
    generalize netTcpRecvFrame RECV_MAX buffer (s.clients i).recvState unread reads = q at hnone ⊢
    obtain ⟨rc, st, rest⟩ := q
    have hsame := setClient_sameConn (show SameConn K (s.clients i) { s.clients i with recvState := st }
      from .of_eq rfl rfl rfl rfl rfl)
    have hread : Slots K { s.setClient i { s.clients i with recvState := st } with
      sockets := setUnread s.sockets fd rest } conns := h.congr hsame (setUnread_fds _ _ _)
    cases rc with
    | frame packet => cases hnone
    | again => exact .same h hsame (setUnread_fds _ _ _)
    | error =>
      dsimp only
      have := serverEndClient_closes hread (i := i)
        (by rw [show ({ s.setClient i { s.clients i with recvState := st } with
          sockets := setUnread s.sockets fd rest } : Server n).clients i = _ from Server.setClient_self ..]
            exact hactive) grow
      have hfdsame : serverEndClientCloses i ({ s.setClient i { s.clients i with recvState := st } with
          sockets := setUnread s.sockets fd rest } : Server n) = serverEndClientCloses i s := by
        unfold serverEndClientCloses serverDropEntryCloses
        rw [show ({ s.setClient i { s.clients i with recvState := st } with
          sockets := setUnread s.sockets fd rest } : Server n).clients i = _ from Server.setClient_self ..]
      rw [hfdsame] at this
      exact this.behind hsame

/-! ### Handshakes -/

/-- A handshake that leads to an entry on another connection finds it registered. -/
def AdoptsRegistered (s : Server n) (r : Register) (src : SockAddr) (fd : ℤ) : Prop :=
  ∀ i, entryChoice s r src fd = .own i → (s.clients i).tcpFd = fd ∨ (s.clients i).registered = true

instance (s : Server n) (r : Register) (src : SockAddr) (fd : ℤ) : Decidable (AdoptsRegistered s r src fd) := by
  unfold AdoptsRegistered
  infer_instance

theorem serverAdoptTcp_closes (h : Slots K s conns) {i : Fin n} {fd : ℤ} (ha : (s.clients i).active = true)
    (hfd : fd ∈ conns.map Conn.fd) (hreg : K → (s.clients i).tcpFd = fd ∨ (s.clients i).registered = true) :
    Closes K s conns (serverAdoptTcpCloses i fd s) (serverAdoptTcp i fd s) := by
  unfold serverAdoptTcpCloses
  split
  · rename_i hno
    rw [show serverAdoptTcp i fd s = s from if_pos hno]
    exact .none h
  · rename_i hadopt
    have hadopted := hadopt
    rw [not_or, not_lt] at hadopted
    obtain ⟨conns', hclose, hsub, hslots⟩ := h.close (c := { s.clients i with tcpFd := -1 }) ha fun _ =>
      (by decide : (-1 : ℤ) < 0)
    generalize hs₁ : ({ s.setClient i { s.clients i with tcpFd := -1 } with
      sockets := netTcpClose s.sockets (s.clients i).tcpFd } : Server n) = s₁ at hslots
    have hself : s₁.clients i = { s.clients i with tcpFd := -1 } := by
      rw [← hs₁]
      exact Server.setClient_self ..
    have hother : ∀ j, j ≠ i → s₁.clients j = s.clients j := by
      intro j hj
      rw [← hs₁]
      exact Server.setClient_of_ne _ _ _ hj
    -- the connection of the handshake is still open
    obtain ⟨k, hk, hkfd⟩ := List.mem_map.mp hfd
    obtain ⟨j, hja, hj⟩ := h.held k hk
    have hji : j ≠ i := by
      rintro rfl
      exact hadopted.2 (hj.trans hkfd)
    have hfd' : fd ∈ conns'.map Conn.fd := by
      have := hslots.tcpFd_mem (i := j) (by rwa [hother j hji]) (by rw [hother j hji, hj, hkfd]; exact hadopted.1)
      rwa [hother j hji, hj, hkfd] at this
    have hmove := hslots.move (i := i) (c := { s.clients i with tcpFd := fd, recvState := .zero }) hfd'
      (fun _ => by rw [hself]; exact (by decide : (-1 : ℤ) < 0)) ha rfl fun hK => (hreg hK).resolve_left hadopted.2
    refine ⟨conns', hclose, hsub, hmove.congr (fun j => ?_) ?_, fun hK j hp => ?_⟩
    · unfold serverAdoptTcp
      rw [if_neg hadopt]
      dsimp only
      by_cases hji : j = i
      · rw [if_pos hji, if_pos hji]
        exact .refl _
      · rw [if_neg hji, if_neg hji, hother j hji]
        exact .refl _
    · rw [← hs₁]
      unfold serverAdoptTcp
      rw [if_neg hadopt]
    · by_cases hji : j = i
      · subst hji
        have hregj := (@serverAdoptTcp_self _ s fd j).eq
        have := hp.2
        rw [hregj] at this
        simp [ServerClient.preauth, (hreg hK).resolve_left hadopted.2] at this
      · unfold PreauthAt at hp
        rcases @serverAdoptTcp_of_ne _ s fd i j hji with heq | ⟨heq, -⟩ <;> rw [heq] at hp ⊢
        · exact ⟨hp, rfl⟩
        · cases hp.1

theorem withManualIp_sameConn (c : ServerClient) (r : Register) : SameConn K c (withManualIp c r) := by
  unfold withManualIp
  split <;> exact .of_eq rfl rfl rfl rfl rfl

theorem withIp_sameConn (e : Entry n) (r : Register) (j : Fin n) :
    SameConn K (e.server.clients j) ((e.withIp r).server.clients j) := by
  by_cases hj : j = e.slot
  · subst hj
    rw [withIp_self]
    exact withManualIp_sameConn _ _
  · rw [withIp_of_ne _ hj]
    exact .refl _

theorem withIp_sockets (e : Entry n) (r : Register) : (e.withIp r).server.sockets = e.server.sockets := by
  unfold Entry.withIp
  split <;> rfl

theorem serverAllocClient_closes (h : Slots K s conns) {grow : Grow} {i : Fin n} {s' : Server n}
    (halloc : serverAllocClient s grow = some (i, s')) : Closes K s conns (serverAllocClientCloses s) s' := by
  unfold serverAllocClient at halloc
  unfold serverAllocClientCloses
  cases hfind : (allocOrder s.allocNext).find? fun i => !(s.clients i).active with
  | some k =>
    rw [hfind] at halloc
    cases halloc
    have hfree : (s.clients i).active = false := by simpa using List.find?_some hfind
    exact (Closes.offline h (i := i) (c := .taken) (fun ha => absurd ha (by simp [hfree]))
      fun _ => (by decide : (-1 : ℤ) < 0)).congr (fun _ => .refl _) rfl
  | none =>
    rw [hfind] at halloc
    dsimp only at halloc ⊢
    split at halloc
    · cases halloc
    · rename_i hhold
      rw [if_neg hhold]
      obtain ⟨k, hk, heq⟩ := Option.map_eq_some_iff.mp halloc
      cases heq
      rw [hk]
      have hactive : (s.clients i).active = true := by
        have := List.find?_eq_none.mp hfind i (mem_allocOrder s.allocNext i)
        simpa using this
      have htaken := (serverEndClient_closes h hactive grow).append fun conns' hslots =>
        Closes.offline hslots (i := i) (c := .taken)
          (fun hwiped => by rw [serverEndClient_self] at hwiped; cases hwiped) fun _ => (by decide : (-1 : ℤ) < 0)
      rwa [List.append_nil] at htaken

theorem noteReconnect_sameConn (c : ServerClient) (src : SockAddr) : SameConn K c (noteReconnect c src) := by
  unfold noteReconnect
  split <;> exact .of_eq rfl rfl rfl rfl rfl

variable {r : Register} {src : SockAddr} {fd : ℤ} {grow : Grow}

theorem serverEntryFor_closes (h : Slots K s conns) {e : Entry n} (hfd : fd ∈ conns.map Conn.fd)
    (hC : K → AdoptsRegistered s r src fd) (he : serverEntryFor s r src fd grow = some e) :
    Closes K s conns (serverEntryForCloses s r src fd) e.server := by
  unfold serverEntryFor at he
  unfold serverEntryForCloses
  cases hchoice : entryChoice s r src fd with
  | rejected => rw [hchoice] at he; cases he
  | own i =>
    rw [hchoice] at he
    cases he
    have hnote := noteReconnect_sameConn (K := K) (s.clients i) src
    have hslots := h.setClient hnote
    have hadopt : Closes K (s.setClient i (noteReconnect (s.clients i) src)) conns
        (serverAdoptTcpCloses i fd (s.setClient i (noteReconnect (s.clients i) src)))
        (resumeEntry s i src fd) := by
      refine serverAdoptTcp_closes hslots ?_ hfd fun hK => ?_
      · rw [Server.setClient_self, hnote.active]
        exact LeadsTo.active (Or.inl hchoice)
      · rw [Server.setClient_self, hnote.tcpFd]
        refine (hC hK i hchoice).imp id fun hreg => ?_
        unfold noteReconnect
        split <;> exact hreg
    have hcloses : serverAdoptTcpCloses i fd (s.setClient i (noteReconnect (s.clients i) src)) =
        serverAdoptTcpCloses i fd s := by
      unfold serverAdoptTcpCloses
      rw [Server.setClient_self, hnote.tcpFd]
    rw [hcloses] at hadopt
    exact (hadopt.behind (setClient_sameConn hnote)).congr (withIp_sameConn ⟨i, false, resumeEntry s i src fd⟩ r)
      (by rw [withIp_sockets])
  | source i =>
    rw [hchoice] at he
    cases he
    exact .same h (withIp_sameConn ⟨i, false, s⟩ r) (by rw [withIp_sockets])
  | fresh =>
    rw [hchoice] at he
    obtain ⟨⟨i, s'⟩, halloc, rfl⟩ := Option.map_eq_some_iff.mp he
    exact (serverAllocClient_closes h halloc).congr (withIp_sameConn ⟨i, true, s'⟩ r) (by rw [withIp_sockets])

theorem serverEntryForCloses_none (he : serverEntryFor s r src fd grow = none) :
    serverEntryForCloses s r src fd = [] := by
  unfold serverEntryFor at he
  unfold serverEntryForCloses
  cases hchoice : entryChoice s r src fd with
  | rejected => rfl
  | own i => rw [hchoice] at he; cases he
  | source i => rfl
  | fresh =>
    rw [hchoice] at he
    have halloc := Option.map_eq_none_iff.mp he
    unfold serverAllocClient at halloc
    dsimp only
    unfold serverAllocClientCloses
    split
    · rfl
    · rename_i hfind
      rw [hfind] at halloc
      dsimp only at halloc
      split
      · rfl
      · rename_i hhold
        rw [if_neg hhold] at halloc
        rw [Option.map_eq_none_iff.mp halloc]

theorem Recounted.sameConn {s₁ : Server n} (h : Recounted s s₁) (i : Fin n) :
    SameConn K (s.clients i) (s₁.clients i) :=
  .of_eq (h.active i) (h.tcpFd i) (congrArg ServerClient.registered (h.core i) :)
    (congrArg ServerClient.addr (h.core i) :) (congrArg ServerClient.connectedAt (h.core i) :)

theorem Recounted.adoptsRegistered {s₁ : Server n} (h : Recounted s s₁) (hC : AdoptsRegistered s r src fd) :
    AdoptsRegistered s₁ r src fd := by
  intro i hi
  rw [h.entryChoice] at hi
  rw [h.tcpFd i, show (s₁.clients i).registered = (s.clients i).registered
    from (congrArg ServerClient.registered (h.core i) :)]
  exact hC i hi

/-- An accepted handshake leaves a registered entry on its connection. -/
theorem Accepted.sameConn {now : Time} {pkt : Bytes} {m : Message2} {before c : ServerClient}
    (h : Accepted r src fd now pkt m before c) : SameConn K before c := by
  rw [h.eq]
  exact .of_registered rfl rfl fun _ => rfl

theorem Restored.sameConn {now : Time} {before c : ServerClient} (h : Restored r src fd now before c)
    (haddr : K → before.active = true → before.preauth = true → before.addr = src) : SameConn K before c := by
  rw [h.eq]
  refine ⟨rfl, rfl, fun hK ha hp => ⟨hp, ?_, rfl⟩⟩
  show claimedAddr before src fd = before.addr
  unfold claimedAddr
  split
  · exact (haddr hK ha hp).symm
  · rfl

end Keep

section Init

variable {Hs : Type} {N : Noise Hs} {K : Prop} {s : Server n} {conns : List Conn} {r : Register} {src : SockAddr} {fd : ℤ}
  {env : PacketEnv} {pkt : Bytes}

theorem initRegister_closes {e : Entry n} {hs : Hs} (hid : r.clientId.length < CAMEX_CLIENT_ID_LEN)
    (h : Slots K e.server conns)
    (hfresh : e.fresh = true → (e.server.clients e.slot).tcpFd < 0)
    (haddr : K → e.fresh = false → (e.server.clients e.slot).preauth = true → (e.server.clients e.slot).addr = src) :
    Closes K e.server conns [] (initRegister N e env pkt src fd r hs).1 := by
  have hfail : ∀ {pool : PoolCursor} {c₀ c : ServerClient} {reply : Option CStr} {saved : SavedSession},
      Configured e r src fd pool c₀ reply →
      (c = c₀ ∧ saved = .none ∨ ∃ m, c = initSession c₀ r pkt m e.server.now ∧ saved = savedSession c₀) →
      Closes K e.server conns [] (initFail e pool c saved) := by
    intro pool c₀ c reply saved hconf hc
    have hset : (initFail e pool c saved).clients =
        (e.server.setClient e.slot ((initFail e pool c saved).clients e.slot)).clients := by
      rw [show (initFail e pool c saved).clients e.slot =
        if e.fresh then .wiped else restoreEntry (e.server.clients e.slot) c saved from Server.setClient_self ..]
      rfl
    rcases initFail_entry hconf hid hc with ⟨hf, hwiped⟩ | ⟨hf, hrestored⟩
    · refine (Closes.offline h (i := e.slot) (c := .wiped) (fun _ => hfresh hf) nofun).congr (fun j => ?_) rfl
      rw [hset, hwiped]
      exact .refl _
    · refine (Closes.same h (setClient_sameConn (hrestored.sameConn fun hK _ => haddr hK hf)) rfl).congr (fun j => ?_) rfl
      rw [← hset]
      exact .refl _
  unfold initRegister
  dsimp only
  generalize hconf : initConfigure _ e.slot r = q
  obtain ⟨pool, c, reply⟩ := q
  dsimp only
  split
  · exact hfail ⟨hconf⟩ (Or.inl ⟨rfl, rfl⟩)
  · split
    · exact hfail ⟨hconf⟩ (Or.inl ⟨rfl, rfl⟩)
    · rename_i reply _ m _
      split
      · have hdone := initDone_entry pkt m ⟨hconf⟩ hid
        refine (Closes.same h (setClient_sameConn hdone.sameConn) rfl).congr (fun j => ?_) rfl
        rw [show (initDone e pool (initSession c r pkt m e.server.now) r).clients e.slot =
          initDoneEntry (initSession c r pkt m e.server.now) e.server.now from Server.setClient_self ..]
        exact .refl _
      · exact hfail ⟨hconf⟩ (Or.inr ⟨m, rfl, rfl⟩)

/-- **An INIT on an open connection** closes at most that of its client before. -/
theorem serverHandleInit_closes (h : Slots K s conns) (hfd : 0 ≤ fd)
    (hcall : ∃ i, (s.clients i).active = true ∧ (s.clients i).tcpFd = fd ∧ (s.clients i).addr = src)
    (hC : K → ∀ r, Carries N s.conf pkt r → AdoptsRegistered s r src fd) :
    Closes K s conns
      (match initAuthenticate N s env pkt src with
        | (_, none) => []
        | (s, some (r, _)) => serverEntryForCloses s r src fd)
      (serverHandleInit N s env pkt src fd).1 := by
  obtain ⟨hrec, hsome⟩ := initAuthenticate_spec N s env pkt src
  unfold serverHandleInit
  cases hauth : initAuthenticate N s env pkt src with
  | mk s₁ o =>
    rw [hauth] at hrec hsome
    have h₁ : Slots K s₁ conns := h.congr hrec.sameConn (by rw [hrec.sockets])
    cases o with
    | none => exact .same h hrec.sameConn (by rw [hrec.sockets])
    | some p =>
      obtain ⟨r, hs⟩ := p
      obtain ⟨hr, -⟩ := hsome r hs rfl
      dsimp only
      cases he : serverEntryFor s₁ r src fd env.grow with
      | none =>
        rw [serverEntryForCloses_none he]
        exact .same h hrec.sameConn (by rw [hrec.sockets])
      | some e =>
        obtain ⟨i, hia, hifd, hiaddr⟩ := hcall
        have hC₁ := fun hK => hrec.adoptsRegistered (hC hK r hr)
        have hfd₁ : fd ∈ conns.map Conn.fd := hifd ▸ h.tcpFd_mem hia (hifd ▸ hfd)
        have hentry : Closes K s conns (serverEntryForCloses s₁ r src fd ++ [])
            (initRegister N e env pkt src fd r hs).1 := by
          refine ((serverEntryFor_closes h₁ hfd₁ hC₁ he).behind hrec.sameConn).append fun conns' h₂ =>
            initRegister_closes hr.idShort h₂ (fun hf => ?_) fun hK hf hp => ?_
          · have ht := serverEntryFor_taken hrec he
            rw [hf] at ht
            rw [ht.eq_fresh]
            exact (by decide : (-1 : ℤ) < 0)
          -- an entry that is still to register is at the source of the INIT
          · have ht := serverEntryFor_taken hrec he
            rw [hf] at ht
            have heq := ht.eq
            generalize e.server.clients e.slot = c at ht heq hp ⊢
            rw [heq]
            show (s.clients e.slot).addr = src
            have hunreg : (s.clients e.slot).registered = false := by
              rw [heq] at hp
              simp only [ServerClient.preauth, Bool.and_eq_true, Bool.not_eq_true'] at hp
              exact hp.2
            rcases ht.leadsTo with hown | hsource
            · have hsame := (hC hK r hr e.slot hown).resolve_right (by simp [hunreg])
              have := h.one i e.slot hia (LeadsTo.active (Or.inl hown)) (hifd ▸ hfd) (hsame.trans hifd.symm)
              rw [this]
              exact hiaddr
            · have hleads := entryChoice_leads s r src fd
              rw [hsource] at hleads
              cases hleads with
              | connection _ _ _ hsrc _ => exact (serverFindByAddr_some hsrc).2
              | source _ _ _ _ hsrc _ _ => exact (serverFindByAddr_some hsrc).2
        rwa [List.append_nil] at hentry

end Init

/-! ### Accepts -/

/-- The most connections that may wait for their handshake. -/
def preauthMax (n : ℕ) : ℕ := max 1 (min (n / 2) CAMEX_TCP_PREAUTH_MAX)

/-- The limits for connections before their handshake, in all and from one address. -/
structure Limits (s : Server n) : Prop where
  total : (preauthSlots s.clients).length ≤ preauthMax n
  perIp : ∀ ip, ((preauthSlots s.clients).filter fun i => (s.clients i).addr.ip == ip).length ≤
    CAMEX_TCP_PREAUTH_PER_IP

/-- Has the slot a connection from this address that is still to register? -/
def preauthFrom (t : Table n) (ip : Ip) (i : Fin n) : Bool :=
  (t i).addr.ip == ip && ((t i).active && (t i).preauth)

theorem preauthSlots_eq (t : Table n) : preauthSlots t = slotsWith fun i => (t i).active && (t i).preauth := rfl

theorem preauthSlots_filter (t : Table n) (ip : Ip) :
    ((preauthSlots t).filter fun i => (t i).addr.ip == ip) = slotsWith (preauthFrom t ip) := by
  unfold preauthSlots slotsWith preauthFrom
  rw [List.filter_filter]

theorem PreauthKept.limits {s s' : Server n} (h : PreauthKept s s') (hlimits : Limits s) : Limits s' := by
  have hkept : ∀ j, ((s'.clients j).active && (s'.clients j).preauth) = true →
      ((s.clients j).active && (s.clients j).preauth) = true ∧ (s'.clients j).addr = (s.clients j).addr := by
    intro j hj
    obtain ⟨⟨ha, hpre⟩, haddr⟩ := h j (by simpa [PreauthAt] using hj)
    exact ⟨by rw [ha, hpre]; rfl, haddr⟩
  refine ⟨le_trans (length_slotsWith_le fun j hj => (hkept j hj).1) hlimits.total, fun ip => ?_⟩
  have hip := hlimits.perIp ip
  rw [preauthSlots_filter] at hip ⊢
  refine le_trans (length_slotsWith_le fun j hj => ?_) hip
  unfold preauthFrom at hj ⊢
  rw [Bool.and_eq_true] at hj ⊢
  obtain ⟨hpre, haddr⟩ := hkept j hj.2
  rw [haddr] at hj
  exact ⟨hj.1, hpre⟩

section Accept

variable {K : Prop} {s : Server n} {conns : List Conn} {fd : ℤ} {peer : SockAddr}

theorem refused_closes (hfd : 0 ≤ fd) (hnew : fd ∉ conns.map Conn.fd) (now : Time) :
    closeEach (⟨fd, peer, now⟩ :: conns) (closeOf fd) = some conns := by
  have hrest : (conns.filter fun k => k.fd != fd) = conns :=
    List.filter_eq_self.mpr fun k hk => by
      have : k.fd ≠ fd := fun heq => hnew (List.mem_map.mpr ⟨k, hk, heq⟩)
      simpa using this
  rw [closeOf, if_neg (not_lt.mpr hfd), closeEach_cons, if_pos (by rw [List.map_cons]; exact List.mem_cons_self),
    List.filter_cons_of_neg (by simp), hrest, closeEach_nil]

theorem acceptSlot_closes (h : Slots K s conns) (hfd : 0 ≤ fd) (hnew : fd ∉ conns.map Conn.fd) (stream : Bytes) :
    ∃ conns', closeEach (⟨fd, peer, s.now⟩ :: conns)
        (match lowest fun i => !(s.clients i).active with
          | none => closeOf fd
          | some _ => []) = some conns' ∧
      Slots K (acceptSlot s fd peer stream) conns' := by
  unfold acceptSlot
  cases hfree : lowest fun i => !(s.clients i).active with
  | none => exact ⟨conns, refused_closes hfd hnew s.now, h⟩
  | some i =>
    have hi : (s.clients i).active = false := by simpa using lowest_some hfree
    exact ⟨_, rfl, h.accept hi hfd hnew rfl (Server.setClient_self ..) fun j hj => Server.setClient_of_ne _ _ _ hj⟩

/-- A new connection that gets a slot is one more to register. -/
theorem acceptSlot_limits (stream : Bytes) (htotal : (preauthSlots s.clients).length + 1 ≤ preauthMax n)
    (hip : ∀ ip, (slotsWith (preauthFrom s.clients ip)).length + (if peer.ip = ip then 1 else 0) ≤
      CAMEX_TCP_PREAUTH_PER_IP) : Limits (acceptSlot s fd peer stream) := by
  unfold acceptSlot
  cases lowest fun i => !(s.clients i).active with
  | none =>
    refine ⟨le_trans (Nat.le_succ _) htotal, fun ip => ?_⟩
    rw [preauthSlots_filter]
    exact le_trans (Nat.le_add_right _ _) (hip ip)
  | some i =>
    have hself : (s.setClient i (acceptedEntry fd peer s.now)).clients i = acceptedEntry fd peer s.now :=
      Server.setClient_self ..
    have hother : ∀ j, j ≠ i → (s.setClient i (acceptedEntry fd peer s.now)).clients j = s.clients j :=
      fun j hj => Server.setClient_of_ne _ _ _ hj
    refine ⟨?_, fun ip => ?_⟩
    · refine le_trans (length_slotsWith_insert i fun j hj => ?_) htotal
      by_cases hji : j = i
      · exact Or.inl hji
      · refine Or.inr ?_
        dsimp only at hj ⊢
        rwa [hother j hji] at hj
    · rw [preauthSlots_filter]
      dsimp only
      refine le_trans ?_ (hip ip)
      split
      · refine length_slotsWith_insert i fun j hj => ?_
        by_cases hji : j = i
        · exact Or.inl hji
        · refine Or.inr ?_
          unfold preauthFrom at hj ⊢
          rwa [hother j hji] at hj
      · rename_i hne
        refine length_slotsWith_le fun j hj => ?_
        unfold preauthFrom at hj ⊢
        by_cases hji : j = i
        · subst hji
          rw [hself] at hj
          simp only [Bool.and_eq_true, beq_iff_eq] at hj
          exact absurd hj.1 hne
        · rwa [hother j hji] at hj

/-- **Accepting a connection** closes it, the oldest one that is still to register, or none. -/
theorem serverAccept_closes (h : Slots K s conns) (hfd : 0 ≤ fd) (hnew : fd ∉ conns.map Conn.fd) (stream : Bytes)
    (nonblocking : Bool) :
    ∃ conns', closeEach (⟨fd, peer, s.now⟩ :: conns) (serverAcceptCloses s fd peer nonblocking) = some conns' ∧
      Slots K (serverAccept s fd peer stream nonblocking) conns' := by
  have hrefused : ∃ conns', closeEach (⟨fd, peer, s.now⟩ :: conns) (closeOf fd) = some conns' ∧ Slots K s conns' :=
    ⟨conns, refused_closes hfd hnew s.now, h⟩
  unfold serverAcceptCloses serverAccept
  dsimp only
  split
  · exact hrefused
  · split
    · exact hrefused
    · split
      · cases hold : oldestPreauth s.clients s.now with
        | none => exact hrefused
        | some o =>
          obtain ⟨ha, -⟩ := oldestPreauth_some hold
          obtain ⟨conns', hclose, hsub, hslots⟩ := h.close (c := .cleared) ha nofun
          have hnew' : fd ∉ conns'.map Conn.fd := fun hmem => by
            obtain ⟨k, hk, hkfd⟩ := List.mem_map.mp hmem
            exact hnew (List.mem_map.mpr ⟨k, hsub k hk, hkfd⟩)
          have hne : fd ∉ closeOf (s.clients o).tcpFd := by
            unfold closeOf
            split
            · exact List.not_mem_nil
            · rename_i hneg
              rintro hmem
              rw [List.mem_singleton] at hmem
              exact hnew (hmem ▸ h.tcpFd_mem ha (not_lt.mp hneg))
          obtain ⟨conns'', hclose', hslots'⟩ := acceptSlot_closes hslots hfd hnew' stream
          refine ⟨conns'', ?_, hslots'⟩
          rw [closeEach_append, closeEach_other hne hclose]
          exact hclose'
      · exact acceptSlot_closes h hfd hnew stream

theorem serverAccept_limits (hlimits : Limits s) (stream : Bytes) (nonblocking : Bool) :
    Limits (serverAccept s fd peer stream nonblocking) := by
  unfold serverAccept
  dsimp only
  split
  · exact hlimits
  · split
    · exact hlimits
    · rename_i hperIp
      rw [preauthSlots_filter, not_le] at hperIp
      have hip : ∀ ip, (slotsWith (preauthFrom s.clients ip)).length + (if peer.ip = ip then 1 else 0) ≤
          CAMEX_TCP_PREAUTH_PER_IP := by
        intro ip
        have := hlimits.perIp ip
        rw [preauthSlots_filter] at this
        split
        · rename_i hpeer
          subst hpeer
          omega
        · omega
      split
      · split
        · exact hlimits
        · rename_i o hold
          obtain ⟨ha, hpre⟩ := oldestPreauth_some hold
          -- the slot that makes room does not count any more
          have hcleared : ∀ j, ((s.setClient o .cleared).clients j).active = true →
              (s.setClient o .cleared).clients j = s.clients j := by
            intro j hj
            by_cases hjo : j = o
            · subst hjo
              rw [Server.setClient_self] at hj
              cases hj
            · exact Server.setClient_of_ne _ _ _ hjo
          refine acceptSlot_limits stream (le_trans ?_ hlimits.total) fun ip => ?_
          · refine length_slotsWith_erase (p := fun i => (s.clients i).active && (s.clients i).preauth)
              (i := o) (by rw [ha, hpre]; rfl) ?_ fun j hj => ?_
            · dsimp only
              rw [Server.setClient_self]
              rfl
            · dsimp only at hj ⊢
              simp only [Bool.and_eq_true] at hj ⊢
              rwa [hcleared j hj.1] at hj
          · refine le_trans (Nat.add_le_add_right (length_slotsWith_le fun j hj => ?_) _) (hip ip)
            unfold preauthFrom at hj ⊢
            dsimp only at hj
            simp only [Bool.and_eq_true] at hj ⊢
            rwa [hcleared j hj.2.1] at hj
      · rename_i htotal
        exact acceptSlot_limits stream (not_le.mp htotal) hip

end Accept

/-! ### Events -/

section Event

variable {Hs : Type} {N : Noise Hs} {K : Prop} {s : Server n} {conns : List Conn}

theorem SameButSent.sameConn {c c' : ServerClient} (h : SameButSent c c') : SameConn K c c' := by
  rw [h]
  exact .of_eq rfl rfl rfl rfl rfl

theorem Reread.sameConn {s' : Server n} (h : Reread s s') (i : Fin n) : SameConn K (s.clients i) (s'.clients i) := by
  rw [h.entry i]
  exact .of_eq rfl rfl rfl rfl rfl

theorem serverHandleData_sameConn (hsound : ∀ i, (s.clients i).Sound) (env : PacketEnv) (pkt : Bytes)
    (src : SockAddr) (fd : ℤ) (j : Fin n) :
    SameConn K (s.clients j) ((serverHandleData N s env pkt src fd).1.clients j) := by
  rcases serverHandleData_cases (N := N) s env pkt src fd with h | ⟨i, w, plain, x, hsession, hopen, -, hd⟩
  · rw [h]
    exact .refl _
  · refine SameConn.trans ?_ (hd.entry j).sameConn
    by_cases hj : j = i
    · subst hj
      rw [show (dataReceived s j w x src fd plain.length).clients j =
        dataReceive (s.clients j) w x src fd s.now plain.length from Server.setClient_self ..]
      -- a session is that of a registered entry
      have hreg : (s.clients j).registered = true := by
        have hvalid := (dataSession_some hsession).2
        have hs := hsound j
        by_contra hno
        have hno : (s.clients j).registered = false := by simpa using hno
        cases w with
        | cur => rw [show (s.clients j).session .cur = (s.clients j).cur from rfl, ← hs.cur, hno] at hvalid; cases hvalid
        | next => rw [show (s.clients j).session .next = (s.clients j).next from rfl, hs.next hno] at hvalid; cases hvalid
        | prev => rw [show (s.clients j).session .prev = (s.clients j).prev from rfl, hs.prev hno] at hvalid; cases hvalid
      rcases dataReceive_changed hopen src fd s.now plain.length with ⟨-, hr⟩ | ⟨-, hp⟩
      · exact .of_registered hr.active hr.tcpFd fun _ => hr.registered.trans hreg
      · exact .of_registered hp.active hp.tcpFd fun _ => hp.registered.trans hreg
    · rw [show (dataReceived s i w x src fd plain.length).clients j = s.clients j
        from Server.setClient_of_ne _ _ _ hj]
      exact .refl _

theorem serverHandleData_sockets (env : PacketEnv) (pkt : Bytes) (src : SockAddr) (fd : ℤ) :
    (serverHandleData N s env pkt src fd).1.sockets = s.sockets := by
  rcases serverHandleData_cases (N := N) s env pkt src fd with h | ⟨i, w, plain, x, -, -, -, hd⟩
  · rw [h]
  · exact (congrArg Server.sockets hd.eq :)

theorem drainTcpClientRead_sockets (fd : ℤ) (buffer : Buffer) (reads : List Read) (grow : Grow) {s' : Server n}
    {packet : Bytes} {src : SockAddr} (h : drainTcpClientRead s fd buffer reads grow = (s', some (packet, src))) :
    s'.sockets.map Socket.fd = s.sockets.map Socket.fd ∧
      ∃ i, slotOfFd s.clients fd = some i ∧ src = (s.clients i).addr := by
  unfold drainTcpClientRead at h
  split at h
  · cases h
  · rename_i i hi
    split at h
    · cases h
    · rename_i unread _
      dsimp only at h
      generalize netTcpRecvFrame RECV_MAX buffer (s.clients i).recvState unread reads = q at h
      obtain ⟨rc, st, rest⟩ := q
      cases rc with
      | again => cases h
      | error => cases h
      | frame f =>
        cases h
        exact ⟨setUnread_fds _ _ _, i, hi, (congrArg ServerClient.addr (Server.setClient_self s i _) :)⟩

/-- A packet over TCP comes on the connection of an entry, from the entry's address. -/
theorem eventCall_tcp {e : Event n} {c : Call n} (htcp : s.conf.cfg.transport = .tcp) (he : e.Enabled s)
    (hcall : eventCall s e = some c) :
    0 ≤ c.fd ∧ c.server.sockets.map Socket.fd = s.sockets.map Socket.fd ∧
      ∃ i, (c.server.clients i).active = true ∧ (c.server.clients i).tcpFd = c.fd ∧
        (c.server.clients i).addr = c.src := by
  have hread := eventCall_reread hcall
  cases e with
  | udp packet src env =>
    rw [show Event.Enabled s (.udp packet src env) = (s.conf.cfg.transport = .udp) from rfl, htcp] at he
    cases he
  | readable fd buffer reads env =>
    unfold eventCall at hcall
    dsimp only at hcall
    split at hcall
    · rename_i s' packet src hdrain
      cases hcall
      obtain ⟨hsockets, i, hi, rfl⟩ := drainTcpClientRead_sockets fd buffer reads env.grow hdrain
      obtain ⟨hactive, htcpFd⟩ := slotOfFd_some hi
      refine ⟨he.2.1, hsockets, i, ?_, ?_, ?_⟩ <;> dsimp only at hread ⊢ <;> rw [hread.entry i]
      · exact hactive
      · exact htcpFd
    · cases hcall
  | tick _ => cases hcall
  | accept _ _ _ _ => cases hcall
  | tun _ _ => cases hcall
  | expire _ => cases hcall
  | reload _ _ _ => cases hcall

theorem serverReload_closes (h : Slots K s conns) (file : Option ServerDb) (mem : KeyMemory) (grow : Fin n → Grow) :
    Closes K s conns
      (match file.bind (reloadConf N mem s.conf) with
        | none => []
        | some conf => serverRevalidateCloses grow { s with conf := conf })
      (serverReload N s file mem grow) := by
  unfold serverReload
  cases file.bind (reloadConf N mem s.conf) with
  | none => exact .none h
  | some conf =>
    have h₁ : Slots K ({ s with conf := conf } : Server n) conns := h.congr (fun _ => .refl _) rfl
    have hclosed := (serverRevalidate_closes grow h₁).behind (s := s) fun _ => .refl _
    exact hclosed.congr (fun _ => .refl _) rfl

theorem serverStep_closes {e : Event n} (h : Slots K s conns) (htcp : s.conf.cfg.transport = .tcp)
    (hsound : ∀ i, (s.clients i).Sound) (he : e.Enabled s) (hC : K → OnInit N AdoptsRegistered s e)
    (haccept : ∀ fd peer stream nonblocking, e ≠ .accept fd peer stream nonblocking) :
    Closes K s conns (eventCloses N s e) (serverStep N s e).1 := by
  unfold eventCloses serverStep
  cases hcall : eventCall s e with
  | some c =>
    obtain ⟨hfd, hsockets, hentry⟩ := eventCall_tcp htcp he hcall
    have hread := eventCall_reread hcall
    have h₁ : Slots K c.server conns := h.congr hread.sameConn hsockets
    dsimp only
    unfold serverHandlePacketCloses serverHandlePacket
    dsimp only
    split
    · exact (serverHandleInit_closes h₁ hfd hentry fun hK => hC hK c hcall ‹_›).behind hread.sameConn
    · split
      · have hsound₁ : ∀ i, (c.server.clients i).Sound := fun i => by
          rw [hread.entry i]
          exact ⟨(hsound i).active, (hsound i).cur, (hsound i).next, (hsound i).prev⟩
        exact (Closes.same h₁ (serverHandleData_sameConn hsound₁ c.env c.packet c.src c.fd)
          (by rw [serverHandleData_sockets])).behind hread.sameConn
      · exact .same h hread.sameConn hsockets
  | none =>
    dsimp only
    cases e with
    | tick now => exact .same h (fun _ => .refl _) rfl
    | udp _ _ _ => exact .none h
    | accept fd peer stream nonblocking => exact absurd rfl (haccept fd peer stream nonblocking)
    | readable fd buffer reads env =>
      obtain ⟨-, -, i, hactive, hi⟩ := he
      have hslot : ∃ i, slotOfFd s.clients fd = some i := lowest_isSome (i := i) (by simp [hactive, hi])
      refine drainTcpClientRead_closes h hslot buffer reads env.grow ?_
      unfold eventCall at hcall
      dsimp only at hcall
      split at hcall
      · cases hcall
      · rename_i heq
        rw [heq]
    | tun packet env =>
      have hd := handleTunPacket_delivered (N := N) s env packet
      exact .same h (fun i => (hd.entry i).sameConn) (congrArg (fun t : Server n => t.sockets.map Socket.fd) hd.eq :)
    | expire grow => exact serverExpireClients_closes grow h
    | reload file mem grow => exact serverReload_closes h file mem grow

/-- **Every event of a TCP server** closes connections that are open, leaves those of the entries and keeps the
limits. -/
theorem ledgerStep_slots {e : Event n} (h : Slots K s conns) (htcp : s.conf.cfg.transport = .tcp)
    (hsound : ∀ i, (s.clients i).Sound) (he : e.Enabled s) (hC : K → OnInit N AdoptsRegistered s e) :
    ∃ conns', ledgerStep N s e conns = some conns' ∧ Slots K (serverStep N s e).1 conns' ∧
      (K → Limits s → Limits (serverStep N s e).1) := by
  by_cases haccept : ∃ fd peer stream nonblocking, e = .accept fd peer stream nonblocking
  · obtain ⟨fd, peer, stream, nonblocking, rfl⟩ := haccept
    obtain ⟨-, hfd, hnew⟩ := he
    have hnew' : fd ∉ conns.map Conn.fd := fun hmem => by
      rw [← h.sockets] at hmem
      obtain ⟨k, hk, hkfd⟩ := List.mem_map.mp hmem
      exact hnew k hk hkfd
    obtain ⟨conns', hclose, hslots⟩ := serverAccept_closes h hfd hnew' stream nonblocking
    exact ⟨conns', hclose, hslots, fun _ hlimits => serverAccept_limits hlimits stream nonblocking⟩
  · have haccept' : ∀ fd peer stream nonblocking, e ≠ .accept fd peer stream nonblocking :=
      fun fd peer stream nonblocking heq => haccept ⟨fd, peer, stream, nonblocking, heq⟩
    obtain ⟨conns', hclose, -, hslots, hpre⟩ := serverStep_closes h htcp hsound he hC haccept'
    refine ⟨conns', ?_, hslots, fun hK => (hpre hK).limits⟩
    have haccepts : eventAccepts s e = [] := by
      cases e with
      | accept fd peer stream nonblocking => exact absurd rfl (haccept' fd peer stream nonblocking)
      | _ => rfl
    unfold ledgerStep
    rw [haccepts]
    exact hclose

end Event

/-! ### Runs -/

section Run

variable {Hs : Type} {N : Noise Hs}

/-- An event does not change what was fixed at the start. -/
theorem StepCase.cfg {s : Server n} {e : Event n} {x : Server n × Option (PacketOutcome n)}
    (h : StepCase N s e x) : x.1.conf.cfg = s.conf.cfg := by
  cases h with
  | init c _ hread _ =>
    dsimp only
    rw [(serverHandleInit_cases N c.server c.env c.packet c.src c.fd).conf, hread.conf]
  | data c _ hread _ =>
    dsimp only
    rw [(serverHandleData_frame c.server c.env c.packet c.src c.fd).1, hread.conf]
  | ignored c _ hread =>
    dsimp only
    rw [hread.conf]
  | quiet hq =>
    dsimp only
    rw [hq.conf]
  | reload file mem grow _ =>
    rcases serverReload_cases (N := N) s file mem grow with h | ⟨db, conf, -, hconf, -, h⟩
    · dsimp only
      rw [h]
    · dsimp only
      rw [h]
      unfold reloadConf at hconf
      split at hconf
      · cases hconf
      · split at hconf <;> cases hconf
        rfl

theorem serverMachine_enabled {s t : Server n} {e : Event n} (h : (serverMachine N n).next s e = some t) :
    e.Enabled s := by
  unfold serverMachine at h
  dsimp only at h
  split at h
  · rename_i he
    exact he
  · cases h

theorem started_slots {K : Prop} {s : Server n} (hs : Started N s) : Slots K s [] ∧ Limits s := by
  obtain ⟨cfg, db, ctx, mem, ks, now, leases, -, rfl⟩ := hs
  have hinactive : ∀ i, ¬ ((serverClientsInit n ⟨cfg, db, ks, ctx, serverCheckPool cfg.localCidr⟩ now leases).clients
      i).active = true := fun _ => Bool.false_ne_true
  have hnone : ∀ p : Fin n → Bool, (∀ i, p i = false) → (slotsWith p).length = 0 := fun p hp => by
    simp [slotsWith, hp]
  refine ⟨?_, ?_, fun ip => ?_⟩
  · exact
      { sockets := rfl
        distinct := List.nodup_nil
        fd := fun k hk => absurd hk List.not_mem_nil
        held := fun k hk => absurd hk List.not_mem_nil
        opened := fun i ha _ => absurd ha (hinactive i)
        one := fun i _ ha _ _ _ => absurd ha (hinactive i)
        preauth := fun _ i ha _ => absurd ha (hinactive i) }
  · rw [preauthSlots_eq]
    exact (hnone _ fun _ => rfl).le.trans (Nat.zero_le _)
  · rw [preauthSlots_filter]
    refine (hnone _ fun i => ?_).le.trans (Nat.zero_le _)
    exact Bool.and_false _

variable (N) in
/-- A state of a TCP server with its open connections. -/
structure Ledgered (K : Prop) (s : Server n) (conns : List Conn) : Prop where
  reachable : Machine.Reachable (serverMachine N n) s
  tcp : s.conf.cfg.transport = .tcp
  slots : Slots K s conns
  limits : K → Limits s

theorem Ledgered.start {K : Prop} {s : Server n} (hs : Started N s) (htcp : s.conf.cfg.transport = .tcp) :
    Ledgered N K s [] := ⟨⟨s, [], hs, .nil s⟩, htcp, (started_slots hs).1, fun _ => (started_slots (K := K) hs).2⟩

theorem Ledgered.step {K : Prop} {s t : Server n} {e : Event n} {conns : List Conn} (h : Ledgered N K s conns)
    (hC : K → OnInit N AdoptsRegistered s e) (hstep : (serverMachine N n).next s e = some t) :
    ∃ conns', ledgerStep N s e conns = some conns' ∧ Ledgered N K t conns' := by
  have heq := serverMachine_next hstep
  obtain ⟨conns', hledger, hslots, hlimits⟩ :=
    ledgerStep_slots h.slots h.tcp (fun i => sound_reachable h.reachable i) (serverMachine_enabled hstep) hC
  refine ⟨conns', hledger, h.reachable.step trivial hstep, ?_, heq ▸ hslots, fun hK => heq ▸ hlimits hK (h.limits hK)⟩
  rw [heq, (serverStep_case N s e).cfg, h.tcp]

/-- **The open connections of a run** are those of the entries. -/
theorem Ledgered.run {K : Prop} {C : Server n → Event n → Prop} {s t : Server n} {es : List (Event n)}
    {conns : List Conn} (h : Ledgered N K s conns) (hC : ∀ s e, K → C s e → OnInit N AdoptsRegistered s e)
    (hrun : Machine.Steps (serverMachine N n) C s es t) :
    ∃ conns', ledger N s es conns = some conns' ∧ Ledgered N K t conns' := by
  induction hrun generalizing conns with
  | nil s => exact ⟨conns, rfl, h⟩
  | @cons s t u e es hstep hc _ ih =>
    obtain ⟨conns', hledger, h'⟩ := h.step (fun hK => hC s e hK hc) hstep
    obtain ⟨conns'', hledger', h''⟩ := ih h'
    refine ⟨conns'', ?_, h''⟩
    unfold ledger
    rw [hledger, ← serverMachine_next hstep]
    exact hledger'

end Run

end Camex
