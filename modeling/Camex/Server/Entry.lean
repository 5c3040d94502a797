import Camex.Server.Auth
import Camex.Server.Lease

/-!
# The entry of a handshake (`server_entry_for`)

* `serverAllocClient`, `serverAdoptTcp`: a slot for a new client, a client on a new connection;
* `EntryChoice`, `entryChoice`: where the lookups by ID, address and source lead an INIT, decided
  before anything changes;
* `serverEntryFor`: the slot taken or reused.

`serverEntryFor_slot` and `serverEntryFor_other` say what it does to the slot and to the others.
-/

namespace Camex

open Lib

variable {n : ℕ}

/-! ## Slots -/

/-- The slots in the order `server_alloc_client` looks at them. -/
def allocOrder (start : ℕ) : List (Fin n) :=
  (List.finRange n).map fun k : Fin n => ⟨(start + k.val) % n, Nat.mod_lt _ k.pos⟩

def quietest (t : Table n) : Option (Fin n) :=
  (List.finRange n).foldl (fun oldest i =>
    match oldest with
    | none => some i
    | some o => if (t i).lastSeen < (t o).lastSeen then some i else some o) none

def serverAllocClient (s : Server n) (grow : Grow) : Option (Fin n × Server n) :=
  match (allocOrder s.allocNext).find? fun i => !(s.clients i).active with
  | some i => some (i, { s.setClient i .taken with allocNext := (i + 1) % n })
  | none =>
    if serverPoolHolding s then none
    else (quietest s.clients).map fun i => (i, (serverEndClient grow i s).setClient i .taken)

/-- `server_adopt_tcp`: the entry takes the connection, whose slot is freed; its old one is
closed. -/
def serverAdoptTcp (i : Fin n) (fd : ℤ) (s : Server n) : Server n :=
  if fd < 0 ∨ (s.clients i).tcpFd = fd then s
  else
    { s with
      clients := fun j =>
        if j = i then { s.clients i with tcpFd := fd, recvState := .zero }
        else if (s.clients j).active && (s.clients j).tcpFd == fd then .wiped
        else s.clients j
      sockets := netTcpClose s.sockets (s.clients i).tcpFd }

/-! ## Where the lookups lead -/

inductive EntryChoice (n : ℕ)
  | rejected
  /-- The client's own entry, found by its ID or its address. -/
  | own (i : Fin n)
  /-- The entry at the source of the INIT. -/
  | source (i : Fin n)
  /-- A slot of its own. -/
  | fresh
  deriving DecidableEq

/-- `server_entry_for` for an auto client. -/
def entryChoiceAuto (s : Server n) (r : Register) (src : SockAddr) : EntryChoice n :=
  if s.conf.db.globals.denyUnknownClients && (configDbFindClient s.conf.db r.clientId).isNone then
    .rejected
  else
    match serverFindByClientId s.clients r.clientId with
    | some i => .own i
    | none =>
      -- a TCP client has a slot since the accept
      match serverFindByAddr s.clients src with
      | some i => if 0 ≤ (s.clients i).tcpFd then .source i else .fresh
      | none => .fresh

/-- May the holder of the address a manual client asks for be taken over? Never as the holder of a
pending or previous address or an auto client; from another source only with its ID and key. -/
def holderRefuses (t : Table n) (r : Register) (ip : Ip) (byAddr : Option (Fin n)) (h : Fin n) : Bool :=
  (t h).ipBe != ip || (t h).autoClient ||
    (byAddr != some h && (!strcaseeq (t h).clientId r.clientId || (t h).pskKey != r.key))

/-- Is the address one that a lease keeps for another ID? -/
def leasedToOther (s : Server n) (clientId : CStr) (ip : Ip) : Bool :=
  (serverLeaseByIp s.leases ip).any fun k =>
    !strcaseeq (s.leases.at k).id clientId &&
      decide (s.now - (s.leases.at k).since < serverLeaseMin s.conf)

/-- A TCP connection that has not registered. -/
def ServerClient.preauth (c : ServerClient) : Bool := decide (0 ≤ c.tcpFd) && !c.registered

/-- `server_entry_for` for a manual client. -/
def entryChoiceManual (s : Server n) (r : Register) (src : SockAddr) (fd : ℤ) : EntryChoice n :=
  let byAddr := serverFindByAddr s.clients src
  match inetPton r.localIp with
  | none => .rejected
  | some ip =>
    let byIp := serverFindByIp s.clients ip
    if byIp.any (holderRefuses s.clients r ip byAddr) then .rejected
    else if leasedToOther s r.clientId ip then .rejected
    else
      let atSource :=
        match byAddr with
        | some b => if 0 ≤ fd || !(s.clients b).cur.valid then .source b else .fresh
        | none => .fresh
      match byIp with
      | some h =>
        if byAddr.all fun b => b == h || (s.clients b).preauth then .own h else atSource
      | none => atSource

def entryChoice (s : Server n) (r : Register) (src : SockAddr) (fd : ℤ) : EntryChoice n :=
  if r.auto then entryChoiceAuto s r src else entryChoiceManual s r src fd

/-! ## `server_entry_for` -/

/-- The entry of a handshake: its slot, whether that was taken for it, and the state then. -/
structure Entry (n : ℕ) where
  slot : Fin n
  fresh : Bool
  server : Server n

/-- A client that comes back from another source is on a new connection. -/
def noteReconnect (c : ServerClient) (src : SockAddr) : ServerClient :=
  if netSockaddrEqual c.addr src then c else { c with sessionSince := 0 }

/-- The address a manual client gets at once. -/
def manualIp (r : Register) : Option Ip := if r.auto then none else inetPton r.localIp

/-- `server_set_ip` at the end of `server_entry_for`. -/
def Entry.withIp (e : Entry n) (r : Register) : Entry n :=
  match manualIp r with
  | none => e
  | some ip => { e with server := e.server.setClient e.slot (serverSetIp (e.server.clients e.slot) ip) }

/-- The client's own entry, taken up from a source and a connection. -/
def resumeEntry (s : Server n) (i : Fin n) (src : SockAddr) (fd : ℤ) : Server n :=
  serverAdoptTcp i fd (s.setClient i (noteReconnect (s.clients i) src))

/-- `server_entry_for`; `none` rejects the handshake. -/
def serverEntryFor (s : Server n) (r : Register) (src : SockAddr) (fd : ℤ) (grow : Grow) :
    Option (Entry n) :=
  match entryChoice s r src fd with
  | .rejected => none
  | .own i => some (Entry.withIp ⟨i, false, resumeEntry s i src fd⟩ r)
  | .source i => some (Entry.withIp ⟨i, false, s⟩ r)
  | .fresh => (serverAllocClient s grow).map fun p => Entry.withIp ⟨p.1, true, p.2⟩ r

/-! ## What a choice means -/

/-- The address a manual client asks for may be its: no holder and no lease is in the way. -/
structure Admitted (s : Server n) (r : Register) (src : SockAddr) (ip : Ip) : Prop where
  pton : inetPton r.localIp = some ip
  holder : ∀ h, serverFindByIp s.clients ip = some h →
    holderRefuses s.clients r ip (serverFindByAddr s.clients src) h = false
  lease : leasedToOther s r.clientId ip = false

/-- The holder is the client of an entry at another source, or has nothing to compare. -/
theorem Admitted.same {s : Server n} {r : Register} {src : SockAddr} {ip : Ip}
    (ha : Admitted s r src ip) {h : Fin n} (hh : serverFindByIp s.clients ip = some h) :
    (s.clients h).ipBe = ip ∧ (s.clients h).autoClient = false ∧
      (serverFindByAddr s.clients src = some h ∨
        strcaseeq (s.clients h).clientId r.clientId = true ∧ (s.clients h).pskKey = r.key) := by
  have := ha.holder h hh
  simp only [holderRefuses, Bool.or_eq_false_iff, Bool.and_eq_false_iff, bne_eq_false_iff_eq,
    Bool.not_eq_false'] at this
  exact ⟨this.1.1, this.1.2, this.2.imp id id⟩

section Choice

variable {s : Server n} {r : Register} {src : SockAddr} {fd : ℤ}

theorem entryChoiceManual_admitted (h : entryChoiceManual s r src fd ≠ .rejected) :
    ∃ ip, Admitted s r src ip := by
  unfold entryChoiceManual at h
  dsimp only at h
  split at h
  · exact absurd rfl h
  · rename_i ip hip
    split at h
    · exact absurd rfl h
    · rename_i hh
      split at h
      · exact absurd rfl h
      · rename_i hl
        refine ⟨ip, hip, fun i hi => ?_, by simpa using hl⟩
        rw [hi] at hh
        simpa using hh

/-- What leads an INIT to an entry. -/
inductive Leads (s : Server n) (r : Register) (src : SockAddr) (fd : ℤ) : EntryChoice n → Prop
  | id (i : Fin n) (hauto : r.auto = true) (hid : serverFindByClientId s.clients r.clientId = some i) :
      Leads s r src fd (.own i)
  | connection (i : Fin n) (hauto : r.auto = true)
      (hid : serverFindByClientId s.clients r.clientId = none)
      (hsrc : serverFindByAddr s.clients src = some i) (hfd : 0 ≤ (s.clients i).tcpFd) :
      Leads s r src fd (.source i)
  | newId (hauto : r.auto = true) (hid : serverFindByClientId s.clients r.clientId = none) :
      Leads s r src fd .fresh
  | address (i : Fin n) (ip : Ip) (hauto : r.auto = false) (ha : Admitted s r src ip)
      (hip : serverFindByIp s.clients ip = some i)
      (hsrc : ∀ b, serverFindByAddr s.clients src = some b → b = i ∨ (s.clients b).preauth = true) :
      Leads s r src fd (.own i)
  | source (i : Fin n) (ip : Ip) (hauto : r.auto = false) (ha : Admitted s r src ip)
      (hsrc : serverFindByAddr s.clients src = some i)
      (hfd : 0 ≤ fd ∨ (s.clients i).cur.valid = false)
      (hip : ∀ h, serverFindByIp s.clients ip = some h → i ≠ h ∧ (s.clients i).preauth = false) :
      Leads s r src fd (.source i)
  | newAddress (ip : Ip) (hauto : r.auto = false) (ha : Admitted s r src ip)
      (hip : ∀ h, serverFindByIp s.clients ip = some h →
        ∃ b, serverFindByAddr s.clients src = some b ∧ b ≠ h ∧ (s.clients b).preauth = false) :
      Leads s r src fd .fresh
  | rejected : Leads s r src fd .rejected

theorem entryChoiceAuto_leads (hauto : r.auto = true) :
    Leads s r src fd (entryChoiceAuto s r src) := by
  unfold entryChoiceAuto
  split
  · exact .rejected
  · split
    · rename_i i hi
      exact .id i hauto hi
    · rename_i hid
      split
      · rename_i i hi
        split
        · exact .connection i hauto hid hi ‹_›
        · exact .newId hauto hid
      · exact .newId hauto hid

theorem entryChoiceManual_leads (hauto : r.auto = false) :
    Leads s r src fd (entryChoiceManual s r src fd) := by
  by_cases hrej : entryChoiceManual s r src fd = .rejected
  · rw [hrej]
    exact .rejected
  · obtain ⟨ip, ha⟩ := entryChoiceManual_admitted hrej
    have hatSource : (∀ h, serverFindByIp s.clients ip = some h →
        ∃ b, serverFindByAddr s.clients src = some b ∧ b ≠ h ∧ (s.clients b).preauth = false) →
        Leads s r src fd (match serverFindByAddr s.clients src with
          | some b => if (decide (0 ≤ fd) || !(s.clients b).cur.valid) = true then .source b else .fresh
          | none => .fresh) := by
      intro hip
      split
      · rename_i b hb
        split
        · rename_i hfd
          refine .source b ip hauto ha hb (by simpa using hfd) fun h hh => ?_
          obtain ⟨b', hb', hne, hpre⟩ := hip h hh
          rw [hb] at hb'
          cases hb'
          exact ⟨hne, hpre⟩
        · exact .newAddress ip hauto ha hip
      · exact .newAddress ip hauto ha hip
    unfold entryChoiceManual at hrej ⊢
    rw [ha.pton] at hrej ⊢
    dsimp only at hrej ⊢
    split at hrej
    · exact absurd rfl hrej
    · rename_i hrefuse
      rw [if_neg hrefuse]
      split at hrej
      · exact absurd rfl hrej
      · rename_i hlease
        rw [if_neg hlease]
        split
        · rename_i h hh
          split
          · rename_i hall
            refine .address h ip hauto ha hh fun b hb => ?_
            rw [hb] at hall
            simpa using hall
          · rename_i hall
            refine hatSource fun h' hh' => ?_
            rw [hh] at hh'
            cases hh'
            cases hb : serverFindByAddr s.clients src with
            | none => rw [hb] at hall; exact absurd rfl hall
            | some b =>
              rw [hb] at hall
              simp only [Option.all_some, Bool.or_eq_true, not_or, beq_iff_eq,
                Bool.not_eq_true] at hall
              exact ⟨b, rfl, hall.1, hall.2⟩
        · rename_i hnone
          exact hatSource fun h hh => by rw [hnone] at hh; cases hh

theorem entryChoice_leads (s : Server n) (r : Register) (src : SockAddr) (fd : ℤ) :
    Leads s r src fd (entryChoice s r src fd) := by
  unfold entryChoice
  split
  · exact entryChoiceAuto_leads ‹_›
  · exact entryChoiceManual_leads (by simpa using ‹¬ r.auto = true›)

end Choice

/-! ## What `server_entry_for` does -/

section Effect

variable {s : Server n} {r : Register} {src : SockAddr} {fd : ℤ} {grow : Grow}

/-- Every slot is looked at, from wherever the search starts. -/
theorem mem_allocOrder (start : ℕ) (j : Fin n) : j ∈ allocOrder (n := n) start := by
  unfold allocOrder
  have hn : 0 < n := j.pos
  refine List.mem_map.mpr ⟨⟨(j + (n - start % n)) % n, Nat.mod_lt _ hn⟩, List.mem_finRange _, Fin.ext ?_⟩
  have hlt : start % n < n := Nat.mod_lt _ hn
  show (start + (j + (n - start % n)) % n) % n = j
  have hround : start + (j + (n - start % n)) = j + n * (start / n + 1) := by
    have := Nat.div_add_mod start n
    rw [Nat.mul_add, Nat.mul_one]
    omega
  rw [Nat.add_mod_mod, hround, Nat.add_mul_mod_self_left, Nat.mod_eq_of_lt j.isLt]

theorem serverAllocClient_some {i : Fin n} {s' : Server n}
    (h : serverAllocClient s grow = some (i, s')) :
    (s.clients i).active = false ∧
        s' = { s.setClient i .taken with allocNext := (i + 1) % n } ∨
      (∀ j, (s.clients j).active = true) ∧ s' = (serverEndClient grow i s).setClient i .taken := by
  unfold serverAllocClient at h
  split at h
  · rename_i k hk
    simp only [Option.some.injEq, Prod.mk.injEq] at h
    obtain ⟨rfl, rfl⟩ := h
    exact Or.inl ⟨by simpa using List.find?_some hk, rfl⟩
  · rename_i hnone
    split at h
    · cases h
    · obtain ⟨k, -, hk⟩ := Option.map_eq_some_iff.mp h
      rw [Prod.mk.injEq] at hk
      obtain ⟨rfl, rfl⟩ := hk
      refine Or.inr ⟨fun j => ?_, rfl⟩
      have := List.find?_eq_none.mp hnone j (mem_allocOrder s.allocNext j)
      simpa using this

theorem withIp_slot (e : Entry n) : (e.withIp r).slot = e.slot := by
  unfold Entry.withIp
  split <;> rfl

theorem withIp_fresh (e : Entry n) : (e.withIp r).fresh = e.fresh := by
  unfold Entry.withIp
  split <;> rfl

theorem withIp_of_ne (e : Entry n) {j : Fin n} (h : j ≠ e.slot) :
    (e.withIp r).server.clients j = e.server.clients j := by
  unfold Entry.withIp
  split
  · rfl
  · exact Server.setClient_of_ne _ _ _ h

/-- An entry with the address a manual client gets. -/
def withManualIp (c : ServerClient) (r : Register) : ServerClient :=
  match manualIp r with
  | none => c
  | some ip => serverSetIp c ip

theorem withManualIp_auto (c : ServerClient) (hauto : r.auto = true) : withManualIp c r = c := by
  unfold withManualIp manualIp
  rw [if_pos hauto]

theorem withManualIp_manual (c : ServerClient) (hauto : r.auto = false) {ip : Ip}
    (hip : inetPton r.localIp = some ip) : withManualIp c r = serverSetIp c ip := by
  unfold withManualIp manualIp
  rw [if_neg (by rw [hauto]; decide), hip]

theorem withIp_self (e : Entry n) :
    (e.withIp r).server.clients e.slot = withManualIp (e.server.clients e.slot) r := by
  unfold Entry.withIp withManualIp
  split
  · rfl
  · exact Server.setClient_self ..

theorem serverAdoptTcp_of_ne (i : Fin n) {j : Fin n} (h : j ≠ i) :
    (serverAdoptTcp i fd s).clients j = s.clients j ∨
      (serverAdoptTcp i fd s).clients j = .wiped ∧ 0 ≤ fd ∧ (s.clients i).tcpFd ≠ fd ∧
        (s.clients j).active = true ∧ (s.clients j).tcpFd = fd := by
  unfold serverAdoptTcp
  split
  · exact Or.inl rfl
  · rename_i hfd
    rw [not_or] at hfd
    dsimp only
    rw [if_neg h]
    split
    · rename_i hj
      simp only [Bool.and_eq_true, beq_iff_eq] at hj
      exact Or.inr ⟨rfl, by omega, hfd.2, hj⟩
    · exact Or.inl rfl

/-- An entry taken up on a connection: what depends on the connection may change. -/
structure Resumed (fd : ℤ) (c c' : ServerClient) : Prop where
  eq : c' = { c with sessionSince := c'.sessionSince, tcpFd := c'.tcpFd, recvState := c'.recvState }
  udp : fd < 0 → c'.tcpFd = c.tcpFd

theorem Resumed.trans {c c' c'' : ServerClient} (h : Resumed fd c c') (h' : Resumed fd c' c'') :
    Resumed fd c c'' := by
  refine ⟨?_, fun hfd => (h'.udp hfd).trans (h.udp hfd)⟩
  rw [h'.eq, h.eq]

theorem serverAdoptTcp_self (i : Fin n) :
    Resumed fd (s.clients i) ((serverAdoptTcp i fd s).clients i) := by
  unfold serverAdoptTcp
  split
  · exact ⟨rfl, fun _ => rfl⟩
  · rename_i hfd
    dsimp only
    rw [if_pos rfl]
    exact ⟨rfl, fun h => absurd (Or.inl h) hfd⟩

theorem noteReconnect_resumed (c : ServerClient) : Resumed fd c (noteReconnect c src) := by
  unfold noteReconnect
  split <;> exact ⟨rfl, fun _ => rfl⟩

theorem resumeEntry_self (i : Fin n) : Resumed fd (s.clients i) ((resumeEntry s i src fd).clients i) := by
  have := @serverAdoptTcp_self _ (s.setClient i (noteReconnect (s.clients i) src)) fd i
  rw [Server.setClient_self] at this
  exact (noteReconnect_resumed _).trans this

theorem resumeEntry_of_ne (i : Fin n) {j : Fin n} (h : j ≠ i) :
    (resumeEntry s i src fd).clients j = s.clients j ∨
      (resumeEntry s i src fd).clients j = .wiped ∧ 0 ≤ fd ∧ (s.clients i).tcpFd ≠ fd ∧
        (s.clients j).active = true ∧ (s.clients j).tcpFd = fd := by
  have := @serverAdoptTcp_of_ne _ (s.setClient i (noteReconnect (s.clients i) src)) fd i j h
  rw [Server.setClient_of_ne _ _ _ h, Server.setClient_self] at this
  have hfd : (noteReconnect (s.clients i) src).tcpFd = (s.clients i).tcpFd := by
    unfold noteReconnect
    split <;> rfl
  rwa [hfd] at this

/-- The slot of the entry, before and after. -/
inductive SlotEffect (s : Server n) (r : Register) (src : SockAddr) (fd : ℤ) (grow : Grow) :
    Entry n → Prop
  | own (e : Entry n) (hchoice : entryChoice s r src fd = .own e.slot) (hfresh : e.fresh = false)
      (hleases : e.server.leases = s.leases) (hentry : Resumed fd (s.clients e.slot) (e.server.clients e.slot)) :
      SlotEffect s r src fd grow e
  | source (e : Entry n) (hchoice : entryChoice s r src fd = .source e.slot) (hfresh : e.fresh = false)
      (hleases : e.server.leases = s.leases)
      (hentry : e.server.clients e.slot = withManualIp (s.clients e.slot) r) :
      SlotEffect s r src fd grow e
  | free (e : Entry n) (hchoice : entryChoice s r src fd = .fresh) (hfresh : e.fresh = true)
      (hleases : e.server.leases = s.leases)
      (hentry : e.server.clients e.slot = withManualIp .taken r)
      (hslot : (s.clients e.slot).active = false) : SlotEffect s r src fd grow e
  | evicted (e : Entry n) (hchoice : entryChoice s r src fd = .fresh) (hfresh : e.fresh = true)
      (hleases : e.server.leases = leasesOfEnded s.conf s.now grow (s.clients e.slot) s.leases)
      (hentry : e.server.clients e.slot = withManualIp .taken r)
      (hfull : ∀ j, (s.clients j).active = true) : SlotEffect s r src fd grow e

/-- What else an entry's state has in common with the state before. -/
structure Entry.Frame (s : Server n) (e : Entry n) : Prop where
  conf : e.server.conf = s.conf
  now : e.server.now = s.now
  pool : e.server.pool = s.pool
  started : e.server.started = s.started

theorem withIp_frame {e : Entry n} (h : e.Frame s) : (e.withIp r).Frame s := by
  unfold Entry.withIp
  split
  · exact h
  · exact ⟨h.conf, h.now, h.pool, h.started⟩

theorem withIp_leases (e : Entry n) : (e.withIp r).server.leases = e.server.leases := by
  unfold Entry.withIp
  split <;> rfl

theorem resumeEntry_frame (i : Fin n) : Entry.Frame s ⟨i, false, resumeEntry s i src fd⟩ := by
  unfold resumeEntry serverAdoptTcp
  split <;> exact ⟨rfl, rfl, rfl, rfl⟩

theorem resumeEntry_leases (i : Fin n) : (resumeEntry s i src fd).leases = s.leases := by
  unfold resumeEntry serverAdoptTcp
  split <;> rfl

/-- A manual client's own entry has its address already. -/
theorem withManualIp_own {i : Fin n} {c : ServerClient} (h : entryChoice s r src fd = .own i)
    (hc : Resumed fd (s.clients i) c) : Resumed fd (s.clients i) (withManualIp c r) := by
  unfold withManualIp manualIp
  have hl := entryChoice_leads s r src fd
  rw [h] at hl
  cases hl with
  | id _ hauto _ => rw [if_pos hauto]; exact hc
  | address _ ip hauto ha hip _ =>
    rw [if_neg (by simp [hauto]), ha.pton]
    have hsame : serverSetIp c ip = c := by
      rw [← (ha.same hip).1, ← show c.ipBe = (s.clients i).ipBe by rw [hc.eq]]
      rfl
    dsimp only
    rw [hsame]
    exact hc

theorem serverEntryFor_slot {e : Entry n} (h : serverEntryFor s r src fd grow = some e) :
    SlotEffect s r src fd grow e := by
  unfold serverEntryFor at h
  split at h
  · cases h
  · rename_i i hchoice
    cases h
    refine .own _ ?_ ?_ ?_ ?_
    · rwa [withIp_slot]
    · rw [withIp_fresh]
    · rw [withIp_leases]
      exact resumeEntry_leases i
    · rw [withIp_slot, withIp_self]
      exact withManualIp_own hchoice (resumeEntry_self i)
  · rename_i i hchoice
    cases h
    refine .source _ ?_ ?_ ?_ ?_
    · rwa [withIp_slot]
    · rw [withIp_fresh]
    · rw [withIp_leases]
    · rw [withIp_slot, withIp_self]
  · rename_i hchoice
    obtain ⟨⟨i, s'⟩, halloc, rfl⟩ := Option.map_eq_some_iff.mp h
    rcases serverAllocClient_some halloc with ⟨hfree, rfl⟩ | ⟨hfull, rfl⟩
    · refine .free _ hchoice (withIp_fresh _) (withIp_leases _) ?_ (by rwa [withIp_slot])
      rw [withIp_slot, withIp_self]
      exact congrArg (withManualIp · r) (Server.setClient_self ..)
    · refine .evicted _ hchoice (withIp_fresh _) ?_ ?_ hfull
      · rw [withIp_leases, withIp_slot]
        rfl
      · rw [withIp_slot, withIp_self]
        exact congrArg (withManualIp · r) (Server.setClient_self ..)

/-- Another slot is left alone, or freed because its connection is now the entry's. -/
theorem serverEntryFor_other {e : Entry n} (h : serverEntryFor s r src fd grow = some e) {j : Fin n}
    (hj : j ≠ e.slot) :
    e.server.clients j = s.clients j ∨
      e.server.clients j = .wiped ∧ entryChoice s r src fd = .own e.slot ∧ 0 ≤ fd ∧
        (s.clients e.slot).tcpFd ≠ fd ∧ (s.clients j).active = true ∧ (s.clients j).tcpFd = fd := by
  unfold serverEntryFor at h
  split at h
  · cases h
  · rename_i i hchoice
    cases h
    rw [withIp_slot] at hj ⊢
    rw [withIp_of_ne _ hj]
    exact (resumeEntry_of_ne i hj).imp id fun h => ⟨h.1, hchoice, h.2⟩
  · cases h
    rw [withIp_slot] at hj
    rw [withIp_of_ne _ hj]
    exact Or.inl rfl
  · obtain ⟨⟨i, s'⟩, halloc, rfl⟩ := Option.map_eq_some_iff.mp h
    rw [withIp_slot] at hj
    rw [withIp_of_ne _ hj]
    left
    rcases serverAllocClient_some halloc with ⟨-, rfl⟩ | ⟨-, rfl⟩
    · exact Server.setClient_of_ne _ _ _ hj
    · exact (Server.setClient_of_ne _ _ _ hj).trans (serverEndClient_of_ne _ _ _ hj)

/-- The slot of the connection that the entry takes over is freed. -/
theorem serverEntryFor_adopts {e : Entry n} (h : serverEntryFor s r src fd grow = some e)
    (hchoice : entryChoice s r src fd = .own e.slot) (hfd : 0 ≤ fd) (htcp : (s.clients e.slot).tcpFd ≠ fd)
    {j : Fin n} (hj : j ≠ e.slot) (hactive : (s.clients j).active = true) (hjfd : (s.clients j).tcpFd = fd) :
    e.server.clients j = .wiped := by
  unfold serverEntryFor at h
  rw [hchoice] at h
  have he := Option.some.inj h
  rw [← he, withIp_of_ne ⟨e.slot, false, resumeEntry s e.slot src fd⟩ hj]
  unfold resumeEntry serverAdoptTcp
  have hnote : (noteReconnect (s.clients e.slot) src).tcpFd = (s.clients e.slot).tcpFd := by
    unfold noteReconnect
    split <;> rfl
  rw [if_neg (by rw [Server.setClient_self, hnote, not_or]; exact ⟨not_lt.mpr hfd, htcp⟩)]
  dsimp only
  rw [if_neg hj, Server.setClient_of_ne _ _ _ hj, hactive, hjfd, BEq.rfl, Bool.and_self, if_pos rfl]

theorem serverEntryFor_frame {e : Entry n} (h : serverEntryFor s r src fd grow = some e) :
    e.Frame s := by
  unfold serverEntryFor at h
  split at h
  · cases h
  · cases h
    exact withIp_frame (resumeEntry_frame _)
  · cases h
    exact withIp_frame ⟨rfl, rfl, rfl, rfl⟩
  · obtain ⟨⟨i, s'⟩, halloc, rfl⟩ := Option.map_eq_some_iff.mp h
    refine withIp_frame ?_
    rcases serverAllocClient_some halloc with ⟨-, rfl⟩ | ⟨-, rfl⟩ <;> exact ⟨rfl, rfl, rfl, rfl⟩

end Effect

end Camex
