import Camex.Safety.SessionIndex

/-!
# The data path keeps clients apart

* `Authenticates`: a DATA packet that one session of the table opens; no other one does
  (`Authenticates.unique`);
* `Relayed`: what a packet that is forwarded was: an IPv4 packet from the address of its session;
* `dataPath_isolated`: every other packet is dropped without a change, and with client isolation a packet is
  sealed for its sender at most.
-/

namespace Camex

open Lib

variable {n : ℕ} {Hs : Type} {N : Noise Hs}

/-! ## IPv4 -/

/-- An IPv4 packet whose header fits, with its source and destination. -/
structure Ipv4Packet (packet : Bytes) (src dst : Ip) : Prop where
  version : (packet.getD 0 0).toNat / 16 = 4
  header : 5 ≤ (packet.getD 0 0).toNat % 16
  fits : 20 ≤ packet.length ∧ (packet.getD 0 0).toNat % 16 * 4 ≤ packet.length
  src : v2ReadU32 packet 12 = src
  dst : v2ReadU32 packet 16 = dst

theorem ipv4ParseEndpoints_iff {packet : Bytes} {src dst : Ip} :
    ipv4ParseEndpoints packet = some (src, dst) ↔ Ipv4Packet packet src dst := by
  unfold ipv4ParseEndpoints
  constructor
  · intro h
    split at h
    · cases h
    · dsimp only at h
      split at h
      · cases h
      · rename_i hlen hhdr
        cases h
        exact ⟨by omega, by omega, by omega, rfl, rfl⟩
  · rintro ⟨hversion, hheader, hfits, rfl, rfl⟩
    rw [if_neg (by omega)]
    dsimp only
    rw [if_neg (by omega)]

/-! ## Packets that authenticate -/

/-- A packet that authenticates on session `w` of slot `i`, with its payload and the session behind it. -/
structure Authenticates (N : Noise Hs) (s : Server n) (pkt : Bytes) (fd : ℤ) (i : Fin n) (w : Which)
    (plain : Bytes) (x : Session) : Prop where
  found : Matches s (v2DataReceiver pkt) fd i w
  opens : sessionOpen N ((s.clients i).session w) pkt TUN_PACKET_MAX = some (plain, x)

theorem Handling.indexed (hn : n ≤ 65534) {s : Server n} (h : Handling N s) (i : Fin n) :
    Indexed i (s.clients i) := by
  obtain ⟨s₀, hreach, hread⟩ := h
  exact (indexed_reachable hn hreach i).moved (f := id) Function.injective_id (hread.retained i).session

theorem Authenticates.unique {s : Server n} (hs : ∀ i, Indexed i (s.clients i)) {pkt : Bytes} {fd : ℤ}
    {i j : Fin n} {w v : Which} {plain plain' : Bytes} {x x' : Session}
    (h : Authenticates N s pkt fd i w plain x) (h' : Authenticates N s pkt fd j v plain' x') :
    i = j ∧ w = v := by
  have hi := (dataSession_iff hs pkt fd i w).mpr h.found
  rw [(dataSession_iff hs pkt fd j v).mpr h'.found, Option.some.injEq, Prod.mk.injEq] at hi
  exact ⟨hi.1.symm, hi.2.symm⟩

/-- The address that belongs to a session: the previous one's own while it is set, the offered one for a
session that the client has not confirmed before. -/
def sessionIp (c : ServerClient) : Which → Ip
  | .cur => c.ipBe
  | .next => c.given
  | .prev => if c.prevIpBe ≠ 0 then c.prevIpBe else c.ipBe

/-- Receiving on a session makes its address the one a packet on it may come from. -/
theorem dataReceive_ownIp (c : ServerClient) (w : Which) (x : Session) (src : SockAddr) (fd : ℤ) (now : Time)
    (len : ℕ) : ownIp (dataReceive c w x src fd now len) w = sessionIp c w := by
  have haddr : ∀ c' : ServerClient, (if fd < 0 then serverSetAddr c' src else c').ipBe = c'.ipBe ∧
      (if fd < 0 then serverSetAddr c' src else c').prevIpBe = c'.prevIpBe := by
    intro c'
    split <;> exact ⟨rfl, rfl⟩
  unfold ownIp dataReceive
  dsimp only
  rw [(haddr _).1, (haddr _).2]
  cases w with
  | cur => rfl
  | next => rfl
  | prev => simp [sessionIp, ServerClient.setSession]

/-! ## What is forwarded -/

/-- A forwarded packet; `t` is the table once the packet is authenticated. -/
structure Relayed (N : Noise Hs) (t : Table n) (from_ : Ip) (plain : Bytes) (f : Forwarded n) : Prop where
  from_ne_zero : from_ ≠ 0
  packet : ∃ dst, Ipv4Packet plain from_ dst ∧ ∀ j out, f = .client j out →
    serverFindByIp t dst = some j ∧
      ∃ x, sessionSeal N (t j).cur plain (TUN_PACKET_MAX + V2_OVERHEAD) = some (out, x)
  tun : ∀ p, f = .tun p → p = plain

theorem serverForwardPacket_client {s : Server n} {env : PacketEnv} {packet out : Bytes} {dst : Ip} {j : Fin n}
    (h : (serverForwardPacket N s env packet dst).2 = .client j out) :
    serverFindByIp s.clients dst = some j ∧
      ∃ x, sessionSeal N (s.clients j).cur packet (TUN_PACKET_MAX + V2_OVERHEAD) = some (out, x) := by
  unfold serverForwardPacket at h
  split at h
  · cases h
  · rename_i k hk
    split at h
    · cases h
    · rename_i hseal
      cases h
      exact ⟨hk, _, hseal⟩

theorem serverForwardPacket_tun {s : Server n} {env : PacketEnv} {packet p : Bytes} {dst : Ip}
    (h : (serverForwardPacket N s env packet dst).2 = .tun p) : p = packet := by
  unfold serverForwardPacket at h
  split at h
  · cases h
    rfl
  · split at h <;> cases h

/-- Forwarding seals on the session of the holder of the destination only. -/
theorem serverForwardPacket_other {s : Server n} {env : PacketEnv} {packet : Bytes} {dst : Ip} {k : Fin n}
    (hk : serverFindByIp s.clients dst ≠ some k) :
    (serverForwardPacket N s env packet dst).1.clients k = s.clients k := by
  unfold serverForwardPacket
  split
  · rfl
  · rename_i j hj
    split
    · rfl
    · refine Server.setClient_of_ne _ _ _ ?_
      rintro rfl
      exact hk hj

theorem dataDeliver_relayed {s : Server n} {env : PacketEnv} {i j : Fin n} {w v : Which} {plain : Bytes}
    {f : Forwarded n} (h : (dataDeliver N s env i w plain).2 = .forwarded j v f) :
    Relayed N s.clients (ownIp (s.clients i) w) plain f := by
  unfold dataDeliver at h
  dsimp only at h
  split at h
  · split at h <;> cases h
  · split at h
    · cases h
    · rename_i src dst hparse
      split at h
      · cases h
      · rename_i hown
        rw [not_or, not_not] at hown
        split at h
        · cases h
        · obtain ⟨hne, rfl⟩ := hown
          rw [DataOutcome.forwarded.injEq] at h
          obtain ⟨-, -, hf⟩ := h
          refine ⟨hne, ⟨dst, ipv4ParseEndpoints_iff.mp hparse, fun j out heq => ?_⟩, fun p heq => ?_⟩
          · exact serverForwardPacket_client (hf.trans heq)
          · exact serverForwardPacket_tun (hf.trans heq)

/-- With client isolation delivery seals for the sender at most. -/
theorem dataDeliver_isolated {s : Server n} (hiso : serverClientIsolation s.conf = true) (env : PacketEnv)
    (i : Fin n) (w : Which) (plain : Bytes) :
    (∀ k, k ≠ i → (dataDeliver N s env i w plain).1.clients k = s.clients k) ∧
      ∀ j v k out, (dataDeliver N s env i w plain).2 = .forwarded j v (.client k out) → k = i := by
  unfold dataDeliver
  dsimp only
  split
  · split
    · exact ⟨fun _ _ => rfl, nofun⟩
    · exact ⟨fun k hk => Server.setClient_of_ne _ _ _ hk, nofun⟩
  · split
    · exact ⟨fun _ _ => rfl, nofun⟩
    · rename_i src dst _
      split
      · exact ⟨fun _ _ => rfl, nofun⟩
      · split
        · exact ⟨fun k hk => Server.setClient_of_ne _ _ _ hk, nofun⟩
        · rename_i hholder
          have hown : ∀ k, serverFindByIp s.clients dst = some k → k = i := by
            intro k hk
            rw [hk] at hholder
            simpa [hiso] using hholder
          refine ⟨fun k hk => serverForwardPacket_other fun h => hk (hown k h), fun j v k out h => ?_⟩
          rw [DataOutcome.forwarded.injEq] at h
          exact hown k (serverForwardPacket_client h.2.2).1

/-! ## The data path -/

/-- What a packet on session `w` of slot `i` may do; `t` is the table once it is authenticated. -/
structure Isolated (N : Noise Hs) (s s' : Server n) (t : Table n) (i : Fin n) (w : Which) (plain : Bytes)
    (o : DataOutcome n) : Prop where
  session : o.session = some (i, w)
  /-- The address of the session is the one the entry has for it now. -/
  address : ownIp (s'.clients i) w = sessionIp (s.clients i) w
  relayed : ∀ f, o = .forwarded i w f → Relayed N t (sessionIp (s.clients i) w) plain f
  isolated : serverClientIsolation s.conf = true →
    (∀ k, k ≠ i → s'.clients k = s.clients k) ∧ ∀ k out, o = .forwarded i w (.client k out) → k = i

/-- **The data path keeps clients apart.** -/
theorem dataPath_isolated (hn : n ≤ 65534) {s : Server n} (h : Handling N s) (env : PacketEnv) (pkt : Bytes)
    (src : SockAddr) (fd : ℤ) :
    ((¬ ∃! p : Fin n × Which, ∃ plain x, Authenticates N s pkt fd p.1 p.2 plain x) →
      serverHandleData N s env pkt src fd = (s, .dropped)) ∧
    ∀ i w plain x, Authenticates N s pkt fd i w plain x →
      Isolated N s (serverHandleData N s env pkt src fd).1 (dataReceived s i w x src fd plain.length).clients
        i w plain (serverHandleData N s env pkt src fd).2 := by
  have hs := h.indexed hn
  refine ⟨fun hno => ?_, fun i w plain x ha => ?_⟩
  · unfold serverHandleData
    split
    · rfl
    · rename_i i w hsession
      split
      · rfl
      · rename_i plain x hopen
        have ha : Authenticates N s pkt fd i w plain x := ⟨(dataSession_iff hs _ _ _ _).mp hsession, hopen⟩
        refine absurd ⟨(i, w), ⟨plain, x, ha⟩, ?_⟩ hno
        rintro ⟨j, v⟩ ⟨plain', x', ha'⟩
        obtain ⟨rfl, rfl⟩ := ha'.unique hs ha
        rfl
  · have hdata : serverHandleData N s env pkt src fd =
        dataDeliver N (dataReceived s i w x src fd plain.length) env i w plain := by
      unfold serverHandleData
      rw [(dataSession_iff hs _ _ _ _).mpr ha.found]
      dsimp only
      rw [ha.opens]
    rw [hdata]
    have hentry : (dataReceived s i w x src fd plain.length).clients i =
        dataReceive (s.clients i) w x src fd s.now plain.length := Server.setClient_self ..
    have hown : ownIp ((dataReceived s i w x src fd plain.length).clients i) w = sessionIp (s.clients i) w := by
      rw [hentry, dataReceive_ownIp]
    refine ⟨dataDeliver_session _ _ _ _ _, ?_, fun f hf => ?_, fun hiso => ?_⟩
    · have hsent := (dataDeliver_delivered (N := N) (dataReceived s i w x src fd plain.length) env i w plain).entry i
      rw [hsent]
      exact hown
    · rw [← hown]
      exact dataDeliver_relayed hf
    · obtain ⟨hother, hclient⟩ := dataDeliver_isolated (N := N)
        (s := dataReceived s i w x src fd plain.length) hiso env i w plain
      exact ⟨fun k hk => (hother k hk).trans (Server.setClient_of_ne _ _ _ hk), fun k out hf => hclient i w k out hf⟩

def toyIpv4 : Bytes := 0x45 :: List.replicate 11 0 ++ [10, 0, 0, 5, 10, 0, 0, 1]

/-- A packet of the client for the server's own address. -/
theorem dataPath_isolated_packet : ∃ (s : Server 3) (plain : Bytes) (x : Session), Isolated toyNoise s
    (serverHandleData toyNoise s (toyEnv 0) (dataPacket 0x00010001#32 1 toyIpv4) (toySource 1 1000) (-1)).1
    (dataReceived s 0 .cur x (toySource 1 1000) (-1) plain.length).clients 0 .cur plain
    (serverHandleData toyNoise s (toyEnv 0) (dataPacket 0x00010001#32 1 toyIpv4) (toySource 1 1000) (-1)).2 := by
  obtain ⟨s, hreach, hp⟩ := Machine.runUnder_reachable (M := toyMachine 3) (C := fun _ _ => True)
    (l := liveClient)
    (p := fun s => decide (dataSession s (dataPacket 0x00010001#32 1 toyIpv4) (-1) = some (0, .cur)) &&
      (sessionOpen toyNoise (s.clients 0).cur (dataPacket 0x00010001#32 1 toyIpv4) TUN_PACKET_MAX).isSome)
    (toyServer_started 3 .udp toyDb) (by decide +kernel)
  rw [Bool.and_eq_true, decide_eq_true_iff] at hp
  obtain ⟨⟨plain, x⟩, hopen⟩ := Option.isSome_iff_exists.mp hp.2
  have hs : Handling toyNoise s := ⟨s, hreach, .refl s⟩
  exact ⟨s, plain, x, (dataPath_isolated (by decide) hs _ _ _ _).2 0 .cur plain x
    ⟨(dataSession_iff (hs.indexed (by decide)) _ _ _ _).mp hp.1, hopen⟩⟩

end Camex
