import Camex.Safety.UniqueAddress
import Camex.Server.AutoAddress
import Camex.Server.LeaseSteps

/-!
# Pool assignments are safe

`PoolSafe`: what the address is that the pool gives to an auto client. `poolGiven`: every address the
pool gives is such, in the runs whose handshakes meet `AddressUndisputed`.
-/

namespace Camex

open Lib

variable {n : ℕ} {Hs : Type} {N : Noise Hs}

/-- The leases a handshake looks at: with those of the client that was evicted for it. -/
def handshakeLeases (s : Server n) (grow : Grow) (slot : Fin n) (fresh : Bool) : LeaseTable :=
  if fresh && (s.clients slot).active then leasesOfEnded s.conf s.now grow (s.clients slot) s.leases
  else s.leases

theorem serverEntryFor_handshakeLeases {s s₁ : Server n} {r : Register} {src : SockAddr} {fd : ℤ} {grow : Grow}
    {e : Entry n} (hrec : Recounted s s₁) (he : serverEntryFor s₁ r src fd grow = some e) :
    e.server.leases = handshakeLeases s grow e.slot e.fresh := by
  unfold handshakeLeases
  cases serverEntryFor_slot he with
  | own _ hfresh hl _ =>
    rw [hl, hrec.leases, hfresh]
    rfl
  | source _ hfresh hl _ =>
    rw [hl, hrec.leases, hfresh]
    rfl
  | free _ hfresh hl _ hslot =>
    rw [hl, hrec.leases, hfresh, ← hrec.active, hslot]
    rfl
  | evicted _ hfresh hl _ hfull =>
    rw [hl, hrec.leases, hrec.conf, hrec.now, hfresh, ← hrec.active, hfull, Bool.and_self, if_pos rfl]
    have hcore : ∀ c : ServerClient, leasesOfEnded s.conf s.now grow c s.leases =
        leasesOfEnded s.conf s.now grow c.core s.leases := fun _ => rfl
    rw [hcore, hrec.core, ← hcore]

/-- An address of the pool that a handshake may give to slot `slot`; `s'` is the state behind it, `ls` the
leases it looked at. -/
structure PoolSafe (s s' : Server n) (ls : LeaseTable) (slot : Fin n) (clientId : CStr) (ip : Ip) : Prop where
  has : poolHas s.conf.db ip = true
  ne_tunnel : ip ≠ s.conf.tunnelIp
  no_profile : profileOwnerOfIp s.conf.db ip = none
  unheld : ∀ j, j ≠ slot → ¬ Holds (s'.clients j) ip
  /-- A lease of another ID is past its time, and every other address is taken or leased. -/
  unleased : (∀ k, (ls.at k).ipBe = ip → strcaseeq (ls.at k).id clientId = true) ∨
    (∀ k, (ls.at k).ipBe = ip → serverLeaseMin s.conf ≤ s.now - (ls.at k).since) ∧
      ∀ host, poolHas s.conf.db host = true → host ≠ s.conf.tunnelIp → profileOwnerOfIp s.conf.db host = none →
        (∀ j, j ≠ slot → ¬ Holds (s'.clients j) host) →
        ∃ k, (ls.at k).ipBe = host ∧ strcaseeq (ls.at k).id clientId = false

section

variable {s s' : Server n} {env : PacketEnv} {pkt : Bytes} {src : SockAddr} {fd : ℤ} {slot : Fin n} {fresh : Bool}
  {r : Register} {reply : CStr} {packet : Bytes}

/-- The entry of an accepted handshake holds the address it was given. -/
theorem serverHandleInit_holds (h : serverHandleInit N s env pkt src fd = (s', .accepted slot fresh r reply packet))
    (hne : (s'.clients slot).given ≠ 0) : Holds (s'.clients slot) (s'.clients slot).given := by
  have hactive : (s'.clients slot).active = true := by
    have hfate := serverHandleInit_fate (N := N) s env pkt src fd slot
    rw [h] at hfate
    cases hfate with
    | alone _ ho => exact absurd rfl (ho fresh r reply packet)
    | adopted _ _ _ _ _ _ _ _ _ _ ho => exact absurd rfl (ho fresh r reply packet)
    | unused _ _ _ _ _ ho => cases ho
    | restored _ _ _ _ _ ho => cases ho
    | accepted r' hr hpass ht m hacc reply' ho =>
      dsimp only at hacc ⊢
      rw [hacc.eq]
      exact ht.active
  refine ⟨hactive, hne, ?_⟩
  unfold ServerClient.given
  split
  · exact Or.inr (Or.inl rfl)
  · exact Or.inl rfl

/-- **Pool assignments are safe**, after handshakes that leave every address with one client. -/
theorem poolGiven (hs : Machine.ReachableUnder (serverMachine N n) (OnInit N AddressUndisputed) s)
    (hC : ∀ r, Carries N s.conf pkt r → AddressUndisputed s r src fd)
    (h : serverHandleInit N s env pkt src fd = (s', .accepted slot fresh r reply packet)) (hauto : r.auto = true)
    (hincomplete : ¬ (configDbLookupProfile s.conf.db r.clientId).Complete) :
    ∃ ip, (s'.clients slot).given = ip ∧
      protoBuildConfig r.clientId (poolProfile s.conf.db r.clientId ip) CAMEX_CONTROL_MAX = some reply ∧
      PoolSafe s s' (handshakeLeases s env.grow slot fresh) slot r.clientId ip := by
  obtain ⟨s₁, e, c, ha⟩ := serverHandleInit_auto h hauto
  have hid := (ha.carries.auto_idText hauto).1
  have hconf : e.server.conf = s.conf := (serverEntryFor_frame ha.entry).conf.trans ha.recounted.conf
  have hnow : e.server.now = s.now := (serverEntryFor_frame ha.entry).now.trans ha.recounted.now
  have hleases := serverEntryFor_handshakeLeases ha.recounted ha.entry
  have hdistinct : e.server.leases.AddressesDistinct :=
    addressesDistinct_invariant.releases (serverEntryFor_releases ha.recounted ha.entry)
      (leasesDistinct_reachable hs.reachable)
  rw [ha.slot_eq, ha.fresh_eq] at hleases
  have hunique : AddressesUnique s'.clients := by
    have hrun := serverHandleInit_cases N s env pkt src fd
    rw [h] at hrun
    exact hrun.addressesUnique (addressesUnique_reachable hs) hC
  cases ha.address with
  | profile hcomplete _ _ =>
    rw [Server.setClient_conf, hconf] at hcomplete
    exact absurd hcomplete hincomplete
  | pool _ c₁ hc₁ pool ip hip hc hreply =>
    have hanswer := buildConfigIp_answer (by
      rw [Server.setClient_self]
      refine AutoAddress.clientId ?_ hc₁
      rw [Server.setClient_self, initClaim_eq hid.short]) hip
    rw [Server.setClient_setClient] at hanswer
    have hgiven : (s'.clients slot).given = ip := by
      rw [ha.given, hc, serverAssignIp_given c₁ hanswer.ne_zero]
    have hholds : Holds (s'.clients slot) ip := by
      have := serverHandleInit_holds h (by rw [hgiven]; exact hanswer.ne_zero)
      rwa [hgiven] at this
    rw [Server.setClient_conf, hconf] at hreply
    obtain ⟨hhas, htunnel, howner, -, hlease⟩ := hanswer
    rw [Server.setClient_conf, hconf] at hhas htunnel howner
    rw [Server.setClient_leases, Server.setClient_conf, Server.setClient_now, hconf, hnow] at hlease
    refine ⟨ip, hgiven, hreply, hhas, htunnel, howner, fun j hj hh => hj (hunique ip j slot hh hholds), ?_⟩
    have hne := poolHas_ne_zero hhas
    rw [← hleases]
    rcases hlease with hallows | ⟨⟨k, hk, hold⟩, hnone⟩
    · left
      intro k hk
      unfold serverLeaseAllows at hallows
      rw [← hk, serverLeaseByIp_eq hdistinct (hk ▸ hne)] at hallows
      exact hallows
    · refine Or.inr ⟨fun k' hk' => ?_, fun host hhost htun hown hunheld => ?_⟩
      · rw [← hk', serverLeaseByIp_eq hdistinct (hk' ▸ hne)] at hk
        cases hk
        exact hold
      · have husable := hnone host hhost
        -- nobody else holds the host, so a lease is in its way
        have hfree : ipFreeFor (e.server.setClient slot c₁) slot host = true := by
          unfold ipFreeFor
          split
          · rfl
          · rename_i k hk
            by_contra hks
            have hks : k ≠ slot := by simpa using hks
            have hmatch := serverFindByIp_some hk
            rw [Server.setClient_of_ne _ _ _ hks, matchIp_iff, ← ha.other k hks] at hmatch
            exact hunheld k hks hmatch
        have hnot : serverLeaseAllows e.server.leases host r.clientId = false := by
          by_contra hallow
          rw [Bool.not_eq_false] at hallow
          have husable' : serverIpUsable (e.server.setClient slot c₁) slot host r.clientId = true := by
            refine serverIpUsable_iff.mpr ?_
            rw [Server.setClient_conf, hconf]
            exact ⟨hhost, htun, hown, hfree, hallow⟩
          rw [husable] at husable'
          cases husable'
        unfold serverLeaseAllows at hnot
        split at hnot
        · cases hnot
        · rename_i k hk
          exact ⟨k, (serverLeaseByIp_some hk).2, hnot⟩

end

/-! ## Runs -/

/-- Is the INIT of an auto client accepted with this address of the pool, and does another entry hold it then? -/
def poolGives (N : Noise Hs) (s : Server n) (env : PacketEnv) (pkt : Bytes) (src : SockAddr) (ip : Ip) (twice : Bool) :
    Bool :=
  match serverHandleInit N s env pkt src (-1) with
  | (s', .accepted slot _ r _ _) =>
    (r.auto && !decide (configDbLookupProfile s.conf.db r.clientId).Complete && (s'.clients slot).given == ip) &&
      ((List.finRange n).any fun j => j != slot && matchIp (s'.clients j) ip) == twice
  | _ => false

theorem poolGives_accepted {s : Server n} {env : PacketEnv} {pkt : Bytes} {src : SockAddr} {ip : Ip} {twice : Bool}
    (h : poolGives N s env pkt src ip twice = true) : ∃ s' slot fresh r reply packet,
      serverHandleInit N s env pkt src (-1) = (s', .accepted slot fresh r reply packet) ∧ r.auto = true ∧
        ¬ (configDbLookupProfile s.conf.db r.clientId).Complete ∧ (s'.clients slot).given = ip ∧
        (twice = true → ∃ j, j ≠ slot ∧ Holds (s'.clients j) ip) := by
  unfold poolGives at h
  split at h
  · rename_i s' slot fresh r reply packet heq
    simp only [Bool.and_eq_true, Bool.not_eq_true', decide_eq_false_iff_not, beq_iff_eq] at h
    obtain ⟨⟨⟨hauto, hincomplete⟩, hgiven⟩, hheld⟩ := h
    refine ⟨s', slot, fresh, r, reply, packet, heq, hauto, hincomplete, hgiven, fun htwice => ?_⟩
    rw [htwice, List.any_eq_true] at hheld
    obtain ⟨j, -, hj⟩ := hheld
    rw [Bool.and_eq_true, bne_iff_ne, matchIp_iff] at hj
    exact ⟨j, hj⟩
  · cases h

/-- Two auto clients have an address each and go, the second one first; long after, manual clients take the rest of the
pool. -/
def heldAndLeased : List (Event 4) :=
  [udpInit 65 1 (toySource 1 1000) "MODE=AUTO CLIENT_ID=a",
    .udp (dataPacket 0x00010001#32 0 []) (toySource 1 1000) (toyEnv 0),
    udpInit 65 2 (toySource 2 1000) "MODE=AUTO CLIENT_ID=b",
    .udp (dataPacket 0x00020002#32 0 []) (toySource 2 1000) (toyEnv 0),
    .tick 500,
    .udp (dataPacket 0x00010001#32 1 []) (toySource 1 1000) (toyEnv 0),
    .expire fun _ _ => true,
    .tick 100000,
    .expire fun _ _ => true,
    udpInit 65 3 (toySource 3 1000) "MODE=MANUAL CLIENT_ID=d LOCAL_IP=10.0.0.4",
    udpInit 65 4 (toySource 4 1000) "MODE=MANUAL CLIENT_ID=e LOCAL_IP=10.0.0.5",
    udpInit 65 5 (toySource 5 1000) "MODE=MANUAL CLIENT_ID=f LOCAL_IP=10.0.0.6"]

/-- A new client gets the address whose lease is past its time; the other lease is new, and the rest is held. -/
theorem poolGiven_leased : ∃ (s s' : Server 4) (slot : Fin 4) (fresh : Bool) (r : Register),
    (Holds (s.clients 2) 0x0a000004#32 ∧ Holds (s.clients 3) 0x0a000005#32 ∧ Holds (s.clients 0) 0x0a000006#32) ∧
      s.leases.slots.take 2 = [⟨ascii "b", 0x0a000003#32, 500, false⟩, ⟨ascii "a", 0x0a000002#32, 100000, false⟩] ∧
      (s'.clients slot).given = 0x0a000003#32 ∧
      PoolSafe s s' (handshakeLeases s (toyEnv 6).grow slot fresh) slot r.clientId 0x0a000003#32 := by
  obtain ⟨s, hs, hp⟩ := Machine.runUnder_reachable (M := toyMachine 4)
    (C := OnInit toyNoise AddressUndisputed) (l := heldAndLeased)
    (p := fun s => (matchIp (s.clients 2) 0x0a000004#32 && matchIp (s.clients 3) 0x0a000005#32 &&
        matchIp (s.clients 0) 0x0a000006#32) &&
      decide (s.leases.slots.take 2 =
        [⟨ascii "b", 0x0a000003#32, 500, false⟩, ⟨ascii "a", 0x0a000002#32, 100000, false⟩]) &&
      poolGives toyNoise s (toyEnv 6) (initPacket 65 6 "MODE=AUTO CLIENT_ID=c") (toySource 6 1000) 0x0a000003#32 false &&
      decide (∀ r ∈ carried toyNoise s.conf (initPacket 65 6 "MODE=AUTO CLIENT_ID=c"),
        AddressUndisputed s r (toySource 6 1000) (-1)))
    (toyServer_started 4 .udp widePoolDb) (by decide +kernel)
  simp only [Bool.and_eq_true, decide_eq_true_iff, matchIp_iff] at hp
  obtain ⟨⟨⟨⟨⟨hd, he⟩, hf⟩, hleases⟩, hgives⟩, hu⟩ := hp
  obtain ⟨s', slot, fresh, r, reply, packet, heq, hauto, hincomplete, hgiven, -⟩ := poolGives_accepted hgives
  obtain ⟨ip, hip, -, hsafe⟩ := poolGiven hs (fun r hr => hu r ((mem_carried toyNoise).mpr hr)) heq hauto hincomplete
  obtain rfl := hip.symm.trans hgiven
  exact ⟨s, s', slot, fresh, r, ⟨hd, he, hf⟩, hleases, hgiven, hsafe⟩

/-- A client with two entries that hold the address renews its session on one of them. -/
theorem not_poolGiven : ¬ ∀ (s : Server 3), Machine.Reachable (toyMachine 3) s →
    ∀ env pkt src s' slot fresh r reply packet,
      serverHandleInit toyNoise s env pkt src (-1) = (s', .accepted slot fresh r reply packet) →
      r.auto = true → ¬ (configDbLookupProfile s.conf.db r.clientId).Complete →
      ∃ ip, (s'.clients slot).given = ip ∧
        PoolSafe s s' (handshakeLeases s env.grow slot fresh) slot r.clientId ip := by
  intro h
  obtain ⟨s, hs, hp⟩ := Machine.runUnder_reachable (M := toyMachine 3) (C := fun _ _ => True)
    (l := [udpInit 65 1 (toySource 1 1000) "MODE=MANUAL CLIENT_ID=a LOCAL_IP=10.0.0.2",
      udpInit 65 2 (toySource 2 1000) "MODE=MANUAL CLIENT_ID=b LOCAL_IP=10.0.0.6",
      udpInit 65 3 (toySource 2 1000) "MODE=MANUAL CLIENT_ID=a LOCAL_IP=10.0.0.2"])
    (p := fun s => poolGives toyNoise s (toyEnv 4) (initPacket 65 4 "MODE=AUTO CLIENT_ID=a") (toySource 1 1000)
      0x0a000002#32 true)
    (toyServer_started 3 .udp toyDb) (by decide +kernel)
  obtain ⟨s', slot, fresh, r, reply, packet, heq, hauto, hincomplete, hgiven, htwice⟩ := poolGives_accepted hp
  obtain ⟨j, hj, hholds⟩ := htwice rfl
  obtain ⟨ip, hip, hsafe⟩ := h s hs _ _ _ _ _ _ r reply packet heq hauto hincomplete
  obtain rfl := hip.symm.trans hgiven
  exact hsafe.unheld j hj hholds

end Camex
