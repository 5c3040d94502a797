import Camex.Safety.UniqueAddress
import Camex.Server.AutoAddress

/-!
# What an auto client is told is what the server routes

* `ToldAddress`: the CONFIG names one `LOCAL_CIDR`, and its address is the entry's;
* `ProfileTells`: what the merged profile has to be for it; `AddressSpare`: who may hold a profile address
  that has no gateway, so that the pool gives it back;
* `toldAddress`: under both a client is told its address, and only under the first.
-/

namespace Camex

open Lib

variable {n : ℕ} {Hs : Type} {N : Noise Hs}

/-- A client is told the address that is now its own, which is its profile's when that has one. -/
def ToldAddress (db : ServerDb) (clientId reply : CStr) (given : Ip) : Prop :=
  ∃ cidr, localCidrs reply = [cidr] ∧ cidrIp cidr = some given ∧ given ≠ 0 ∧
    ∀ ip, profileAddress db clientId = some ip → ip = given

instance (db : ServerDb) (clientId reply : CStr) (given : Ip) :
    Decidable (ToldAddress db clientId reply given) :=
  decidable_of_iff (((localCidrs reply).length = 1 ∧ ∀ cidr ∈ localCidrs reply, cidrIp cidr = some given) ∧
      given ≠ 0 ∧ ((profileAddress db clientId).all fun ip => ip == given) = true) <| by
    constructor
    · rintro ⟨⟨hlen, hcidr⟩, hne, hall⟩
      obtain ⟨cidr, heq⟩ := List.length_eq_one_iff.mp hlen
      refine ⟨cidr, heq, hcidr cidr (by simp [heq]), hne, fun ip hip => ?_⟩
      rw [hip] at hall
      simpa using hall
    · rintro ⟨cidr, heq, hcidr, hne, hall⟩
      refine ⟨⟨by rw [heq]; rfl, fun x hx => ?_⟩, hne, ?_⟩
      · rw [heq, List.mem_singleton] at hx
        rwa [hx]
      · cases hp : profileAddress db clientId with
        | none => rfl
        | some ip => simpa using hall ip hp

/-- A profile with a gateway holds one `LOCAL_CIDR`, which is well-formed and says the address of the
profile, or the one the client has. -/
def CompleteTells (conf : Conf) (clientId : CStr) (before : Ip) : Prop :=
  ∃ cidr ip, (configDbLookupProfile conf.db clientId).localCidrs = [cidr] ∧ cidrIp cidr = some ip ∧ ip ≠ 0 ∧
    (profileAddress conf.db clientId).getD before = ip

/-- The routes of one without hold no `LOCAL_CIDR`, and its address, if any, is one the pool may give. -/
def IncompleteTells (conf : Conf) (clientId : CStr) : Prop :=
  ((configDbLookupProfile conf.db clientId).routeCidrs.flatMap fun r => localCidrs (ctrlField "ROUTE_CIDR" r)) =
      [] ∧
    ∀ ip, profileAddress conf.db clientId = some ip →
      poolHas conf.db ip = true ∧ ip ≠ conf.tunnelIp ∧ profileOwnerOfIp conf.db ip = none

/-- The merged profile of a client tells its address. -/
def ProfileTells (conf : Conf) (clientId : CStr) (before : Ip) : Prop :=
  if (configDbLookupProfile conf.db clientId).Complete then CompleteTells conf clientId before
  else IncompleteTells conf clientId

/-- A profile address without a gateway is held by nobody but the client's entry and leased to nobody else. -/
def AddressSpare (s : Server n) (r : Register) : Prop :=
  ¬ (configDbLookupProfile s.conf.db r.clientId).Complete →
    ∀ ip, profileAddress s.conf.db r.clientId = some ip →
      (∀ j, matchIp (s.clients j) ip = true → serverFindByClientId s.clients r.clientId = some j) ∧
        ∀ k, (s.leases.at k).ipBe = ip → strcaseeq (s.leases.at k).id r.clientId = true

/-! ## The CONFIG -/

/-- The text of a pool address is one word, and reads as that address. -/
theorem poolCidr_text (db : ServerDb) (ip : Ip) :
    (poolCidr db ip).length < 32 ∧ poolCidr db ip ≠ [] ∧ (∀ b ∈ poolCidr db ip, isCtrlDelim b = false) ∧
      cidrIp (poolCidr db ip) = some ip := by
  have hmax := db.poolPrefixMax
  obtain ⟨hlen, -, -⟩ := ipText_shape ip
  have hprefix : (natText db.globals.poolPrefix).length ≤ 2 := natText_length (by decide) (by omega)
  refine ⟨?_, by simp [poolCidr], fun b hb => ?_, cidrIp_text ip (by omega)⟩
  · unfold poolCidr
    rw [List.length_append, List.length_cons]
    omega
  · rcases List.mem_append.mp hb with hb | hb
    · exact ipText_noDelim ip b hb
    · rcases List.mem_cons.mp hb with rfl | hb
      · decide
      · exact digit_noDelim (natText_isDigit _ b hb)

theorem poolProfile_localCidrs (db : ServerDb) (clientId : CStr) (ip : Ip) :
    (poolProfile db clientId ip).localCidrs = poolCidr db ip ::
      (configDbLookupProfile db clientId).routeCidrs.flatMap fun r => localCidrs (ctrlField "ROUTE_CIDR" r) := by
  obtain ⟨hlen, hne, hword, -⟩ := poolCidr_text db ip
  unfold Profile.localCidrs Profile.strayCidrs poolProfile
  dsimp only
  rw [localCidrs_self hne hlen hword,
    localCidrs_other "GATEWAY_IP" (by decide +kernel) (by decide +kernel) (ipText_noDelim _)]
  rfl

/-! ## A profile with a gateway -/

section Complete

variable {s : Server n} {r : Register} {before c : ServerClient} {reply : CStr}

theorem initProfileIp_given {db : ServerDb} (hne : ∀ ip, profileAddress db r.clientId = some ip → ip ≠ 0) :
    (initProfileIp db c r).given = (profileAddress db r.clientId).getD c.given := by
  unfold initProfileIp
  cases hp : profileAddress db r.clientId with
  | none => rfl
  | some ip => exact serverAssignIp_given c (hne ip hp)

theorem completeTells_iff {conf : Conf} (hid : IdText r.clientId)
    (hcomplete : (configDbLookupProfile conf.db r.clientId).Complete)
    (hreply : protoBuildConfig r.clientId (configDbLookupProfile conf.db r.clientId) CAMEX_CONTROL_MAX =
      some reply) :
    ToldAddress conf.db r.clientId reply (initProfileIp conf.db c r).given ↔
      CompleteTells conf r.clientId c.given := by
  have hcidrs := protoBuildConfig_localCidrs hreply hid.noDelim hcomplete.1 hcomplete.2
  unfold ToldAddress CompleteTells
  rw [hcidrs]
  constructor
  · rintro ⟨cidr, heq, hcidr, hne, hall⟩
    refine ⟨cidr, _, heq, hcidr, hne, ?_⟩
    rw [initProfileIp_given fun ip hip => by rw [hall ip hip]; exact hne]
  · rintro ⟨cidr, ip, heq, hcidr, hne, hget⟩
    have hgiven : (initProfileIp conf.db c r).given = ip := by
      rw [initProfileIp_given, hget]
      intro x hx
      rw [hx] at hget
      exact fun h => hne (by rw [← hget, ← h]; rfl)
    rw [hgiven]
    refine ⟨cidr, heq, hcidr, hne, fun x hx => ?_⟩
    rw [hx] at hget
    exact hget

end Complete

/-! ## A profile without one -/

section Incomplete

variable {s s' : Server n} {pkt : Bytes} {src : SockAddr} {fd : ℤ} {grow : Grow} {slot : Fin n} {fresh : Bool}
  {r : Register} {reply : CStr} {s₁ : Server n} {e : Entry n} {c : ServerClient}

/-- Nobody else holds the profile address behind `server_entry_for`. -/
theorem AutoAccepted.free (h : AutoAccepted N s pkt src fd grow s' slot fresh r reply s₁ e c)
    (hauto : r.auto = true) {ip : Ip}
    (hheld : ∀ j, matchIp (s.clients j) ip = true → serverFindByClientId s.clients r.clientId = some j)
    (c₀ : ServerClient) : ipFreeFor (e.server.setClient slot c₀) slot ip = true := by
  unfold ipFreeFor
  split
  · rfl
  · rename_i k hk
    by_contra hne
    have hne : k ≠ slot := by simpa using hne
    have hmatch := serverFindByIp_some hk
    rw [Server.setClient_of_ne _ _ _ hne, matchIp_iff] at hmatch
    have hholds := serverEntryFor_holds_other h.entry (h.slot_eq ▸ hne) hmatch
    have hholds := (Retained.of_core (h.recounted.core k)).holds hholds
    have hfound := hheld k (matchIp_iff.mpr hholds)
    rw [← h.recounted.findByClientId] at hfound
    exact hne ((serverEntryFor_slot_of_id h.entry hauto hfound).symm.trans h.slot_eq)

theorem AutoAccepted.leased (h : AutoAccepted N s pkt src fd grow s' slot fresh r reply s₁ e c)
    (hauto : r.auto = true) {ip : Ip} (hip : ip ≠ 0)
    (hheld : ∀ j, matchIp (s.clients j) ip = true → serverFindByClientId s.clients r.clientId = some j)
    (hleased : ∀ k, (s.leases.at k).ipBe = ip → strcaseeq (s.leases.at k).id r.clientId = true) :
    serverLeaseAllows e.server.leases ip r.clientId = true := by
  unfold serverLeaseAllows
  split
  · rfl
  · rename_i k hk
    have hat := (serverLeaseByIp_some hk).2
    have hold : e.server.leases.at k = s.leases.at k := by
      have hleases := h.recounted.leases
      cases serverEntryFor_slot h.entry with
      | own _ _ hl _ => rw [hl, hleases]
      | source _ _ hl _ => rw [hl, hleases]
      | free _ _ hl _ _ => rw [hl, hleases]
      | evicted hchoice _ hl _ hfull =>
        rw [hl, hleases] at hat ⊢
        refine (leasesOfEnded_at _ _ _ _ _ (by rw [hat]; exact hip)).resolve_right ?_
        -- an evicted client held the addresses it leaves leases for
        rintro ⟨hactive, haddr⟩
        rw [hat] at haddr
        have hholds : Holds (s₁.clients e.slot) ip :=
          ⟨hactive, hip, haddr.elim (fun h => Or.inl h.symm) fun h => Or.inr (Or.inr ⟨h.1, h.2.symm⟩)⟩
        have hholds := (Retained.of_core (h.recounted.core e.slot)).holds hholds
        have hfound := hheld e.slot (matchIp_iff.mpr hholds)
        rw [h.recounted.entryChoice] at hchoice
        have hleads := entryChoice_leads s r src fd
        rw [hchoice] at hleads
        cases hleads with
        | newId _ hnone => rw [hnone] at hfound; cases hfound
        | newAddress _ ha _ _ => rw [hauto] at ha; cases ha
    rw [hold]
    exact hleased k (by rw [← hold]; exact hat)

/-- **An address the pool may give is given back** to the client whose profile has it. -/
theorem AutoAccepted.pool_keeps (h : AutoAccepted N s pkt src fd grow s' slot fresh r reply s₁ e c)
    (hauto : r.auto = true) (hincomplete : ¬ (configDbLookupProfile s.conf.db r.clientId).Complete)
    (htells : IncompleteTells s.conf r.clientId) (hspare : AddressSpare s r) {x : Ip}
    (hx : profileAddress s.conf.db r.clientId = some x) {before c₁ : ServerClient} {pool : PoolCursor} {ip : Ip}
    (hc₁ : c₁ = buildConfigSeed ((e.server.setClient slot before).setClient slot
      (initProfileIp e.server.conf.db before r)) slot r.clientId r.localIp)
    (hip : buildConfigIp ((e.server.setClient slot before).setClient slot c₁) slot r.clientId = (pool, some ip)) :
    ip = x := by
  have hconf : e.server.conf = s.conf := (serverEntryFor_frame h.entry).conf.trans h.recounted.conf
  obtain ⟨hhas, htunnel, howner⟩ := htells.2 x hx
  obtain ⟨hheld, hleased⟩ := hspare hincomplete x hx
  have hx0 := poolHas_ne_zero hhas
  -- the entry has the address already
  have hprofile : initProfileIp e.server.conf.db before r = serverAssignIp before x := by
    unfold initProfileIp
    rw [hconf, hx]
  rw [hprofile, Server.setClient_setClient, buildConfigSeed_of_ipBe_ne _ _ (by
    rw [Server.setClient_self]
    exact serverAssignIp_ipBe_ne before hx0), Server.setClient_self] at hc₁
  have husable : serverIpUsable (e.server.setClient slot c₁) slot x r.clientId = true := by
    refine serverIpUsable_iff.mpr ⟨?_, ?_, ?_, h.free hauto hheld c₁, ?_⟩
    · rw [Server.setClient_conf, hconf]
      exact hhas
    · rw [Server.setClient_conf, hconf]
      exact htunnel
    · rw [Server.setClient_conf, hconf]
      exact howner
    · exact h.leased hauto hx0 hheld hleased
  rw [Server.setClient_setClient] at hip
  unfold buildConfigIp at hip
  dsimp only at hip
  rw [Server.setClient_self, hc₁, serverAssignIp_given before hx0, ← hc₁, if_pos ⟨hx0, husable⟩] at hip
  simp only [Prod.mk.injEq, Option.some.injEq] at hip
  exact hip.2.symm

end Incomplete

/-! ## Accepted handshakes -/

/-- **What an auto client is told is what the server routes**, when its merged profile tells its address
and a profile address without a gateway is spare; and only when the profile does. -/
theorem toldAddress {s s' : Server n} {env : PacketEnv} {pkt : Bytes} {src : SockAddr} {fd : ℤ}
    {slot : Fin n} {fresh : Bool} {r : Register} {reply : CStr} {packet : Bytes}
    (h : serverHandleInit N s env pkt src fd = (s', .accepted slot fresh r reply packet))
    (hauto : r.auto = true) :
    (ProfileTells s.conf r.clientId (givenBefore s r src fd) ∧ AddressSpare s r →
        ToldAddress s.conf.db r.clientId reply (s'.clients slot).given) ∧
      (ToldAddress s.conf.db r.clientId reply (s'.clients slot).given →
        ProfileTells s.conf r.clientId (givenBefore s r src fd)) := by
  obtain ⟨s₁, e, c, ha⟩ := serverHandleInit_auto h hauto
  have hid := (ha.carries.auto_idText hauto).1
  have hconf : e.server.conf = s.conf := (serverEntryFor_frame ha.entry).conf.trans ha.recounted.conf
  rw [ha.given]
  unfold ProfileTells
  cases ha.address with
  | profile hcomplete hc hreply =>
    rw [Server.setClient_conf, hconf] at hcomplete hc hreply
    rw [if_pos hcomplete, hc, Server.setClient_self, completeTells_iff hid hcomplete hreply,
      initClaim_eq hid.short]
    have hbefore := serverEntryFor_taken ha.recounted ha.entry
    rw [ha.slot_eq] at hbefore
    rw [show ({ e.server.clients slot with
        addr := claimedAddr (e.server.clients slot) src fd, lastSeen := e.server.now, autoClient := r.auto
        clientId := r.clientId } : ServerClient).given = (e.server.clients slot).given from rfl,
      hbefore.given_auto hauto]
    exact ⟨And.left, id⟩
  | pool hincomplete c₁ hc₁ pool ip hip hc hreply =>
    rw [Server.setClient_conf, hconf] at hincomplete hreply
    have hcidrs := protoBuildConfig_localCidrs hreply hid.noDelim (poolCidr_text _ _).2.1 (ipText_shape _).2.1
    rw [poolProfile_localCidrs] at hcidrs
    have hanswer := buildConfigIp_answer (by
      rw [Server.setClient_self]
      refine AutoAddress.clientId ?_ hc₁
      rw [Server.setClient_self, initClaim_eq hid.short]) hip
    have hne := hanswer.ne_zero
    rw [if_neg hincomplete, hc, serverAssignIp_given c₁ hne]
    constructor
    · rintro ⟨htells, hspare⟩
      refine ⟨poolCidr s.conf.db ip, ?_, (poolCidr_text _ _).2.2.2, hne, fun x hx => ?_⟩
      · rw [hcidrs, htells.1]
      · rw [Server.setClient_self] at hc₁
        exact (ha.pool_keeps hauto hincomplete htells hspare hx hc₁ hip).symm
    · rintro ⟨cidr, heq, -, -, hall⟩
      rw [hcidrs, List.cons_eq_cons] at heq
      refine ⟨heq.2, fun x hx => ?_⟩
      rw [hall x hx, ← hconf]
      exact ⟨hanswer.has, hanswer.ne_tunnel, hanswer.no_profile⟩

/-! ## Runs -/

/-- Is the INIT of an auto client accepted, and is it then told its address? -/
def tellsAuto (N : Noise Hs) (s : Server n) (env : PacketEnv) (pkt : Bytes) (src : SockAddr) (told : Bool) :
    Bool :=
  match serverHandleInit N s env pkt src (-1) with
  | (s', .accepted slot _ r reply _) =>
    r.auto && (decide (ToldAddress s.conf.db r.clientId reply (s'.clients slot).given) == told)
  | _ => false

theorem tellsAuto_accepted {s : Server n} {env : PacketEnv} {pkt : Bytes} {src : SockAddr} {told : Bool}
    (h : tellsAuto N s env pkt src told = true) : ∃ s' slot fresh r reply packet,
      serverHandleInit N s env pkt src (-1) = (s', .accepted slot fresh r reply packet) ∧ r.auto = true ∧
        (ToldAddress s.conf.db r.clientId reply (s'.clients slot).given ↔ told = true) := by
  unfold tellsAuto at h
  split at h
  · rename_i s' slot fresh r reply packet heq
    rw [Bool.and_eq_true, beq_iff_eq] at h
    exact ⟨s', slot, fresh, r, reply, packet, heq, h.1, by rw [← h.2, decide_eq_true_iff]⟩
  · cases h

/-- A section with an address and a gateway, and one with an address only. -/
def toyDbProfiles : ServerDb where
  defaults := .empty
  clients := [toySection "c" "" "10.0.0.9/24" "10.0.0.1", toySection "d" "" "10.0.0.8/24" ""]
  globals := toyDb.globals
  idsDistinct := by decide
  idsNonempty := by decide
  idsShort := by decide
  defaultsFit := toyDb.defaultsFit
  profilesFit := by decide
  poolPrefixMin := toyDb.poolPrefixMin
  poolPrefixMax := toyDb.poolPrefixMax
  poolNetAligned := toyDb.poolNetAligned

/-- The client with a gateway is told its address. -/
theorem toldAddress_complete : ∃ (s s' : Server 3) (slot : Fin 3) (r : Register) (reply : CStr),
    (ToldAddress s.conf.db r.clientId reply (s'.clients slot).given) ∧
      ProfileTells s.conf r.clientId (givenBefore s r (toySource 1 1000) (-1)) := by
  obtain ⟨s, -, hp⟩ := Machine.runUnder_reachable (M := toyMachine 3) (C := fun _ _ => True) (l := [])
    (p := fun s => tellsAuto toyNoise s (toyEnv 1) (initPacket 65 1 "MODE=AUTO CLIENT_ID=c") (toySource 1 1000)
      true)
    (toyServer_started 3 .udp toyDbProfiles) (by decide +kernel)
  obtain ⟨s', slot, fresh, r, reply, packet, h, hauto, htold⟩ := tellsAuto_accepted hp
  exact ⟨s, s', slot, r, reply, htold.mpr rfl, (toldAddress h hauto).2 (htold.mpr rfl)⟩

/-- The one without is told an address of the pool. -/
theorem not_toldAddress : ¬ ∀ (s : Server 3), Machine.Reachable (toyMachine 3) s →
    ∀ env pkt src s' slot fresh r reply packet,
      serverHandleInit toyNoise s env pkt src (-1) = (s', .accepted slot fresh r reply packet) →
      r.auto = true → ToldAddress s.conf.db r.clientId reply (s'.clients slot).given := by
  intro h
  obtain ⟨s, hs, hp⟩ := Machine.runUnder_reachable (M := toyMachine 3) (C := fun _ _ => True) (l := [])
    (p := fun s => tellsAuto toyNoise s (toyEnv 1) (initPacket 65 1 "MODE=AUTO CLIENT_ID=d") (toySource 1 1000)
      false)
    (toyServer_started 3 .udp toyDbProfiles) (by decide +kernel)
  obtain ⟨s', slot, fresh, r, reply, packet, heq, hauto, htold⟩ := tellsAuto_accepted hp
  exact absurd (htold.mp (h s hs _ _ _ _ _ _ r reply packet heq hauto)) (by decide)

end Camex
