import Camex.Server.InitEntry

/-!
# The address of an auto client

* `AutoAddress`: an auto handshake that has an answer sends the profile as it is, or an address of the pool;
* `PoolAnswer`: what an address of the pool is, and `buildConfigIp_answer`: the one in a CONFIG is that;
* `serverHandleInit_auto`: an accepted auto handshake, from the lookups to the address its entry is given.
-/

namespace Camex

open Lib

variable {n : ℕ} {Hs : Type} {N : Noise Hs}

/-- A profile with an address and a gateway is sent as it is. -/
def Profile.Complete (p : Profile) : Prop := p.localCidr ≠ [] ∧ p.gatewayIp ≠ []

instance (p : Profile) : Decidable p.Complete := by
  unfold Profile.Complete
  infer_instance

theorem Profile.not_complete {p : Profile} : ¬ p.Complete ↔ p.localCidr = [] ∨ p.gatewayIp = [] := by
  unfold Profile.Complete
  tauto

/-- The CONFIG of a pool address: the profile with the address and the gateway of the pool. -/
def poolProfile (db : ServerDb) (clientId : CStr) (ip : Ip) : Profile :=
  { configDbLookupProfile db clientId with
    localCidr := poolCidr db ip, gatewayIp := ipText (poolGateway db) }

/-- What an auto handshake with an answer makes of its entry at slot `i`: it becomes `c`. -/
inductive AutoAddress (s : Server n) (i : Fin n) (r : Register) (c : ServerClient) (reply : CStr) : Prop
  | profile (hcomplete : (configDbLookupProfile s.conf.db r.clientId).Complete)
      (hc : c = initProfileIp s.conf.db (s.clients i) r)
      (hreply : protoBuildConfig r.clientId (configDbLookupProfile s.conf.db r.clientId)
        CAMEX_CONTROL_MAX = some reply)
  | pool (hincomplete : ¬ (configDbLookupProfile s.conf.db r.clientId).Complete) (c₁ : ServerClient)
      (hc₁ : c₁ = buildConfigSeed (s.setClient i (initProfileIp s.conf.db (s.clients i) r)) i r.clientId
        r.localIp) (pool : PoolCursor) (ip : Ip)
      (hip : buildConfigIp (s.setClient i c₁) i r.clientId = (pool, some ip)) (hc : c = serverAssignIp c₁ ip)
      (hreply : protoBuildConfig r.clientId (poolProfile s.conf.db r.clientId ip)
        CAMEX_CONTROL_MAX = some reply)

theorem initConfigure_auto {s : Server n} {i : Fin n} {r : Register} (hauto : r.auto = true)
    {pool : PoolCursor} {c : ServerClient} {reply : CStr}
    (h : initConfigure s i r = (pool, c, some reply)) : AutoAddress s i r c reply := by
  unfold initConfigure at h
  rw [if_pos hauto] at h
  unfold serverBuildConfig at h
  dsimp only [Server.setClient_conf] at h
  split at h
  · rename_i hincomplete
    split at h
    · cases h
    · generalize hc₁ : buildConfigSeed _ i r.clientId r.localIp = c₁ at h
      rw [Server.setClient_setClient] at h
      split at h
      · cases h
      · rename_i pool' ip hip
        simp only [Prod.mk.injEq] at h
        obtain ⟨-, hc, hreply⟩ := h
        exact .pool (Profile.not_complete.mpr hincomplete) c₁ hc₁.symm pool' ip hip hc.symm hreply
  · rename_i hcomplete
    rw [← Profile.not_complete, not_not] at hcomplete
    simp only [Server.setClient_self, Prod.mk.injEq] at h
    exact .profile hcomplete h.2.1.symm h.2.2

/-! ## The address given -/

/-- A client has the address it is assigned, now or when it confirms it. -/
theorem serverAssignIp_given (c : ServerClient) {ip : Ip} (hip : ip ≠ 0) : (serverAssignIp c ip).given = ip := by
  unfold serverAssignIp
  split
  · exact if_pos hip
  · simp [ServerClient.given, serverSetIp]

theorem serverAssignIp_ipBe_ne (c : ServerClient) {ip : Ip} (hip : ip ≠ 0) : (serverAssignIp c ip).ipBe ≠ 0 := by
  unfold serverAssignIp
  split
  · rename_i h
    simp only [Bool.and_eq_true, bne_iff_ne] at h
    exact h.1.2
  · exact hip

/-- Only an entry without an address takes the leased or the asked one. -/
theorem buildConfigSeed_of_ipBe_ne {s : Server n} {i : Fin n} (clientId hintIp : CStr)
    (h : (s.clients i).ipBe ≠ 0) : buildConfigSeed s i clientId hintIp = s.clients i := by
  unfold buildConfigSeed
  dsimp only
  rw [if_pos h]

theorem AutoAddress.clientId {s : Server n} {i : Fin n} {r : Register} {c₁ : ServerClient}
    (hid : (s.clients i).clientId = r.clientId)
    (hc₁ : c₁ = buildConfigSeed (s.setClient i (initProfileIp s.conf.db (s.clients i) r)) i r.clientId
      r.localIp) : c₁.clientId = r.clientId := by
  have hprofile : (initProfileIp s.conf.db (s.clients i) r).clientId = r.clientId := by
    unfold initProfileIp
    split
    · rw [serverAssignIp_sameButIps]
      exact hid
    · exact hid
  rw [hc₁]
  unfold buildConfigSeed
  dsimp only
  rw [Server.setClient_self]
  split
  · exact hprofile
  · split
    · exact hprofile
    · split <;> exact hprofile

/-- An address of the pool for slot `i`: leased to another ID only past its time, when every usable one of
the pool is taken. -/
structure PoolAnswer (s : Server n) (i : Fin n) (clientId : CStr) (ip : Ip) : Prop where
  has : poolHas s.conf.db ip = true
  ne_tunnel : ip ≠ s.conf.tunnelIp
  no_profile : profileOwnerOfIp s.conf.db ip = none
  free : ipFreeFor s i ip = true
  lease : serverLeaseAllows s.leases ip clientId = true ∨
    (∃ k, serverLeaseByIp s.leases ip = some k ∧ serverLeaseMin s.conf ≤ s.now - (s.leases.at k).since) ∧
      ∀ host, poolHas s.conf.db host = true → serverIpUsable s i host clientId = false

theorem PoolAnswer.ne_zero {s : Server n} {i : Fin n} {clientId : CStr} {ip : Ip}
    (h : PoolAnswer s i clientId ip) : ip ≠ 0 := poolHas_ne_zero h.has

theorem PoolAnswer.of_usable {s : Server n} {i : Fin n} {clientId : CStr} {ip : Ip}
    (h : serverIpUsable s i ip clientId = true) : PoolAnswer s i clientId ip := by
  obtain ⟨hhas, htunnel, howner, hfree, hlease⟩ := serverIpUsable_iff.mp h
  exact ⟨hhas, htunnel, howner, hfree, Or.inl hlease⟩

/-- **The address of a CONFIG** is one of the pool. -/
theorem buildConfigIp_answer {s : Server n} {i : Fin n} {clientId : CStr} {pool : PoolCursor} {ip : Ip}
    (hid : (s.clients i).clientId = clientId) (h : buildConfigIp s i clientId = (pool, some ip)) :
    PoolAnswer s i clientId ip := by
  unfold buildConfigIp at h
  dsimp only at h
  split at h
  · rename_i hg
    cases h
    exact .of_usable hg.2
  · split at h
    · rename_i hg
      cases h
      exact .of_usable hg.2.2
    · split at h
      · cases h
      · rcases serverAutoPoolTake_leased h with hu | ⟨hg, hhas, hnone⟩
        · rw [hid] at hu
          exact .of_usable hu
        · rw [hid] at hnone
          exact ⟨hhas, hg.ne_tunnel, hg.no_profile, hg.free, Or.inr ⟨hg.old, hnone⟩⟩

/-! ## Accepted auto handshakes -/

/-- The address of the entry the lookups lead to, zero for a new client. -/
def givenBefore (s : Server n) (r : Register) (src : SockAddr) (fd : ℤ) : Ip :=
  match entryChoice s r src fd with
  | .own i => (s.clients i).given
  | .source i => (s.clients i).given
  | _ => 0

theorem Taken.given_auto {s : Server n} {r : Register} {src : SockAddr} {fd : ℤ} {j : Fin n} {fresh : Bool}
    {c : ServerClient} (h : Taken s r src fd j fresh c) (hauto : r.auto = true) :
    c.given = givenBefore s r src fd := by
  cases h with
  | own hchoice hcore hc =>
    unfold givenBefore
    rw [hchoice, hc.eq, ServerClient.eq_of_core hcore]
    rfl
  | source hchoice hcore hc =>
    unfold givenBefore
    rw [hchoice, hc, withManualIp_auto _ hauto, ServerClient.eq_of_core hcore]
    rfl
  | fresh hchoice _ hc =>
    unfold givenBefore
    rw [hchoice, hc, withManualIp_auto _ hauto]
    rfl

/-- An accepted auto handshake. -/
structure AutoAccepted (N : Noise Hs) (s : Server n) (pkt : Bytes) (src : SockAddr) (fd : ℤ) (grow : Grow)
    (s' : Server n) (slot : Fin n) (fresh : Bool) (r : Register) (reply : CStr) (s₁ : Server n)
    (e : Entry n) (c : ServerClient) : Prop where
  carries : Carries N s.conf pkt r
  recounted : Recounted s s₁
  passes : Passes s₁ r
  entry : serverEntryFor s₁ r src fd grow = some e
  slot_eq : e.slot = slot
  fresh_eq : e.fresh = fresh
  address : AutoAddress (e.server.setClient slot
    (initClaim (e.server.clients slot) r src fd e.server.now)) slot r c reply
  given : (s'.clients slot).given = c.given
  other : ∀ j, j ≠ slot → s'.clients j = e.server.clients j

/-- **An accepted auto handshake** has its address from the profile or the pool. -/
theorem serverHandleInit_auto {s s' : Server n} {env : PacketEnv} {pkt : Bytes} {src : SockAddr} {fd : ℤ}
    {slot : Fin n} {fresh : Bool} {r : Register} {reply : CStr} {packet : Bytes}
    (h : serverHandleInit N s env pkt src fd = (s', .accepted slot fresh r reply packet))
    (hauto : r.auto = true) :
    ∃ s₁ e c, AutoAccepted N s pkt src fd env.grow s' slot fresh r reply s₁ e c := by
  have hrun := serverHandleInit_cases N s env pkt src fd
  rw [h] at hrun
  dsimp only at hrun
  generalize ho : InitOutcome.accepted slot fresh r reply packet = o at hrun
  cases hrun with
  | refused => cases ho
  | failed => cases ho
  | accepted s₁ r' e pool c reply' m hrec hr hpass he hconf =>
    cases ho
    refine ⟨s₁, e, c, hr, hrec, hpass, he, rfl, rfl, initConfigure_auto hauto hconf.eq, ?_, fun j hj =>
      initDone_other hj⟩
    unfold ServerClient.given
    rw [initDone_self, initDoneEntry_ipBe, initDoneEntry_pendingIpBe]

end Camex
