import Camex.Server.Init

/-!
# What a handshake does

* `initConfigure_rule`: the rule for what the choice of an address preserves; each address it gives
  is the profile's, usable, or that of a lease past its time;
* `initConfigure_sameButIps`: it changes the two addresses of its entry only;
* `Restored`, `Accepted`: an entry behind a failed and behind an accepted handshake;
* `serverHandleInit_cases`: how an INIT ends; `initFail_entry`, `initFail_other`, `initDone_entry`
  and `initDone_other` say what the two ends do to its entry and to the other ones.
-/

namespace Camex

open Lib

variable {n : ℕ}

/-! ## The addresses -/

/-- The entries differ in their current and pending address at most. -/
def SameButIps (c c' : ServerClient) : Prop :=
  c' = { c with ipBe := c'.ipBe, pendingIpBe := c'.pendingIpBe }

theorem SameButIps.refl (c : ServerClient) : SameButIps c c := rfl

theorem SameButIps.trans {c c' c'' : ServerClient} (h : SameButIps c c') (h' : SameButIps c' c'') :
    SameButIps c c'' := by
  unfold SameButIps at *
  rw [h', h]

theorem serverSetIp_sameButIps (c : ServerClient) (ip : Ip) : SameButIps c (serverSetIp c ip) := rfl

theorem serverAssignIp_sameButIps (c : ServerClient) (ip : Ip) : SameButIps c (serverAssignIp c ip) := by
  unfold serverAssignIp
  split <;> rfl

@[simp] theorem Server.setClient_setClient (s : Server n) (i : Fin n) (c c' : ServerClient) :
    (s.setClient i c).setClient i c' = s.setClient i c' := by
  simp [Server.setClient]

/-- What preserves `P` through the choice of an address for slot `i`. -/
structure ConfigRule (s : Server n) (i : Fin n) (r : Register) (P : ServerClient → Prop) : Prop where
  clientId : ∀ c, P c → c.clientId = r.clientId
  manual : r.auto = false → ∀ c, P c → P { c with pendingIpBe := 0 }
  profile : ∀ c ip, r.auto = true → profileAddress s.conf.db r.clientId = some ip → P c →
    P (serverAssignIp c ip)
  seed : ∀ c ip, r.auto = true → P c → c.ipBe = 0 →
    serverIpUsable (s.setClient i c) i ip r.clientId = true → P (serverSetIp c ip)
  assign : ∀ c ip, r.auto = true → P c →
    (serverIpUsable (s.setClient i c) i ip r.clientId = true ∨ Givable (s.setClient i c) i ip) →
    P (serverAssignIp c ip)

theorem buildConfigSeed_rule {s : Server n} {i : Fin n} {r : Register} {P : ServerClient → Prop}
    (hP : ConfigRule s i r P) (hauto : r.auto = true) {c : ServerClient} (h : P c) :
    P (buildConfigSeed (s.setClient i c) i r.clientId r.localIp) := by
  unfold buildConfigSeed
  dsimp only
  rw [Server.setClient_self]
  split
  · exact h
  · rename_i hip
    have hip : c.ipBe = 0 := by simpa using hip
    split
    · rename_i k hk
      have hu := (Option.filter_eq_some_iff.mp hk).2
      exact hP.seed c _ hauto h hip hu
    · split
      · rename_i ip hhint
        exact hP.seed c _ hauto h hip (Option.filter_eq_some_iff.mp hhint).2
      · exact h

/-- The address of a CONFIG is usable or that of a lease past its time. -/
theorem buildConfigIp_some {s : Server n} {i : Fin n} {clientId : CStr} {pool : PoolCursor} {ip : Ip}
    (hid : (s.clients i).clientId = clientId) (h : buildConfigIp s i clientId = (pool, some ip)) :
    serverIpUsable s i ip clientId = true ∨ Givable s i ip := by
  unfold buildConfigIp at h
  dsimp only at h
  split at h
  · rename_i hg
    cases h
    exact Or.inl hg.2
  · split at h
    · rename_i hg
      cases h
      exact Or.inl hg.2.2
    · split at h
      · cases h
      · rw [← hid]
        exact serverAutoPoolTake_some h

/-- **The rule for the choice of an address.** -/
theorem initConfigure_rule {s : Server n} {i : Fin n} {r : Register} {P : ServerClient → Prop}
    (hP : ConfigRule s i r P) (h : P (s.clients i)) : P (initConfigure s i r).2.1 := by
  unfold initConfigure
  split
  · rename_i hauto
    have hprofile : P (initProfileIp s.conf.db (s.clients i) r) := by
      unfold initProfileIp
      split
      · exact hP.profile _ _ hauto ‹_› h
      · exact h
    generalize initProfileIp s.conf.db (s.clients i) r = c at hprofile
    unfold serverBuildConfig
    dsimp only
    split
    · split
      · rwa [Server.setClient_self]
      · have hseed := buildConfigSeed_rule hP hauto hprofile
        generalize buildConfigSeed (s.setClient i c) i r.clientId r.localIp = c' at hseed
        rw [Server.setClient_setClient]
        split
        · exact hseed
        · rename_i hip
          refine hP.assign _ _ hauto hseed (buildConfigIp_some ?_ hip)
          rw [Server.setClient_self]
          exact hP.clientId _ hseed
    · rwa [Server.setClient_self]
  · rename_i hauto
    exact hP.manual (by simpa using hauto) _ h

theorem initConfigure_sameButIps {s : Server n} {i : Fin n} {r : Register}
    (hid : (s.clients i).clientId = r.clientId) :
    SameButIps (s.clients i) (initConfigure s i r).2.1 := by
  have hrule : ConfigRule s i r fun c => SameButIps (s.clients i) c :=
    { clientId := fun c hc => by rw [hc]; exact hid
      manual := fun _ _ hc => hc.trans rfl
      profile := fun _ _ _ _ hc => hc.trans (serverAssignIp_sameButIps _ _)
      seed := fun _ _ _ hc _ _ => hc.trans (serverSetIp_sameButIps _ _)
      assign := fun _ _ _ hc _ => hc.trans (serverAssignIp_sameButIps _ _) }
  exact initConfigure_rule hrule (.refl _)

/-! ## The entry, claimed -/

def claimedAddr (c : ServerClient) (src : SockAddr) (fd : ℤ) : SockAddr :=
  if !c.cur.valid || decide (0 ≤ fd) then src else c.addr

theorem initClaim_eq {c : ServerClient} {r : Register} {src : SockAddr} {fd : ℤ} {now : Time}
    (hid : r.clientId.length < CAMEX_CLIENT_ID_LEN) :
    initClaim c r src fd now =
      { c with
        addr := claimedAddr c src fd, lastSeen := now, autoClient := r.auto, clientId := r.clientId } := by
  unfold initClaim claimedAddr serverSetId
  rw [store_of_lt hid]
  split
  · dsimp only [serverSetAddr]
    split
    · rename_i h; rw [← h]
    · rfl
  · dsimp only
    split
    · rename_i h; rw [← h]
    · rfl

/-! ## The ends of a handshake -/

/-- An entry that existed, behind a handshake that failed: `before` is what `server_entry_for` left
of it. -/
structure Restored (r : Register) (src : SockAddr) (fd : ℤ) (now : Time) (before c : ServerClient) :
    Prop where
  eq : c = { before with
    addr := claimedAddr before src fd, lastSeen := now, autoClient := r.auto, clientId := r.clientId
    hsTs := c.hsTs, cur := c.cur }
  cur : c.cur = before.cur ∨ before.cur.valid = false ∧ c.cur = .wiped
  hsTs : c.hsTs = before.hsTs ∨ c.hsTs = r.ts

/-- The entry of a handshake that was accepted. -/
structure Accepted (r : Register) (src : SockAddr) (fd : ℤ) (now : Time) (pkt : Bytes) (m : Message2)
    (before c : ServerClient) : Prop where
  eq : c = { before with
    addr := claimedAddr before src fd, lastSeen := now, autoClient := r.auto, clientId := r.clientId
    ipBe := c.ipBe, pendingIpBe := c.pendingIpBe
    cur := if before.cur.valid then before.cur else
      sessionInit m.index (initClientIndex pkt) m.keys.2 m.keys.1 now
    next := if before.cur.valid then
      sessionInit m.index (initClientIndex pkt) m.keys.2 m.keys.1 now else before.next
    pskKey := r.key, hsTs := r.ts, registered := true
    registeredAt := c.registeredAt, sessionSince := c.sessionSince, lastHs := c.lastHs
    handshakes := c.handshakes }

section Ends

variable {r : Register} {src : SockAddr} {fd : ℤ} {now : Time} {before c : ServerClient}

theorem restoreEntry_restored {c : ServerClient} (hc : SameButIps (initClaim before r src fd now) c)
    (hid : r.clientId.length < CAMEX_CLIENT_ID_LEN) :
    Restored r src fd now before (restoreEntry before c .none) := by
  rw [initClaim_eq hid] at hc
  rw [hc]
  exact ⟨rfl, Or.inl rfl, Or.inl rfl⟩

theorem restoreEntry_session_restored {c : ServerClient} {pkt : Bytes} {m : Message2}
    (hc : SameButIps (initClaim before r src fd now) c)
    (hid : r.clientId.length < CAMEX_CLIENT_ID_LEN) :
    Restored r src fd now before
      (restoreEntry before (initSession c r pkt m now) (savedSession c)) := by
  rw [initClaim_eq hid] at hc
  rw [hc]
  by_cases hcur : before.cur.valid = true
  · simp only [savedSession, initSession, hcur, if_true]
    exact ⟨rfl, Or.inl rfl, Or.inr rfl⟩
  · simp only [savedSession, initSession, hcur]
    exact ⟨rfl, Or.inr ⟨by simpa using hcur, rfl⟩, Or.inr rfl⟩

theorem initSession_accepted {c : ServerClient} {pkt : Bytes} {m : Message2} {t : Time}
    (hc : SameButIps (initClaim before r src fd now) c)
    (hid : r.clientId.length < CAMEX_CLIENT_ID_LEN) :
    Accepted r src fd now pkt m before (initDoneEntry (initSession c r pkt m now) t) := by
  rw [initClaim_eq hid] at hc
  rw [hc]
  by_cases hcur : before.cur.valid = true
  · simp only [initDoneEntry, initSession, hcur, if_true]
    exact ⟨by simp [hcur]⟩
  · simp only [initDoneEntry, initSession, hcur]
    exact ⟨by simp [hcur]⟩

end Ends

/-! ## How an INIT ends -/

variable {Hs : Type} (N : Noise Hs)

/-- The entry of a handshake once it has its address; `reply` is the payload of message 2. -/
structure Configured (e : Entry n) (r : Register) (src : SockAddr) (fd : ℤ) (pool : PoolCursor)
    (c : ServerClient) (reply : Option CStr) : Prop where
  eq : initConfigure (e.server.setClient e.slot
    (initClaim (e.server.clients e.slot) r src fd e.server.now)) e.slot r = (pool, c, reply)

section

variable {r : Register} {src : SockAddr} {fd : ℤ} {e : Entry n} {pool : PoolCursor} {c : ServerClient}
  {reply : Option CStr}

theorem Configured.sameButIps (h : Configured e r src fd pool c reply)
    (hid : r.clientId.length < CAMEX_CLIENT_ID_LEN) :
    SameButIps (initClaim (e.server.clients e.slot) r src fd e.server.now) c := by
  have := initConfigure_sameButIps (s := e.server.setClient e.slot
    (initClaim (e.server.clients e.slot) r src fd e.server.now)) (i := e.slot) (r := r)
    (by rw [Server.setClient_self, initClaim_eq hid])
  rw [h.eq, Server.setClient_self] at this
  exact this

/-- A new slot is freed again; an entry that existed gets back what the fail path saved. -/
theorem initFail_entry {pkt : Bytes} {c₀ : ServerClient} {saved : SavedSession}
    (hconf : Configured e r src fd pool c₀ reply) (hid : r.clientId.length < CAMEX_CLIENT_ID_LEN)
    (hc : c = c₀ ∧ saved = .none ∨
      ∃ m, c = initSession c₀ r pkt m e.server.now ∧ saved = savedSession c₀) :
    e.fresh = true ∧ (initFail e pool c saved).clients e.slot = .wiped ∨
      e.fresh = false ∧ Restored r src fd e.server.now (e.server.clients e.slot)
        ((initFail e pool c saved).clients e.slot) := by
  rw [show (initFail e pool c saved).clients e.slot =
    if e.fresh then .wiped else restoreEntry (e.server.clients e.slot) c saved
    from Server.setClient_self ..]
  cases e.fresh with
  | true => exact Or.inl ⟨rfl, rfl⟩
  | false =>
    refine Or.inr ⟨rfl, ?_⟩
    rcases hc with ⟨rfl, rfl⟩ | ⟨m, rfl, rfl⟩
    · exact restoreEntry_restored (hconf.sameButIps hid) hid
    · exact restoreEntry_session_restored (hconf.sameButIps hid) hid

theorem initFail_other (saved : SavedSession) {j : Fin n} (hj : j ≠ e.slot) :
    (initFail e pool c saved).clients j = e.server.clients j := Server.setClient_of_ne _ _ _ hj

theorem initDone_self :
    (initDone e pool c r).clients e.slot = initDoneEntry c e.server.now := Server.setClient_self ..

theorem initDoneEntry_ipBe (c : ServerClient) (r : Register) (pkt : Bytes) (m : Message2)
    (now t : Time) : (initDoneEntry (initSession c r pkt m now) t).ipBe = c.ipBe := by
  unfold initDoneEntry initSession
  dsimp only
  split <;> rfl

theorem initDoneEntry_pendingIpBe (c : ServerClient) (r : Register) (pkt : Bytes) (m : Message2)
    (now t : Time) : (initDoneEntry (initSession c r pkt m now) t).pendingIpBe = c.pendingIpBe := by
  unfold initDoneEntry initSession
  dsimp only
  split <;> rfl

theorem initDone_entry (pkt : Bytes) (m : Message2) (hconf : Configured e r src fd pool c reply)
    (hid : r.clientId.length < CAMEX_CLIENT_ID_LEN) :
    Accepted r src fd e.server.now pkt m (e.server.clients e.slot)
      ((initDone e pool (initSession c r pkt m e.server.now) r).clients e.slot) := by
  rw [initDone_self]
  exact initSession_accepted (hconf.sameButIps hid) hid

theorem initDone_other {j : Fin n} (hj : j ≠ e.slot) :
    (initDone e pool c r).clients j = e.server.clients j := Server.setClient_of_ne _ _ _ hj

end

/-- How `server_handle_init` ends. `s₁` is the state behind the checks, the same up to counters. -/
inductive InitRun (s : Server n) (env : PacketEnv) (pkt : Bytes) (src : SockAddr) (fd : ℤ) :
    Server n → InitOutcome n → Prop
  | refused (s₁ : Server n) (hrec : Recounted s s₁) : InitRun s env pkt src fd s₁ .refused
  | failed (s₁ : Server n) (r : Register) (e : Entry n) (pool : PoolCursor) (c₀ c : ServerClient)
      (reply : Option CStr) (saved : SavedSession) (hrec : Recounted s s₁) (hr : Carries N s.conf pkt r)
      (hpass : Passes s₁ r) (he : serverEntryFor s₁ r src fd env.grow = some e)
      (hconf : Configured e r src fd pool c₀ reply)
      (hc : c = c₀ ∧ saved = .none ∨
        ∃ m, c = initSession c₀ r pkt m e.server.now ∧ saved = savedSession c₀) :
      InitRun s env pkt src fd (initFail e pool c saved) (.failed e.slot e.fresh)
  | accepted (s₁ : Server n) (r : Register) (e : Entry n) (pool : PoolCursor) (c : ServerClient)
      (reply : CStr) (m : Message2) (hrec : Recounted s s₁) (hr : Carries N s.conf pkt r)
      (hpass : Passes s₁ r) (he : serverEntryFor s₁ r src fd env.grow = some e)
      (hconf : Configured e r src fd pool c (some reply)) :
      InitRun s env pkt src fd (initDone e pool (initSession c r pkt m e.server.now) r)
        (.accepted e.slot e.fresh r reply m.packet)

/-- How `server_handle_init` ends behind `server_entry_for`. -/
inductive RegisterRun (e : Entry n) (pkt : Bytes) (src : SockAddr) (fd : ℤ) (r : Register) :
    Server n → InitOutcome n → Prop
  | failed (pool : PoolCursor) (c₀ c : ServerClient) (reply : Option CStr) (saved : SavedSession)
      (hconf : Configured e r src fd pool c₀ reply)
      (hc : c = c₀ ∧ saved = .none ∨
        ∃ m, c = initSession c₀ r pkt m e.server.now ∧ saved = savedSession c₀) :
      RegisterRun e pkt src fd r (initFail e pool c saved) (.failed e.slot e.fresh)
  | accepted (pool : PoolCursor) (c : ServerClient) (reply : CStr) (m : Message2)
      (hconf : Configured e r src fd pool c (some reply)) :
      RegisterRun e pkt src fd r (initDone e pool (initSession c r pkt m e.server.now) r)
        (.accepted e.slot e.fresh r reply m.packet)

theorem initRegister_cases (e : Entry n) (env : PacketEnv) (pkt : Bytes) (src : SockAddr) (fd : ℤ)
    (r : Register) (hs : Hs) :
    RegisterRun e pkt src fd r (initRegister N e env pkt src fd r hs).1
      (initRegister N e env pkt src fd r hs).2 := by
  unfold initRegister
  dsimp only
  generalize hconf : initConfigure _ e.slot r = q
  obtain ⟨pool, c, reply⟩ := q
  dsimp only
  split
  · exact .failed pool c c none .none ⟨hconf⟩ (Or.inl ⟨rfl, rfl⟩)
  · rename_i reply
    split
    · exact .failed pool c c (some reply) .none ⟨hconf⟩ (Or.inl ⟨rfl, rfl⟩)
    · rename_i m hm
      split
      · exact .accepted pool c reply m ⟨hconf⟩
      · exact .failed pool c _ (some reply) _ ⟨hconf⟩ (Or.inr ⟨m, rfl, rfl⟩)

theorem serverHandleInit_cases (s : Server n) (env : PacketEnv) (pkt : Bytes) (src : SockAddr)
    (fd : ℤ) :
    InitRun N s env pkt src fd (serverHandleInit N s env pkt src fd).1
      (serverHandleInit N s env pkt src fd).2 := by
  obtain ⟨hrec, hsome⟩ := initAuthenticate_spec N s env pkt src
  unfold serverHandleInit
  split
  · rename_i s₁ hauth
    rw [hauth] at hrec
    exact .refused s₁ hrec
  · rename_i s₁ r hs hauth
    rw [hauth] at hrec hsome
    obtain ⟨hr, hpass⟩ := hsome r hs rfl
    split
    · exact .refused s₁ hrec
    · rename_i e he
      have hrun := initRegister_cases N e env pkt src fd r hs
      generalize initRegister N e env pkt src fd r hs = q at hrun
      obtain ⟨s', o⟩ := q
      cases hrun with
      | failed pool c₀ c reply saved hconf hc =>
        exact .failed s₁ r e pool c₀ c reply saved hrec hr hpass he hconf hc
      | accepted pool c reply m hconf => exact .accepted s₁ r e pool c reply m hrec hr hpass he hconf

variable {N}

theorem InitRun.conf {s s' : Server n} {env : PacketEnv} {pkt : Bytes} {src : SockAddr} {fd : ℤ}
    {o : InitOutcome n} (hrun : InitRun N s env pkt src fd s' o) : s'.conf = s.conf := by
  cases hrun with
  | refused _ hrec => exact hrec.conf
  | failed s₁ r e pool c₀ c reply saved hrec hr hpass he hconf hc =>
    exact (serverEntryFor_frame he).conf.trans hrec.conf
  | accepted s₁ r e pool c reply m hrec hr hpass he hconf =>
    exact (serverEntryFor_frame he).conf.trans hrec.conf

end Camex
