import Camex.Server.InitEntry

/-!
# What an event does to the lease table

* `Releases`: the leases once entries have ended and offers were confirmed;
* `StepCase.releases`, `serverEntryFor_releases`: events other than reloads, and the slot of a handshake,
  change the leases so; `serverReload_releases`: a reload does under its new configuration;
* `LeaseInvariant.reachable`: what adds and drops keep holds at any time; `leasesDistinct_reachable`: no address is
  leased twice.
-/

namespace Camex

open Lib

variable {n : ℕ} {Hs : Type} {N : Noise Hs}

/-- The entries leave the same leases when they end, `c'` perhaps not the one of its previous address. -/
structure SameLessee (c c' : ServerClient) : Prop where
  active : c'.active = c.active
  registered : c'.registered = c.registered
  autoClient : c'.autoClient = c.autoClient
  clientId : c'.clientId = c.clientId
  ipBe : c'.ipBe = c.ipBe
  prev : c'.prev.valid = true → c.prev.valid = true ∧ c'.prevIpBe = c.prevIpBe

theorem SameLessee.refl (c : ServerClient) : SameLessee c c := ⟨rfl, rfl, rfl, rfl, rfl, fun h => ⟨h, rfl⟩⟩

theorem SameLessee.trans {c c' c'' : ServerClient} (h : SameLessee c c') (h' : SameLessee c' c'') :
    SameLessee c c'' where
  active := h'.active.trans h.active
  registered := h'.registered.trans h.registered
  autoClient := h'.autoClient.trans h.autoClient
  clientId := h'.clientId.trans h.clientId
  ipBe := h'.ipBe.trans h.ipBe
  prev hv := ⟨(h.prev (h'.prev hv).1).1, (h'.prev hv).2.trans (h.prev (h'.prev hv).1).2⟩

theorem Retained.sameLessee {c c' : ServerClient} (h : Retained c c') : SameLessee c c' := by
  refine ⟨h.active, h.registered, h.autoClient, h.clientId, h.ipBe, fun hv => ?_⟩
  rcases h.prev with ⟨hs, hp⟩ | ⟨hs, -⟩
  · rw [hs.valid] at hv
    exact ⟨hv, hp⟩
  · rw [hs] at hv
    cases hv

/-- The leases `ls` of a table `t` of entries once some of these have ended, and clients confirmed the
addresses offered to them. -/
inductive Releases (conf : Conf) (now : Time) (t : Table n) (ls : LeaseTable) : LeaseTable → Prop
  | refl : Releases conf now t ls ls
  | ended {ls' : LeaseTable} (h : Releases conf now t ls ls') (grow : Grow) (i : Fin n) {c : ServerClient}
      (hc : SameLessee (t i) c) : Releases conf now t ls (leasesOfEnded conf now grow c ls')
  | confirmed {ls' : LeaseTable} (h : Releases conf now t ls ls') (i : Fin n) (hnext : (t i).next.valid = true) :
      Releases conf now t ls (serverLeaseDrop ls' (serverLeaseByIp ls' (t i).pendingIpBe))

theorem leasesOfEnded_of_inactive {conf : Conf} {now : Time} {grow : Grow} {c : ServerClient} (ls : LeaseTable)
    (h : c.active = false) : leasesOfEnded conf now grow c ls = ls := by
  unfold leasesOfEnded
  rw [h, if_neg (by simp)]

/-! ## Loops that end entries -/

/-- A loop that ends entries, on its way from `s`. -/
structure Closing (s t : Server n) : Prop where
  conf : t.conf = s.conf
  now : t.now = s.now
  leases : Releases s.conf s.now s.clients s.leases t.leases
  entry : ∀ j, (t.clients j).active = true → SameLessee (s.clients j) (t.clients j)

namespace Closing

variable {s t : Server n}

theorem refl (s : Server n) : Closing s s := ⟨rfl, rfl, .refl, fun _ _ => .refl _⟩

theorem setClient (h : Closing s t) (i : Fin n) {c : ServerClient} (hc : SameLessee (t.clients i) c) :
    Closing s (t.setClient i c) := by
  refine ⟨h.conf, h.now, h.leases, fun j hj => ?_⟩
  by_cases hji : j = i
  · subst hji
    rw [Server.setClient_self] at hj ⊢
    exact (h.entry j (hc.active ▸ hj)).trans hc
  · rw [Server.setClient_of_ne _ _ _ hji] at hj ⊢
    exact h.entry j hj

theorem dropEntry (h : Closing s t) (i : Fin n) : Closing s (serverDropEntry t i) := by
  refine ⟨h.conf, h.now, h.leases, fun j hj => ?_⟩
  by_cases hji : j = i
  · subst hji
    rw [serverDropEntry_self] at hj
    cases hj
  · rw [serverDropEntry_of_ne _ _ hji] at hj ⊢
    exact h.entry j hj

theorem endClient (h : Closing s t) (grow : Grow) (i : Fin n) : Closing s (serverEndClient grow i t) := by
  refine ⟨h.conf, h.now, ?_, fun j hj => ?_⟩
  · rw [serverEndClient_leases, h.conf, h.now]
    cases hactive : (t.clients i).active with
    | true => exact .ended h.leases grow i (h.entry i hactive)
    | false =>
      rw [leasesOfEnded_of_inactive _ hactive]
      exact h.leases
  · by_cases hji : j = i
    · subst hji
      rw [serverEndClient_self] at hj
      cases hj
    · rw [serverEndClient_of_ne _ _ _ hji] at hj ⊢
      exact h.entry j hj

theorem expireClients (grow : Fin n → Grow) (s : Server n) : Closing s (serverExpireClients grow s) := by
  unfold serverExpireClients
  split
  · exact .refl s
  · refine forSlots_induction (I := fun t => Closing s t) (fun i t ht => ?_) ⟨rfl, rfl, .refl, fun _ _ => .refl _⟩
    unfold serverExpireClient
    dsimp only
    split
    · exact ht
    · have hset := ht.setClient i (expireSessions_retained (t.clients i) t.now).sameLessee
      split
      · exact hset.endClient _ i
      · exact hset

theorem revalidate (grow : Fin n → Grow) (s : Server n) : Closing s (serverRevalidate grow s) := by
  have hkeys : Closing s (serverRevalidateKeys grow s) := by
    refine forSlots_induction (I := fun t => Closing s t) (fun i t ht => ?_) (.refl s)
    unfold revalidateKey
    dsimp only
    split
    · exact ht
    · exact ht.endClient _ i
  have hunknown : Closing s (serverRevalidateUnknownClients grow (serverRevalidateKeys grow s)) := by
    unfold serverRevalidateUnknownClients
    split
    · exact hkeys
    · refine forSlots_induction (I := fun t => Closing s t) (fun i t ht => ?_) hkeys
      unfold revalidateUnknown
      dsimp only
      split
      · exact ht
      · exact ht.endClient _ i
  refine forSlots_induction (I := fun t => Closing s t) (fun i t ht => ?_) hunknown
  unfold revalidateAddress
  dsimp only
  split
  · exact ht
  · have hset : Closing s (t.setClient i (withdrawOffer t.conf.db (t.clients i))) := by
      refine ht.setClient i ?_
      unfold withdrawOffer
      split
      · exact ⟨rfl, rfl, rfl, rfl, rfl, fun h => ⟨h, rfl⟩⟩
      · exact .refl _
    split
    · exact hset
    · exact hset.dropEntry i

end Closing

/-! ## Events -/

/-- A reload changes the leases under its new configuration. -/
theorem serverReload_releases (s : Server n) (file : Option ServerDb) (mem : KeyMemory) (grow : Fin n → Grow) :
    ∃ conf, Releases conf s.now s.clients s.leases (serverReload N s file mem grow).leases := by
  unfold serverReload
  split
  · exact ⟨s.conf, .refl⟩
  · rename_i conf _
    exact ⟨conf, (Closing.revalidate grow { s with conf := conf }).leases⟩

theorem serverHandleData_releases {s₀ s : Server n} (hread : Reread s₀ s) (env : PacketEnv) (pkt : Bytes)
    (src : SockAddr) (fd : ℤ) :
    Releases s₀.conf s₀.now s₀.clients s₀.leases (serverHandleData N s env pkt src fd).1.leases := by
  rcases serverHandleData_cases (N := N) s env pkt src fd with h | ⟨i, w, plain, x, hsession, -, -, hd⟩
  · rw [h, hread.leases]
    exact .refl
  · have hvalid := (dataSession_some hsession).2
    rw [show (serverHandleData N s env pkt src fd).1.leases = dataLeases s.leases (s.clients i) w
      from (congrArg Server.leases hd.eq :), hread.leases]
    unfold dataLeases
    split
    · rename_i hw
      rw [hw.1, hread.entry i] at hvalid
      rw [show (s.clients i).pendingIpBe = (s₀.clients i).pendingIpBe by rw [hread.entry i]]
      exact .confirmed .refl i hvalid
    · exact .refl

theorem quietStep_releases (s : Server n) (e : Event n) :
    ∃ conf, Releases conf s.now s.clients s.leases (quietStep N s e).leases ∧
      ((∀ file mem grow, e ≠ .reload file mem grow) → conf = s.conf) := by
  cases e with
  | tick now => exact ⟨s.conf, .refl, fun _ => rfl⟩
  | udp packet src env => exact ⟨s.conf, .refl, fun _ => rfl⟩
  | accept fd peer stream nonblocking =>
    refine ⟨s.conf, ?_, fun _ => rfl⟩
    rw [show (quietStep N s (.accept fd peer stream nonblocking)).leases = s.leases
      from (serverAccept_frame ..).1]
    exact .refl
  | readable fd buffer reads env =>
    refine ⟨s.conf, ?_, fun _ => rfl⟩
    show Releases _ _ _ _ (drainTcpClientRead s fd buffer reads env.grow).1.leases
    rcases drainTcpClientRead_cases s fd buffer reads env.grow with h | ⟨-, i, s₁, -, h, heq⟩
    · rw [h.leases]
      exact .refl
    · rw [heq, serverEndClient_leases, h.leases, h.conf, h.now]
      exact .ended .refl env.grow i (h.retained i).sameLessee
  | tun packet env =>
    refine ⟨s.conf, ?_, fun _ => rfl⟩
    have h := handleTunPacket_delivered (N := N) s env packet
    rw [show (quietStep N s (.tun packet env)).leases = s.leases from (congrArg Server.leases h.eq :)]
    exact .refl
  | expire grow => exact ⟨s.conf, (Closing.expireClients grow s).leases, fun _ => rfl⟩
  | reload file mem grow =>
    obtain ⟨conf, h⟩ := serverReload_releases (N := N) s file mem grow
    exact ⟨conf, h, fun hne => absurd rfl (hne file mem grow)⟩

theorem StepCase.releases {s : Server n} {e : Event n} {x : Server n × Option (PacketOutcome n)}
    (h : StepCase N s e x) (hno : ∀ o, x.2 ≠ some (.init o)) :
    ∃ conf, Releases conf s.now s.clients s.leases x.1.leases ∧
      ((∀ file mem grow, e ≠ .reload file mem grow) → conf = s.conf) := by
  cases h with
  | init c _ _ _ => exact absurd rfl (hno _)
  | data c _ hread _ => exact ⟨s.conf, serverHandleData_releases hread .., fun _ => rfl⟩
  | ignored c _ hread =>
    refine ⟨s.conf, ?_, fun _ => rfl⟩
    dsimp only
    rw [hread.leases]
    exact .refl
  | quiet _ => exact quietStep_releases s e
  | reload file mem grow he =>
    obtain ⟨conf, h⟩ := serverReload_releases (N := N) s file mem grow
    exact ⟨conf, h, fun hne => absurd he (hne file mem grow)⟩

/-- The slot of a handshake: a client of a full table may have ended for it. -/
theorem serverEntryFor_releases {s s₁ : Server n} {r : Register} {src : SockAddr} {fd : ℤ} {grow : Grow}
    {e : Entry n} (hrec : Recounted s s₁) (he : serverEntryFor s₁ r src fd grow = some e) :
    Releases s.conf s.now s.clients s.leases e.server.leases := by
  cases serverEntryFor_slot he with
  | own _ _ hl _ => rw [hl, hrec.leases]; exact .refl
  | source _ _ hl _ => rw [hl, hrec.leases]; exact .refl
  | free _ _ hl _ _ => rw [hl, hrec.leases]; exact .refl
  | evicted _ _ hl _ _ =>
    rw [hl, hrec.leases, hrec.conf, hrec.now]
    exact .ended .refl grow e.slot (Retained.of_core (hrec.core e.slot)).sameLessee

/-! ## What adds and drops keep -/

/-- A property of the lease table that adds and drops keep. -/
structure LeaseInvariant (P : LeaseTable → Prop) : Prop where
  add : ∀ conf now grow ls clientId ip prev, P ls → P (serverLeaseAdd conf now grow ls clientId ip prev)
  drop : ∀ ls o, P ls → P (serverLeaseDrop ls o)

namespace LeaseInvariant

variable {P : LeaseTable → Prop} (hP : LeaseInvariant P)

include hP

theorem ended (conf : Conf) (now : Time) (grow : Grow) (c : ServerClient) {ls : LeaseTable} (h : P ls) :
    P (leasesOfEnded conf now grow c ls) := by
  unfold leasesOfEnded
  split
  · dsimp only
    generalize hls₁ : (if (poolHas conf.db c.ipBe && (profileOwnerOfIp conf.db c.ipBe).isNone) = true then
      serverLeaseAdd conf now (grow false) ls c.clientId c.ipBe false else ls) = ls₁
    have h₁ : P ls₁ := by
      rw [← hls₁]
      split
      · exact hP.add _ _ _ _ _ _ _ h
      · exact h
    split
    · exact hP.add _ _ _ _ _ _ _ h₁
    · exact h₁
  · exact h

theorem releases {conf : Conf} {now : Time} {t : Table n} {ls ls' : LeaseTable} (h : Releases conf now t ls ls')
    (hls : P ls) : P ls' := by
  induction h with
  | refl => exact hls
  | ended _ grow i _ ih => exact hP.ended conf now grow _ ih
  | confirmed _ i _ ih => exact hP.drop _ _ ih

theorem handshake {s s' : Server n} {env : PacketEnv} {pkt : Bytes} {src : SockAddr} {fd : ℤ} {o : InitOutcome n}
    (h : InitRun N s env pkt src fd s' o) (hs : P s.leases) : P s'.leases := by
  cases h with
  | refused _ hrec =>
    rw [hrec.leases]
    exact hs
  | failed s₁ r e pool c₀ c reply saved hrec hr hpass he hconf hc =>
    exact hP.releases (serverEntryFor_releases hrec he) hs
  | accepted s₁ r e pool c reply m hrec hr hpass he hconf =>
    have hentry := hP.releases (serverEntryFor_releases hrec he) hs
    show P (initDoneLeases e.server.leases r _)
    unfold initDoneLeases
    split
    · exact hP.drop _ _ (hP.drop _ _ hentry)
    · exact hentry

/-- The leases of the server have the property at any time when the empty table does. -/
theorem reachable (hstart : ∀ k, P ⟨List.replicate k .unused, 0, 0, 0⟩) {s : Server n}
    (h : Machine.Reachable (serverMachine N n) s) : P s.leases := by
  refine h.invariant (I := fun s => P s.leases) ?_ ?_
  · rintro s ⟨cfg, db, ctx, mem, ks, now, leases, -, rfl⟩
    exact hstart _
  · intro s e t hs _ hstep
    rw [serverMachine_next hstep]
    have hcase := serverStep_case N s e
    generalize serverStep N s e = x at hcase
    by_cases hinit : ∃ o, x.2 = some (.init o)
    · obtain ⟨o, ho⟩ := hinit
      cases hcase with
      | init c _ hread _ =>
        exact hP.handshake (serverHandleInit_cases N c.server c.env c.packet c.src c.fd) (by rw [hread.leases]; exact hs)
      | data c _ _ _ => cases ho
      | ignored c _ _ => cases ho
      | quiet _ => cases ho
      | reload _ _ _ _ => cases ho
    · obtain ⟨conf, h, -⟩ := hcase.releases fun o ho => hinit ⟨o, ho⟩
      exact hP.releases h hs

end LeaseInvariant

theorem addressesDistinct_invariant : LeaseInvariant LeaseTable.AddressesDistinct where
  add _ _ _ _ _ _ _ h := serverLeaseAdd_addressesDistinct h
  drop _ o h := serverLeaseDrop_addressesDistinct h o

/-- **No address is leased twice.** -/
theorem leasesDistinct_reachable {s : Server n} (h : Machine.Reachable (serverMachine N n) s) :
    s.leases.AddressesDistinct := by
  refine addressesDistinct_invariant.reachable (fun k j i _ hj => absurd ?_ hj) h
  unfold LeaseTable.at
  dsimp only
  rw [List.getD_eq_getElem?_getD, List.getElem?_replicate]
  split <;> rfl

end Camex
