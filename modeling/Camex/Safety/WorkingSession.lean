import Camex.Concrete

/-!
# A handshake does not disturb a working session

An entry is `Working` when it has a current session and an address. Over UDP, while the table has a
free slot, an INIT leaves such an entry `Undisturbed` however it ends (`serverHandleInit_undisturbed`);
its current session gives way only to the one a DATA packet opened (`workingSession_kept`).
-/

namespace Camex

open Lib

variable {n : ℕ} {Hs : Type} {N : Noise Hs}

/-- An entry with a current session and an address. -/
structure Working (c : ServerClient) : Prop where
  active : c.active = true
  cur : c.cur.valid = true
  ipBe : c.ipBe ≠ 0

/-- The sessions that carry packets, the address they are for and where they go. -/
structure Undisturbed (c c' : ServerClient) : Prop where
  cur : c'.cur = c.cur
  prev : c'.prev = c.prev
  prevUntil : c'.prevUntil = c.prevUntil
  prevIpBe : c'.prevIpBe = c.prevIpBe
  addr : c'.addr = c.addr
  ipBe : c'.ipBe = c.ipBe

instance (c : ServerClient) : Decidable (Working c) :=
  decidable_of_iff (c.active = true ∧ c.cur.valid = true ∧ c.ipBe ≠ 0)
    ⟨fun h => ⟨h.1, h.2.1, h.2.2⟩, fun h => ⟨h.active, h.cur, h.ipBe⟩⟩

theorem Undisturbed.refl (c : ServerClient) : Undisturbed c c := ⟨rfl, rfl, rfl, rfl, rfl, rfl⟩

theorem Undisturbed.trans {c c' c'' : ServerClient} (h : Undisturbed c c') (h' : Undisturbed c' c'') :
    Undisturbed c c'' :=
  ⟨h'.cur.trans h.cur, h'.prev.trans h.prev, h'.prevUntil.trans h.prevUntil,
    h'.prevIpBe.trans h.prevIpBe, h'.addr.trans h.addr, h'.ipBe.trans h.ipBe⟩

theorem Undisturbed.of_core {c c' : ServerClient} (h : c'.core = c.core) : Undisturbed c c' :=
  ⟨(congrArg ServerClient.cur h :), (congrArg ServerClient.prev h :),
    (congrArg ServerClient.prevUntil h :), (congrArg ServerClient.prevIpBe h :),
    (congrArg ServerClient.addr h :), (congrArg ServerClient.ipBe h :)⟩

theorem Working.undisturbed {c c' : ServerClient} (h : Working c) (hu : Undisturbed c c')
    (ha : c'.active = c.active) : Working c' :=
  ⟨ha ▸ h.active, hu.cur ▸ h.cur, hu.ipBe ▸ h.ipBe⟩

/-! ## The entry of a handshake -/

section Handshake

variable {s : Server n} {r : Register} {src : SockAddr} {fd : ℤ} {grow : Grow} {e : Entry n}

theorem Resumed.undisturbed {c c' : ServerClient} (h : Resumed fd c c') : Undisturbed c c' := by
  rw [h.eq]
  exact ⟨rfl, rfl, rfl, rfl, rfl, rfl⟩

/-- Over UDP `server_entry_for` leaves a working entry as it is. -/
theorem serverEntryFor_undisturbed (hfd : fd < 0) (hfree : ∃ j, (s.clients j).active = false)
    (he : serverEntryFor s r src fd grow = some e) {i : Fin n} (hi : Working (s.clients i)) :
    Undisturbed (s.clients i) (e.server.clients i) ∧
      (e.server.clients i).active = (s.clients i).active := by
  by_cases hslot : i = e.slot
  · subst hslot
    have hleads := entryChoice_leads s r src fd
    cases serverEntryFor_slot he with
    | own _ _ _ hentry => exact ⟨hentry.undisturbed, by rw [hentry.eq]⟩
    | source hchoice _ _ hentry =>
      rw [hchoice] at hleads
      cases hleads with
      | connection _ hauto _ _ _ =>
        rw [hentry, withManualIp_auto _ hauto]
        exact ⟨.refl _, rfl⟩
      | source _ _ _ _ _ hcur _ =>
        -- a source of its own has no session yet
        rw [hi.cur] at hcur
        exact absurd hcur (by simp [hfd])
    | free _ _ _ _ hinactive => rw [hi.active] at hinactive; cases hinactive
    | evicted _ _ _ _ hfull =>
      obtain ⟨j, hj⟩ := hfree
      rw [hfull j] at hj
      cases hj
  · rcases serverEntryFor_other he hslot with h | ⟨-, -, h, -⟩
    · rw [h]
      exact ⟨.refl _, rfl⟩
    · exact absurd h (not_le.mpr hfd)

/-- The choice of an address does not change the one of a working session. -/
theorem initConfigure_keeps_ip {i : Fin n} (hi : Working (s.clients i))
    (hid : (s.clients i).clientId = r.clientId) :
    (initConfigure s i r).2.1.ipBe = (s.clients i).ipBe := by
  have hassign : ∀ (c : ServerClient) ip, c.cur.valid = true → c.ipBe ≠ 0 →
      (serverAssignIp c ip).ipBe = c.ipBe := by
    intro c ip hcur hip
    unfold serverAssignIp
    split
    · rfl
    · rename_i h
      simp only [hcur, Bool.true_and, Bool.and_eq_true, bne_iff_ne, not_and, not_not] at h
      exact h hip
  have hrule : ConfigRule s i r fun c =>
      SameButIps (s.clients i) c ∧ c.ipBe = (s.clients i).ipBe :=
    { clientId := fun c hc => by rw [hc.1]; exact hid
      manual := fun _ c hc => ⟨hc.1.trans rfl, hc.2⟩
      profile := fun c ip _ _ hc => ⟨hc.1.trans (serverAssignIp_sameButIps _ _),
        (hassign c ip (by rw [hc.1]; exact hi.cur) (hc.2 ▸ hi.ipBe)).trans hc.2⟩
      seed := fun c _ _ hc hzero _ => absurd (hc.2.symm.trans hzero) hi.ipBe
      assign := fun c ip _ hc _ => ⟨hc.1.trans (serverAssignIp_sameButIps _ _),
        (hassign c ip (by rw [hc.1]; exact hi.cur) (hc.2 ▸ hi.ipBe)).trans hc.2⟩ }
  exact (initConfigure_rule hrule ⟨.refl _, rfl⟩).2

theorem claimedAddr_working (hfd : fd < 0) {c : ServerClient} (hc : Working c) :
    claimedAddr c src fd = c.addr := by
  unfold claimedAddr
  rw [if_neg (by simp [hc.cur, hfd])]

theorem Restored.undisturbed {now : Time} {before c : ServerClient} (hfd : fd < 0)
    (hb : Working before) (h : Restored r src fd now before c) : Undisturbed before c := by
  have hcur : c.cur = before.cur := h.cur.resolve_right fun hno => by
    rw [hb.cur] at hno
    cases hno.1
  refine ⟨hcur, ?_, ?_, ?_, ?_, ?_⟩ <;> rw [h.eq]
  exact claimedAddr_working hfd hb

/-- **An INIT over UDP leaves a working entry undisturbed** while the table has a free slot. -/
theorem InitRun.undisturbed {env : PacketEnv} {pkt : Bytes} {s' : Server n} {o : InitOutcome n}
    (hrun : InitRun N s env pkt src fd s' o) (hfd : fd < 0)
    (hfree : ∃ j, (s.clients j).active = false) {i : Fin n} (hi : Working (s.clients i)) :
    Undisturbed (s.clients i) (s'.clients i) := by
  have hcounted : ∀ s₁ : Server n, Recounted s s₁ → Undisturbed (s.clients i) (s₁.clients i) ∧
      Working (s₁.clients i) ∧ ∃ j, (s₁.clients j).active = false := by
    intro s₁ hrec
    have hactive : ∀ j, (s₁.clients j).active = (s.clients j).active := fun j =>
      (congrArg ServerClient.active (hrec.core j) :)
    exact ⟨.of_core (hrec.core i), hi.undisturbed (.of_core (hrec.core i)) (hactive i),
      hfree.imp fun j hj => (hactive j).trans hj⟩
  cases hrun with
  | refused _ hrec => exact (hcounted s' hrec).1
  | failed s₁ r e pool c₀ c reply saved hrec hr hpass he hconf hc =>
    obtain ⟨h₁, hi₁, hfree₁⟩ := hcounted s₁ hrec
    obtain ⟨h₂, ha₂⟩ := serverEntryFor_undisturbed hfd hfree₁ he hi₁
    refine (h₁.trans h₂).trans ?_
    by_cases hslot : i = e.slot
    · subst hslot
      rcases initFail_entry hconf hr.idShort hc with ⟨hfresh, -⟩ | ⟨-, hrestored⟩
      · -- a fresh slot had no entry
        exfalso
        cases serverEntryFor_slot he with
        | own _ h _ _ => rw [hfresh] at h; cases h
        | source _ h _ _ => rw [hfresh] at h; cases h
        | free _ _ _ _ hinactive => rw [hi₁.active] at hinactive; cases hinactive
        | evicted _ _ _ _ hfull =>
          obtain ⟨j, hj⟩ := hfree₁
          rw [hfull j] at hj
          cases hj
      · exact hrestored.undisturbed hfd (hi₁.undisturbed h₂ ha₂)
    · rw [initFail_other _ hslot]
      exact .refl _
  | accepted s₁ r e pool c reply m hrec hr hpass he hconf =>
    obtain ⟨h₁, hi₁, hfree₁⟩ := hcounted s₁ hrec
    obtain ⟨h₂, ha₂⟩ := serverEntryFor_undisturbed hfd hfree₁ he hi₁
    refine (h₁.trans h₂).trans ?_
    by_cases hslot : i = e.slot
    · subst hslot
      have hb := hi₁.undisturbed h₂ ha₂
      have hdone := initDone_entry pkt m hconf hr.idShort
      have hip : c.ipBe = (e.server.clients e.slot).ipBe := by
        have hclaim : initClaim (e.server.clients e.slot) r src fd e.server.now =
            { e.server.clients e.slot with
              addr := claimedAddr (e.server.clients e.slot) src fd, lastSeen := e.server.now
              autoClient := r.auto, clientId := r.clientId } := initClaim_eq hr.idShort
        have := initConfigure_keeps_ip (s := e.server.setClient e.slot
          (initClaim (e.server.clients e.slot) r src fd e.server.now)) (i := e.slot) (r := r)
          (by rw [Server.setClient_self, hclaim]; exact ⟨hb.active, hb.cur, hb.ipBe⟩)
          (by rw [Server.setClient_self, hclaim])
        rw [hconf.eq, Server.setClient_self, hclaim] at this
        exact this
      have hdoneIp : ((initDone e pool (initSession c r pkt m e.server.now) r).clients e.slot).ipBe =
          c.ipBe := by
        rw [initDone_self]
        exact initDoneEntry_ipBe ..
      refine ⟨?_, ?_, ?_, ?_, ?_, hdoneIp.trans hip⟩ <;> rw [hdone.eq]
      · exact if_pos hb.cur
      · exact claimedAddr_working hfd hb
    · rw [initDone_other hslot]
      exact .refl _

theorem serverHandleInit_undisturbed (env : PacketEnv) (pkt : Bytes) (hfd : fd < 0)
    (hfree : ∃ j, (s.clients j).active = false) {i : Fin n} (hi : Working (s.clients i)) :
    Undisturbed (s.clients i) ((serverHandleInit N s env pkt src fd).1.clients i) :=
  (serverHandleInit_cases N s env pkt src fd).undisturbed hfd hfree hi

end Handshake

/-! ## Events -/

variable (N)

/-- What an event of a UDP server makes of the current session of entry `i`. -/
inductive CurFate (s : Server n) (e : Event n) (i : Fin n) (c' : ServerClient) : Prop
  | same (h : (s.clients i).cur.Same c'.cur)
  /-- The entry ended. -/
  | ended (hc : c' = .wiped)
      (he : (∃ grow, e = .expire grow) ∨ ∃ file mem grow, e = .reload file mem grow)
  /-- A DATA packet authenticated under the session offered, which is the current one now. -/
  | opened (packet : Bytes) (src : SockAddr) (env : PacketEnv) (he : e = .udp packet src env)
      (htype : v2PacketType packet = V2_TYPE_DATA)
      (hsession : dataSession s packet (-1) = some (i, .next))
      (hopen : (sessionOpen N (s.clients i).next packet TUN_PACKET_MAX).isSome = true)
      (h : (s.clients i).next.Same c'.cur)

variable {N}

theorem serverStep_curFate {s : Server n} {e : Event n} (hudp : s.conf.cfg.transport = .udp)
    (hfree : ∃ j, (s.clients j).active = false) (he : e.Enabled s) {i : Fin n}
    (hi : Working (s.clients i)) : CurFate N s e i ((serverStep N s e).1.clients i) := by
  cases e with
  | tick now => exact .same (.refl _)
  | udp packet src env =>
    rw [show (serverStep N s (.udp packet src env)).1 =
      (serverHandlePacket N s env packet src (-1)).1 from rfl]
    unfold serverHandlePacket
    dsimp only
    split
    · have h := @serverHandleInit_undisturbed _ _ N s src _ env packet (by decide : (-1 : ℤ) < 0) hfree _ hi
      refine .same ?_
      rw [h.cur]
      exact .refl _
    · split
      · rename_i htype
        rcases serverHandleData_entry (N := N) s env packet src (-1) i with
          ⟨h, -⟩ | ⟨h, -, hsession, hopen⟩
        · exact .same h.cur
        · exact .opened packet src env rfl htype hsession hopen h.cur
      · exact .same (.refl _)
  | accept fd peer stream nonblocking =>
    have := he.1
    rw [hudp] at this
    cases this
  | readable fd buffer reads env =>
    have := he.1
    rw [hudp] at this
    cases this
  | tun packet env =>
    exact .same ((handleTunPacket_delivered (N := N) s env packet).entry i).retained.cur
  | expire grow =>
    rw [show (serverStep N s (.expire grow)).1 = serverExpireClients grow s from rfl]
    rcases serverExpireClients_entry grow s i with h | h
    · rw [h]
      exact .same (.refl _)
    · generalize (serverExpireClients grow s).clients i = c' at h
      cases h with
      | inactive _ => exact .same (.refl _)
      | kept _ => exact .same (expireSessions_retained _ _).cur
      | ended _ => exact .ended rfl (Or.inl ⟨grow, rfl⟩)
  | reload file mem grow =>
    rw [show (serverStep N s (.reload file mem grow)).1 = serverReload N s file mem grow from rfl]
    rcases serverReload_cases (N := N) s file mem grow with h | ⟨db, conf, -, -, hclients, -⟩
    · rw [h]
      exact .same (.refl _)
    · rw [hclients]
      have := serverRevalidate_entry grow { s with conf := conf } i
      generalize (serverRevalidate grow { s with conf := conf }).clients i = c' at this
      cases this with
      | kept => exact .same (.refl _)
      | withdrawn _ => exact .same (.refl _)
      | ended _ => exact .ended rfl (Or.inr ⟨file, mem, grow, rfl⟩)

/-- **A message 1 alone never disturbs a working session**, and nothing but a DATA packet on the
session offered to it takes the place of the current one. -/
theorem workingSession_kept {s : Server n} (hudp : s.conf.cfg.transport = .udp)
    (hfree : ∃ j, (s.clients j).active = false) {i : Fin n} (hi : Working (s.clients i)) :
    (∀ env pkt src, Undisturbed (s.clients i) ((serverHandleInit N s env pkt src (-1)).1.clients i)) ∧
      ∀ e : Event n, e.Enabled s → CurFate N s e i ((serverStep N s e).1.clients i) :=
  ⟨fun env pkt _ => serverHandleInit_undisturbed env pkt (by decide) hfree hi,
    fun _ he => serverStep_curFate hudp hfree he hi⟩

/-- The handshake of another client, from the source of a working entry. -/
theorem workingSession_kept_other : ∃ s : Server 3, Working (s.clients 0) ∧
    Undisturbed (s.clients 0) ((serverHandleInit toyNoise s (toyEnv 2)
      (initPacket 65 2 "MODE=MANUAL CLIENT_ID=b LOCAL_IP=10.0.0.6") (toySource 1 1000) (-1)).1.clients 0) := by
  obtain ⟨s, -, hp⟩ := Machine.runUnder_reachable (M := toyMachine 3) (C := fun _ _ => True)
    (l := [udpInit 65 1 (toySource 1 1000) "MODE=MANUAL CLIENT_ID=a LOCAL_IP=10.0.0.5"])
    (p := fun s => decide (Working (s.clients 0) ∧ (s.clients 1).active = false ∧
      s.conf.cfg.transport = .udp))
    (toyServer_started 3 .udp toyDb) (by decide +kernel)
  rw [decide_eq_true_iff] at hp
  exact ⟨s, hp.1, (workingSession_kept hp.2.2 ⟨1, hp.2.1⟩ hp.1).1 _ _ _⟩

end Camex
