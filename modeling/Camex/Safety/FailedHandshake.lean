import Camex.Concrete
import Camex.Server.InitEntry

/-!
# A failed handshake leaves the clients as they were

`AsBefore` is what an INIT that is refused or fails is to leave of a registered entry. It does so exactly when the
REGISTER that passed the checks meets `ComesAsItself`: one that lands on a registered entry names its ID and mode, and
its address when it came there by its source, and takes no connection from another registered entry.

* `FailFate`: what such an INIT makes of the entry of a slot, `serverHandleInit_failFate`;
* `failedHandshake_asBefore`.
-/

namespace Camex

open Lib

variable {n : ℕ} {Hs : Type} {N : Noise Hs}

/-- Who the client is, its key, its addresses and its sessions. -/
structure AsBefore (c c' : ServerClient) : Prop where
  clientId : c'.clientId = c.clientId
  autoClient : c'.autoClient = c.autoClient
  registered : c'.registered = c.registered
  pskKey : c'.pskKey = c.pskKey
  ipBe : c'.ipBe = c.ipBe
  pendingIpBe : c'.pendingIpBe = c.pendingIpBe
  cur : c'.cur = c.cur
  next : c'.next = c.next
  prev : c'.prev = c.prev
  prevIpBe : c'.prevIpBe = c.prevIpBe

theorem AsBefore.of_core {c c' : ServerClient} (h : c'.core = c.core) : AsBefore c c' := by
  rw [ServerClient.eq_of_core h]
  exact ⟨rfl, rfl, rfl, rfl, rfl, rfl, rfl, rfl, rfl, rfl⟩

/-- The entry at slot `i` is what the handshake says it is, or nobody's. -/
def NamesEntry (s : Server n) (r : Register) (i : Fin n) : Prop :=
  (s.clients i).registered = true →
    r.clientId = (s.clients i).clientId ∧ r.auto = (s.clients i).autoClient

/-- The handshakes that name what they land on. -/
def ComesAsItself (s : Server n) (r : Register) (src : SockAddr) (fd : ℤ) : Prop :=
  match entryChoice s r src fd with
  | .own i => NamesEntry s r i ∧ (0 ≤ fd → (s.clients i).tcpFd ≠ fd →
      ∀ j, j ≠ i → (s.clients j).tcpFd = fd → (s.clients j).registered = false)
  | .source i => NamesEntry s r i ∧ ((s.clients i).registered = true → r.auto = false →
      inetPton r.localIp = some (s.clients i).ipBe)
  | _ => True

instance (s : Server n) (r : Register) (i : Fin n) : Decidable (NamesEntry s r i) := by
  unfold NamesEntry
  infer_instance

instance (s : Server n) (r : Register) (src : SockAddr) (fd : ℤ) :
    Decidable (ComesAsItself s r src fd) := by
  unfold ComesAsItself
  split <;> infer_instance

/-- Did the handshake leave without a session? -/
def InitOutcome.unsuccessful : InitOutcome n → Bool
  | .accepted _ _ _ _ _ => false
  | _ => true

/-! ## How it ends -/

/-- What a handshake without a session makes of the entry at slot `j`. -/
inductive FailFate (s : Server n) (r : Register) (src : SockAddr) (fd : ℤ) (j : Fin n) (c' : ServerClient) : Prop
  /-- It is another client's handshake. -/
  | alone (h : c'.core = (s.clients j).core) (hno : ¬ LeadsTo s r src fd j)
      (hkept : ∀ i, entryChoice s r src fd = .own i → 0 ≤ fd → (s.clients i).tcpFd ≠ fd →
        (s.clients j).active = true → (s.clients j).tcpFd ≠ fd)
  /-- The connection it is on was adopted by the entry of the handshake. -/
  | adopted (hc : c' = .wiped) (i : Fin n) (hchoice : entryChoice s r src fd = .own i) (hne : j ≠ i) (hfd : 0 ≤ fd)
      (htcp : (s.clients i).tcpFd ≠ fd) (hactive : (s.clients j).active = true) (hj : (s.clients j).tcpFd = fd)
  /-- The slot was taken for the handshake. -/
  | unused (hc : c' = .wiped) (hchoice : entryChoice s r src fd = .fresh)
      (hslot : (s.clients j).active = false ∨ ∀ k, (s.clients k).active = true)
  | restored {before : ServerClient} (ht : Taken s r src fd j false before) (h : Restored r src fd s.now before c')

/-- The fail path, entry by entry. -/
theorem initFail_fate {s s₁ : Server n} {env : PacketEnv} {pkt : Bytes} {src : SockAddr} {fd : ℤ} {r : Register}
    {e : Entry n} {pool : PoolCursor} {c₀ c : ServerClient} {reply : Option CStr} {saved : SavedSession}
    (hrec : Recounted s s₁) (hid : r.clientId.length < CAMEX_CLIENT_ID_LEN)
    (he : serverEntryFor s₁ r src fd env.grow = some e) (hconf : Configured e r src fd pool c₀ reply)
    (hc : c = c₀ ∧ saved = .none ∨ ∃ m, c = initSession c₀ r pkt m e.server.now ∧ saved = savedSession c₀) (j : Fin n) :
    FailFate s r src fd j ((initFail e pool c saved).clients j) := by
  have hnow : e.server.now = s.now := (serverEntryFor_frame he).now.trans hrec.now
  have ht := serverEntryFor_taken hrec he
  by_cases hj : j = e.slot
  · subst hj
    rcases initFail_entry hconf hid hc with ⟨hfresh, h⟩ | ⟨hfresh, h⟩
    · rw [hfresh] at ht
      cases ht with
      | fresh hchoice hslot _ => exact .unused h hchoice hslot
    · rw [hfresh] at ht
      rw [hnow] at h
      exact .restored ht h
  · rw [initFail_other _ hj]
    have hown : ∀ i, LeadsTo s r src fd i → i = e.slot := by
      intro i hi
      cases hfresh : e.fresh with
      | false =>
        rw [hfresh] at ht
        exact ht.leadsTo.eq hi
      | true =>
        rw [hfresh] at ht
        cases ht with
        | fresh hchoice _ _ => rcases hi with hi | hi <;> rw [hchoice] at hi <;> cases hi
    rcases serverEntryFor_other he hj with h | ⟨h, hchoice, hfd, htcp, hactive, hjfd⟩
    · refine .alone (by rw [h]; exact hrec.core j) (fun hi => hj (hown j hi)) fun i hi hfd htcp hactive hjfd => ?_
      obtain rfl := hown i (Or.inl hi)
      -- the slot would have been freed
      have hwiped := serverEntryFor_adopts he (hrec.entryChoice.trans hi) hfd (by rwa [hrec.tcpFd]) hj
        (by rwa [hrec.active]) (by rwa [hrec.tcpFd])
      have hstill : (e.server.clients j).active = true := by rw [h, hrec.active, hactive]
      rw [hwiped] at hstill
      cases hstill
    · exact .adopted h e.slot (hrec.entryChoice ▸ hchoice) hj hfd (hrec.tcpFd e.slot ▸ htcp)
        (hrec.active j ▸ hactive) (hrec.tcpFd j ▸ hjfd)

/-- **A handshake without a session**: no entry was found for it, or the fail path ran. -/
theorem serverHandleInit_failFate {s : Server n} {env : PacketEnv} {pkt : Bytes} {src : SockAddr} {fd : ℤ}
    (ho : (serverHandleInit N s env pkt src fd).2.unsuccessful = true) :
    (Recounted s (serverHandleInit N s env pkt src fd).1 ∧
        ∀ r hs, (initAuthenticate N s env pkt src).2 = some (r, hs) → ∀ i, ¬ LeadsTo s r src fd i) ∨
      ∃ r hs, (initAuthenticate N s env pkt src).2 = some (r, hs) ∧
        ∀ j, FailFate s r src fd j ((serverHandleInit N s env pkt src fd).1.clients j) := by
  obtain ⟨hrec, hsome⟩ := initAuthenticate_spec N s env pkt src
  unfold serverHandleInit at ho ⊢
  generalize initAuthenticate N s env pkt src = auth at hrec hsome ho ⊢
  obtain ⟨s₁, found⟩ := auth
  cases found with
  | none => exact Or.inl ⟨hrec, fun r hs hfound => by cases hfound⟩
  | some found =>
    obtain ⟨r, hs⟩ := found
    dsimp only at hrec hsome ho ⊢
    cases he : serverEntryFor s₁ r src fd env.grow with
    | none =>
      refine Or.inl ⟨hrec, fun r' hs' hfound i hi => ?_⟩
      cases hfound
      unfold serverEntryFor at he
      rcases hi with hi | hi <;> rw [hrec.entryChoice, hi] at he <;> cases he
    | some e =>
      rw [he] at ho
      have hrun := initRegister_cases N e env pkt src fd r hs
      dsimp only at ho ⊢
      generalize initRegister N e env pkt src fd r hs = q at ho hrun
      obtain ⟨s', o⟩ := q
      cases hrun with
      | failed pool c₀ c reply saved hconf hc =>
        exact Or.inr ⟨r, hs, rfl, initFail_fate hrec (hsome r hs rfl).1.idShort he hconf hc⟩
      | accepted pool c reply m hconf => cases ho

/-! ## When the clients are as before -/

section Handshake

variable {s : Server n} {r : Register} {src : SockAddr} {fd : ℤ} {j : Fin n}

theorem ComesAsItself.namesEntry {c : ServerClient} (hC : ComesAsItself s r src fd)
    (ht : Taken s r src fd j false c) : NamesEntry s r j := by
  unfold ComesAsItself at hC
  cases ht with
  | own hchoice _ _ => rw [hchoice] at hC; exact hC.1
  | source hchoice _ _ => rw [hchoice] at hC; exact hC.1

/-- A handshake that names its entry finds its address there. -/
theorem ComesAsItself.ipBe {c : ServerClient} (hC : ComesAsItself s r src fd)
    (ht : Taken s r src fd j false c) (hreg : (s.clients j).registered = true) :
    c.ipBe = (s.clients j).ipBe := by
  cases ht with
  | own _ hcore hc => rw [hc.eq, ServerClient.eq_of_core hcore]
  | source hchoice hcore hc =>
    unfold ComesAsItself at hC
    rw [hchoice] at hC
    rw [hc]
    cases hauto : r.auto with
    | true => rw [withManualIp_auto _ hauto, ServerClient.eq_of_core hcore]
    | false => rw [withManualIp_manual _ hauto (hC.2 hreg hauto)]; rfl

/-- What a failed handshake puts back is what was there. -/
theorem Restored.asBefore {before c : ServerClient} (hsound : (s.clients j).Sound)
    (hC : ComesAsItself s r src fd) (ht : Taken s r src fd j false before)
    (h : Restored r src fd s.now before c) (hreg : (s.clients j).registered = true) :
    AsBefore (s.clients j) c := by
  obtain ⟨hid, hauto⟩ := hC.namesEntry ht hreg
  have hip := hC.ipBe ht hreg
  have hbefore := ht.eq
  have hcur : c.cur = before.cur := h.cur.resolve_right fun hno => by
    have := hsound.cur
    rw [hreg] at this
    rw [hbefore, ← this] at hno
    cases hno.1
  rw [h.eq, hbefore] at *
  exact ⟨hid, hauto, rfl, rfl, hip, rfl, hcur, rfl, rfl, rfl⟩

/-- What a failed handshake leaves has its ID and mode. -/
theorem Restored.names {before c : ServerClient} (h : Restored r src fd s.now before c)
    (hbefore : (s.clients j).registered = true → AsBefore (s.clients j) c) : NamesEntry s r j := by
  intro hreg
  have hsame := hbefore hreg
  constructor
  · rw [← hsame.clientId, h.eq]
  · rw [← hsame.autoClient, h.eq]

theorem FailFate.asBefore {c' : ServerClient} (h : FailFate s r src fd j c') (hC : ComesAsItself s r src fd)
    (hfree : ∃ k, (s.clients k).active = false) (hsound : (s.clients j).Sound)
    (hreg : (s.clients j).registered = true) : AsBefore (s.clients j) c' := by
  cases h with
  | alone h _ _ => exact .of_core h
  | adopted _ i hchoice hne hfd htcp _ hj =>
    unfold ComesAsItself at hC
    rw [hchoice] at hC
    rw [hC.2 hfd htcp j hne hj] at hreg
    cases hreg
  | unused _ _ hslot =>
    rcases hslot with h | h
    · rw [hsound.active hreg] at h
      cases h
    · obtain ⟨k, hk⟩ := hfree
      rw [h k] at hk
      cases hk
  | restored ht h => exact h.asBefore hsound hC ht hreg

/-- No slot is taken by a handshake that fails. -/
theorem FailFate.inactive {c' : ServerClient} (h : FailFate s r src fd j c') (hj : (s.clients j).active = false) :
    c'.active = false := by
  cases h with
  | alone h _ _ => exact (congrArg ServerClient.active h :).trans hj
  | adopted hc _ _ _ _ _ _ _ => rw [hc]; rfl
  | unused hc _ _ => rw [hc]; rfl
  | restored ht _ =>
    have := ht.active
    rw [ht.eq] at this
    exact absurd (this.symm.trans hj) (by decide)

/-- A handshake that leaves every client as it was comes as itself. -/
theorem FailFate.comesAsItself {t : Table n} (hfate : ∀ j, FailFate s r src fd j (t j)) (hsound : ∀ j, (s.clients j).Sound)
    (hbefore : ∀ j, (s.clients j).registered = true → AsBefore (s.clients j) (t j)) : ComesAsItself s r src fd := by
  have hrestored : ∀ i, LeadsTo s r src fd i →
      ∃ before, Taken s r src fd i false before ∧ Restored r src fd s.now before (t i) := by
    intro i hi
    cases hfate i with
    | alone _ hno _ => exact absurd hi hno
    | adopted _ k hchoice hne _ _ _ _ => exact absurd ((hi.eq (Or.inl hchoice)).symm) hne
    | unused _ hchoice _ => rcases hi with hi | hi <;> rw [hchoice] at hi <;> cases hi
    | restored ht h => exact ⟨_, ht, h⟩
  unfold ComesAsItself
  split
  · rename_i i hchoice
    obtain ⟨before, ht, h⟩ := hrestored i (Or.inl hchoice)
    refine ⟨h.names (hbefore i), fun hfd htcp j hj hjfd => Bool.eq_false_iff.mpr fun hreg => ?_⟩
    -- the connection of a registered entry is adopted, and the entry gone
    have hsame := hbefore j hreg
    cases hfate j with
    | alone _ _ hkept => exact hkept i hchoice hfd htcp ((hsound j).active hreg) hjfd
    | adopted hc _ _ _ _ _ _ _ =>
      have hstill := hsame.registered
      rw [hc, hreg] at hstill
      cases hstill
    | unused _ hfresh _ =>
      rw [hchoice] at hfresh
      cases hfresh
    | restored ht' _ => exact hj (ht.leadsTo.eq ht'.leadsTo)
  · rename_i i hchoice
    obtain ⟨before, ht, h⟩ := hrestored i (Or.inr hchoice)
    refine ⟨h.names (hbefore i), fun hreg hauto => ?_⟩
    have hip : before.ipBe = (s.clients i).ipBe := by
      rw [← (hbefore i hreg).ipBe, h.eq]
    cases ht with
    | own hown _ _ =>
      rw [hchoice] at hown
      cases hown
    | source _ _ hc =>
      have hleads := entryChoice_leads s r src fd
      rw [hchoice] at hleads
      cases hleads with
      | connection _ hauto' _ _ _ =>
        rw [hauto] at hauto'
        cases hauto'
      | source _ ip _ ha _ _ _ =>
        rw [hc, withManualIp_manual _ hauto ha.pton] at hip
        rw [ha.pton, ← hip]
        rfl
  · trivial

end Handshake

/-- **A failed handshake leaves the clients as they were**, in every reachable state, exactly when the REGISTER that
passed the checks comes as itself. -/
theorem failedHandshake_asBefore {s : Server n} (hs : Machine.Reachable (serverMachine N n) s)
    (hfree : ∃ k, (s.clients k).active = false) {env : PacketEnv} {pkt : Bytes} {src : SockAddr} {fd : ℤ}
    (ho : (serverHandleInit N s env pkt src fd).2.unsuccessful = true) :
    (∀ j, ((s.clients j).registered = true →
          AsBefore (s.clients j) ((serverHandleInit N s env pkt src fd).1.clients j)) ∧
        ((s.clients j).active = false →
          ((serverHandleInit N s env pkt src fd).1.clients j).active = false)) ↔
      ∀ r hs, (initAuthenticate N s env pkt src).2 = some (r, hs) → ComesAsItself s r src fd := by
  have hsound := fun j => sound_reachable hs j
  rcases serverHandleInit_failFate ho with ⟨hrec, hno⟩ | ⟨r, hs', hauth, hfate⟩
  · constructor
    · intro _ r hs' hauth
      unfold ComesAsItself
      split
      · exact absurd (Or.inl ‹_›) (hno r hs' hauth _)
      · exact absurd (Or.inr ‹_›) (hno r hs' hauth _)
      · trivial
    · exact fun _ j => ⟨fun _ => .of_core (hrec.core j), fun hj => (hrec.active j).trans hj⟩
  · constructor
    · intro hbefore r' hs'' hauth'
      cases hauth.symm.trans hauth'
      exact FailFate.comesAsItself hfate hsound fun j => (hbefore j).1
    · exact fun hC j => ⟨(hfate j).asBefore (hC r hs' hauth) hfree (hsound j), (hfate j).inactive⟩

/-- The kernel does not take the answer of this handshake. -/
def toyEnvUnsent (index : ℕ) : PacketEnv := { toyEnv index with sent := false }

/-- One of two clients, whose new handshake fails. -/
theorem failedHandshake_asBefore_again : ∃ s : Server 3, (s.clients 0).registered = true ∧ (s.clients 1).registered = true ∧
    ∀ j, ((s.clients j).registered = true → AsBefore (s.clients j) ((serverHandleInit toyNoise s (toyEnvUnsent 3)
        (initPacket 65 3 "MODE=MANUAL CLIENT_ID=a LOCAL_IP=10.0.0.5") (toySource 1 1000) (-1)).1.clients j)) ∧
      ((s.clients j).active = false → ((serverHandleInit toyNoise s (toyEnvUnsent 3)
        (initPacket 65 3 "MODE=MANUAL CLIENT_ID=a LOCAL_IP=10.0.0.5") (toySource 1 1000) (-1)).1.clients j).active =
          false) := by
  obtain ⟨s, hs, hp⟩ := Machine.runUnder_reachable (M := toyMachine 3) (C := fun _ _ => True)
    (l := [udpInit 65 1 (toySource 1 1000) "MODE=MANUAL CLIENT_ID=a LOCAL_IP=10.0.0.5",
      udpInit 65 2 (toySource 2 1000) "MODE=MANUAL CLIENT_ID=b LOCAL_IP=10.0.0.6"])
    (p := fun s => decide ((s.clients 0).registered = true ∧ (s.clients 1).registered = true ∧
      (s.clients 2).active = false ∧
      (∀ x ∈ (initAuthenticate toyNoise s (toyEnvUnsent 3)
          (initPacket 65 3 "MODE=MANUAL CLIENT_ID=a LOCAL_IP=10.0.0.5") (toySource 1 1000)).2,
        ComesAsItself s x.1 (toySource 1 1000) (-1)) ∧
      (serverHandleInit toyNoise s (toyEnvUnsent 3)
        (initPacket 65 3 "MODE=MANUAL CLIENT_ID=a LOCAL_IP=10.0.0.5") (toySource 1 1000) (-1)).2.unsuccessful
          = true))
    (toyServer_started 3 .udp toyDb) (by decide +kernel)
  rw [decide_eq_true_iff] at hp
  obtain ⟨hreg, hreg', hfree, hC, ho⟩ := hp
  exact ⟨s, hreg, hreg', (failedHandshake_asBefore hs ⟨2, hfree⟩ ho).mpr fun r hs' hauth => hC (r, hs') hauth⟩

/-- A handshake with another ID from the source of a client and for its address, whose answer is not
sent, leaves its ID there. -/
theorem not_failedHandshake_asBefore : ¬ ∀ (s : Server 3), Machine.Reachable (toyMachine 3) s →
    (∃ k, (s.clients k).active = false) → ∀ env pkt src fd,
      (serverHandleInit toyNoise s env pkt src fd).2.unsuccessful = true → ∀ j,
        ((s.clients j).registered = true →
          AsBefore (s.clients j) ((serverHandleInit toyNoise s env pkt src fd).1.clients j)) ∧
        ((s.clients j).active = false →
          ((serverHandleInit toyNoise s env pkt src fd).1.clients j).active = false) := by
  intro h
  obtain ⟨s, hs, hp⟩ := Machine.runUnder_reachable (M := toyMachine 3) (C := fun _ _ => True)
    (l := [udpInit 65 1 (toySource 1 1000) "MODE=MANUAL CLIENT_ID=a LOCAL_IP=10.0.0.5"])
    (p := fun s => decide ((s.clients 0).registered = true ∧ (s.clients 1).active = false ∧
      (serverHandleInit toyNoise s (toyEnvUnsent 2)
        (initPacket 65 2 "MODE=MANUAL CLIENT_ID=b LOCAL_IP=10.0.0.5") (toySource 1 1000) (-1)).2.unsuccessful
          = true ∧
      ((serverHandleInit toyNoise s (toyEnvUnsent 2)
        (initPacket 65 2 "MODE=MANUAL CLIENT_ID=b LOCAL_IP=10.0.0.5") (toySource 1 1000) (-1)).1.clients
          0).clientId ≠ (s.clients 0).clientId))
    (toyServer_started 3 .udp toyDb) (by decide +kernel)
  rw [decide_eq_true_iff] at hp
  obtain ⟨hreg, hfree, ho, hid⟩ := hp
  exact hid ((h s hs ⟨1, hfree⟩ _ _ _ _ ho 0).1 hreg).clientId

end Camex
