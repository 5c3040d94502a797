import Camex.Server.InitCases
import Camex.Server.Steps

/-!
# What a handshake does to one entry

* `Taken`: the entry `server_entry_for` hands to a handshake, and the branch that led there;
* `LeadsTo`: the lookups lead to an entry, and `LeadsTo.cases`: how;
* `InitFate`: what an INIT makes of the entry of a slot;
* `serverHandleInit_fate`: it is one of these, for every slot;
* `entry_invariant`: the rule for invariants of every entry by itself; `sound_reachable`: only
  registered entries have sessions.
-/

namespace Camex

open Lib

variable {n : ℕ} {Hs : Type} (N : Noise Hs)

/-! ## The state behind the checks -/

section Recounted

variable {s s₁ : Server n} {r : Register} {src : SockAddr} {fd : ℤ}

/-- What reads of the entries no more than their core reads the same before and after the checks. -/
theorem Recounted.reads {β : Type*} (h : Recounted s s₁) (f : Server n → β)
    (hf : ∀ (t : Table n) (b b' : Budget), f { s with clients := fun i => (t i).core, budget := b } =
      f { s with clients := t, budget := b' }) : f s₁ = f s := by
  rw [h.eq, ← hf _ s₁.budget, h.clients]
  exact hf _ s₁.budget s.budget

theorem Recounted.entryChoice (h : Recounted s s₁) : entryChoice s₁ r src fd = entryChoice s r src fd :=
  h.reads (Camex.entryChoice · r src fd) fun _ _ _ => rfl

theorem Recounted.passes (h : Recounted s s₁) (hp : Passes s₁ r) : Passes s r :=
  (h.reads (Passes · r) fun _ _ _ => propext
    ⟨fun hp => ⟨hp.fresh, hp.unheld⟩, fun hp => ⟨hp.fresh, hp.unheld⟩⟩).mp hp

end Recounted

/-! ## The entry of a handshake -/

/-- The lookups lead to the entry at slot `i`. -/
def LeadsTo (s : Server n) (r : Register) (src : SockAddr) (fd : ℤ) (i : Fin n) : Prop :=
  entryChoice s r src fd = .own i ∨ entryChoice s r src fd = .source i

instance (s : Server n) (r : Register) (src : SockAddr) (fd : ℤ) (i : Fin n) :
    Decidable (LeadsTo s r src fd i) := by
  unfold LeadsTo
  infer_instance

/-- The entry a handshake works on, at slot `j`; `fresh`: the slot was taken for it. -/
inductive Taken (s : Server n) (r : Register) (src : SockAddr) (fd : ℤ) (j : Fin n) :
    Bool → ServerClient → Prop
  | own (hchoice : entryChoice s r src fd = .own j) {c₀ c : ServerClient}
      (hcore : c₀.core = (s.clients j).core) (hc : Resumed fd c₀ c) : Taken s r src fd j false c
  | source (hchoice : entryChoice s r src fd = .source j) {c₀ c : ServerClient}
      (hcore : c₀.core = (s.clients j).core) (hc : c = withManualIp c₀ r) : Taken s r src fd j false c
  | fresh (hchoice : entryChoice s r src fd = .fresh)
      (hslot : (s.clients j).active = false ∨ ∀ k, (s.clients k).active = true) {c : ServerClient}
      (hc : c = withManualIp .taken r) : Taken s r src fd j true c

theorem ServerClient.eq_of_core {c c' : ServerClient} (h : c'.core = c.core) :
    c' = { c with
      hsWindow := c'.hsWindow, hsCount := c'.hsCount
      staleHsLogged := c'.staleHsLogged, staleHsQuiet := c'.staleHsQuiet } := by
  cases c
  cases c'
  simp only [ServerClient.core, ServerClient.mk.injEq] at h ⊢
  tauto

/-- What `server_entry_for` changes of an entry that existed: its address, its connection and
counters. -/
theorem Taken.eq {s : Server n} {r : Register} {src : SockAddr} {fd : ℤ} {j : Fin n}
    {c : ServerClient} (h : Taken s r src fd j false c) :
    c = { s.clients j with
      ipBe := c.ipBe, sessionSince := c.sessionSince, tcpFd := c.tcpFd, recvState := c.recvState
      hsWindow := c.hsWindow, hsCount := c.hsCount
      staleHsLogged := c.staleHsLogged, staleHsQuiet := c.staleHsQuiet } := by
  cases h with
  | own _ hcore hc =>
    rw [hc.eq, ServerClient.eq_of_core hcore]
  | source _ hcore hc =>
    rw [hc, ServerClient.eq_of_core hcore]
    unfold withManualIp
    split <;> rfl

/-- A slot taken for a handshake has an address at most. -/
theorem Taken.eq_fresh {s : Server n} {r : Register} {src : SockAddr} {fd : ℤ} {j : Fin n}
    {c : ServerClient} (h : Taken s r src fd j true c) :
    c = { ServerClient.taken with ipBe := c.ipBe } := by
  cases h with
  | fresh _ _ hc =>
    rw [hc]
    unfold withManualIp
    split <;> rfl

section

variable {s : Server n} {r : Register} {src : SockAddr} {fd : ℤ} {j : Fin n}

theorem LeadsTo.active (h : LeadsTo s r src fd j) : (s.clients j).active = true := by
  have hleads := entryChoice_leads s r src fd
  rcases h with h | h
  · rw [h] at hleads
    cases hleads with
    | id _ _ hid =>
      have := (serverFindByClientId_some hid).2
      rw [matchId, Bool.and_eq_true] at this
      exact this.1
    | address _ _ _ _ hip _ =>
      have := serverFindByIp_some hip
      simp only [matchIp, Bool.and_eq_true] at this
      exact this.1.2
  · rw [h] at hleads
    cases hleads with
    | connection _ _ _ hsrc _ => exact (serverFindByAddr_some hsrc).1
    | source _ _ _ _ hsrc _ _ => exact (serverFindByAddr_some hsrc).1

/-- The ways to an entry: by its ID, as the holder of the address with its ID and key, or by the
source. -/
theorem LeadsTo.cases (h : LeadsTo s r src fd j) :
    strcaseeq (s.clients j).clientId r.clientId = true ∨ serverFindByAddr s.clients src = some j := by
  have hleads := entryChoice_leads s r src fd
  rcases h with h | h
  · rw [h] at hleads
    cases hleads with
    | id _ _ hid =>
      have := (serverFindByClientId_some hid).2
      rw [matchId, Bool.and_eq_true] at this
      exact Or.inl this.2
    | address _ _ _ ha hip _ => exact (ha.same hip).2.2.elim Or.inr fun h => Or.inl h.1
  · rw [h] at hleads
    cases hleads with
    | connection _ _ _ hsrc _ => exact Or.inr hsrc
    | source _ _ _ _ hsrc _ _ => exact Or.inr hsrc

theorem Taken.leadsTo {c : ServerClient} (h : Taken s r src fd j false c) : LeadsTo s r src fd j := by
  cases h with
  | own hchoice _ _ => exact Or.inl hchoice
  | source hchoice _ _ => exact Or.inr hchoice

theorem LeadsTo.eq (h : LeadsTo s r src fd j) {i : Fin n} (hi : LeadsTo s r src fd i) : i = j := by
  rcases h with h | h <;> rcases hi with hi | hi <;> rw [h] at hi <;> cases hi <;> rfl

end

theorem Taken.active {s : Server n} {r : Register} {src : SockAddr} {fd : ℤ} {j : Fin n}
    {fresh : Bool} {c : ServerClient} (h : Taken s r src fd j fresh c) : c.active = true := by
  cases fresh with
  | true => rw [h.eq_fresh]; rfl
  | false =>
    rw [h.eq]
    exact h.leadsTo.active

/-- What an INIT makes of the entry at slot `j`. -/
inductive InitFate (s : Server n) (pkt : Bytes) (src : SockAddr) (fd : ℤ) (j : Fin n)
    (o : InitOutcome n) (c' : ServerClient) : Prop
  /-- It is another client's handshake, or was refused. -/
  | alone (h : c'.core = (s.clients j).core) (ho : ∀ fresh r reply packet, o ≠ .accepted j fresh r reply packet)
  /-- The connection it is on was adopted by the entry of the handshake. -/
  | adopted (hc : c' = .wiped) (r : Register) (hr : Carries N s.conf pkt r) (i : Fin n)
      (hchoice : entryChoice s r src fd = .own i) (hne : j ≠ i) (hfd : 0 ≤ fd)
      (htcp : (s.clients i).tcpFd ≠ fd) (hactive : (s.clients j).active = true)
      (hj : (s.clients j).tcpFd = fd) (ho : ∀ fresh r reply packet, o ≠ .accepted j fresh r reply packet)
  /-- The slot was taken for a handshake that failed. -/
  | unused (hc : c' = .wiped) (r : Register) (hr : Carries N s.conf pkt r)
      (hchoice : entryChoice s r src fd = .fresh)
      (hslot : (s.clients j).active = false ∨ ∀ k, (s.clients k).active = true)
      (ho : o = .failed j true)
  | restored (r : Register) (hr : Carries N s.conf pkt r) (hpass : Passes s r)
      {before : ServerClient} (ht : Taken s r src fd j false before)
      (h : Restored r src fd s.now before c') (ho : o = .failed j false)
  | accepted (r : Register) (hr : Carries N s.conf pkt r) (hpass : Passes s r) {fresh : Bool}
      {before : ServerClient} (ht : Taken s r src fd j fresh before) (m : Message2)
      (h : Accepted r src fd s.now pkt m before c') (reply : CStr)
      (ho : o = .accepted j fresh r reply m.packet)

variable {N} {s s₁ : Server n} {r : Register} {src : SockAddr} {fd : ℤ} {grow : Grow} {e : Entry n}

theorem serverEntryFor_taken (hrec : Recounted s s₁) (he : serverEntryFor s₁ r src fd grow = some e) :
    Taken s r src fd e.slot e.fresh (e.server.clients e.slot) := by
  cases serverEntryFor_slot he with
  | own hchoice hfresh _ hentry =>
    rw [hfresh]
    exact .own (hrec.entryChoice ▸ hchoice) (hrec.core _) hentry
  | source hchoice hfresh _ hentry =>
    rw [hfresh]
    exact .source (hrec.entryChoice ▸ hchoice) (hrec.core _) hentry
  | free hchoice hfresh _ hentry hslot =>
    rw [hfresh]
    exact .fresh (hrec.entryChoice ▸ hchoice) (Or.inl (hrec.active _ ▸ hslot)) hentry
  | evicted hchoice hfresh _ hentry hfull =>
    rw [hfresh]
    exact .fresh (hrec.entryChoice ▸ hchoice) (Or.inr fun k => hrec.active k ▸ hfull k) hentry

theorem initFate_other {pkt : Bytes} {o : InitOutcome n} (hrec : Recounted s s₁)
    (hr : Carries N s.conf pkt r) (he : serverEntryFor s₁ r src fd grow = some e) {j : Fin n}
    (hj : j ≠ e.slot) (ho : ∀ fresh r reply packet, o ≠ .accepted j fresh r reply packet) :
    InitFate N s pkt src fd j o (e.server.clients j) := by
  rcases serverEntryFor_other he hj with h | ⟨h, hchoice, hfd, htcp, hactive, hjfd⟩
  · exact .alone (by rw [h]; exact hrec.core j) ho
  · exact .adopted h r hr e.slot (hrec.entryChoice ▸ hchoice) hj hfd
      (hrec.tcpFd e.slot ▸ htcp) (hrec.active j ▸ hactive) (hrec.tcpFd j ▸ hjfd) ho

/-- **An INIT, entry by entry.** -/
theorem InitRun.fate {env : PacketEnv} {pkt : Bytes} {s' : Server n} {o : InitOutcome n}
    (hrun : InitRun N s env pkt src fd s' o) (j : Fin n) :
    InitFate N s pkt src fd j o (s'.clients j) := by
  cases hrun with
  | refused _ hrec => exact .alone (hrec.core j) (by simp)
  | failed s₁ r e pool c₀ c reply saved hrec hr hpass he hconf hc =>
    have hnow : e.server.now = s.now := (serverEntryFor_frame he).now.trans hrec.now
    by_cases hj : j = e.slot
    · subst hj
      have ht := serverEntryFor_taken hrec he
      rcases initFail_entry hconf hr.idShort hc with ⟨hfresh, h⟩ | ⟨hfresh, h⟩
      · rw [hfresh] at ht ⊢
        cases ht with
        | fresh hchoice hslot _ => exact .unused h r hr hchoice hslot rfl
      · rw [hfresh] at ht ⊢
        rw [hnow] at h
        exact .restored r hr (hrec.passes hpass) ht h rfl
    · rw [initFail_other _ hj]
      exact initFate_other hrec hr he hj (by simp)
  | accepted s₁ r e pool c reply m hrec hr hpass he hconf =>
    have hnow : e.server.now = s.now := (serverEntryFor_frame he).now.trans hrec.now
    by_cases hj : j = e.slot
    · subst hj
      have h := initDone_entry pkt m hconf hr.idShort
      rw [hnow] at h ⊢
      exact .accepted r hr (hrec.passes hpass) (serverEntryFor_taken hrec he) m h reply rfl
    · rw [initDone_other hj]
      refine initFate_other hrec hr he hj fun fresh r' reply' packet h => ?_
      rw [InitOutcome.accepted.injEq] at h
      exact hj h.1.symm

theorem serverHandleInit_fate (s : Server n) (env : PacketEnv) (pkt : Bytes) (src : SockAddr) (fd : ℤ)
    (j : Fin n) :
    InitFate N s pkt src fd j (serverHandleInit N s env pkt src fd).2
      ((serverHandleInit N s env pkt src fd).1.clients j) :=
  (serverHandleInit_cases N s env pkt src fd).fate j

/-! ## Invariants of the entries -/

/-- **The rule for invariants of every entry by itself**: what slots without a client have, what an
event other than a handshake keeps, and what both ends of a handshake keep. -/
theorem entry_invariant {C : Server n → Register → SockAddr → ℤ → Prop} {P : ServerClient → Prop}
    (hvacant : ∀ c, Vacant c → P c) (hretained : ∀ c c', P c → Retained c c' → P c')
    (hpromoted : ∀ c c', P c → Promoted c c' → P c')
    (hrestored : ∀ (s : Server n) pkt r src fd j before c, P (s.clients j) → C s r src fd →
      Carries N s.conf pkt r → Taken s r src fd j false before → Restored r src fd s.now before c → P c)
    (haccepted : ∀ (s : Server n) pkt r src fd j fresh before m c,
      (fresh = false → P (s.clients j)) → C s r src fd → Carries N s.conf pkt r →
      Taken s r src fd j fresh before → Accepted r src fd s.now pkt m before c → P c)
    {s : Server n} (h : Machine.ReachableUnder (serverMachine N n) (OnInit N C) s) (i : Fin n) :
    P (s.clients i) := by
  have hchanged : ∀ c c', P c → Changed c c' → P c' := by
    intro c c' hc h
    cases h with
    | retained h => exact hretained c c' hc h
    | promoted h => exact hpromoted c c' hc h
    | vacated h => exact hvacant c' h
  refine serverMachine_invariant N (I := fun s => ∀ i, P (s.clients i)) ?_ ?_ ?_ ?_ h i
  · rintro s ⟨cfg, db, ctx, mem, ks, now, leases, -, rfl⟩ i
    exact hvacant _ vacant_wiped
  · exact fun s s' hs hq i => hchanged _ _ (hs i) (hq.entry i)
  · intro s file mem grow _ hs i
    rcases serverReload_cases (N := N) s file mem grow with h | ⟨db, conf, -, -, hclients, -⟩
    · rw [h]
      exact hs i
    · rw [hclients]
      exact hchanged _ _ (hs i) (serverRevalidate_entry grow { s with conf := conf } i).keptOrVacated.changed
  · intro s env pkt src fd s' o _ hs hC hrun i
    cases hrun.fate i with
    | alone h _ => exact hretained _ _ (hs i) (.of_core h)
    | adopted hc _ _ _ _ _ _ _ _ _ _ => rw [hc]; exact hvacant _ vacant_wiped
    | unused hc _ _ _ _ _ => rw [hc]; exact hvacant _ vacant_wiped
    | restored r hr _ ht h _ => exact hrestored s pkt r src fd i _ _ (hs i) (hC r hr) hr ht h
    | accepted r hr _ ht m h _ _ =>
      exact haccepted s pkt r src fd i _ _ m _ (fun _ => hs i) (hC r hr) hr ht h

/-- Sessions are those of registered entries, which have a current one. -/
structure ServerClient.Sound (c : ServerClient) : Prop where
  active : c.registered = true → c.active = true
  cur : c.registered = c.cur.valid
  next : c.registered = false → c.next.valid = false
  prev : c.registered = false → c.prev.valid = false

theorem sound_reachable {s : Server n} (h : Machine.Reachable (serverMachine N n) s) (i : Fin n) :
    (s.clients i).Sound := by
  refine entry_invariant (N := N) (C := fun _ _ _ _ => True) (P := ServerClient.Sound) ?_ ?_ ?_ ?_ ?_
    (h.weaken fun _ _ _ _ _ _ _ _ => trivial) i
  · intro c h
    exact ⟨fun hr => (by rw [h.registered] at hr; cases hr), by rw [h.registered, h.cur]; rfl,
      fun _ => by rw [h.next]; rfl, fun _ => by rw [h.prev]; rfl⟩
  · intro c c' hc h
    refine ⟨fun hr => h.active ▸ hc.active (h.registered ▸ hr), ?_, fun hr => ?_, fun hr => ?_⟩
    · rw [h.registered, hc.cur, h.cur.valid]
    · rcases h.next with hn | hn
      · rw [hn.valid]
        exact hc.next (h.registered ▸ hr)
      · rw [hn]
        rfl
    · rcases h.prev with ⟨hp, -⟩ | ⟨hp, -⟩
      · rw [hp.valid]
        exact hc.prev (h.registered ▸ hr)
      · rw [hp]
        rfl
  · intro c c' hc h
    have hreg : c.registered = true := by
      by_contra hno
      have := h.confirmed
      rw [hc.next (by simpa using hno)] at this
      cases this
    refine ⟨fun hr => h.active ▸ hc.active hreg, ?_, fun hr => ?_, fun hr => ?_⟩
    · rw [h.registered, hreg, h.cur.valid, h.confirmed]
    · rw [h.next]
      rfl
    · rw [h.registered, hreg] at hr
      cases hr
  · intro s pkt r src fd j before c hj _ _ ht h
    have hreg : c.registered = (s.clients j).registered := by rw [h.eq, ht.eq]
    have hnext : c.next = (s.clients j).next := by rw [h.eq, ht.eq]
    have hprev : c.prev = (s.clients j).prev := by rw [h.eq, ht.eq]
    have hcur : before.cur = (s.clients j).cur := by rw [ht.eq]
    refine ⟨fun _ => ?_, ?_, fun hr => hnext ▸ hj.next (hreg ▸ hr), fun hr => hprev ▸ hj.prev (hreg ▸ hr)⟩
    · rw [h.eq]
      exact ht.active
    · rw [hreg, hj.cur, ← hcur]
      rcases h.cur with hc | ⟨hno, hc⟩
      · rw [hc]
      · rw [hno, hc]
        rfl
  · intro s pkt r src fd j fresh before m c _ _ _ ht h
    have hreg : c.registered = true := by rw [h.eq]
    refine ⟨fun _ => ?_, ?_, fun hr => ?_, fun hr => ?_⟩
    · rw [h.eq]
      exact ht.active
    · rw [hreg, h.eq]
      dsimp only
      split <;> simp_all
    · rw [hreg] at hr
      cases hr
    · rw [hreg] at hr
      cases hr

theorem Handling.sound {s : Server n} (h : Handling N s) (i : Fin n) : (s.clients i).Sound := by
  obtain ⟨s₀, hreach, hread⟩ := h
  have := sound_reachable hreach i
  rw [hread.entry i]
  exact ⟨this.active, this.cur, this.next, this.prev⟩

end Camex
