import Camex.Concrete

/-!
# One address, one client

An entry holds its current address, a pending one, and its previous one while that session receives
(`Holds`). `AddressesUnique`: no two entries hold one address.

* A step that takes addresses away keeps it (`AddressesUnique.mono`), and an entry may take an address
  that no other one holds (`Fits`).
* `AddressUndisputed`: the handshakes under which it is an invariant (`addressesUnique_reachable`).
-/

namespace Camex

open Lib

variable {n : ℕ} {Hs : Type} {N : Noise Hs}

def Holds (c : ServerClient) (ip : Ip) : Prop :=
  c.active = true ∧ ip ≠ 0 ∧ (c.ipBe = ip ∨ c.pendingIpBe = ip ∨ c.prev.valid = true ∧ c.prevIpBe = ip)

def AddressesUnique (t : Table n) : Prop := ∀ ip i j, Holds (t i) ip → Holds (t j) ip → i = j

theorem matchIp_iff {c : ServerClient} {ip : Ip} : matchIp c ip = true ↔ Holds c ip := by
  simp only [matchIp, Holds, Bool.and_eq_true, Bool.or_eq_true, bne_iff_ne, beq_iff_eq]
  tauto

/-! ## Holding less -/

theorem AddressesUnique.mono {t t' : Table n} (h : AddressesUnique t)
    (hsub : ∀ j ip, Holds (t' j) ip → Holds (t j) ip) : AddressesUnique t' :=
  fun ip i j hi hj => h ip i j (hsub i ip hi) (hsub j ip hj)

theorem Vacant.not_holds {c : ServerClient} (h : Vacant c) (ip : Ip) : ¬ Holds c ip := by
  rintro ⟨-, hip, h' | h' | ⟨-, h'⟩⟩
  · exact hip (h'.symm.trans h.ipBe)
  · exact hip (h'.symm.trans h.pending)
  · exact hip (h'.symm.trans h.prevIpBe)

theorem Retained.holds {c c' : ServerClient} (h : Retained c c') {ip : Ip} (hc : Holds c' ip) :
    Holds c ip := by
  obtain ⟨ha, hip, h' | h' | ⟨hv, h'⟩⟩ := hc
  · exact ⟨h.active ▸ ha, hip, Or.inl (h.ipBe ▸ h')⟩
  · rcases h.pending with hp | hp
    · exact ⟨h.active ▸ ha, hip, Or.inr (Or.inl (hp ▸ h'))⟩
    · exact absurd (h'.symm.trans hp) hip
  · rcases h.prev with ⟨hs, hp⟩ | ⟨-, hp⟩
    · exact ⟨h.active ▸ ha, hip, Or.inr (Or.inr ⟨hs.valid ▸ hv, hp ▸ h'⟩)⟩
    · exact absurd (h'.symm.trans hp) hip

/-- A promotion moves the addresses an entry holds, it adds none. -/
theorem Promoted.holds {c c' : ServerClient} (h : Promoted c c') {ip : Ip} (hc : Holds c' ip) :
    Holds c ip := by
  obtain ⟨ha, hip, h' | h' | ⟨-, h'⟩⟩ := hc
  · rw [h.ipBe] at h'
    split at h'
    · exact ⟨h.active ▸ ha, hip, Or.inr (Or.inl h')⟩
    · exact ⟨h.active ▸ ha, hip, Or.inl h'⟩
  · exact absurd (h'.symm.trans h.pending) hip
  · exact ⟨h.active ▸ ha, hip, Or.inl (h.prevIpBe ▸ h')⟩

theorem Changed.holds {c c' : ServerClient} (h : Changed c c') {ip : Ip} (hc : Holds c' ip) :
    Holds c ip := by
  cases h with
  | retained h => exact h.holds hc
  | promoted h => exact h.holds hc
  | vacated h => exact absurd hc (h.not_holds ip)

theorem Quiet.addressesUnique {s s' : Server n} (hq : Quiet s s') (h : AddressesUnique s.clients) :
    AddressesUnique s'.clients :=
  h.mono fun j _ hj => (hq.entry j).holds hj

theorem Recounted.addressesUnique {s s' : Server n} (hrec : Recounted s s')
    (h : AddressesUnique s.clients) : AddressesUnique s'.clients :=
  h.mono fun j _ hj => (Retained.of_core (hrec.core j)).holds hj

/-! ## Taking an address -/

/-- No entry but slot `i`'s holds an address that `c` holds. -/
def Fits (t : Table n) (i : Fin n) (c : ServerClient) : Prop :=
  ∀ ip, Holds c ip → ∀ j, j ≠ i → ¬ Holds (t j) ip

theorem AddressesUnique.fits {t : Table n} (h : AddressesUnique t) (i : Fin n) : Fits t i (t i) :=
  fun ip hi j hj hj' => hj (h ip j i hj' hi)

theorem AddressesUnique.update {t : Table n} (h : AddressesUnique t) {i : Fin n} {c : ServerClient}
    (hc : Fits t i c) : AddressesUnique (Function.update t i c) := by
  intro ip a b ha hb
  by_cases hai : a = i <;> by_cases hbi : b = i
  · rw [hai, hbi]
  · subst hai
    rw [Function.update_self] at ha
    rw [Function.update_of_ne hbi] at hb
    exact absurd hb (hc ip ha b hbi)
  · subst hbi
    rw [Function.update_self] at hb
    rw [Function.update_of_ne hai] at ha
    exact absurd ha (hc ip hb a hai)
  · rw [Function.update_of_ne hai] at ha
    rw [Function.update_of_ne hbi] at hb
    exact h ip a b ha hb

theorem Fits.mono {t : Table n} {i : Fin n} {c c' : ServerClient} (h : Fits t i c)
    (hsub : ∀ ip, Holds c' ip → Holds c ip) : Fits t i c' :=
  fun ip hip => h ip (hsub ip hip)

theorem holds_setIp {c : ServerClient} {ip ip' : Ip} (h : Holds (serverSetIp c ip) ip') :
    Holds c ip' ∨ ip' = ip := by
  obtain ⟨ha, hip, h' | h' | h'⟩ := h
  · exact Or.inr h'.symm
  · exact Or.inl ⟨ha, hip, Or.inr (Or.inl h')⟩
  · exact Or.inl ⟨ha, hip, Or.inr (Or.inr h')⟩

theorem holds_assignIp {c : ServerClient} {ip ip' : Ip} (h : Holds (serverAssignIp c ip) ip') :
    Holds c ip' ∨ ip' = ip := by
  unfold serverAssignIp at h
  split at h
  · obtain ⟨ha, hip, h' | h' | h'⟩ := h
    · exact Or.inl ⟨ha, hip, Or.inl h'⟩
    · exact Or.inr h'.symm
    · exact Or.inl ⟨ha, hip, Or.inr (Or.inr h')⟩
  · obtain ⟨ha, hip, h' | h' | h'⟩ := h
    · exact Or.inr h'.symm
    · exact absurd h'.symm hip
    · exact Or.inl ⟨ha, hip, Or.inr (Or.inr h')⟩

theorem Fits.setIp {t : Table n} {i : Fin n} {c : ServerClient} (h : Fits t i c) {ip : Ip}
    (hfree : ∀ j, j ≠ i → ¬ Holds (t j) ip) : Fits t i (serverSetIp c ip) := by
  intro ip' hip' j hj
  rcases holds_setIp hip' with h' | rfl
  · exact h ip' h' j hj
  · exact hfree j hj

theorem Fits.assignIp {t : Table n} {i : Fin n} {c : ServerClient} (h : Fits t i c) {ip : Ip}
    (hfree : ∀ j, j ≠ i → ¬ Holds (t j) ip) : Fits t i (serverAssignIp c ip) := by
  intro ip' hip' j hj
  rcases holds_assignIp hip' with h' | rfl
  · exact h ip' h' j hj
  · exact hfree j hj

theorem not_holds_of_findByIp_none {t : Table n} {ip : Ip} (h : serverFindByIp t ip = none)
    (j : Fin n) : ¬ Holds (t j) ip := by
  rw [← matchIp_iff, serverFindByIp_none h j]
  exact Bool.false_ne_true

theorem Fits.free {s : Server n} {i : Fin n} {c : ServerClient} (h : Fits s.clients i c) {ip : Ip}
    (hfree : ipFreeFor (s.setClient i c) i ip = true) (j : Fin n) (hj : j ≠ i) :
    ¬ Holds (s.clients j) ip := by
  unfold ipFreeFor at hfree
  split at hfree
  · rename_i hnone
    have := not_holds_of_findByIp_none hnone j
    rwa [Server.setClient_of_ne _ _ _ hj] at this
  · rename_i k hk
    rw [beq_iff_eq] at hfree
    subst hfree
    have := serverFindByIp_some hk
    rw [Server.setClient_self, matchIp_iff] at this
    exact h ip this j hj

/-! ## Handshakes -/

/-- A manual handshake that may have its address asks for one that nobody holds, or there is no
registered client but the holder at its source. -/
def ManualUndisputed (s : Server n) (r : Register) (src : SockAddr) : Prop :=
  r.auto = false → ∀ ip ∈ inetPton r.localIp, ∀ h ∈ serverFindByIp s.clients ip,
    holderRefuses s.clients r ip (serverFindByAddr s.clients src) h = false →
    leasedToOther s r.clientId ip = false →
    ∀ b ∈ serverFindByAddr s.clients src, b = h ∨ (s.clients b).preauth = true

/-- An auto handshake gets a profile address that nobody with its ID holds but the entry its ID
finds. -/
def AutoUndisputed (s : Server n) (r : Register) : Prop :=
  r.auto = true → ∀ ip ∈ profileAddress s.conf.db r.clientId, ∀ h ∈ serverFindByIp s.clients ip,
    strcaseeq (s.clients h).clientId r.clientId = true →
    serverFindByClientId s.clients r.clientId = some h

/-- The handshakes that leave every address with one client. -/
def AddressUndisputed (s : Server n) (r : Register) (src : SockAddr) (_fd : ℤ) : Prop :=
  ManualUndisputed s r src ∧ AutoUndisputed s r

instance (s : Server n) (r : Register) (src : SockAddr) : Decidable (ManualUndisputed s r src) := by
  unfold ManualUndisputed
  exact @instDecidableForall _ _ _ (@Option.decidableForallMem _ _ (fun _ => inferInstance) _)

instance (s : Server n) (r : Register) : Decidable (AutoUndisputed s r) := by
  unfold AutoUndisputed
  exact @instDecidableForall _ _ _ (@Option.decidableForallMem _ _ (fun _ => inferInstance) _)

instance (s : Server n) (r : Register) (src : SockAddr) (fd : ℤ) :
    Decidable (AddressUndisputed s r src fd) := inferInstanceAs (Decidable (_ ∧ _))

section Handshake

variable {s s₁ : Server n} {r : Register} {src : SockAddr} {fd : ℤ} {grow : Grow} {e : Entry n}

theorem AddressUndisputed.recounted (hrec : Recounted s s₁) (h : AddressUndisputed s r src fd) :
    AddressUndisputed s₁ r src fd := by
  rw [hrec.eq]
  have := hrec.lookup (fun t => AddressUndisputed { s with clients := t, budget := s₁.budget } r src fd)
    fun _ => rfl
  rw [this]
  exact h

/-- Nobody else holds the address a manual handshake asks for. -/
theorem Admitted.free {ip : Ip} (hu : AddressUndisputed s r src fd) (hauto : r.auto = false)
    (ha : Admitted s r src ip)
    (hip : ∀ h, serverFindByIp s.clients ip = some h →
      ∃ b, serverFindByAddr s.clients src = some b ∧ b ≠ h ∧ (s.clients b).preauth = false)
    (j : Fin n) : ¬ Holds (s.clients j) ip := by
  refine not_holds_of_findByIp_none ?_ j
  by_contra hsome
  obtain ⟨h, hh⟩ := Option.ne_none_iff_exists'.mp hsome
  obtain ⟨b, hb, hne, hpre⟩ := hip h hh
  rcases hu.1 hauto ip ha.pton h hh (ha.holder h hh) ha.lease b hb with hbh | hbpre
  · exact hne hbh
  · rw [hpre] at hbpre
    cases hbpre

theorem Resumed.holds {c c' : ServerClient} (h : Resumed fd c c') {ip : Ip} (hc : Holds c' ip) :
    Holds c ip := by
  rw [h.eq] at hc
  exact hc

theorem serverEntryFor_holds_other (he : serverEntryFor s r src fd grow = some e) {j : Fin n}
    (hj : j ≠ e.slot) {ip : Ip} (h : Holds (e.server.clients j) ip) : Holds (s.clients j) ip := by
  rcases serverEntryFor_other he hj with heq | ⟨heq, -⟩
  · rwa [heq] at h
  · rw [heq] at h
    exact absurd h (vacant_wiped.not_holds ip)

/-- **`server_entry_for` gives no address to two clients.** -/
theorem serverEntryFor_addressesUnique (hu : AddressUndisputed s r src fd)
    (h : AddressesUnique s.clients) (he : serverEntryFor s r src fd grow = some e) :
    AddressesUnique e.server.clients := by
  have hsub : ∀ j, j ≠ e.slot → ∀ ip, Holds (e.server.clients j) ip → Holds (s.clients j) ip :=
    fun j hj ip => serverEntryFor_holds_other he hj
  -- what the slot holds is what it held, or an address nobody held
  have hslot : ∀ ip, Holds (e.server.clients e.slot) ip →
      Holds (s.clients e.slot) ip ∨ ∀ j, ¬ Holds (s.clients j) ip := by
    intro ip hip
    have hleads := entryChoice_leads s r src fd
    have hmanual : ∀ c, e.server.clients e.slot = withManualIp c r →
        (∀ ip, Holds c ip → Holds (s.clients e.slot) ip) →
        (r.auto = false → ∀ ip', inetPton r.localIp = some ip' → ∀ j, ¬ Holds (s.clients j) ip') →
        Holds (s.clients e.slot) ip ∨ ∀ j, ¬ Holds (s.clients j) ip := by
      intro c hc hsubc hfree
      rw [hc] at hip
      cases hauto : r.auto with
      | true =>
        rw [withManualIp_auto c hauto] at hip
        exact Or.inl (hsubc ip hip)
      | false =>
        cases hpton : inetPton r.localIp with
        | none =>
          rw [show withManualIp c r = c by simp [withManualIp, manualIp, hpton]] at hip
          exact Or.inl (hsubc ip hip)
        | some ip' =>
          rw [withManualIp_manual c hauto hpton] at hip
          rcases holds_setIp hip with h' | rfl
          · exact Or.inl (hsubc ip h')
          · exact Or.inr (hfree hauto ip hpton)
    have htaken : ∀ ip, Holds ServerClient.taken ip → Holds (s.clients e.slot) ip :=
      fun ip h' => absurd h' (vacant_taken.not_holds ip)
    have hfresh : entryChoice s r src fd = .fresh → r.auto = false →
        ∀ ip', inetPton r.localIp = some ip' → ∀ j, ¬ Holds (s.clients j) ip' := by
      intro hchoice hauto ip' hpton
      rw [hchoice] at hleads
      cases hleads with
      | newId ha _ => rw [hauto] at ha; cases ha
      | newAddress ip'' _ ha hfind =>
        rw [ha.pton] at hpton
        cases hpton
        exact ha.free hu hauto hfind
    cases serverEntryFor_slot he with
    | own _ _ _ hentry => exact Or.inl (hentry.holds hip)
    | source hchoice _ _ hentry =>
      refine hmanual _ hentry (fun _ h' => h') fun hauto ip' hpton => ?_
      rw [hchoice] at hleads
      cases hleads with
      | connection _ ha _ _ _ => rw [hauto] at ha; cases ha
      | source _ ip'' _ ha hsrc _ hfind =>
        rw [ha.pton] at hpton
        cases hpton
        exact ha.free hu hauto fun h hh => ⟨e.slot, hsrc, (hfind h hh).1, (hfind h hh).2⟩
    | free hchoice _ _ hentry _ => exact hmanual _ hentry htaken (hfresh hchoice)
    | evicted hchoice _ _ hentry _ => exact hmanual _ hentry htaken (hfresh hchoice)
  intro ip a b ha hb
  by_cases hai : a = e.slot <;> by_cases hbi : b = e.slot
  · rw [hai, hbi]
  · subst hai
    rcases hslot ip ha with h' | h'
    · exact h ip _ b h' (hsub b hbi ip hb)
    · exact absurd (hsub b hbi ip hb) (h' b)
  · subst hbi
    rcases hslot ip hb with h' | h'
    · exact h ip a _ (hsub a hai ip ha) h'
    · exact absurd (hsub a hai ip ha) (h' a)
  · exact h ip a b (hsub a hai ip ha) (hsub b hbi ip hb)

/-- An auto client's entry is the one its ID finds. -/
theorem serverEntryFor_slot_of_id (he : serverEntryFor s r src fd grow = some e)
    (hauto : r.auto = true) {i : Fin n} (hi : serverFindByClientId s.clients r.clientId = some i) :
    e.slot = i := by
  have hleads := entryChoice_leads s r src fd
  cases serverEntryFor_slot he with
  | own hchoice _ _ _ =>
    rw [hchoice] at hleads
    cases hleads with
    | id _ _ hid => rw [hid] at hi; exact Option.some.inj hi
    | address _ _ ha _ _ _ => rw [hauto] at ha; cases ha
  | source hchoice _ _ _ =>
    rw [hchoice] at hleads
    cases hleads with
    | connection _ _ hid _ _ => rw [hid] at hi; cases hi
    | source _ _ ha _ _ _ _ => rw [hauto] at ha; cases ha
  | free hchoice _ _ _ _ =>
    rw [hchoice] at hleads
    cases hleads with
    | newId _ hid => rw [hid] at hi; cases hi
    | newAddress _ ha _ _ => rw [hauto] at ha; cases ha
  | evicted hchoice _ _ _ _ =>
    rw [hchoice] at hleads
    cases hleads with
    | newId _ hid => rw [hid] at hi; cases hi
    | newAddress _ ha _ _ => rw [hauto] at ha; cases ha

/-- Nobody else holds the profile address an auto handshake assigns. -/
theorem profileAddress_free (hu : AddressUndisputed s r src fd) (hpass : Passes s r)
    (h : AddressesUnique s.clients) (he : serverEntryFor s r src fd grow = some e)
    (hauto : r.auto = true) {ip : Ip} (hip : profileAddress s.conf.db r.clientId = some ip)
    (j : Fin n) (hj : j ≠ e.slot) : ¬ Holds (e.server.clients j) ip := by
  intro hholds
  have hholds := serverEntryFor_holds_other he hj hholds
  obtain ⟨k, hk⟩ := serverFindByIp_isSome (matchIp_iff.mpr hholds)
  have hsame : strcaseeq (s.clients k).clientId r.clientId = true := by
    have := hpass.unheld
    unfold profileHeldByOther at this
    rw [hauto, hip, Option.bind_some, hk] at this
    simpa using this
  have hslot := serverEntryFor_slot_of_id he hauto (hu.2 hauto ip hip k hk hsame)
  exact hj ((h ip j k hholds (matchIp_iff.mp (serverFindByIp_some hk))).trans hslot.symm)

/-- **The address of a handshake is held by no other client.** -/
theorem initConfigure_fits (hu : AddressUndisputed s r src fd) (hpass : Passes s r)
    (h : AddressesUnique s.clients) (he : serverEntryFor s r src fd grow = some e)
    (hid : r.clientId.length < CAMEX_CLIENT_ID_LEN) {pool : PoolCursor} {c : ServerClient}
    {reply : Option CStr} (hconf : Configured e r src fd pool c reply) :
    Fits e.server.clients e.slot c := by
  have hunique := serverEntryFor_addressesUnique hu h he
  have hrule : ConfigRule (e.server.setClient e.slot
      (initClaim (e.server.clients e.slot) r src fd e.server.now)) e.slot r
      fun c => c.clientId = r.clientId ∧ Fits e.server.clients e.slot c :=
    { clientId := fun c hc => hc.1
      manual := fun _ c hc => ⟨hc.1, hc.2.mono fun ip hip => by
        obtain ⟨ha, hne, h' | h' | h'⟩ := hip
        · exact ⟨ha, hne, Or.inl h'⟩
        · exact absurd h'.symm hne
        · exact ⟨ha, hne, Or.inr (Or.inr h')⟩⟩
      profile := fun c ip hauto hip hc => ⟨by rw [serverAssignIp_sameButIps]; exact hc.1,
        hc.2.assignIp (profileAddress_free hu hpass h he hauto
          (by rw [← (serverEntryFor_frame he).conf]; exact hip))⟩
      seed := fun c ip _ hc _ husable => ⟨hc.1, hc.2.setIp (hc.2.free
        (by simpa using (serverIpUsable_iff.mp husable).2.2.2.1))⟩
      assign := fun c ip _ hc hgive => ⟨by rw [serverAssignIp_sameButIps]; exact hc.1,
        hc.2.assignIp (hc.2.free (by simpa using ipFreeFor_of_usable hgive))⟩ }
  have := initConfigure_rule hrule (by
    rw [Server.setClient_self, initClaim_eq hid]
    exact ⟨rfl, (hunique.fits e.slot).mono fun ip hip => hip⟩)
  rw [hconf.eq] at this
  exact this.2

/-- The addresses an entry holds do not depend on the session a handshake makes. -/
theorem Accepted.holds {now : Time} {pkt : Bytes} {m : Message2} {before c c' : ServerClient}
    (h : Accepted r src fd now pkt m before c') (hc : SameButIps (initClaim before r src fd now) c)
    (hid : r.clientId.length < CAMEX_CLIENT_ID_LEN) (hip : c'.ipBe = c.ipBe)
    (hpending : c'.pendingIpBe = c.pendingIpBe) {ip : Ip} (hh : Holds c' ip) : Holds c ip := by
  rw [initClaim_eq hid] at hc
  rw [h.eq] at hh
  rw [hc]
  obtain ⟨ha, hne, h' | h' | h'⟩ := hh
  · exact ⟨ha, hne, Or.inl (hip ▸ h')⟩
  · exact ⟨ha, hne, Or.inr (Or.inl (hpending ▸ h'))⟩
  · exact ⟨ha, hne, Or.inr (Or.inr h')⟩

theorem Restored.holds {now : Time} {before c : ServerClient} (h : Restored r src fd now before c)
    {ip : Ip} (hh : Holds c ip) : Holds before ip := by
  rw [h.eq] at hh
  exact hh

/-- **A handshake gives no address to two clients.** -/
theorem InitRun.addressesUnique {env : PacketEnv} {pkt : Bytes} {s' : Server n} {o : InitOutcome n}
    (h : AddressesUnique s.clients)
    (hu : ∀ r, Carries N s.conf pkt r → AddressUndisputed s r src fd)
    (hrun : InitRun N s env pkt src fd s' o) : AddressesUnique s'.clients := by
  cases hrun with
  | refused _ hrec => exact hrec.addressesUnique h
  | failed s₁ r e pool c₀ c reply saved hrec hr hpass he hconf hc =>
    have hunique := serverEntryFor_addressesUnique ((hu r hr).recounted hrec)
      (hrec.addressesUnique h) he
    refine hunique.mono fun j ip hj => ?_
    by_cases hje : j = e.slot
    · subst hje
      rcases initFail_entry hconf hr.idShort hc with ⟨-, hw⟩ | ⟨-, hrestored⟩
      · rw [hw] at hj
        exact absurd hj (vacant_wiped.not_holds ip)
      · exact hrestored.holds hj
    · rwa [initFail_other _ hje] at hj
  | accepted s₁ r e pool c reply m hrec hr hpass he hconf =>
    have hu₁ := (hu r hr).recounted hrec
    have h₁ := hrec.addressesUnique h
    have hfits := initConfigure_fits hu₁ hpass h₁ he hr.idShort hconf
    have hdone : Fits e.server.clients e.slot
        (initDoneEntry (initSession c r pkt m e.server.now) e.server.now) :=
      hfits.mono fun ip hip => by
        have hacc := initDone_entry pkt m hconf hr.idShort
        rw [initDone_self] at hacc
        exact hacc.holds (hconf.sameButIps hr.idShort) hr.idShort (initDoneEntry_ipBe ..)
          (initDoneEntry_pendingIpBe ..) hip
    exact (serverEntryFor_addressesUnique hu₁ h₁ he).update hdone

end Handshake

/-! ## Runs -/

theorem serverReload_addressesUnique {s : Server n} (h : AddressesUnique s.clients)
    (file : Option ServerDb) (mem : KeyMemory) (grow : Fin n → Grow) :
    AddressesUnique (serverReload N s file mem grow).clients := by
  rcases serverReload_cases (N := N) s file mem grow with heq | ⟨db, conf, -, -, hclients, -⟩
  · rwa [heq]
  · rw [hclients]
    exact h.mono fun j ip hj => (serverRevalidate_entry grow { s with conf := conf } j).keptOrVacated.changed.holds hj

/-- **One address, one client**, in every state that handshakes under `AddressUndisputed` lead to. -/
theorem addressesUnique_reachable {s : Server n}
    (h : Machine.ReachableUnder (serverMachine N n) (OnInit N AddressUndisputed) s) :
    AddressesUnique s.clients := by
  refine serverMachine_invariant N (I := fun s => AddressesUnique s.clients) ?_ ?_ ?_ ?_ h
  · rintro s ⟨cfg, db, ctx, mem, ks, now, leases, -, rfl⟩ ip i j hi _
    exact absurd hi (vacant_wiped.not_holds ip)
  · exact fun s s' hs hq => hq.addressesUnique hs
  · exact fun s file mem grow _ hs => serverReload_addressesUnique hs file mem grow
  · exact fun s env pkt src fd s' o _ hs hC hrun => hrun.addressesUnique hs hC

/-- Two clients get their addresses, one of them then the second one's session. -/
def twoClients : List (Event 3) :=
  [udpInit 65 1 (toySource 1 1000) "MODE=MANUAL CLIENT_ID=a LOCAL_IP=10.0.0.5",
    udpInit 65 2 (toySource 2 1000) "MODE=MANUAL CLIENT_ID=b LOCAL_IP=10.0.0.6"]

theorem addressesUnique_twoClients : ∃ s : Server 3, AddressesUnique s.clients ∧
    (Holds (s.clients 0) 0x0a000005#32 ∧ Holds (s.clients 1) 0x0a000006#32) := by
  obtain ⟨s, hs, hp⟩ := Machine.runUnder_reachable (M := toyMachine 3)
    (C := OnInit toyNoise AddressUndisputed) (l := twoClients)
    (p := fun s => matchIp (s.clients 0) 0x0a000005#32 && matchIp (s.clients 1) 0x0a000006#32)
    (toyServer_started 3 .udp toyDb) (by decide +kernel)
  rw [Bool.and_eq_true, matchIp_iff, matchIp_iff] at hp
  exact ⟨s, addressesUnique_reachable hs, hp⟩

/-- A client that repeats its manual handshake from the source of another one gets a second entry. -/
theorem not_addressesUnique_reachable :
    ¬ ∀ s, Machine.Reachable (toyMachine 3) s → AddressesUnique s.clients := by
  intro h
  obtain ⟨s, hs, hp⟩ := Machine.runUnder_reachable (M := toyMachine 3) (C := fun _ _ => True)
    (l := twoClients ++
      [udpInit 65 3 (toySource 2 1000) "MODE=MANUAL CLIENT_ID=a LOCAL_IP=10.0.0.5"])
    (p := fun s => matchIp (s.clients 0) 0x0a000005#32 && matchIp (s.clients 2) 0x0a000005#32)
    (toyServer_started 3 .udp toyDb) (by decide +kernel)
  rw [Bool.and_eq_true, matchIp_iff, matchIp_iff] at hp
  exact absurd (h s hs _ 0 2 hp.1 hp.2) (by decide)

end Camex
