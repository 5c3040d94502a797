import Camex.Safety.KeyBinding

/-!
# Clients behind a reload

* `Conforms`: an entry within the rules of a configuration: its ID has a section where only such IDs are served, and
  its addresses belong to no other section;
* `ReloadLeaves`: what a reload makes of an entry; `entries_revalidated`: the three revalidations make that of every entry.
-/

namespace Camex

open Lib

variable {n : ℕ}

/-- The section of another client ID owns the address. -/
def OwnedByOther (db : ServerDb) (clientId : CStr) (ip : Ip) : Prop :=
  ∃ owner, profileOwnerOfIp db ip = some owner ∧ strcaseeq owner clientId = false

/-- An entry within the rules. A manual client without an ID keeps a current address that a section owns. -/
structure Conforms (conf : Conf) (c : ServerClient) : Prop where
  known : conf.db.globals.denyUnknownClients = true → c.active = true → c.autoClient = true →
    (configDbFindClient conf.db c.clientId).isSome = true
  pending : c.active = true → c.registered = true → c.pendingIpBe ≠ 0 →
    ¬ OwnedByOther conf.db c.clientId c.pendingIpBe
  current : c.active = true → c.registered = true → OwnedByOther conf.db c.clientId c.ipBe →
    c.autoClient = false ∧ c.clientId = []

/-- What a reload makes of an entry: one within the rules; with an offer its session goes too; an entry that
was within them, and whose key is still allowed, stays as it is. -/
structure ReloadLeaves (conf : Conf) (c c' : ServerClient) : Prop where
  conforms : Conforms conf c'
  withdrawn : c.pendingIpBe ≠ 0 → c'.pendingIpBe = 0 → c'.next = .wiped
  untouched : Conforms conf c →
    (c.active = true → c.registered = true → KeyAllowed conf.ks c.pskKey c.clientId) → c' = c

theorem profileOfOther_iff {db : ServerDb} {ip : Ip} {clientId : CStr} :
    profileOfOther db ip clientId = true ↔ OwnedByOther db clientId ip := by
  unfold profileOfOther OwnedByOther
  simp [Option.any_eq_true]

theorem Conforms.of_inactive {conf : Conf} {c : ServerClient} (h : c.active = false) : Conforms conf c where
  known _ ha := absurd ha (by simp [h])
  pending ha := absurd ha (by simp [h])
  current ha := absurd ha (by simp [h])

section Addresses

/-- The last revalidation, entry by entry. -/
inductive Readdressed (db : ServerDb) (c : ServerClient) : ServerClient → Prop
  | skipped (h : c.active = true → c.registered = false) : Readdressed db c c
  | kept (hactive : c.active = true) (hreg : c.registered = true)
      (h : OwnedByOther db c.clientId c.ipBe → c.autoClient = false ∧ c.clientId = []) :
      Readdressed db c (withdrawOffer db c)
  | ended (howned : OwnedByOther db c.clientId c.ipBe) (hnot : ¬ (c.autoClient = false ∧ c.clientId = []))
      (hactive : c.active = true) (hreg : c.registered = true) : Readdressed db c .wiped

theorem serverRevalidateProfileAddresses_readdressed (s : Server n) (i : Fin n) :
    Readdressed s.conf.db (s.clients i) ((serverRevalidateProfileAddresses s).clients i) := by
  refine forSlots_entry revalidateAddress_slotWise (R := Readdressed s.conf.db) i fun t hconf _ hi => ?_
  unfold revalidateAddress
  dsimp only
  rw [hi, hconf]
  by_cases hskip : (!(s.clients i).active || !(s.clients i).registered) = true
  · rw [if_pos hskip, hi]
    refine .skipped fun hactive => ?_
    simpa [hactive] using hskip
  · have hreg : (s.clients i).active = true ∧ (s.clients i).registered = true := by simpa using hskip
    rw [if_neg hskip, Server.setClient_conf, hconf]
    by_cases hkeep : (!profileOfOther s.conf.db (s.clients i).ipBe (s.clients i).clientId ||
        (!(s.clients i).autoClient && (s.clients i).clientId == [])) = true
    · rw [if_pos hkeep, Server.setClient_self]
      refine .kept hreg.1 hreg.2 fun howned => ?_
      rw [profileOfOther_iff.mpr howned] at hkeep
      simpa using hkeep
    · rw [if_neg hkeep, serverDropEntry_self]
      rw [Bool.or_eq_true, not_or] at hkeep
      refine .ended (profileOfOther_iff.mp ?_) (fun hmanual => hkeep.2 ?_) hreg.1 hreg.2
      · simpa using hkeep.1
      · simp [hmanual.1, hmanual.2]

variable {db : ServerDb} {c : ServerClient}

theorem withdrawOffer_of_owned (h0 : c.pendingIpBe ≠ 0) (howned : OwnedByOther db c.clientId c.pendingIpBe) :
    withdrawOffer db c = { c with pendingIpBe := 0, next := .wiped } := by
  unfold withdrawOffer
  rw [if_pos ⟨h0, profileOfOther_iff.mpr howned⟩]

theorem withdrawOffer_of_not (h : c.pendingIpBe ≠ 0 → ¬ OwnedByOther db c.clientId c.pendingIpBe) :
    withdrawOffer db c = c := by
  unfold withdrawOffer
  exact if_neg fun hif => h hif.1 (profileOfOther_iff.mp hif.2)

/-- An entry that the first two revalidations left, behind the last one. -/
theorem Readdressed.conforms {conf : Conf} {c' : ServerClient} (h : Readdressed conf.db c c')
    (hknown : conf.db.globals.denyUnknownClients = true → c.active = true → c.autoClient = true →
      (configDbFindClient conf.db c.clientId).isSome = true) : Conforms conf c' := by
  cases h with
  | skipped h =>
    refine ⟨hknown, fun ha hr => ?_, fun ha hr => ?_⟩
    · rw [h ha] at hr
      cases hr
    · rw [h ha] at hr
      cases hr
  | ended _ _ _ _ => exact .of_inactive rfl
  | kept _ _ h =>
    by_cases hwithdrawn : c.pendingIpBe ≠ 0 ∧ OwnedByOther conf.db c.clientId c.pendingIpBe
    · rw [withdrawOffer_of_owned hwithdrawn.1 hwithdrawn.2]
      exact ⟨hknown, fun _ _ h0 => absurd rfl h0, fun _ _ howned => h howned⟩
    · have hnot := fun h0 howned => hwithdrawn ⟨h0, howned⟩
      rw [withdrawOffer_of_not hnot]
      exact ⟨hknown, fun _ _ h0 => hnot h0, fun _ _ howned => h howned⟩

theorem Readdressed.withdrawn {c' : ServerClient} (h : Readdressed db c c') (h0 : c.pendingIpBe ≠ 0)
    (hgone : c'.pendingIpBe = 0) : c'.next = .wiped := by
  cases h with
  | skipped _ => exact absurd hgone h0
  | ended _ _ _ _ => rfl
  | kept _ _ _ =>
    by_cases howned : OwnedByOther db c.clientId c.pendingIpBe
    · rw [withdrawOffer_of_owned h0 howned]
    · rw [withdrawOffer_of_not fun _ => howned] at hgone
      exact absurd hgone h0

theorem Readdressed.untouched {conf : Conf} {c' : ServerClient} (h : Readdressed conf.db c c')
    (hconforms : Conforms conf c) : c' = c := by
  cases h with
  | skipped _ => rfl
  | ended howned hnot hactive hreg => exact absurd (hconforms.current hactive hreg howned) hnot
  | kept hactive hreg _ => exact withdrawOffer_of_not (hconforms.pending hactive hreg)

end Addresses

/-! ## The three revalidations -/

theorem ReloadLeaves.ended (conf : Conf) {c : ServerClient}
    (h : ¬ (Conforms conf c ∧
      (c.active = true → c.registered = true → KeyAllowed conf.ks c.pskKey c.clientId))) :
    ReloadLeaves conf c .wiped where
  conforms := .of_inactive rfl
  withdrawn _ _ := rfl
  untouched hconforms hkey := absurd ⟨hconforms, hkey⟩ h

/-- **A reload leaves only consistent clients** and disturbs no other one. -/
theorem entries_revalidated (s : Server n) (conf : Conf) (grow : Fin n → Grow) (i : Fin n) :
    ReloadLeaves conf (s.clients i) ((serverRevalidate grow { s with conf := conf }).clients i) := by
  unfold serverRevalidate
  generalize hs : ({ s with conf := conf } : Server n) = s₀
  have hconf : s₀.conf = conf := by rw [← hs]
  have hclients : s₀.clients i = s.clients i := by rw [← hs]
  have hkeys := serverRevalidateKeys_entry grow s₀ i
  have hkeysConf := serverRevalidateKeys_conf grow s₀
  generalize serverRevalidateKeys grow s₀ = s₁ at hkeys hkeysConf ⊢
  have hunknown := serverRevalidateUnknownClients_entry grow s₁ i
  have hunknownConf := serverRevalidateUnknownClients_conf grow s₁
  generalize serverRevalidateUnknownClients grow s₁ = s₂ at hunknown hunknownConf ⊢
  have haddress := serverRevalidateProfileAddresses_readdressed s₂ i
  rw [hunknownConf, hkeysConf, hconf] at haddress
  rw [hkeysConf, hconf] at hunknown
  rw [hconf, hclients] at hkeys
  generalize (serverRevalidateProfileAddresses s₂).clients i = c' at haddress ⊢
  generalize s₁.clients i = c₁ at hkeys hunknown
  generalize s₂.clients i = c₂ at hunknown haddress
  cases hkeys with
  | ended hnot _ =>
    have hgone : c₂ = .wiped := by
      cases hunknown with
      | kept _ => rfl
      | ended _ _ => rfl
    rw [hgone] at haddress
    rw [haddress.untouched (.of_inactive rfl)]
    refine .ended conf fun ⟨_, hkey⟩ => hnot fun hactive hreg => ?_
    exact (keyStillAllowed_iff _).mpr (hkey hactive hreg)
  | kept _ =>
    cases hunknown with
    | ended hnot _ =>
      rw [haddress.untouched (.of_inactive rfl)]
      exact .ended conf fun ⟨hconforms, _⟩ => hnot hconforms.known
    | kept hknown =>
      exact ⟨haddress.conforms hknown, haddress.withdrawn, fun hconforms _ => haddress.untouched hconforms⟩

end Camex
