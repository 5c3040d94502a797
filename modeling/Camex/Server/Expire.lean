import Camex.Server.Data

/-!
# Expiry and revalidation (`server_expire_clients`, `server_revalidate_*`)

Each of these is a loop over the slots that treats a slot by itself. `forSlots_entry` reads off what
such a loop does to one entry, `forSlots_conf` and `forSlots_leases` what it does to the rest.
-/

namespace Camex

open Lib

variable {n : ℕ}

def CAMEX_TCP_PREAUTH_TIMEOUT : Time := 10

/-! ## Expiry -/

/-- The sessions of an entry that end in time: a previous one behind its grace, a new one that the
client did not confirm, with the address offered to it. -/
def expireSessions (c : ServerClient) (now : Time) : ServerClient :=
  let c := if c.prev.valid ∧ c.prevUntil < now then { c with prev := .wiped, prevIpBe := 0 } else c
  if c.next.valid ∧ V2_PREV_SESSION_GRACE < now - c.next.created then
    { c with next := .wiped, pendingIpBe := 0 }
  else c

/-- Was the entry silent too long? A connection before its handshake counts from the accept. -/
def expired (conf : Conf) (c : ServerClient) (now : Time) : Bool :=
  if c.preauth then decide (CAMEX_TCP_PREAUTH_TIMEOUT < now - c.connectedAt)
  else decide (serverClientTimeout conf < now - c.lastSeen)

/-- One round of the loop of `server_expire_clients`. -/
def serverExpireClient (grow : Fin n → Grow) (i : Fin n) (s : Server n) : Server n :=
  let c := s.clients i
  if !c.active then s
  else
    let s := s.setClient i (expireSessions c s.now)
    if expired s.conf c s.now then serverEndClient (grow i) i s else s

def serverExpireClients (grow : Fin n → Grow) (s : Server n) : Server n :=
  if s.now = s.lastExpireCheck then s
  else forSlots (serverExpireClient grow) { s with lastExpireCheck := s.now }

/-! ## Revalidation after a reload -/

/-- May an entry's session go on with its key? The condition of `server_revalidate_keys`. -/
def keyStillAllowed (ks : Keystore) (key : Key) (clientId : CStr) : Bool :=
  configKsContains ks key &&
    if clientId = [] then configKsIsGlobal ks key
    else configKsKeyOwnedBy ks key clientId ||
      (configKsOwner ks key == [] && !configKsHasOwner ks clientId)

def revalidateKey (grow : Fin n → Grow) (i : Fin n) (s : Server n) : Server n :=
  let c := s.clients i
  if !c.active || !c.registered || keyStillAllowed s.conf.ks c.pskKey c.clientId then s
  else serverEndClient (grow i) i s

def serverRevalidateKeys (grow : Fin n → Grow) (s : Server n) : Server n :=
  forSlots (revalidateKey grow) s

def revalidateUnknown (grow : Fin n → Grow) (i : Fin n) (s : Server n) : Server n :=
  let c := s.clients i
  if !c.active || !c.autoClient || (configDbFindClient s.conf.db c.clientId).isSome then s
  else serverEndClient (grow i) i s

def serverRevalidateUnknownClients (grow : Fin n → Grow) (s : Server n) : Server n :=
  if !s.conf.db.globals.denyUnknownClients then s else forSlots (revalidateUnknown grow) s

def profileOfOther (db : ServerDb) (ip : Ip) (clientId : CStr) : Bool :=
  (profileOwnerOfIp db ip).any fun owner => !strcaseeq owner clientId

/-- An offer that is another client's profile address now is withdrawn, with its session. -/
def withdrawOffer (db : ServerDb) (c : ServerClient) : ServerClient :=
  if c.pendingIpBe ≠ 0 ∧ profileOfOther db c.pendingIpBe c.clientId then
    { c with pendingIpBe := 0, next := .wiped }
  else c

def revalidateAddress (i : Fin n) (s : Server n) : Server n :=
  let c := s.clients i
  if !c.active || !c.registered then s
  else
    let s := s.setClient i (withdrawOffer s.conf.db c)
    if !profileOfOther s.conf.db c.ipBe c.clientId || (!c.autoClient && c.clientId == []) then s
    else serverDropEntry s i

def serverRevalidateProfileAddresses (s : Server n) : Server n := forSlots revalidateAddress s

/-! ## Loops over the slots -/

/-- A loop body that treats each slot by itself: it leaves the other entries and the configuration
alone. -/
structure SlotWise (f : Fin n → Server n → Server n) : Prop where
  other : ∀ i s j, j ≠ i → (f i s).clients j = s.clients j
  conf : ∀ i s, (f i s).conf = s.conf
  now : ∀ i s, (f i s).now = s.now

section Loop

variable {f : Fin n → Server n → Server n}

theorem forSlots_conf (hf : SlotWise f) (s : Server n) : (forSlots f s).conf = s.conf :=
  forSlots_induction (I := fun t => t.conf = s.conf) (fun i t ht => (hf.conf i t).trans ht) rfl

theorem forSlots_now (hf : SlotWise f) (s : Server n) : (forSlots f s).now = s.now :=
  forSlots_induction (I := fun t => t.now = s.now) (fun i t ht => (hf.now i t).trans ht) rfl

theorem forSlots_entry (hf : SlotWise f) {R : ServerClient → ServerClient → Prop} {s : Server n}
    (i : Fin n) (hR : ∀ t : Server n, t.conf = s.conf → t.now = s.now →
      t.clients i = s.clients i → R (s.clients i) ((f i t).clients i)) :
    R (s.clients i) ((forSlots f s).clients i) := by
  refine forSlots_visit (f := f) (A := fun t => R (s.clients i) (t.clients i))
    (B := fun t => t.conf = s.conf ∧ t.now = s.now ∧ t.clients i = s.clients i) i ?_ ?_ ?_
    ⟨rfl, rfl, rfl⟩
  · rintro j t hj ⟨hconf, hnow, hi⟩
    exact ⟨(hf.conf j t).trans hconf, (hf.now j t).trans hnow,
      (hf.other j t i (Ne.symm hj)).trans hi⟩
  · rintro t ⟨hconf, hnow, hi⟩
    exact hR t hconf hnow hi
  · intro j t hj ht
    rwa [hf.other j t i (Ne.symm hj)]

theorem serverExpireClient_slotWise (grow : Fin n → Grow) : SlotWise (serverExpireClient grow) where
  other i s j hj := by
    unfold serverExpireClient
    dsimp only
    split
    · rfl
    · split
      · rw [serverEndClient_of_ne _ _ _ hj, Server.setClient_of_ne _ _ _ hj]
      · rw [Server.setClient_of_ne _ _ _ hj]
  conf i s := by
    unfold serverExpireClient
    dsimp only
    split
    · rfl
    · split <;> rfl
  now i s := by
    unfold serverExpireClient
    dsimp only
    split
    · rfl
    · split <;> rfl

theorem revalidateKey_slotWise (grow : Fin n → Grow) : SlotWise (revalidateKey grow) where
  other i s j hj := by
    unfold revalidateKey
    dsimp only
    split
    · rfl
    · exact serverEndClient_of_ne _ _ _ hj
  conf i s := by unfold revalidateKey; dsimp only; split <;> rfl
  now i s := by unfold revalidateKey; dsimp only; split <;> rfl

theorem revalidateUnknown_slotWise (grow : Fin n → Grow) : SlotWise (revalidateUnknown grow) where
  other i s j hj := by
    unfold revalidateUnknown
    dsimp only
    split
    · rfl
    · exact serverEndClient_of_ne _ _ _ hj
  conf i s := by unfold revalidateUnknown; dsimp only; split <;> rfl
  now i s := by unfold revalidateUnknown; dsimp only; split <;> rfl

theorem revalidateAddress_slotWise : SlotWise (revalidateAddress (n := n)) where
  other i s j hj := by
    unfold revalidateAddress
    dsimp only
    split
    · rfl
    · split
      · exact Server.setClient_of_ne _ _ _ hj
      · rw [serverDropEntry_of_ne _ _ hj, Server.setClient_of_ne _ _ _ hj]
  conf i s := by
    unfold revalidateAddress
    dsimp only
    split
    · rfl
    · split <;> rfl
  now i s := by
    unfold revalidateAddress
    dsimp only
    split
    · rfl
    · split <;> rfl

end Loop

/-! ## What becomes of an entry -/

/-- An expiry pass leaves an entry without the sessions that ran out, or ends it. -/
inductive Aged (now : Time) (c : ServerClient) : ServerClient → Prop
  | inactive (h : c.active = false) : Aged now c c
  | kept (h : c.active = true) : Aged now c (expireSessions c now)
  | ended (h : c.active = true) : Aged now c .wiped

theorem serverExpireClients_entry (grow : Fin n → Grow) (s : Server n) (i : Fin n) :
    (serverExpireClients grow s).clients i = s.clients i ∨
      Aged s.now (s.clients i) ((serverExpireClients grow s).clients i) := by
  unfold serverExpireClients
  split
  · exact Or.inl rfl
  · right
    refine forSlots_entry (serverExpireClient_slotWise grow) (R := Aged s.now)
      (s := { s with lastExpireCheck := s.now }) i fun t hconf hnow hi => ?_
    unfold serverExpireClient
    dsimp only
    split
    · rename_i h
      rw [hi] at h ⊢
      exact .inactive (by simpa using h)
    · rename_i h
      rw [hi] at h
      split
      · rw [serverEndClient_self]
        exact .ended (by simpa using h)
      · rw [Server.setClient_self, hi, hnow]
        exact .kept (by simpa using h)

end Camex
