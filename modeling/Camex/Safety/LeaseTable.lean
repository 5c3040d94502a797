import Camex.Concrete
import Camex.Server.LeaseIndex

/-!
# The lease table

`leaseMachine` is the lease table with its indexes, taking adds and drops in any order with any answers of the
allocator.

* `LeaseTable.Counted`, `LeaseTable.AddressesDistinct`, `LeaseTable.IdsDistinct`: what both operations keep;
* `serverLeaseAdd_removes`: why an add removes a lease that is still young;
* `leaseTable_right`: all of it in every state that the machine reaches.
-/

namespace Camex

open Lib

def LeaseTable.Counted (ls : LeaseTable) : Prop := ls.used = ls.slots.countP fun l => l.ipBe != 0

def LeaseTable.IdsDistinct (ls : LeaseTable) : Prop :=
  ∀ j k, (ls.at j).ipBe ≠ 0 → (ls.at k).ipBe ≠ 0 → (ls.at j).prev = false → (ls.at k).prev = false →
    strcaseeq (ls.at j).id (ls.at k).id = true → j = k

/-- No row is free and the table does not grow: it has the size of the pool, or there is no memory. -/
def LeaseTable.Stuck (ls : LeaseTable) (op : LeaseAdd) : Prop :=
  ls.used = ls.cap ∧
    (op.grow = false ∨ min (ls.cap * 2) (min (poolSize op.conf.db).toNat SERVER_LEASE_MAX) ≤ ls.cap)

/-! ## The counter -/

theorem countP_set_add {α : Type} {p : α → Bool} {l : List α} {i : ℕ} {a : α} (h : i < l.length) :
    (l.set i a).countP p + (if p l[i] then 1 else 0) = l.countP p + if p a then 1 else 0 := by
  rw [List.countP_set h]
  cases hi : p l[i] with
  | false =>
    rw [if_neg Bool.false_ne_true]
    omega
  | true =>
    have hpos : 0 < l.countP p := List.countP_pos_iff.mpr ⟨l[i], List.getElem_mem h, hi⟩
    rw [if_pos rfl]
    omega

theorem LeaseTable.at_eq {ls : LeaseTable} {k : ℕ} (hk : k < ls.slots.length) : ls.at k = ls.slots[k] := by
  rw [LeaseTable.at, List.getD_eq_getElem?_getD, List.getElem?_eq_getElem hk, Option.getD_some]

/-- A row that is written changes the number of leases by what was there and what is. -/
theorem LeaseTable.countP_set (ls : LeaseTable) {k : ℕ} (hk : k < ls.cap) (l : ServerLease) :
    (ls.slots.set k l).countP (fun l => l.ipBe != 0) + (if (ls.at k).ipBe != 0 then 1 else 0) =
      ls.slots.countP (fun l => l.ipBe != 0) + if l.ipBe != 0 then 1 else 0 := by
  have hk' : k < ls.slots.length := hk
  rw [LeaseTable.at_eq hk']
  exact countP_set_add hk'

theorem LeaseTable.Counted.drop {ls : LeaseTable} (h : ls.Counted) (o : Option ℕ) : (serverLeaseDrop ls o).Counted := by
  unfold serverLeaseDrop
  cases o with
  | none => exact h
  | some k =>
    dsimp only
    split
    · exact h
    · rename_i hk
      have hset := ls.countP_set (LeaseTable.lt_cap hk) .unused
      rw [if_pos (bne_iff_ne.mpr hk), if_neg (by decide)] at hset
      unfold LeaseTable.Counted at h ⊢
      dsimp only
      omega

theorem LeaseTable.Counted.replaced {ls : LeaseTable} (h : ls.Counted) (clientId : CStr) (ip : Ip) (prev : Bool) :
    (leaseReplaced ls clientId ip prev).Counted := by
  unfold leaseReplaced
  refine LeaseTable.Counted.drop ?_ _
  split
  · exact h
  · exact h.drop _

/-- The table that the row of a new lease is in has the rows of the old one, and free ones behind. -/
theorem leaseTarget_slots (conf : Conf) (now : Time) (grow : Bool) (ls : LeaseTable) :
    ∃ more, (leaseTarget conf now grow ls).1.slots = ls.slots ++ List.replicate more .unused ∧
      (leaseTarget conf now grow ls).1.used = ls.used := by
  unfold leaseTarget
  cases leaseFree ls with
  | none =>
    dsimp only
    split
    · split
      · exact ⟨_, rfl, rfl⟩
      · exact ⟨0, by simp, rfl⟩
    · exact ⟨0, by simp, rfl⟩
  | some k =>
    dsimp only
    split
    · split
      · exact ⟨_, rfl, rfl⟩
      · exact ⟨0, by simp, rfl⟩
    · exact ⟨0, by simp, rfl⟩

theorem LeaseTable.Counted.written {ls : LeaseTable} (h : ls.Counted) (hcap : ls.cap ≠ 0) (conf : Conf) (now : Time)
    (grow : Bool) {l : ServerLease} (hl : l.ipBe ≠ 0) : (leaseWritten conf now grow ls l).Counted := by
  obtain ⟨more, hslots, hused⟩ := leaseTarget_slots conf now grow ls
  obtain ⟨ls', k, htarget, hk, -⟩ := leaseTarget_spec conf now grow hcap
  rw [htarget] at hslots hused
  have hcount : ls'.Counted := by
    unfold LeaseTable.Counted at h ⊢
    rw [hslots, List.countP_append, hused, h, List.countP_replicate]
    rfl
  have hset := ls'.countP_set hk l
  rw [if_pos (bne_iff_ne.mpr hl)] at hset
  unfold leaseWritten
  rw [htarget]
  unfold LeaseTable.Counted at hcount ⊢
  dsimp only
  split
  · rename_i hfree
    rw [if_neg (by simpa using hfree)] at hset
    omega
  · rename_i hfree
    rw [if_pos (bne_iff_ne.mpr hfree)] at hset
    omega

/-! ## IDs -/

theorem serverLeaseById_at {ls : LeaseTable} {clientId : CStr} {k : ℕ} (h : serverLeaseById ls clientId = some k) :
    (ls.at k).ipBe ≠ 0 ∧ (ls.at k).prev = false ∧ strcaseeq (ls.at k).id clientId = true := by
  unfold serverLeaseById at h
  split at h
  · cases h
  · obtain ⟨hk, hp, -⟩ := List.findIdx?_eq_some_iff_getElem.mp h
    simp only [Bool.and_eq_true, bne_iff_ne, Bool.not_eq_true'] at hp
    rw [LeaseTable.at_eq hk]
    exact ⟨hp.1.1, hp.1.2, hp.2⟩

theorem serverLeaseById_none {ls : LeaseTable} {clientId : CStr} (h : serverLeaseById ls clientId = none)
    (hid : clientId ≠ []) {k : ℕ} (hne : (ls.at k).ipBe ≠ 0) (hprev : (ls.at k).prev = false) :
    strcaseeq (ls.at k).id clientId = false := by
  unfold serverLeaseById at h
  rw [if_neg hid, List.findIdx?_eq_none_iff] at h
  have hk : k < ls.slots.length := LeaseTable.lt_cap hne
  have hnot := h ls.slots[k] (List.getElem_mem hk)
  rw [← LeaseTable.at_eq hk, hprev, bne_iff_ne.mpr hne] at hnot
  simpa using hnot

theorem LeaseTable.IdsDistinct.of_sub {ls ls' : LeaseTable} (h : ls.IdsDistinct)
    (hsub : ∀ j, (ls'.at j).ipBe ≠ 0 → ls'.at j = ls.at j) : ls'.IdsDistinct := by
  intro j k hj hk hjprev hkprev hid
  have hjat := hsub j hj
  have hkat := hsub k hk
  rw [hjat] at hj hjprev hid
  rw [hkat] at hk hkprev hid
  exact h j k hj hk hjprev hkprev hid

theorem leaseReplaced_at_of_ne {ls : LeaseTable} {clientId : CStr} {ip : Ip} {prev : Bool} {j : ℕ}
    (hne : ((leaseReplaced ls clientId ip prev).at j).ipBe ≠ 0) :
    (leaseReplaced ls clientId ip prev).at j = ls.at j := by
  rcases leaseReplaced_at ls clientId ip prev j with h | h
  · exact h
  · rw [h] at hne
    exact absurd rfl hne

/-- Behind the drop for a client's own address no lease has its ID. -/
theorem leaseReplaced_id {ls : LeaseTable} (hd : ls.IdsDistinct) {clientId : CStr} (hid : clientId ≠ []) (ip : Ip)
    {j : ℕ} (hne : ((leaseReplaced ls clientId ip false).at j).ipBe ≠ 0)
    (hprev : ((leaseReplaced ls clientId ip false).at j).prev = false) :
    strcaseeq ((leaseReplaced ls clientId ip false).at j).id clientId = false := by
  have hat := leaseReplaced_at_of_ne hne
  rw [hat] at hprev ⊢
  have hold : (ls.at j).ipBe ≠ 0 := hat ▸ hne
  cases hfind : serverLeaseById ls clientId with
  | none => exact serverLeaseById_none hfind hid hold hprev
  | some k =>
    rw [Bool.eq_false_iff]
    intro hsame
    obtain ⟨hk, hkprev, hkid⟩ := serverLeaseById_at hfind
    have hjk := hd j k hold hk hprev hkprev (strcaseeq_trans hsame (strcaseeq_symm hkid))
    subst hjk
    -- its row was dropped
    refine hne ?_
    unfold leaseReplaced
    rw [if_neg Bool.false_ne_true, hfind]
    rcases serverLeaseDrop_at (serverLeaseDrop ls (some j)) (serverLeaseByIp (serverLeaseDrop ls (some j)) ip) j
      with hdrop | ⟨-, hdrop⟩
    · rw [hdrop]
      exact serverLeaseDrop_ip ls j
    · rw [hdrop]
      rfl

/-! ## Adding -/

section Add

variable {conf : Conf} {now : Time} {grow : Bool} {ls : LeaseTable} {clientId : CStr} {ip : Ip} {prev : Bool}

theorem serverLeaseAdd_counted (h : ls.Counted) : (serverLeaseAdd conf now grow ls clientId ip prev).Counted := by
  by_cases ht : ls.cap = 0 ∨ ip = 0 ∨ clientId = []
  · rwa [serverLeaseAdd_trivial ht]
  · rw [serverLeaseAdd_eq ht]
    simp only [not_or] at ht
    exact (h.replaced clientId ip prev).written (by simpa using ht.1) conf now grow ht.2.1

theorem serverLeaseAdd_idsDistinct (hd : ls.IdsDistinct) (hfits : clientId.length < CAMEX_CLIENT_ID_LEN) :
    (serverLeaseAdd conf now grow ls clientId ip prev).IdsDistinct := by
  by_cases ht : ls.cap = 0 ∨ ip = 0 ∨ clientId = []
  · rwa [serverLeaseAdd_trivial ht]
  · rw [serverLeaseAdd_eq ht]
    simp only [not_or] at ht
    obtain ⟨-, hat⟩ := leaseWritten_row conf now grow (show (leaseReplaced ls clientId ip prev).cap ≠ 0 by simpa using ht.1)
      ⟨store CAMEX_CLIENT_ID_LEN clientId, ip, now, prev⟩
    have hold : (leaseReplaced ls clientId ip prev).IdsDistinct := hd.of_sub fun j hj => leaseReplaced_at_of_ne hj
    -- another lease of the same ID next to the new one
    have hnew : ∀ j, prev = false → ((leaseReplaced ls clientId ip prev).at j).ipBe ≠ 0 →
        ((leaseReplaced ls clientId ip prev).at j).prev = false →
        strcaseeq ((leaseReplaced ls clientId ip prev).at j).id clientId = false := by
      rintro j rfl hne hprev
      exact leaseReplaced_id hd ht.2.2 ip hne hprev
    intro j k hj hk hjprev hkprev hid
    rw [hat j] at hj hjprev hid
    rw [hat k] at hk hkprev hid
    rw [store_of_lt hfits] at hj hk hjprev hkprev hid
    split at hid
    · rename_i hjrow
      rw [if_pos hjrow] at hjprev
      split at hid
      · rename_i hkrow
        rw [hjrow, hkrow]
      · rename_i hkrow
        rw [if_neg hkrow] at hk hkprev
        rw [strcaseeq_comm, hnew k hjprev hk hkprev] at hid
        cases hid
    · rename_i hjrow
      rw [if_neg hjrow] at hj hjprev
      split at hid
      · rename_i hkrow
        rw [if_pos hkrow] at hkprev
        rw [hnew j hkprev hj hjprev] at hid
        cases hid
      · rename_i hkrow
        rw [if_neg hkrow] at hk hkprev
        exact hold j k hj hk hjprev hkprev hid

end Add

/-! ## What an add removes -/

theorem LeaseTable.Counted.used_le {ls : LeaseTable} (h : ls.Counted) : ls.used ≤ ls.cap := by
  rw [h]
  exact List.countP_le_length

/-- When no free row is found, none is. -/
theorem LeaseTable.Counted.full {ls : LeaseTable} (h : ls.Counted) (hfree : leaseFree ls = none) : ls.used = ls.cap := by
  by_contra hne
  have hlt : ls.used < ls.cap := lt_of_le_of_ne h.used_le hne
  unfold leaseFree at hfree
  rw [if_pos hlt, List.find?_eq_none] at hfree
  have hall : ∀ l ∈ ls.slots, (l.ipBe != 0) = true := by
    intro l hl
    obtain ⟨k, hk, rfl⟩ := List.mem_iff_getElem.mp hl
    have hk' : k < ls.cap := hk
    -- the row is the cursor's and so many further on
    have hmem : k ∈ (List.range ls.cap).map fun i => (ls.next + i) % ls.cap := by
      refine List.mem_map.mpr ⟨(k + (ls.cap - ls.next % ls.cap)) % ls.cap,
        List.mem_range.mpr (Nat.mod_lt _ (by omega)), ?_⟩
      have hnext := Nat.mod_lt ls.next (by omega : 0 < ls.cap)
      rw [Nat.add_mod, Nat.mod_mod, ← Nat.add_mod, ← Nat.mod_add_mod,
        show ls.next % ls.cap + (k + (ls.cap - ls.next % ls.cap)) = k + ls.cap by omega, Nat.add_mod_right,
        Nat.mod_eq_of_lt hk']
    have hnot := hfree k hmem
    rw [LeaseTable.at_eq hk] at hnot
    simpa using hnot
  refine hne ?_
  rw [h]
  exact List.countP_eq_length.mpr hall

/-- The row of a new lease holds a young one only when no row was free and the table did not grow. -/
theorem leaseTarget_young {conf : Conf} {now : Time} {grow : Bool} {ls : LeaseTable}
    (hne : (ls.at (leaseTarget conf now grow ls).2).ipBe ≠ 0)
    (hyoung : now - (ls.at (leaseTarget conf now grow ls).2).since < serverLeaseMin conf) :
    leaseFree ls = none ∧ (grow = false ∨ min (ls.cap * 2) (min (poolSize conf.db).toNat SERVER_LEASE_MAX) ≤ ls.cap) := by
  unfold leaseTarget at hne hyoung
  cases hfree : leaseFree ls with
  | some k =>
    have hk := (leaseFree_some hfree).2
    rw [hfree] at hne
    have hk' : (LeaseTable.at { ls with next := (k + 1) % ls.cap } k).ipBe = 0 := hk
    dsimp only at hne
    rw [if_neg fun h => h.1 hk'] at hne
    exact absurd hk hne
  | none =>
    rw [hfree] at hne hyoung
    dsimp only at hne hyoung
    refine ⟨rfl, ?_⟩
    by_cases hgrow : ls.cap < min (ls.cap * 2) (min (poolSize conf.db).toNat SERVER_LEASE_MAX) ∧ grow = true
    · split at hne
      · exact absurd (congrArg ServerLease.ipBe (LeaseTable.at_of_cap_le (le_refl ls.cap))) hne
      · rename_i hold
        rw [if_neg hold] at hyoung
        exact absurd ⟨hne, hyoung⟩ hold
    · rcases not_and_or.mp hgrow with h | h
      · exact Or.inr (not_lt.mp h)
      · exact Or.inl (by simpa using h)

theorem serverLeaseDrop_used (ls : LeaseTable) (o : Option ℕ) : (serverLeaseDrop ls o).used ≤ ls.used := by
  unfold serverLeaseDrop
  split
  · exact le_rfl
  · split
    · exact le_rfl
    · exact Nat.sub_le _ _

theorem leaseReplaced_used (ls : LeaseTable) (clientId : CStr) (ip : Ip) (prev : Bool) :
    (leaseReplaced ls clientId ip prev).used ≤ ls.used := by
  unfold leaseReplaced
  cases prev with
  | true => exact serverLeaseDrop_used _ _
  | false => exact (serverLeaseDrop_used _ _).trans (serverLeaseDrop_used _ _)

/-- A lease of another address that is not the ID's own is not replaced. -/
theorem leaseReplaced_kept {ls : LeaseTable} {clientId : CStr} {ip : Ip} {prev : Bool} {j : ℕ}
    (hip : (ls.at j).ipBe ≠ ip)
    (hid : prev = true ∨ (ls.at j).prev = true ∨ strcaseeq (ls.at j).id clientId = false) :
    (leaseReplaced ls clientId ip prev).at j = ls.at j := by
  have hdrop : (if prev = true then ls else serverLeaseDrop ls (serverLeaseById ls clientId)).at j = ls.at j := by
    split
    · rfl
    · rename_i hprev
      refine serverLeaseDrop_at_of_ne fun hfind => ?_
      obtain ⟨-, hnot, hsame⟩ := serverLeaseById_at hfind
      rcases hid with h | h | h
      · exact hprev h
      · rw [hnot] at h
        cases h
      · rw [hsame] at h
        cases h
  unfold leaseReplaced
  dsimp only
  rw [serverLeaseDrop_at_of_ne, hdrop]
  intro hfind
  have hat := (serverLeaseByIp_some hfind).2
  rw [hdrop] at hat
  exact hip hat

/-- **An add removes a young lease** only for its address, for its ID, or when the table is stuck. -/
theorem serverLeaseAdd_removes {ls : LeaseTable} (hc : ls.Counted) (op : LeaseAdd) {j : ℕ} (hne : (ls.at j).ipBe ≠ 0)
    (hyoung : op.now - (ls.at j).since < serverLeaseMin op.conf)
    (hgone : (serverLeaseAdd op.conf op.now op.grow ls op.clientId op.ip op.prev).at j ≠ ls.at j) :
    (ls.at j).ipBe = op.ip ∨
      (op.prev = false ∧ (ls.at j).prev = false ∧ strcaseeq (ls.at j).id op.clientId = true) ∨ ls.Stuck op := by
  by_contra hnot
  rw [not_or, not_or] at hnot
  obtain ⟨hip, hid, hstuck⟩ := hnot
  have hid : op.prev = true ∨ (ls.at j).prev = true ∨ strcaseeq (ls.at j).id op.clientId = false := by
    by_contra h
    simp only [not_or, Bool.not_eq_true, Bool.not_eq_false] at h
    exact hid ⟨h.1, h.2.1, h.2.2⟩
  by_cases ht : ls.cap = 0 ∨ op.ip = 0 ∨ op.clientId = []
  · exact hgone (by rw [serverLeaseAdd_trivial ht])
  · rw [serverLeaseAdd_eq ht] at hgone
    rw [not_or] at ht
    have hkept := leaseReplaced_kept hip hid
    have hcap : (leaseReplaced ls op.clientId op.ip op.prev).cap ≠ 0 := by simpa using ht.1
    obtain ⟨-, hat⟩ := leaseWritten_row op.conf op.now op.grow hcap
      ⟨store CAMEX_CLIENT_ID_LEN op.clientId, op.ip, op.now, op.prev⟩
    rw [hat j] at hgone
    split at hgone
    · rename_i hj
      rw [hj] at hkept hne hyoung
      obtain ⟨hfree, hgrow⟩ := leaseTarget_young (by rw [hkept]; exact hne) (by rw [hkept]; exact hyoung)
      have hfull := (hc.replaced op.clientId op.ip op.prev).full hfree
      have hused := leaseReplaced_used ls op.clientId op.ip op.prev
      have hle := hc.used_le
      rw [leaseReplaced_cap] at hfull hgrow
      exact hstuck ⟨by omega, hgrow⟩
    · exact hgone hkept

/-! ## The machine -/

/-- A call on the lease table. -/
inductive LeaseOp
  | add (op : LeaseAdd)
  | dropById (clientId : CStr)
  | dropByIp (ip : Ip)

def IndexedLeases.apply (t : IndexedLeases) : LeaseOp → IndexedLeases
  | .add op => t.add op
  | .dropById clientId => t.drop (t.byId clientId)
  | .dropByIp ip => t.drop (t.byIp ip)

/-- The table from `server_clients_init` on. -/
def leaseMachine : Machine IndexedLeases LeaseOp where
  start t := ∃ slots mem, t = .init slots mem
  next t o := some (t.apply o)

/-- The invariant of the lease table. -/
structure LeasesOk (t : IndexedLeases) : Prop where
  indexed : LeasesIndexed t
  counted : t.table.Counted
  addresses : t.table.AddressesDistinct
  ids : t.table.IdsDistinct

theorem LeasesOk.init (slots : Option ℕ) (mem : LeaseRebuildMem) : LeasesOk (.init slots mem) := by
  have htable : (IndexedLeases.init slots mem).table = ⟨List.replicate (slots.getD 0) .unused, 0, 0, 0⟩ :=
    IndexedLeases.rebuild_table _ _
  have hfree : ∀ k, ((IndexedLeases.init slots mem).table.at k).ipBe = 0 := by
    intro k
    rw [htable, LeaseTable.at, List.getD_eq_getElem?_getD, List.getElem?_replicate]
    split
    · rfl
    · rfl
  refine ⟨.rebuild .none mem, ?_, fun j k _ hj => absurd (hfree j) hj, fun j k hj => absurd (hfree j) hj⟩
  unfold LeaseTable.Counted
  rw [htable, List.countP_replicate]
  rfl

theorem LeasesOk.drop {t : IndexedLeases} (h : LeasesOk t) (o : Option ℕ) : LeasesOk (t.drop o) := by
  refine ⟨h.indexed.drop o, h.counted.drop o, serverLeaseDrop_addressesDistinct h.addresses o,
    h.ids.of_sub fun j hj => ?_⟩
  rcases serverLeaseDrop_at t.table o j with hat | ⟨-, hat⟩
  · exact hat
  · have hj : ((serverLeaseDrop t.table o).at j).ipBe ≠ 0 := hj
    rw [hat] at hj
    exact absurd rfl hj

theorem LeasesOk.add {t : IndexedLeases} (h : LeasesOk t) (op : LeaseAdd) : LeasesOk (t.add op) := by
  obtain ⟨hindexed, htable⟩ := h.indexed.add op
  refine ⟨hindexed, ?_, ?_, ?_⟩
  · rw [htable]
    exact serverLeaseAdd_counted h.counted
  · rw [htable]
    exact serverLeaseAdd_addressesDistinct h.addresses
  · rw [htable]
    exact serverLeaseAdd_idsDistinct h.ids op.fits

theorem leasesOk_reachable {t : IndexedLeases} (h : leaseMachine.Reachable t) : LeasesOk t := by
  refine h.invariant (I := LeasesOk) ?_ fun t o t' ht _ hnext => ?_
  · rintro _ ⟨slots, mem, rfl⟩
    exact .init slots mem
  · rw [← Option.some.inj hnext]
    cases o with
    | add op => exact ht.add op
    | dropById clientId => exact ht.drop _
    | dropByIp ip => exact ht.drop _

/-- What holds of the lease table at any time. -/
structure LeaseTableRight (t : IndexedLeases) : Prop where
  used : t.table.used = t.table.slots.countP fun l => l.ipBe != 0
  addresses : ∀ j k, (t.table.at j).ipBe = (t.table.at k).ipBe → (t.table.at j).ipBe ≠ 0 → j = k
  ids : ∀ j k, (t.table.at j).ipBe ≠ 0 → (t.table.at k).ipBe ≠ 0 → (t.table.at j).prev = false →
    (t.table.at k).prev = false → strcaseeq (t.table.at j).id (t.table.at k).id = true → j = k
  byIp : ∀ ip, t.byIp ip = serverLeaseByIp t.table ip
  byId : ∀ clientId, t.byId clientId = serverLeaseById t.table clientId
  added : ∀ op : LeaseAdd, t.table.cap ≠ 0 → op.ip ≠ 0 → op.clientId ≠ [] → op.lease ∈ (t.add op).table.slots
  removes : ∀ (op : LeaseAdd) (j : ℕ), (t.table.at j).ipBe ≠ 0 →
    op.now - (t.table.at j).since < serverLeaseMin op.conf → (t.add op).table.at j ≠ t.table.at j →
    (t.table.at j).ipBe = op.ip ∨ (op.prev = false ∧ (t.table.at j).prev = false ∧
      strcaseeq (t.table.at j).id op.clientId = true) ∨ t.table.Stuck op

/-- **The lease table is right** after any calls. -/
theorem leaseTable_right {t : IndexedLeases} (h : leaseMachine.Reachable t) : LeaseTableRight t := by
  have hok := leasesOk_reachable h
  refine ⟨hok.counted, hok.addresses, hok.ids, hok.indexed.byIp, hok.indexed.byId, fun op hcap hip hid => ?_,
    fun op j hne hyoung hgone => ?_⟩
  · rw [(hok.indexed.add op).2, serverLeaseAdd_eq (not_or.mpr ⟨hcap, not_or.mpr ⟨hip, hid⟩⟩),
      store_of_lt op.fits]
    obtain ⟨hk, hat⟩ := leaseWritten_row op.conf op.now op.grow
      (show (leaseReplaced t.table op.clientId op.ip op.prev).cap ≠ 0 by simpa using hcap) op.lease
    have hself := hat (leaseTarget op.conf op.now op.grow (leaseReplaced t.table op.clientId op.ip op.prev)).2
    rw [if_pos rfl, LeaseTable.at_eq hk] at hself
    have hmem := List.getElem_mem hk
    rw [hself] at hmem
    exact hmem
  · rw [(hok.indexed.add op).2] at hgone
    exact serverLeaseAdd_removes hok.counted op hne hyoung hgone

/-- An add under an ID, with memory for everything. -/
def toyLease (clientId : CStr) (ip : Ip) (now : Time) (fits : clientId.length < CAMEX_CLIENT_ID_LEN) : LeaseAdd where
  conf := (toyServer 1 .udp toyDb).conf
  now := now
  clientId := clientId
  ip := ip
  prev := false
  fits := fits
  grow := true
  insertIp := true
  insertId := true
  rebuild := ⟨true, true, fun _ => (true, true)⟩

/-- The second of two leases takes a row that the table grows by. -/
theorem leaseTable_right_grown : ∃ t, LeaseTableRight t ∧ t.table.cap = 2 ∧ t.byId (ascii "a") = some 0 ∧
    t.byIp 6 = some 1 := by
  obtain ⟨t, ht, hp⟩ := Machine.runUnder_reachable (M := leaseMachine) (C := fun _ _ => True)
    (s := .init (some 1) ⟨true, true, fun _ => (true, true)⟩)
    (l := [.add (toyLease (ascii "A") 5 100 (by decide)), .add (toyLease (ascii "b") 6 101 (by decide))])
    (p := fun t => t.table.cap == 2 && (t.byId (ascii "a") == some 0 && t.byIp 6 == some 1))
    ⟨_, _, rfl⟩ (by decide +kernel)
  simp only [Bool.and_eq_true, beq_iff_eq] at hp
  exact ⟨t, leaseTable_right ht, hp⟩

end Camex
